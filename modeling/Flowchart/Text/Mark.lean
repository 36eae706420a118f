/-!
Punctuation marks that have a role in quoted texts.
-/
namespace Flowchart.Text

def singleQuote : Char := Char.ofNat 0x27

def doubleQuote : Char := Char.ofNat 0x22

def backslash : Char := Char.ofNat 0x5c

end Flowchart.Text
