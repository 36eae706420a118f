import Flowchart.Text.Mark
import Flowchart.Text.Printable

/-!
Quoted texts: one quotation mark on both sides, with escapes for the mark itself, for the backslash
and for everything that cannot be printed.
-/
namespace Flowchart.Text

/-- The last digits of a number in base sixteen, as many as asked for. -/
def hexDigits : Nat → Nat → List Char
  | 0, _ => []
  | count + 1, n => hexDigits count (n / 16) ++ [Nat.digitChar (n % 16)]

def quotedPoint (mark : Char) (n : Nat) : List Char :=
  if n = mark.toNat ∨ n = backslash.toNat then [backslash, Char.ofNat n]
  else if n = '\n'.toNat then [backslash, 'n']
  else if n = '\r'.toNat then [backslash, 'r']
  else if n = '\t'.toNat then [backslash, 't']
  else if isPrintable n then ofPoint n
  else if n < 0x100 then backslash :: 'x' :: hexDigits 2 n
  else if n < 0x10000 then backslash :: 'u' :: hexDigits 4 n
  else backslash :: 'U' :: hexDigits 8 n

/-- Double quotes enclose a text that holds a single quote and no double one; single quotes enclose
all others. -/
def quoted (s : List Char) : List Char :=
  let mark := if s.contains singleQuote && !s.contains doubleQuote then doubleQuote else singleQuote
  mark :: (points s).flatMap (quotedPoint mark) ++ [mark]

end Flowchart.Text
