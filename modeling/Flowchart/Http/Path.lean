import Flowchart.Http.Encoding
import Flowchart.Json.Reader
import Flowchart.Text.Line

/-!
Paths of requests, which write bytes of their text as a percent sign and two hexadecimal digits.
-/
namespace Flowchart.Http

/-- The bytes that a percent-encoded text stands for. A percent sign without two hexadecimal digits
stands for itself. -/
def percentBytes : List Char → List UInt8
  | [] => []
  | '%' :: a :: b :: rest =>
    match Json.hexValue? a, Json.hexValue? b with
    | some high, some low => UInt8.ofNat (16 * high + low) :: percentBytes rest
    | _, _ => UInt8.ofNat '%'.toNat :: percentBytes (a :: b :: rest)
  | c :: rest => String.utf8EncodeChar c ++ percentBytes rest

def decodePercent (s : List Char) : List Char :=
  Text.ofChars (chars (percentBytes (Text.toChars s)))

/-- The segments of a path that starts with a slash. -/
def segments? (path : List Char) : Option (List String) :=
  match path with
  | '/' :: rest => some ((Text.splitAtChar '/' rest).map String.ofList)
  | _ => none

end Flowchart.Http
