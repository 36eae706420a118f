import Flowchart.Http.Path
import Flowchart.Text.Quoted

/-!
Addresses of requests: a path, and perhaps a query and a fragment. An address is brought into its
normal form before it is used: steps to the same or to the upper level are taken, and characters that
have no place in an address are percent-encoded.
-/
namespace Flowchart.Http

structure Address where
  path : List Char
  query : Option (List Char)
  fragment : Option (List Char)
deriving DecidableEq

namespace Address

def greatestLength : Nat := 65536

/-- Control characters have no place in an address, not even encoded. -/
def isForbidden (c : Char) : Bool :=
  c.toNat < 32 || c.toNat == 127

/-- What an address says, without its normal form. The query starts at the first question mark before
the fragment, which starts at the first number sign. -/
def split (s : List Char) : Address :=
  let beforeFragment := s.takeWhile (· != '#')
  { path := beforeFragment.takeWhile (· != '?')
    query :=
      match beforeFragment.dropWhile (· != '?') with
      | _ :: query => some query
      | [] => none
    fragment :=
      match s.dropWhile (· != '#') with
      | _ :: fragment => some fragment
      | [] => none }

/-- Takes the steps of a path: a point stays where it is, and two points go up, but not above the
top. What has been passed comes last first. -/
def walk (passed : List (List Char)) : List (List Char) → List (List Char)
  | [] => passed.reverse
  | ['.'] :: rest => walk passed rest
  | ['.', '.'] :: rest =>
    match passed with
    | [] => walk [] rest
    | [[]] => walk [[]] rest
    | _ :: upper => walk upper rest
  | step :: rest => walk (step :: passed) rest

def resolve (path : List Char) : List Char :=
  Text.joinWith ['/'] (walk [] (Text.splitAtChar '/' path))

def encodeByte (byte : UInt8) : List Char :=
  '%' :: (Text.hexDigits 2 byte.toNat).map Char.toUpper

def encodeChar (c : Char) : List Char :=
  (String.utf8EncodeChar c).flatMap encodeByte

/-- The characters that are encoded wherever they occur: blanks, quotes, angle brackets, and all
beyond seven bits. -/
def isUnsafe (c : Char) : Bool :=
  c.toNat ≤ 32 || 127 ≤ c.toNat || c == Text.doubleQuote || c == '<' || c == '>'

def encodePath (s : List Char) : List Char :=
  s.flatMap fun c =>
    if isUnsafe c || c == '#' || c == '?' || c == '\x60' || c == '\x7b' || c == '\x7d' then
      encodeChar c
    else [c]

def encodeQuery (s : List Char) : List Char :=
  s.flatMap fun c => if isUnsafe c || c == '#' then encodeChar c else [c]

def encodeFragment (s : List Char) : List Char :=
  s.flatMap fun c => if isUnsafe c || c == '\x60' then encodeChar c else [c]

def normal (a : Address) : Address :=
  { path := encodePath (resolve a.path)
    query := a.query.map encodeQuery
    fragment := a.fragment.map encodeFragment }

def read? (origin : String) (s : List Char) : Option Address :=
  let chars := Text.toChars s
  if greatestLength < origin.length + chars.length || chars.any isForbidden then none
  else some (split chars).normal

def text (a : Address) : List Char :=
  a.path ++ part '?' a.query ++ part '#' a.fragment
where
  part (mark : Char) : Option (List Char) → List Char
    | some s => mark :: s
    | none => []

end Address
end Flowchart.Http
