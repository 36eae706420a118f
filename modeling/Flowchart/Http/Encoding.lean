import Flowchart.Text.Point

/-!
The bytes of a message, and the texts that they spell. A JSON text may come in several encodings. A mark
in front or the zeros among the first bytes tell which one it is, since a JSON text starts with a
character of seven bits.
-/
namespace Flowchart.Http

inductive ByteOrder
  | bigEndian
  | littleEndian
deriving DecidableEq, Repr

inductive Encoding
  | utf8
  | utf16 (order : ByteOrder)
  | utf32 (order : ByteOrder)
deriving DecidableEq, Repr

namespace Encoding

def detect : List UInt8 → Encoding
  | a :: b :: c :: d :: _ =>
    if a = 0 then (if b = 0 then utf32 .bigEndian else utf16 .bigEndian)
    else if b = 0 then (if c = 0 ∧ d = 0 then utf32 .littleEndian else utf16 .littleEndian)
    else utf8
  | [a, b] =>
    if a = 0 then utf16 .bigEndian
    else if b = 0 then utf16 .littleEndian
    else utf8
  | _ => utf8

/-- The number that bytes spell, most significant first. -/
def number (bytes : List UInt8) : Nat :=
  bytes.foldl (fun n byte => 256 * n + byte.toNat) 0

def ordered (order : ByteOrder) (bytes : List UInt8) : Nat :=
  match order with
  | .bigEndian => number bytes
  | .littleEndian => number bytes.reverse

/-- The units of two bytes; nothing if a byte is left over. -/
def pairs? (order : ByteOrder) : List UInt8 → Option (List Nat)
  | [] => some []
  | a :: b :: rest => (pairs? order rest).map (ordered order [a, b] :: ·)
  | [_] => none

/-- The units of four bytes; nothing if bytes are left over. -/
def quadruples? (order : ByteOrder) : List UInt8 → Option (List Nat)
  | [] => some []
  | a :: b :: c :: d :: rest => (quadruples? order rest).map (ordered order [a, b, c, d] :: ·)
  | _ => none

def ofCodePoints? (points : List Nat) : Option (List Char) :=
  if points.all (· ≤ 0x10FFFF) then some (Text.ofPoints points) else none

/-- The encoding of the bytes of a JSON text, and the bytes after the mark in front. -/
def marked : List UInt8 → Encoding × List UInt8
  | 0xFF :: 0xFE :: 0 :: 0 :: rest => (utf32 .littleEndian, rest)
  | 0 :: 0 :: 0xFE :: 0xFF :: rest => (utf32 .bigEndian, rest)
  | 0xFF :: 0xFE :: rest => (utf16 .littleEndian, rest)
  | 0xFE :: 0xFF :: rest => (utf16 .bigEndian, rest)
  | 0xEF :: 0xBB :: 0xBF :: rest => (utf8, rest)
  | bytes => (detect bytes, bytes)

/-- The point that begins in a first byte and goes on in others, six bits in each of them; nothing if one of
them cannot be there, or if the point is not one that takes as many bytes. -/
def joinBytes? (first least count : Nat) (bytes : List UInt8) : Option Nat :=
  let tail := bytes.take count
  let n := tail.foldl (fun n byte => 64 * n + (byte.toNat - 0x80)) first
  if tail.length = count ∧ tail.all (fun byte => 0x80 ≤ byte && byte ≤ 0xBF) ∧ least ≤ n ∧
    n ≤ 0x10FFFF then some n else none

/-- The point that is spelled in front, with the number of bytes that it takes besides the first one. A half
of a surrogate pair is a point like others here. -/
def takePoint? : List UInt8 → Option (Nat × Nat)
  | [] => none
  | first :: rest =>
    if first < 0x80 then some (first.toNat, 0)
    else if first < 0xC0 then none
    else if first < 0xE0 then (joinBytes? (first.toNat - 0xC0) 0x80 1 rest).map (·, 1)
    else if first < 0xF0 then (joinBytes? (first.toNat - 0xE0) 0x800 2 rest).map (·, 2)
    else (joinBytes? (first.toNat - 0xF0) 0x10000 3 rest).map (·, 3)

/-- The points that bytes spell, where the first bytes are of a point that is known. -/
def pointsFrom? : Nat → List UInt8 → Option (List Nat)
  | _, [] => some []
  | skipped + 1, _ :: rest => pointsFrom? skipped rest
  | 0, first :: rest => do
    let (n, more) ← takePoint? (first :: rest)
    (pointsFrom? more rest).map (n :: ·)

def pointBytes (n : Nat) : List UInt8 :=
  if n < 0x80 then [UInt8.ofNat n]
  else if n < 0x800 then [UInt8.ofNat (0xC0 + n / 64), UInt8.ofNat (0x80 + n % 64)]
  else if n < 0x10000 then
    [UInt8.ofNat (0xE0 + n / 4096), UInt8.ofNat (0x80 + n / 64 % 64), UInt8.ofNat (0x80 + n % 64)]
  else
    [UInt8.ofNat (0xF0 + n / 262144), UInt8.ofNat (0x80 + n / 4096 % 64),
     UInt8.ofNat (0x80 + n / 64 % 64), UInt8.ofNat (0x80 + n % 64)]

end Encoding

/-- The least and the greatest second byte of a character, given its first. -/
def secondRange (first : UInt8) : UInt8 × UInt8 :=
  if first = 0xE0 then (0xA0, 0xBF)
  else if first = 0xED then (0x80, 0x9F)
  else if first = 0xF0 then (0x90, 0xBF)
  else if first = 0xF4 then (0x80, 0x8F)
  else (0x80, 0xBF)

/-- How many of the bytes in front belong together although they spell no character: the first one with
those after it that a character could go on with. -/
def brokenLength : List UInt8 → Nat
  | first :: second :: rest =>
    let (least, greatest) := secondRange first
    if 0xE0 ≤ first && first ≤ 0xF4 && least ≤ second && second ≤ greatest then
      match rest with
      | third :: _ => if 0xF0 ≤ first && 0x80 ≤ third && third ≤ 0xBF then 3 else 2
      | [] => 2
    else 1
  | _ => 1

/-- The characters that bytes spell. Bytes that belong together and spell none become one replacement
character. -/
def chars : List UInt8 → List Char
  | [] => []
  | first :: rest =>
    match (ByteArray.mk ((first :: rest).take 4).toArray).utf8DecodeChar? 0 with
    | some c => c :: chars (rest.drop (c.utf8Size - 1))
    | none => Char.ofNat 0xFFFD :: chars (rest.drop (brokenLength (first :: rest) - 1))
termination_by bytes => bytes.length
decreasing_by all_goals simp only [List.length_drop, List.length_cons]; omega

structure Bytes where
  list : List UInt8
deriving DecidableEq, Repr

namespace Bytes

def ofText (text : String) : Bytes :=
  ⟨(Text.points text.toList).flatMap Encoding.pointBytes⟩

/-- The text that the bytes spell, with a replacement character for what spells none. -/
def text (bytes : Bytes) : String :=
  String.ofList (Text.ofChars (chars bytes.list))

def jsonText? (bytes : Bytes) : Option (List Char) :=
  match Encoding.marked bytes.list with
  | (.utf8, rest) => (Encoding.pointsFrom? 0 rest).map Text.ofPoints
  | (.utf16 order, rest) =>
    (Encoding.pairs? order rest).map fun units => Text.ofPoints (Text.pointsOfUnits units)
  | (.utf32 order, rest) => (Encoding.quadruples? order rest).bind Encoding.ofCodePoints?

end Bytes

instance : Coe Bytes String := ⟨Bytes.text⟩

end Flowchart.Http
