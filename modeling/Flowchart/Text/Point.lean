/-!
Code points of a text. Besides characters a text can hold halves of a surrogate pair, which are no
characters: escapes and bytes can spell them alone. Such a half is kept as two characters, a mark and a
stand-in, and the mark itself is kept twice, so that no text is mistaken for another one. The main
statement says that the points of a text are those that it was made of.
-/
namespace Flowchart.Text

def isHighHalf (n : Nat) : Bool := 0xD800 ≤ n && n ≤ 0xDBFF

def isLowHalf (n : Nat) : Bool := 0xDC00 ≤ n && n ≤ 0xDFFF

/-- The point is half a surrogate pair. -/
def isHalf (n : Nat) : Bool := 0xD800 ≤ n && n ≤ 0xDFFF

/-- The point that two halves spell together. -/
def joinHalves (high low : Nat) : Nat :=
  0x10000 + (high - 0xD800) * 0x400 + (low - 0xDC00)

/-- Stands before the character that says which half is meant. -/
def halfMark : Char := Char.ofNat 0x7FFFE

/-- How far the character that says a half lies above it. -/
def halfDistance : Nat := 0x70000

def ofPoint (n : Nat) : List Char :=
  if isHalf n then [halfMark, Char.ofNat (n + halfDistance)]
  else if n = halfMark.toNat then [halfMark, halfMark]
  else [Char.ofNat n]

def ofPoints (points : List Nat) : List Char :=
  points.flatMap ofPoint

/-- The points of a text. -/
def points : List Char → List Nat
  | [] => []
  | [c] => [c.toNat]
  | c :: d :: rest =>
    if c = halfMark then (if d = halfMark then d.toNat else d.toNat - halfDistance) :: points rest
    else c.toNat :: points (d :: rest)

/-- The points that code units of sixteen bits spell. A high half and a low one after it are one. -/
def pointsOfUnits : List Nat → List Nat
  | high :: low :: rest =>
    if isHighHalf high && isLowHalf low then joinHalves high low :: pointsOfUnits rest
    else high :: pointsOfUnits (low :: rest)
  | units => units

def ofChars (s : List Char) : List Char :=
  s.flatMap fun c => ofPoint c.toNat

/-- The characters of a text, with the replacement character for every half. -/
def toChars (s : List Char) : List Char :=
  (points s).map fun n => if isHalf n then '\ufffd' else Char.ofNat n

/-- The text of a string whose characters all stand for themselves. -/
def ofPlain (s : String) : String :=
  String.ofList (ofChars s.toList)

def toPlain (s : String) : String :=
  String.ofList (toChars s.toList)

/-- No point of the text is half a pair. -/
def isWhole (s : List Char) : Bool :=
  (points s).all (!isHalf ·)

def byteSize (s : String) : Nat :=
  (toPlain s).utf8ByteSize

theorem toNat_ofNat {n : Nat} (h : n.isValidChar) : (Char.ofNat n).toNat = n := by
  rw [Char.ofNat, dif_pos h]
  rfl

theorem halfMark_toNat : halfMark.toNat = 0x7FFFE := by decide

theorem points_cons_of_ne {c : Char} (h : c ≠ halfMark) (s : List Char) :
    points (c :: s) = c.toNat :: points s := by
  cases s <;> simp [points, h]

/-- A text read back gives the points that it was made of. -/
theorem points_ofPoint_append {n : Nat} (h : isHalf n ∨ n.isValidChar) (s : List Char) :
    points (ofPoint n ++ s) = n :: points s := by
  by_cases half : isHalf n
  · have bounds : 0xD800 ≤ n ∧ n ≤ 0xDFFF := by simpa [isHalf] using half
    have valid : (n + halfDistance).isValidChar := by simp only [Nat.isValidChar, halfDistance]; omega
    have other : Char.ofNat (n + halfDistance) ≠ halfMark := fun same => by
      have equal : n + halfDistance = 0x7FFFE := by
        rw [← toNat_ofNat valid, same, halfMark_toNat]
      simp only [halfDistance] at equal
      omega
    simp [ofPoint, half, points, other, toNat_ofNat valid]
  · have valid : n.isValidChar := h.resolve_left half
    by_cases mark : n = halfMark.toNat
    · rw [ofPoint, if_neg half, if_pos mark, mark]
      simp [points]
    · have other : Char.ofNat n ≠ halfMark := fun same => mark (by rw [← same, toNat_ofNat valid])
      simp [ofPoint, half, mark, points_cons_of_ne other, toNat_ofNat valid]

theorem points_ofPoints {ns : List Nat} (h : ∀ n ∈ ns, isHalf n ∨ n.isValidChar) :
    points (ofPoints ns) = ns := by
  induction ns with
  | nil => rfl
  | cons n ns ih =>
    simp only [List.mem_cons, forall_eq_or_imp] at h
    rw [ofPoints, List.flatMap_cons, points_ofPoint_append h.1]
    exact congrArg (n :: ·) (ih h.2)

end Flowchart.Text
