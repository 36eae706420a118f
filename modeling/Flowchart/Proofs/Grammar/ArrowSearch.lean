import Flowchart.Proofs.Grammar.ArrowBetween

/-! The search for an arrow finds one exactly if a token occurs in the line. It takes the first rule
that occurs anywhere, at its first place, and the positions that it tells are those of the arrow among
the points of the line. -/
namespace Flowchart

namespace Text

def ArePoints (ns : List Nat) : Prop :=
  ∀ n ∈ ns, isHalf n ∨ n.isValidChar

variable {ns : List Nat} {c : Char}

theorem isHalf_toNat (c : Char) : isHalf c.toNat = false := by
  have hvalid : c.toNat.isValidChar := c.valid
  simp only [Nat.isValidChar] at hvalid
  simp only [isHalf, Bool.and_eq_false_iff, decide_eq_false_iff_not]
  omega

theorem ofPoint_toNat (hc : c.toNat < halfDistance) : ofPoint c.toNat = [c] := by
  have hmark : c.toNat ≠ halfMark.toNat := by
    rw [halfMark_toNat]
    simp only [halfDistance] at hc
    omega
  rw [ofPoint, isHalf_toNat, if_neg Bool.false_ne_true, if_neg hmark, Char.ofNat_toNat]

theorem ofPoint_cases {n : Nat} (hn : isHalf n ∨ n.isValidChar) :
    (∃ d : Char, ofPoint n = [d] ∧ d.toNat = n) ∨
      ∃ d : Char, ofPoint n = [halfMark, d] ∧ halfDistance ≤ d.toNat := by
  by_cases hhalf : isHalf n
  · have hbounds : 0xD800 ≤ n ∧ n ≤ 0xDFFF := by simpa [isHalf] using hhalf
    have hvalid : (n + halfDistance).isValidChar := by
      simp only [Nat.isValidChar, halfDistance]
      omega
    refine .inr ⟨Char.ofNat (n + halfDistance), by rw [ofPoint, if_pos hhalf], ?_⟩
    rw [toNat_ofNat hvalid]
    omega
  · have hvalid : n.isValidChar := hn.resolve_left hhalf
    by_cases hmark : n = halfMark.toNat
    · refine .inr ⟨halfMark, by rw [ofPoint, if_neg hhalf, if_pos hmark], ?_⟩
      decide
    · refine .inl ⟨Char.ofNat n, by rw [ofPoint, if_neg hhalf, if_neg hmark], ?_⟩
      exact toNat_ofNat hvalid

theorem exists_points_of_append_cons {s t : List Char} (hc : c.toNat < halfDistance)
    (hns : ArePoints ns) (h : ofPoints ns = s ++ c :: t) :
    ∃ front back, ns = front ++ c.toNat :: back ∧ ofPoints front = s ∧ ofPoints back = t := by
  induction ns generalizing s with
  | nil => simp [ofPoints] at h
  | cons n ns ih =>
    have hrest : ArePoints ns := fun m hm => hns m (List.mem_cons_of_mem _ hm)
    rw [ofPoints, List.flatMap_cons, ← ofPoints] at h
    have hgo : ∀ s', s = ofPoint n ++ s' → ofPoints ns = s' ++ c :: t →
        ∃ front back, n :: ns = front ++ c.toNat :: back ∧ ofPoints front = s ∧
          ofPoints back = t := by
      intro s' hs hns'
      obtain ⟨front, back, hsplit, hfront, hback⟩ := ih hrest hns'
      refine ⟨n :: front, back, by rw [hsplit, List.cons_append], ?_, hback⟩
      rw [ofPoints, List.flatMap_cons, ← ofPoints, hfront, hs]
    obtain ⟨d, hd, hdn⟩ | ⟨d, hd, hge⟩ := ofPoint_cases (hns n List.mem_cons_self)
    · rw [hd, List.singleton_append] at h
      cases s with
      | nil =>
        obtain ⟨rfl, hns'⟩ := List.cons.inj h
        exact ⟨[], ns, by rw [hdn, List.nil_append], rfl, hns'⟩
      | cons e s =>
        obtain ⟨rfl, hns'⟩ := List.cons.inj h
        exact hgo s (by rw [hd]; rfl) hns'
    · rw [hd] at h
      rcases s with _ | ⟨e, _ | ⟨f, s⟩⟩
      · have hmark : halfMark = c := (List.cons.inj h).1
        rw [← hmark] at hc
        exact absurd hc (by decide)
      · have hlast : d = c := (List.cons.inj (List.cons.inj h).2).1
        rw [hlast] at hge
        omega
      · simp only [List.cons_append, List.nil_append, List.cons.injEq] at h
        obtain ⟨hmark, hlast, hns'⟩ := h
        exact hgo s (by rw [hd, hmark, hlast]; rfl) hns'

theorem length_points_ofPoints (hns : ArePoints ns) : (points (ofPoints ns)).length = ns.length := by
  rw [points_ofPoints hns]

end Text

namespace Arrow

theorem exists_ends_toText (arrow : Arrow) : ∃ first inner last,
    arrow.toText = first :: (inner ++ [last]) ∧
      first.toNat < Text.halfDistance ∧ last.toNat < Text.halfDistance := by
  have htoken : ∀ kind : ArrowKind, ∃ first inner last,
      kind.token = first :: (inner ++ [last]) ∧
        first.toNat < Text.halfDistance ∧ last.toNat < Text.halfDistance := by
    intro kind
    cases kind
    · exact ⟨'-', ['-'], '>', by decide⟩
    · exact ⟨'-', ['-'], '-', by decide⟩
    · exact ⟨'-', ['.', '-'], '>', by decide⟩
    · exact ⟨'=', ['='], '>', by decide⟩
    · exact ⟨'-', ['-'], 'o', by decide⟩
    · exact ⟨'-', ['-'], 'x', by decide⟩
  obtain ⟨kind, label⟩ := arrow
  obtain ⟨first, inner, last, hkind, hfirst, hlast⟩ := htoken kind
  rcases label with _ | ⟨_ | ⟨c, label⟩⟩
  · exact ⟨first, inner, last, hkind, hfirst, hlast⟩
  · exact ⟨first, inner, last, hkind, hfirst, hlast⟩
  · refine ⟨first, inner ++ [last] ++ '|' :: c :: label, '|', ?_, hfirst, by decide⟩
    rw [toText_labelled (List.cons_ne_nil c label), hkind]
    simp

end Arrow

namespace ArrowMatch

open Arrow Text

variable {line : List Char} {found : ArrowMatch}

/-- The arrow of the first rule that occurs anywhere in the line, at the first place of this rule. -/
def IsFirst (line : List Char) (found : ArrowMatch) : Prop :=
  ∃ earlier rule later, rules = earlier ++ rule :: later ∧ rule.Occurs line found ∧
    (∀ cut, rule.Occurs line cut → found.before <+: cut.before) ∧
    ∀ other ∈ earlier, ∀ cut, ¬other.Occurs line cut

theorem find?_eq_some_iff : find? line = some found ↔ IsFirst line found := by
  rw [find?, List.findSome?_eq_some_iff]
  refine exists_congr fun earlier => exists_congr fun rule => exists_congr fun later =>
    and_congr_right fun _ => ?_
  rw [first?_eq_some_iff, and_assoc]
  simp only [first?_eq_none_iff_not_occurs]

section Labels

theorem occurs_labelled_iff {kind : ArrowKind} : (∃ cut, Rule.Occurs ⟨kind, true⟩ line cut) ↔
    ∃ label, label ≠ [] ∧ '|' ∉ label ∧ kind.token ++ '|' :: (label ++ ['|']) <:+: line := by
  constructor
  · intro h
    obtain ⟨⟨before, ⟨shownKind, shown⟩, after⟩, hadmits, hline⟩ := h
    obtain ⟨label, rfl⟩ := Option.isSome_iff_exists.mp hadmits.labelled_eq
    obtain ⟨hne, hbar⟩ := hadmits.isLabel label rfl
    have hkind : shownKind = kind := hadmits.kind_eq
    rw [toText_labelled hne, hkind] at hline
    exact ⟨label, hne, hbar, before, after, hline.symm⟩
  · intro h
    obtain ⟨label, hne, hbar, before, after, hline⟩ := h
    refine ⟨⟨before, ⟨kind, some label⟩, after⟩, ⟨rfl, rfl, by simpa using ⟨hne, hbar⟩⟩, ?_⟩
    rw [toText_labelled hne, hline]

theorem mem_earlier_of_not_labelled {earlier later : List Rule} {rule : Rule}
    (hrules : rules = earlier ++ rule :: later) (hplain : rule.labelled = false)
    (kind : ArrowKind) : ⟨kind, true⟩ ∈ earlier := by
  have horder : rules.Pairwise fun first second => second.labelled = true → first.labelled = true :=
    by decide
  have hmem : (⟨kind, true⟩ : Rule) ∈ earlier ++ rule :: later := hrules ▸ mem_rules _
  rw [hrules, List.pairwise_append, List.pairwise_cons] at horder
  rcases List.mem_append.mp hmem with hearlier | hrest
  · exact hearlier
  · rcases List.mem_cons.mp hrest with hself | hlater
    · rw [← hself] at hplain
      cases hplain
    · have hlabelled := horder.2.1.1 _ hlater rfl
      rw [hplain] at hlabelled
      cases hlabelled

theorem IsFirst.isSome_label_iff (h : IsFirst line found) : found.arrow.label.isSome ↔
    ∃ kind : ArrowKind, ∃ label, label ≠ [] ∧ '|' ∉ label ∧
      kind.token ++ '|' :: (label ++ ['|']) <:+: line := by
  obtain ⟨earlier, ⟨kind, labelled⟩, later, hrules, hoccurs, -, hnone⟩ := h
  rw [hoccurs.admits.labelled_eq]
  constructor
  · intro hlabelled
    have hlabelled : labelled = true := hlabelled
    subst hlabelled
    exact ⟨kind, occurs_labelled_iff.mp ⟨found, hoccurs⟩⟩
  · intro h
    obtain ⟨kind', hlabel⟩ := h
    obtain ⟨cut, hcut⟩ := occurs_labelled_iff.mpr hlabel
    by_contra hplain
    have hearlier := mem_earlier_of_not_labelled hrules (by simpa using hplain) kind'
    exact hnone _ hearlier cut hcut

end Labels

section Positions

theorem slices_eq {ns : List Nat} (hns : ArePoints ns)
    (h : ofPoints ns = found.before ++ found.arrow.toText ++ found.after) :
    ofPoints (ns.take found.start) = found.before ∧
      ofPoints ((ns.take found.stop).drop found.start) = found.arrow.toText ∧
      ofPoints (ns.drop found.stop) = found.after := by
  obtain ⟨first, inner, last, htext, hfirst, hlast⟩ := exists_ends_toText found.arrow
  have hline : ofPoints ns = (found.before ++ first :: inner) ++ last :: found.after := by
    rw [h, htext]
    simp
  obtain ⟨front, back, rfl, hfront, hback⟩ := exists_points_of_append_cons hlast hns hline
  have hfrontPoints : ArePoints front := fun n hn => hns n (List.mem_append_left _ hn)
  obtain ⟨before, middle, rfl, hbefore, hmiddle⟩ :=
    exists_points_of_append_cons hfirst hfrontPoints hfront
  have hbeforePoints : ArePoints before :=
    fun n hn => hfrontPoints n (List.mem_append_left _ hn)
  have hmiddlePoints : ArePoints (first.toNat :: (middle ++ [last.toNat])) := by
    intro n hn
    apply hns
    simp only [List.mem_cons, List.mem_append, List.not_mem_nil, or_false] at hn ⊢
    tauto
  have harrow : ofPoints (first.toNat :: (middle ++ [last.toNat])) = found.arrow.toText := by
    rw [htext, ← hmiddle]
    simp [ofPoints, ofPoint_toNat hfirst, ofPoint_toNat hlast]
  have hstart : found.start = before.length := by
    rw [start, ← hbefore, length_points_ofPoints hbeforePoints]
  have hstop : found.stop = before.length + (middle.length + 2) := by
    rw [stop, hstart, ← harrow, length_points_ofPoints hmiddlePoints]
    simp
  have hsplit : before ++ first.toNat :: middle ++ last.toNat :: back =
      before ++ (first.toNat :: (middle ++ [last.toNat])) ++ back := by
    simp
  rw [hsplit, hstart, hstop]
  have hlength : (before ++ (first.toNat :: (middle ++ [last.toNat]))).length =
      before.length + (middle.length + 2) := by
    simp
  rw [← hlength, List.take_left, List.drop_left, List.drop_left, List.append_assoc, List.take_left]
  exact ⟨hbefore, harrow, hback⟩

end Positions

/-- No arrow is found exactly if no token occurs. What is found is the arrow of the first rule that
occurs, at its first place; it has a label, and then one that is not empty and holds no bar, exactly if
somewhere in the line a token and such a label between bars stand one behind the other. The points of
the line from the start to the stop of the arrow are its text. -/
theorem find?_iff_isFirst (line : List Char) :
    (find? line = none ↔ ∀ kind : ArrowKind, ¬kind.token <:+: line) ∧
    (∀ found, find? line = some found ↔ IsFirst line found) ∧
    ∀ found, find? line = some found →
      (∀ label ∈ found.arrow.label, label ≠ [] ∧ '|' ∉ label) ∧
      (found.arrow.label.isSome ↔ ∃ kind : ArrowKind, ∃ label, label ≠ [] ∧ '|' ∉ label ∧
        kind.token ++ '|' :: (label ++ ['|']) <:+: line) ∧
      ∀ ns, ArePoints ns → ofPoints ns = line →
        ofPoints (ns.take found.start) = found.before ∧
        ofPoints ((ns.take found.stop).drop found.start) = found.arrow.toText ∧
        ofPoints (ns.drop found.stop) = found.after := by
  refine ⟨find?_eq_none_iff, fun found => find?_eq_some_iff, fun found hfound => ?_⟩
  obtain ⟨hlabel, hline⟩ := find?_sound hfound
  have hfirst := find?_eq_some_iff.mp hfound
  exact ⟨hlabel, hfirst.isSome_label_iff, fun ns hns h => slices_eq hns (h.trans hline)⟩

/-- Half a surrogate pair, a thick arrow, and a cross with a label behind it. -/
def halvedLine : List Nat :=
  0xD83D :: "==>B--x|yes|C".toList.map Char.toNat

/-- The labelled arrow is found although another one stands before it, and the half counts as one
point. -/
theorem find?_halvedLine :
    ∃ found, find? (ofPoints halvedLine) = some found ∧ found.arrow = ⟨.cross, some "yes".toList⟩ ∧
      found.start = 5 ∧ found.stop = 13 ∧
      ofPoints ((halvedLine.take 13).drop 5) = "--x|yes|".toList := by
  have hfound : find? (ofPoints halvedLine) =
      some ⟨ofPoints (halvedLine.take 5), ⟨.cross, some "yes".toList⟩, ['C']⟩ := by decide +kernel
  have hpoints : ArePoints halvedLine := by
    intro n hn
    revert n
    decide
  obtain ⟨-, -, hspec⟩ := find?_iff_isFirst (ofPoints halvedLine)
  obtain ⟨-, -, hslices⟩ := hspec _ hfound
  obtain ⟨-, hslice, -⟩ := hslices halvedLine hpoints rfl
  exact ⟨_, hfound, rfl, by decide +kernel, by decide +kernel, hslice⟩

end ArrowMatch
end Flowchart
