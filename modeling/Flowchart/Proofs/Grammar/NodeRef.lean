import Flowchart.Grammar.NodeRef
import Flowchart.Proofs.Grammar.ArrowBetween
import Flowchart.Proofs.Text.Lines
import Flowchart.Proofs.Text.Trim

/-! References to nodes are read back: an identifier ends where its delimiters begin, and a label
that the delimiters of its shape keep is found between them. -/
namespace Flowchart

open Text

namespace Identifier

variable {c : Char} {s id rest : List Char}

theorem isPart_iff : isPart c = true ↔
    (48 ≤ c.toNat ∧ c.toNat ≤ 57) ∨ (65 ≤ c.toNat ∧ c.toNat ≤ 90) ∨ c.toNat = 95 ∨
      (97 ≤ c.toNat ∧ c.toNat ≤ 122) := by
  have hlow : c = '_' ↔ c.toNat = 95 := by
    constructor
    · rintro rfl
      rfl
    · intro h
      exact Char.ext (UInt32.toNat_inj.mp h)
  simp only [isPart, isStart, Bool.or_eq_true, Bool.and_eq_true, decide_eq_true_eq, beq_iff_eq, hlow,
    Char.le_def, UInt32.le_iff_toNat_le]
  change (((65 ≤ c.toNat ∧ c.toNat ≤ 90) ∨ (97 ≤ c.toNat ∧ c.toNat ≤ 122)) ∨ c.toNat = 95) ∨
    (48 ≤ c.toNat ∧ c.toNat ≤ 57) ↔ _
  omega

theorem isPart_of_isStart (h : isStart c = true) : isPart c = true := by
  simp [isPart, h]

theorem isBlank_of_isPart (h : isPart c = true) : isBlank c = false := by
  have hb := isPart_iff.mp h
  simp only [isBlank, inRanges, blankRanges, List.any_cons, List.any_nil, Bool.or_false,
    Bool.or_eq_false_iff, Bool.and_eq_false_iff, decide_eq_false_iff_not]
  omega

theorem isPart_eq_false_of_isBlank (h : isBlank c = true) : isPart c = false := by
  rw [Bool.eq_false_iff]
  intro hpart
  rw [isBlank_of_isPart hpart] at h
  cases h

theorem isLineBreak_of_isPart (h : isPart c = true) : isLineBreak c = false := by
  have hb := isPart_iff.mp h
  simp only [isLineBreak, Bool.or_eq_false_iff, Bool.and_eq_false_iff, decide_eq_false_iff_not,
    beq_eq_false_iff_ne]
  omega

theorem ne_of_isPart {d : Char} (h : isPart c = true) (hd : isPart d = false) : c ≠ d := by
  rintro rfl
  rw [h] at hd
  cases hd

/-- A letter A to Z or low line, then letters, digits 0 to 9 and low lines. -/
def IsWord (s : List Char) : Prop :=
  ∃ c cs, s = c :: cs ∧ isStart c = true ∧ ∀ d ∈ cs, isPart d = true

theorem isIdentifier_iff : isIdentifier s = true ↔ IsWord s := by
  cases s with
  | nil => simp [isIdentifier, take?, IsWord]
  | cons c cs => by_cases h : isStart c = true <;> simp [isIdentifier, take?, IsWord, h]

theorem isPart_of_mem (hs : isIdentifier s = true) (hc : c ∈ s) : isPart c = true := by
  obtain ⟨d, ds, rfl, hd, hds⟩ := isIdentifier_iff.mp hs
  rcases List.mem_cons.mp hc with rfl | hc
  · exact isPart_of_isStart hd
  · exact hds c hc

theorem arrowFree_of_isIdentifier (hs : isIdentifier s = true) : ArrowFree s := by
  rw [← List.append_nil s]
  refine ArrowMatch.arrowFree_append_of_not_start (fun c hc => ?_) ArrowFree.nil
  have := isPart_of_mem hs hc
  exact ⟨ne_of_isPart this (by decide), ne_of_isPart this (by decide)⟩

theorem oneLine_of_isIdentifier (hs : isIdentifier s = true) : OneLine s :=
  fun _ hc => isLineBreak_of_isPart (isPart_of_mem hs hc)

theorem take?_append (hid : isIdentifier id = true) (hr : ∀ c ∈ rest.head?, isPart c = false) :
    take? (id ++ rest) = some (id, rest) := by
  obtain ⟨c, cs, rfl, hc, hcs⟩ := isIdentifier_iff.mp hid
  have hstop : rest.takeWhile isPart = [] ∧ rest.dropWhile isPart = rest := by
    cases rest with
    | nil => simp
    | cons d rest => simp [hr d rfl]
  rw [List.cons_append, take?, if_pos hc, List.takeWhile_append_of_pos hcs,
    List.dropWhile_append_of_pos hcs, hstop.1, hstop.2, List.append_nil]

theorem take?_eq_some_iff : take? s = some (id, rest) ↔
    isIdentifier id = true ∧ s = id ++ rest ∧ ∀ c ∈ rest.head?, isPart c = false := by
  constructor
  · intro h
    cases s with
    | nil => cases h
    | cons c s =>
      rw [take?] at h
      split_ifs at h with hc
      simp only [Option.some.injEq, Prod.mk.injEq] at h
      obtain ⟨rfl, rfl⟩ := h
      refine ⟨isIdentifier_iff.mpr ⟨c, _, rfl, hc, fun d hd => List.mem_takeWhile_imp hd⟩, ?_,
        fun d hd => head?_dropWhile hd⟩
      rw [List.cons_append, List.takeWhile_append_dropWhile]
  · rintro ⟨hid, rfl, hr⟩
    exact take?_append hid hr

theorem take?_of_isWord (h : IsWord s) : take? s = some (s, []) :=
  take?_eq_some_iff.mpr ⟨isIdentifier_iff.mpr h, (List.append_nil s).symm, by simp⟩

end Identifier

namespace NodeShape

variable {shape : NodeShape} {s t rest label : List Char}

theorem dropStart?_eq_some_iff : dropStart? t s = some rest ↔ s = t ++ rest := by
  induction t generalizing s with
  | nil => simp [dropStart?, eq_comm]
  | cons c t ih =>
    cases s with
    | nil => simp [dropStart?]
    | cons d s =>
      rw [dropStart?]
      split_ifs with h
      · simp [h, ih]
      · simp [Ne.symm h]

theorem dropEnd?_eq_some_iff : dropEnd? t s = some rest ↔ s = rest ++ t := by
  simp only [dropEnd?, Option.map_eq_some_iff, dropStart?_eq_some_iff]
  constructor
  · rintro ⟨r, hr, rfl⟩
    have := congrArg List.reverse hr
    simpa using this
  · rintro rfl
    exact ⟨rest.reverse, by simp, by simp⟩

theorem unwrap?_eq_some_iff : shape.unwrap? s = some label ↔
    s = shape.wrap label ∧ label ≠ [] ∧ '\n' ∉ label := by
  simp only [unwrap?, Option.bind_eq_bind, Option.bind_eq_some_iff, dropStart?_eq_some_iff,
    dropEnd?_eq_some_iff, wrap]
  constructor
  · rintro ⟨rest, rfl, l, rfl, h⟩
    split_ifs at h with hl
    simp only [Bool.or_eq_true, List.isEmpty_iff, List.contains_iff_mem, not_or] at hl
    cases h
    exact ⟨by simp, hl⟩
  · rintro ⟨rfl, hne, hn⟩
    refine ⟨label ++ shape.closing, by simp, label, rfl, ?_⟩
    simp [hne, hn]

theorem match?_sound (h : match? s = some (shape, label)) :
    dropFinalLineFeed s = shape.wrap label ∧ label ≠ [] ∧ '\n' ∉ label := by
  obtain ⟨shape', -, hs⟩ := List.exists_of_findSome?_eq_some h
  obtain ⟨l, hl, he⟩ := Option.map_eq_some_iff.mp hs
  cases he
  exact unwrap?_eq_some_iff.mp hl

theorem match?_wrap (h : shape.keeps label = true) :
    match? (shape.wrap label) = some (shape, label) := by
  simp only [keeps, Bool.and_eq_true, beq_iff_eq] at h
  exact h.2

theorem dropFinalLineFeed_eq_self (h : ∀ c ∈ s.getLast?, c ≠ '\n') : dropFinalLineFeed s = s :=
  if_neg fun hl => h _ hl rfl

theorem keeps_of_match? (hs : ∀ c ∈ s.getLast?, c ≠ '\n')
    (h : match? s = some (shape, label)) : shape.keeps label = true := by
  obtain ⟨hw, -, hn⟩ := match?_sound h
  rw [dropFinalLineFeed_eq_self hs] at hw
  subst hw
  simp [keeps, hn, h]

theorem eq_wrap_of_match?_trim (h : match? (trim s) = some (shape, label)) :
    trim s = shape.wrap label ∧ shape.keeps label = true := by
  have hend : ∀ c ∈ (trim s).getLast?, c ≠ '\n' := by
    rintro c hc rfl
    exact absurd (getLast?_trim hc) (by decide)
  have hwrap := (match?_sound h).1
  rw [dropFinalLineFeed_eq_self hend] at hwrap
  exact ⟨hwrap, keeps_of_match? hend h⟩

def openers : List Char := ['(', '[', '\x7b', '>']

theorem isPart_of_mem_openers {c : Char} (h : c ∈ openers) : Identifier.isPart c = false := by
  revert c
  decide

theorem isBlank_of_mem_openers {c : Char} (h : c ∈ openers) : isBlank c = false := by
  revert c
  decide

theorem exists_opening (shape : NodeShape) :
    ∃ d r, shape.opening = d :: r ∧ d ∈ openers := by
  cases shape
  all_goals exact ⟨_, _, rfl, by decide⟩

theorem opening_chars (shape : NodeShape) :
    ∀ c ∈ shape.opening, isLineBreak c = false ∧ c ≠ '-' ∧ c ≠ '=' ∧ c ≠ '|' := by
  cases shape <;> decide

theorem closing_chars (shape : NodeShape) :
    ∀ c ∈ shape.closing, isLineBreak c = false ∧ isBlank c = false ∧ c ≠ ';' ∧ c ≠ '|' := by
  cases shape <;> decide

theorem offToken_closing (shape : NodeShape) : ∀ c ∈ shape.closing, OffToken c := by
  intro c hc kind
  cases shape <;> revert c <;> cases kind <;> decide

theorem closing_ne_nil (shape : NodeShape) : shape.closing ≠ [] := by
  cases shape <;> decide

theorem oneLine_wrap (h : OneLine label) : OneLine (shape.wrap label) := by
  simp only [wrap, oneLine_append]
  exact ⟨⟨fun c hc => (opening_chars shape c hc).1, h⟩, fun c hc => (closing_chars shape c hc).1⟩

theorem wrap_ne_nil : shape.wrap label ≠ [] := by
  simp [wrap, closing_ne_nil]

theorem exists_wrap (shape : NodeShape) (label : List Char) :
    ∃ d r, shape.wrap label = d :: r ∧ d ∈ openers := by
  obtain ⟨d, r, h, hd⟩ := shape.exists_opening
  exact ⟨d, r ++ label ++ shape.closing, by simp [wrap, h], hd⟩

theorem mem_openers_of_head?_wrap {c : Char} (h : (shape.wrap label).head? = some c) :
    c ∈ openers := by
  obtain ⟨d, r, hw, hd⟩ := shape.exists_wrap label
  obtain rfl : d = c := by simpa [hw] using h
  exact hd

theorem getLast?_append_wrap {c : Char} (h : (s ++ shape.wrap label).getLast? = some c) :
    c ∈ shape.closing := by
  rw [wrap, ← List.append_assoc, List.getLast?_append_of_ne_nil _ shape.closing_ne_nil] at h
  exact List.mem_of_getLast? h

theorem trim_wrap (shape : NodeShape) (label : List Char) :
    trim (shape.wrap label) = shape.wrap label := by
  apply trim_eq_self
  · intro c hc
    exact isBlank_of_mem_openers (mem_openers_of_head?_wrap hc)
  · intro c hc
    exact (shape.closing_chars c (getLast?_append_wrap (s := []) hc)).2.1

end NodeShape

/-- The parts of a text that describes a node: an identifier, blanks, and a label in the delimiters of a
shape that keep it. -/
@[ext]
structure NodeDefinition where
  id : List Char
  gap : List Char
  shape : NodeShape
  label : List Char
  isWord_id : Identifier.IsWord id
  isBlank_gap : ∀ c ∈ gap, isBlank c = true
  keeps_label : shape.keeps label = true

namespace NodeDefinition

def text (d : NodeDefinition) : List Char :=
  d.id ++ d.gap ++ d.shape.wrap d.label

theorem take?_text (d : NodeDefinition) :
    Identifier.take? d.text = some (d.id, d.gap ++ d.shape.wrap d.label) := by
  rw [text, List.append_assoc]
  refine Identifier.take?_append (Identifier.isIdentifier_iff.mpr d.isWord_id) fun c hc => ?_
  cases hgap : d.gap with
  | nil =>
    rw [hgap, List.nil_append] at hc
    exact NodeShape.isPart_of_mem_openers (NodeShape.mem_openers_of_head?_wrap hc)
  | cons o gap =>
    obtain rfl : o = c := by simpa [hgap] using hc
    exact Identifier.isPart_eq_false_of_isBlank (d.isBlank_gap o (by simp [hgap]))

theorem trim_rest (d : NodeDefinition) :
    trim (d.gap ++ d.shape.wrap d.label) = d.shape.wrap d.label := by
  rw [trim_blanks_append d.isBlank_gap, NodeShape.trim_wrap]

theorem trim_text (d : NodeDefinition) : trim d.text = d.text := by
  apply trim_eq_self
  · intro c hc
    obtain ⟨o, cs, hid, ho, -⟩ := d.isWord_id
    obtain rfl : o = c := by simpa [text, hid] using hc
    exact Identifier.isBlank_of_isPart (Identifier.isPart_of_isStart ho)
  · intro c hc
    exact (d.shape.closing_chars c (NodeShape.getLast?_append_wrap hc)).2.1

end NodeDefinition

namespace NodeRef

variable {s id label : List Char} {shape : NodeShape}

theorem read?_of_isWord (h : Identifier.IsWord (trim s)) : read? s = some ⟨trim s, none⟩ := by
  simp only [read?, Identifier.take?_of_isWord h, Option.bind_eq_bind, Option.bind_some]
  rfl

theorem read?_of_definition (d : NodeDefinition) (h : d.text = trim s) :
    read? s = some ⟨d.id, some (d.shape, d.label)⟩ := by
  obtain ⟨o, r, hw, -⟩ := d.shape.exists_wrap d.label
  simp only [read?, ← h, d.take?_text, Option.bind_eq_bind, Option.bind_some, d.trim_rest]
  rw [hw]
  simp [← hw, NodeShape.match?_wrap d.keeps_label]

/-- What is read as a reference is, apart from blanks around it, an identifier or a definition. -/
theorem cases_of_read? {ref : NodeRef} (h : read? s = some ref) :
    (Identifier.IsWord (trim s) ∧ ref = ⟨trim s, none⟩) ∨
      ∃ d : NodeDefinition, d.text = trim s ∧ ref = ⟨d.id, some (d.shape, d.label)⟩ := by
  simp only [read?, Option.bind_eq_bind, Option.bind_eq_some_iff, Prod.exists] at h
  obtain ⟨id, rest, htake, h⟩ := h
  obtain ⟨hid, htext, -⟩ := Identifier.take?_eq_some_iff.mp htake
  have hword := Identifier.isIdentifier_iff.mp hid
  have hlast : ∀ c ∈ rest.getLast?, isBlank c = false := by
    intro c hc
    apply getLast?_trim (s := s)
    rw [htext, List.getLast?_append, Option.mem_def.mp hc, Option.some_or]
  split at h
  · next hblank =>
    cases h
    rw [eq_nil_of_trim_eq_nil hlast hblank, List.append_nil] at htext
    rw [htext]
    exact .inl ⟨hword, rfl⟩
  · obtain ⟨⟨shape, label⟩, hmatch, rfl⟩ := Option.map_eq_some_iff.mp h
    obtain ⟨gap, hrest, hgap⟩ := exists_blanks_append_trim hlast
    obtain ⟨hwrap, hkeeps⟩ := NodeShape.eq_wrap_of_match?_trim hmatch
    refine .inr ⟨⟨id, gap, shape, label, hword, hgap, hkeeps⟩, ?_, rfl⟩
    rw [htext, hrest, hwrap, NodeDefinition.text, List.append_assoc]

theorem read?_between {b e : List Char} (hb : ∀ c ∈ b, isBlank c = true)
    (he : ∀ c ∈ e, isBlank c = true) (hid : Identifier.isIdentifier id = true)
    (hk : shape.keeps label = true) :
    read? (b ++ (id ++ shape.wrap label) ++ e) = some ⟨id, some (shape, label)⟩ := by
  let d : NodeDefinition :=
    ⟨id, [], shape, label, Identifier.isIdentifier_iff.mp hid, by simp, hk⟩
  have htext : d.text = id ++ shape.wrap label := by simp [d, NodeDefinition.text]
  refine read?_of_definition d ?_
  rw [← htext, trim_between hb he d.trim_text]

theorem read?_sound {ref : NodeRef} (h : read? s = some ref) :
    Identifier.isIdentifier ref.id = true ∧ ref.id ⊆ s ∧
      ∀ shape label, ref.described = some (shape, label) → label ≠ [] ∧ label <:+: s := by
  have hinfix := trim_isInfix s
  rcases cases_of_read? h with ⟨hword, rfl⟩ | ⟨d, hd, rfl⟩
  · exact ⟨Identifier.isIdentifier_iff.mpr hword, hinfix.subset, by simp⟩
  · rw [← hd] at hinfix
    refine ⟨Identifier.isIdentifier_iff.mpr d.isWord_id, fun c hc => hinfix.subset ?_, ?_⟩
    · simp [NodeDefinition.text, hc]
    · rintro _ _ ⟨⟩
      have hlabel : d.label <:+: d.text :=
        ⟨d.id ++ d.gap ++ d.shape.opening, d.shape.closing, by
          simp [NodeDefinition.text, NodeShape.wrap]⟩
      exact ⟨(NodeShape.match?_sound (NodeShape.match?_wrap d.keeps_label)).2.1,
        hlabel.trans hinfix⟩

theorem keeps_of_read? {ref : NodeRef} (h : read? s = some ref)
    (hd : ref.described = some (shape, label)) : shape.keeps label = true := by
  rcases cases_of_read? h with ⟨-, rfl⟩ | ⟨d, -, rfl⟩
  · cases hd
  · cases hd
    exact d.keeps_label

theorem arrowFree_text (hid : Identifier.isIdentifier id = true) (h : ArrowFree label) :
    ArrowFree (id ++ shape.wrap label) := by
  rw [NodeShape.wrap, List.append_assoc, ← List.append_assoc id]
  apply ArrowMatch.arrowFree_append_of_not_start
  · intro c hc
    rcases List.mem_append.mp hc with hc | hc
    · have := Identifier.isPart_of_mem hid hc
      exact ⟨Identifier.ne_of_isPart this (by decide), Identifier.ne_of_isPart this (by decide)⟩
    · have := shape.opening_chars c hc
      exact ⟨this.2.1, this.2.2.1⟩
  · exact h.append_offToken shape.offToken_closing

theorem bar_mem_text (hid : Identifier.isIdentifier id = true) :
    '|' ∈ id ++ shape.wrap label ↔ '|' ∈ label := by
  have hi : '|' ∉ id := fun h =>
    Identifier.ne_of_isPart (Identifier.isPart_of_mem hid h) (by decide : _ = false) rfl
  have ho : '|' ∉ shape.opening := fun h => (shape.opening_chars _ h).2.2.2 rfl
  have hc : '|' ∉ shape.closing := fun h => (shape.closing_chars _ h).2.2.2 rfl
  simp [NodeShape.wrap, hi, ho, hc]

end NodeRef
end Flowchart
