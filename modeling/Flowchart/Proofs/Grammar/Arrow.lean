import Flowchart.Grammar.Arrow
import Mathlib.Data.List.Infix
import Mathlib.Data.List.TakeWhile
import Mathlib.Tactic.Common

/-! Where the search for an arrow finds one. A rule occurs at a place exactly if its token stands there,
with a label between bars where it asks for one, and its first occurrence is found; text that no token
starts in is passed over. -/
namespace Flowchart

def ArrowFree (s : List Char) : Prop :=
  ∀ kind : ArrowKind, ¬kind.token <:+: s

namespace ArrowKind

theorem token_ne_nil (kind : ArrowKind) : kind.token ≠ [] := by
  cases kind <;> decide

end ArrowKind

namespace Arrow

variable {rule : Rule} {arrow : Arrow} {s t rest label after : List Char}

theorem dropToken?_eq_some_iff : dropToken? t s = some rest ↔ s = t ++ rest := by
  induction t generalizing s with
  | nil => simp [dropToken?, eq_comm]
  | cons c t ih =>
    cases s with
    | nil => simp [dropToken?]
    | cons d s =>
      rw [dropToken?]
      split_ifs with h
      · simp [h, ih]
      · simp [Ne.symm h]

theorem takeLabel?_eq_some_iff :
    takeLabel? s = some (label, after) ↔
      label ≠ [] ∧ '|' ∉ label ∧ s = '|' :: (label ++ '|' :: after) := by
  constructor
  · intro h
    unfold takeLabel? at h
    split at h
    · next rest =>
      have hsplit := List.takeWhile_append_dropWhile (p := (· != '|')) (l := rest)
      split at h
      · cases h
      · cases h
      · next c l d a htake hdrop =>
        simp only [Option.some.injEq, Prod.mk.injEq] at h
        obtain ⟨rfl, rfl⟩ := h
        have hd : d = '|' := by
          have := List.head?_dropWhile_not (· != '|') rest
          rw [hdrop] at this
          simpa using this
        have hbar : ∀ x ∈ c :: l, x ≠ '|' := by
          intro x hx
          rw [← htake] at hx
          simpa using List.mem_takeWhile_imp hx
        refine ⟨by simp, fun hm => hbar _ hm rfl, ?_⟩
        rw [← hsplit, htake, hdrop, hd]
    · cases h
  · rintro ⟨hne, hbar, rfl⟩
    have hall : ∀ x ∈ label, (x != '|') = true := by
      intro x hx
      simp only [bne_iff_ne]
      rintro rfl
      exact hbar hx
    have htake : (label ++ '|' :: after).takeWhile (· != '|') = label := by
      simp [List.takeWhile_append_of_pos hall]
    have hdrop : (label ++ '|' :: after).dropWhile (· != '|') = '|' :: after := by
      simp [List.dropWhile_append_of_pos hall]
    rw [takeLabel?, htake, hdrop]
    cases label with
    | nil => exact absurd rfl hne
    | cons c l => rfl

theorem Rule.atFront?_plain_iff {kind : ArrowKind} :
    Rule.atFront? ⟨kind, false⟩ s = some (arrow, after) ↔
      arrow = ⟨kind, none⟩ ∧ s = kind.token ++ after := by
  simp only [Rule.atFront?, Option.bind_eq_bind, Option.bind_eq_some_iff, dropToken?_eq_some_iff]
  constructor
  · rintro ⟨rest, rfl, h⟩
    simp only [Bool.false_eq_true, if_false, Option.some.injEq, Prod.mk.injEq] at h
    exact ⟨h.1.symm, by rw [h.2]⟩
  · rintro ⟨rfl, rfl⟩
    exact ⟨after, rfl, by simp⟩

theorem Rule.atFront?_labelled_iff {kind : ArrowKind} :
    Rule.atFront? ⟨kind, true⟩ s = some (arrow, after) ↔
      ∃ label, arrow = ⟨kind, some label⟩ ∧ label ≠ [] ∧ '|' ∉ label ∧
        s = kind.token ++ '|' :: (label ++ '|' :: after) := by
  simp only [Rule.atFront?, Option.bind_eq_bind, Option.bind_eq_some_iff, dropToken?_eq_some_iff,
    if_true]
  constructor
  · rintro ⟨rest, rfl, ⟨label, tail⟩, hl, h⟩
    simp only [Option.some.injEq, Prod.mk.injEq] at h
    obtain ⟨rfl, rfl⟩ := h
    obtain ⟨hne, hbar, rfl⟩ := takeLabel?_eq_some_iff.mp hl
    exact ⟨label, rfl, hne, hbar, rfl⟩
  · rintro ⟨label, rfl, hne, hbar, rfl⟩
    exact ⟨_, rfl, (label, after), takeLabel?_eq_some_iff.mpr ⟨hne, hbar, rfl⟩, rfl⟩

/-- The arrows that a rule looks for: of its kind, and with a label exactly if the rule asks for one. -/
structure Rule.Admits (rule : Rule) (arrow : Arrow) : Prop where
  kind_eq : arrow.kind = rule.kind
  labelled_eq : arrow.label.isSome = rule.labelled
  isLabel : ∀ label ∈ arrow.label, label ≠ [] ∧ '|' ∉ label

/-- A rule occurs in a line at the arrow at which the line is cut. -/
structure Rule.Occurs (rule : Rule) (line : List Char) (cut : ArrowMatch) : Prop where
  admits : rule.Admits cut.arrow
  line_eq : line = cut.before ++ cut.arrow.toText ++ cut.after

theorem toText_labelled {kind : ArrowKind} {label : List Char} (h : label ≠ []) :
    toText ⟨kind, some label⟩ = kind.token ++ '|' :: (label ++ ['|']) := by
  cases label with
  | nil => exact absurd rfl h
  | cons c label => simp [toText]

theorem Rule.atFront?_eq_some_iff :
    rule.atFront? s = some (arrow, after) ↔ rule.Admits arrow ∧ s = arrow.toText ++ after := by
  obtain ⟨kind, labelled⟩ := rule
  obtain ⟨shownKind, label⟩ := arrow
  cases labelled with
  | false =>
    rw [atFront?_plain_iff, Arrow.mk.injEq]
    constructor
    · intro h
      obtain ⟨⟨hkind, hlabel⟩, hs⟩ := h
      subst hkind hlabel
      exact ⟨⟨rfl, rfl, by simp⟩, hs⟩
    · intro h
      obtain ⟨⟨hkind, hlabelled, _⟩, hs⟩ := h
      have hnone : label = none := by simpa using hlabelled
      subst hkind hnone
      exact ⟨⟨rfl, rfl⟩, hs⟩
  | true =>
    rw [atFront?_labelled_iff]
    constructor
    · intro h
      obtain ⟨shown, harrow, hne, hbar, hs⟩ := h
      obtain ⟨rfl, rfl⟩ := Arrow.mk.inj harrow
      refine ⟨⟨rfl, rfl, by simpa using ⟨hne, hbar⟩⟩, ?_⟩
      rw [hs, toText_labelled hne]
      simp
    · intro h
      obtain ⟨⟨hkind, hlabelled, hisLabel⟩, hs⟩ := h
      obtain ⟨shown, rfl⟩ := Option.isSome_iff_exists.mp hlabelled
      obtain ⟨hne, hbar⟩ := hisLabel shown rfl
      have hkind' : shownKind = kind := hkind
      subst hkind'
      refine ⟨shown, rfl, hne, hbar, ?_⟩
      rw [hs, toText_labelled hne]
      simp

theorem Rule.atFront?_eq_none (h : ¬rule.kind.token <+: s) : rule.atFront? s = none := by
  have hd : dropToken? rule.kind.token s = none := by
    rw [Option.eq_none_iff_forall_not_mem]
    intro rest hr
    exact h ⟨rest, (dropToken?_eq_some_iff.mp hr).symm⟩
  simp [Rule.atFront?, hd]

theorem token_isPrefix_toText (arrow : Arrow) : arrow.kind.token <+: arrow.toText := by
  obtain ⟨kind, label⟩ := arrow
  rcases label with _ | ⟨_ | ⟨c, label⟩⟩
  · exact List.prefix_rfl
  · exact List.prefix_rfl
  · rw [toText_labelled (List.cons_ne_nil c label)]
    exact List.prefix_append _ _

theorem label_subset_toText (h : label ∈ arrow.label) : label ⊆ arrow.toText := by
  obtain ⟨kind, shown⟩ := arrow
  cases h
  cases label with
  | nil => exact List.nil_subset _
  | cons c label =>
    intro d hd
    rw [toText_labelled (List.cons_ne_nil c label)]
    exact List.mem_append_right _ (List.mem_cons_of_mem _ (List.mem_append_left _ hd))

end Arrow

namespace ArrowMatch

open Arrow

variable {rule : Rule} {c : Char} {s t line : List Char} {found cut : ArrowMatch}

def after? (s : List Char) (found : Option ArrowMatch) : Option ArrowMatch :=
  found.map fun m => { m with before := s ++ m.before }

@[simp] theorem after?_none : after? s none = none := rfl

@[simp] theorem after?_some :
    after? s (some found) = some { found with before := s ++ found.before } := rfl

theorem first?_eq_none_iff :
    first? rule s = none ↔ ∀ u, u <:+ s → rule.atFront? u = none := by
  induction s with
  | nil => simp [first?]
  | cons c s ih =>
    simp only [first?, List.suffix_cons_iff, forall_eq_or_imp]
    cases rule.atFront? (c :: s) with
    | none => simp [ih]
    | some found => simp

theorem first?_of_atFront? {arrow : Arrow} {rest : List Char}
    (h : rule.atFront? s = some (arrow, rest)) : first? rule s = some ⟨[], arrow, rest⟩ := by
  cases s <;> simp [first?, h]

theorem first?_append (h : ∀ u, u ≠ [] → u <:+ s → rule.atFront? (u ++ t) = none) :
    first? rule (s ++ t) = after? s (first? rule t) := by
  induction s with
  | nil => simp [after?]
  | cons c s ih =>
    have hc : rule.atFront? (c :: (s ++ t)) = none := h (c :: s) (by simp) List.suffix_rfl
    have hs := ih fun u hne hu => h u hne (hu.trans (List.suffix_cons c s))
    rw [List.cons_append, first?, hc, hs]
    simp [after?, Option.map_map, Function.comp_def]

theorem not_occurs_nil : ¬rule.Occurs [] cut := by
  intro h
  have htext : cut.arrow.toText = [] := by
    have hline := h.line_eq
    simp only [List.nil_eq, List.append_eq_nil_iff] at hline
    exact hline.1.2
  have htoken := token_isPrefix_toText cut.arrow
  rw [htext, List.prefix_nil] at htoken
  exact cut.arrow.kind.token_ne_nil htoken

theorem occurs_cons_iff (h : rule.atFront? (c :: line) = none) :
    rule.Occurs (c :: line) cut ↔
      ∃ inner, rule.Occurs line inner ∧ cut = { inner with before := c :: inner.before } := by
  obtain ⟨before, arrow, after⟩ := cut
  constructor
  · intro hoccurs
    cases before with
    | nil =>
      have hfront : rule.atFront? (c :: line) = some (arrow, after) :=
        Rule.atFront?_eq_some_iff.mpr ⟨hoccurs.admits, hoccurs.line_eq⟩
      rw [h] at hfront
      cases hfront
    | cons b before =>
      obtain ⟨rfl, hline⟩ := List.cons.inj hoccurs.line_eq
      exact ⟨⟨before, arrow, after⟩, ⟨hoccurs.admits, hline⟩, rfl⟩
  · intro h
    obtain ⟨inner, hoccurs, hcut⟩ := h
    rw [hcut]
    exact ⟨hoccurs.admits, congrArg (c :: ·) hoccurs.line_eq⟩

/-- The first place of a rule is the one before which the least text stands. -/
theorem first?_eq_some_iff : first? rule line = some found ↔
    rule.Occurs line found ∧ ∀ cut, rule.Occurs line cut → found.before <+: cut.before := by
  induction line generalizing found with
  | nil =>
    have hnone : first? rule [] = none := by
      rw [first?, Rule.atFront?_eq_none fun h => rule.kind.token_ne_nil (List.prefix_nil.mp h)]
      rfl
    rw [hnone]
    constructor
    · intro h
      cases h
    · intro h
      exact absurd h.1 not_occurs_nil
  | cons c line ih =>
    rw [first?]
    cases hfront : rule.atFront? (c :: line) with
    | some front =>
      obtain ⟨arrow, after⟩ := front
      have hoccurs : rule.Occurs (c :: line) ⟨[], arrow, after⟩ := by
        obtain ⟨hadmits, hline⟩ := Rule.atFront?_eq_some_iff.mp hfront
        exact ⟨hadmits, hline⟩
      constructor
      · intro h
        cases h
        exact ⟨hoccurs, fun cut _ => List.nil_prefix⟩
      · intro h
        obtain ⟨hfound, hleast⟩ := h
        obtain ⟨before, arrow', after'⟩ := found
        obtain rfl : before = [] := List.prefix_nil.mp (hleast _ hoccurs)
        have hsame : rule.atFront? (c :: line) = some (arrow', after') :=
          Rule.atFront?_eq_some_iff.mpr ⟨hfound.admits, hfound.line_eq⟩
        rw [hfront] at hsame
        cases hsame
        rfl
    | none =>
      simp only [Option.map_eq_some_iff]
      constructor
      · intro h
        obtain ⟨inner, hinner, hfound⟩ := h
        obtain ⟨hoccurs, hleast⟩ := ih.mp hinner
        refine ⟨(occurs_cons_iff hfront).mpr ⟨inner, hoccurs, hfound.symm⟩, fun cut hcut => ?_⟩
        obtain ⟨inner', hoccurs', rfl⟩ := (occurs_cons_iff hfront).mp hcut
        rw [← hfound, List.cons_prefix_cons]
        exact ⟨rfl, hleast inner' hoccurs'⟩
      · intro h
        obtain ⟨hfound, hleast⟩ := h
        obtain ⟨inner, hoccurs, rfl⟩ := (occurs_cons_iff hfront).mp hfound
        refine ⟨inner, ih.mpr ⟨hoccurs, fun cut hcut => ?_⟩, rfl⟩
        have hprefix := hleast _ ((occurs_cons_iff hfront).mpr ⟨cut, hcut, rfl⟩)
        exact (List.cons_prefix_cons.mp hprefix).2

theorem first?_eq_none_iff_not_occurs :
    first? rule line = none ↔ ∀ cut, ¬rule.Occurs line cut := by
  constructor
  · intro h cut hcut
    have hnone := first?_eq_none_iff.mp h (cut.arrow.toText ++ cut.after)
      ⟨cut.before, by rw [hcut.line_eq, List.append_assoc]⟩
    rw [Rule.atFront?_eq_some_iff.mpr ⟨hcut.admits, rfl⟩] at hnone
    cases hnone
  · intro h
    cases hfirst : first? rule line with
    | none => rfl
    | some found => exact absurd (first?_eq_some_iff.mp hfirst).1 (h found)

theorem find?_sound (h : find? line = some found) :
    (∀ label ∈ found.arrow.label, label ≠ [] ∧ '|' ∉ label) ∧
      line = found.before ++ found.arrow.toText ++ found.after := by
  obtain ⟨rule, -, hf⟩ := List.exists_of_findSome?_eq_some h
  obtain ⟨hadmits, hline⟩ := (first?_eq_some_iff.mp hf).1
  exact ⟨hadmits.isLabel, hline⟩

theorem mem_rules (rule : Rule) : rule ∈ rules := by
  obtain ⟨kind, labelled⟩ := rule
  cases kind <;> cases labelled <;> decide

theorem find?_eq_none_iff : find? s = none ↔ ArrowFree s := by
  simp only [find?, List.findSome?_eq_none_iff, first?_eq_none_iff]
  constructor
  · rintro h kind ⟨a, b, rfl⟩
    have hn := h ⟨kind, false⟩ (mem_rules _) (kind.token ++ b) (by simp)
    have hs : Rule.atFront? ⟨kind, false⟩ (kind.token ++ b) = some (⟨kind, none⟩, b) :=
      Rule.atFront?_plain_iff.mpr ⟨rfl, rfl⟩
    rw [hn] at hs
    cases hs
  · intro h rule _ u hu
    exact Rule.atFront?_eq_none fun hp => h rule.kind (hp.isInfix.trans hu.isInfix)

instance (s : List Char) : Decidable (ArrowFree s) :=
  decidable_of_iff _ find?_eq_none_iff

end ArrowMatch
end Flowchart
