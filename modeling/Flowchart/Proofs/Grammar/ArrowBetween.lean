import Flowchart.Proofs.Grammar.Arrow

/-! The arrow between two texts without arrow tokens is the one that is found, unless its label ends
in a token that is looked for earlier and a bar follows in the text behind it. -/
namespace Flowchart

private theorem prefix_of_prefix_append_cons {s t u : List Char} {c : Char} (hc : c ∉ t)
    (h : t <+: s ++ c :: u) : t <+: s := by
  by_cases hl : t.length ≤ s.length
  · exact List.prefix_of_prefix_length_le h (List.prefix_append _ _) hl
  · have hp : s ++ [c] <+: t := by
      refine List.prefix_of_prefix_length_le ⟨u, by simp⟩ h ?_
      simp only [List.length_append, List.length_singleton]
      omega
    exact absurd (hp.subset (by simp)) hc

private theorem suffix_of_suffix_append_cons {s t u : List Char} {c : Char} (hc : c ∉ t)
    (h : t <:+ s ++ c :: u) : t <:+ u := by
  have hr : t.reverse <+: u.reverse ++ c :: s.reverse := by
    have := List.reverse_prefix.mpr h
    simpa using this
  exact List.reverse_prefix.mp (prefix_of_prefix_append_cons (by simpa using hc) hr)

namespace ArrowKind

def before (kind : ArrowKind) : List ArrowKind :=
  all.takeWhile (· != kind)

theorem ne_of_mem_before {k kind : ArrowKind} (h : k ∈ kind.before) : k ≠ kind := by
  simpa using List.mem_takeWhile_imp h

theorem all_eq_before (kind : ArrowKind) : ∃ later, all = kind.before ++ kind :: later := by
  cases kind
  all_goals exact ⟨_, rfl⟩

theorem head?_token (kind : ArrowKind) :
    kind.token.head? = some '-' ∨ kind.token.head? = some '=' := by
  cases kind <;> decide

theorem eq_of_token_prefix {k kind : ArrowKind} {u : List Char} (hp : k.token <+: u)
    (hs : u <:+ kind.token) : k = kind ∧ u = kind.token := by
  revert hp
  cases kind <;> simp only [token, List.suffix_cons_iff, List.suffix_nil] at hs <;>
    rcases hs with rfl | rfl | rfl | rfl | rfl <;> cases k <;> decide

end ArrowKind

def OffToken (c : Char) : Prop :=
  ∀ kind : ArrowKind, c ∉ kind.token

theorem offToken_space : OffToken ' ' := by
  intro kind
  cases kind <;> decide

theorem offToken_bar : OffToken '|' := by
  intro kind
  cases kind <;> decide

theorem OffToken.not_start {c : Char} (h : OffToken c) : c ≠ '-' ∧ c ≠ '=' := by
  constructor
  · rintro rfl
    exact h .arrow (by decide)
  · rintro rfl
    exact h .thick (by decide)

namespace ArrowFree

variable {s t : List Char}

theorem append_cons {c : Char} (hc : OffToken c) (hs : ArrowFree s) (ht : ArrowFree t) :
    ArrowFree (s ++ c :: t) := by
  rintro kind ⟨a, b, h⟩
  rw [List.append_assoc, List.append_eq_append_iff] at h
  rcases h with ⟨a', rfl, h⟩ | ⟨b', rfl, h⟩
  · have hp : kind.token <+: a' := prefix_of_prefix_append_cons (hc kind) ⟨b, h⟩
    exact hs kind (hp.isInfix.trans (List.suffix_append a a').isInfix)
  · cases b' with
    | nil =>
      have hp := prefix_of_prefix_append_cons (s := []) (hc kind) ⟨b, by simpa using h.symm⟩
      exact kind.token_ne_nil (List.prefix_nil.mp hp)
    | cons d b' =>
      rw [List.cons_append, List.cons.injEq] at h
      exact ht kind ⟨b', b, by simp [h.2]⟩

theorem nil : ArrowFree [] := by
  intro kind h
  exact kind.token_ne_nil (List.infix_nil.mp h)

theorem cons {c : Char} (hc : OffToken c) (hs : ArrowFree s) : ArrowFree (c :: s) :=
  append_cons hc nil hs

theorem append_offToken (hs : ArrowFree s) (ht : ∀ c ∈ t, OffToken c) : ArrowFree (s ++ t) := by
  have hfree : ∀ r : List Char, (∀ c ∈ r, OffToken c) → ArrowFree r := by
    intro r hr
    induction r with
    | nil => exact nil
    | cons c r ih => exact cons (hr c (by simp)) (ih fun d hd => hr d (by simp [hd]))
  cases t with
  | nil => simpa using hs
  | cons c t => exact append_cons (ht c (by simp)) hs (hfree t fun d hd => ht d (by simp [hd]))

end ArrowFree

namespace ArrowMatch

open Arrow

variable {rule : Rule} {kind : ArrowKind} {s t label : List Char}

theorem first?_eq_none (h : ArrowFree s) (rule : Rule) : first? rule s = none :=
  first?_eq_none_iff.mpr fun _ hu =>
    Rule.atFront?_eq_none fun hp => h rule.kind (hp.isInfix.trans hu.isInfix)

theorem first?_append_of_not_start (h : ∀ c ∈ s, c ≠ '-' ∧ c ≠ '=') (rule : Rule)
    (t : List Char) : first? rule (s ++ t) = after? s (first? rule t) := by
  apply first?_append
  intro u hne hu
  obtain ⟨c, u, rfl⟩ := List.exists_cons_of_ne_nil hne
  have hc := h c (hu.subset (by simp))
  apply Rule.atFront?_eq_none
  rintro ⟨rest, hr⟩
  have hh := congrArg List.head? hr
  rcases rule.kind.head?_token with hd | hd <;> simp [List.head?_append, hd] at hh
  · exact hc.1 hh.symm
  · exact hc.2 hh.symm

theorem arrowFree_append_of_not_start (hs : ∀ c ∈ s, c ≠ '-' ∧ c ≠ '=') (ht : ArrowFree t) :
    ArrowFree (s ++ t) := by
  rw [← find?_eq_none_iff, find?, List.findSome?_eq_none_iff]
  intro rule _
  rw [first?_append_of_not_start hs, first?_eq_none ht]
  rfl

theorem first?_append_cons {c : Char} (hs : ArrowFree s) (hc : OffToken c) (rule : Rule)
    (t : List Char) : first? rule (s ++ c :: t) = after? (s ++ [c]) (first? rule t) := by
  have hu : ∀ u, u ≠ [] → u <:+ s → rule.atFront? (u ++ c :: t) = none := by
    intro u _ hu
    apply Rule.atFront?_eq_none
    intro hp
    have hp := prefix_of_prefix_append_cons (hc rule.kind) hp
    exact hs rule.kind (hp.isInfix.trans hu.isInfix)
  have hcs : ∀ d ∈ [c], d ≠ '-' ∧ d ≠ '=' := by simpa using hc.not_start
  rw [first?_append hu, ← List.singleton_append, first?_append_of_not_start hcs]
  simp [after?, Option.map_map, Function.comp_def]

theorem first?_token_cons {c : Char} (hc : OffToken c)
    (h : rule.atFront? (kind.token ++ c :: t) = none) :
    first? rule (kind.token ++ c :: t) = after? (kind.token ++ [c]) (first? rule t) := by
  have hu : ∀ u, u ≠ [] → u <:+ kind.token → rule.atFront? (u ++ c :: t) = none := by
    intro u _ hu
    by_cases hp : rule.kind.token <+: u ++ c :: t
    · have hp := prefix_of_prefix_append_cons (hc rule.kind) hp
      rw [(ArrowKind.eq_of_token_prefix hp hu).2, h]
    · exact Rule.atFront?_eq_none hp
  have hcs : ∀ d ∈ [c], d ≠ '-' ∧ d ≠ '=' := by simpa using hc.not_start
  rw [first?_append hu, ← List.singleton_append, first?_append_of_not_start hcs]
  simp [after?, Option.map_map, Function.comp_def]

private theorem atFront?_token_of_ne {c : Char} (hc : OffToken c) (h : rule.kind ≠ kind) :
    rule.atFront? (kind.token ++ c :: t) = none := by
  apply Rule.atFront?_eq_none
  intro hp
  have hp := prefix_of_prefix_append_cons (hc rule.kind) hp
  exact h (ArrowKind.eq_of_token_prefix hp List.suffix_rfl).1

private theorem atFront?_labelled_space (k : ArrowKind) :
    Rule.atFront? ⟨k, true⟩ (kind.token ++ ' ' :: t) = none := by
  by_cases hk : k = kind
  · subst hk
    rw [Option.eq_none_iff_forall_not_mem]
    rintro ⟨arrow, after⟩ ha
    obtain ⟨label, -, -, -, hs⟩ := Rule.atFront?_labelled_iff.mp ha
    simp at hs
  · exact atFront?_token_of_ne offToken_space hk

/-- The rules with labels come first, then those without, each in the order of the kinds. -/
theorem find?_eq (line : List Char) :
    find? line = (ArrowKind.all.findSome? fun k => first? ⟨k, true⟩ line).or
      (ArrowKind.all.findSome? fun k => first? ⟨k, false⟩ line) := by
  simp only [find?, rules, List.findSome?_append, List.findSome?_map, Function.comp_def]

private theorem findSome?_all {f : ArrowKind → Option ArrowMatch}
    (h : ∀ k ∈ kind.before, f k = none) {found : ArrowMatch} (hf : f kind = some found) :
    ArrowKind.all.findSome? f = some found := by
  obtain ⟨later, hall⟩ := kind.all_eq_before
  rw [hall, List.findSome?_append, List.findSome?_eq_none_iff.mpr h, List.findSome?_cons, hf]
  rfl

theorem find?_plain_between (hs : ArrowFree s) (ht : ArrowFree t) (kind : ArrowKind) :
    find? (s ++ ' ' :: (kind.token ++ ' ' :: t)) = some ⟨s ++ [' '], ⟨kind, none⟩, ' ' :: t⟩ := by
  have hlab : ∀ k, first? ⟨k, true⟩ (s ++ ' ' :: (kind.token ++ ' ' :: t)) = none := by
    intro k
    rw [first?_append_cons hs offToken_space,
      first?_token_cons offToken_space (atFront?_labelled_space k), first?_eq_none ht]
    rfl
  have hother : ∀ k ∈ kind.before,
      first? ⟨k, false⟩ (s ++ ' ' :: (kind.token ++ ' ' :: t)) = none := by
    intro k hk
    have hne : k ≠ kind := ArrowKind.ne_of_mem_before hk
    rw [first?_append_cons hs offToken_space,
      first?_token_cons offToken_space (atFront?_token_of_ne offToken_space hne),
      first?_eq_none ht]
    rfl
  have hown : first? ⟨kind, false⟩ (s ++ ' ' :: (kind.token ++ ' ' :: t)) =
      some ⟨s ++ [' '], ⟨kind, none⟩, ' ' :: t⟩ := by
    rw [first?_append_cons hs offToken_space,
      first?_of_atFront? (Rule.atFront?_plain_iff.mpr ⟨rfl, rfl⟩)]
    simp
  rw [find?_eq, List.findSome?_eq_none_iff.mpr fun k _ => hlab k, findSome?_all hother hown]
  rfl

/-- A labelled arrow inside what follows the first bar of another one has to end at the second bar.
-/
private theorem first?_inside_label (hbar : '|' ∉ label) (ht : ArrowFree t) (k : ArrowKind)
    (h : k.token <:+ label → '|' ∉ t) :
    first? ⟨k, true⟩ (label ++ '|' :: ' ' :: t) = none := by
  rw [first?_eq_none_iff]
  rintro u ⟨w, hw⟩
  rw [Option.eq_none_iff_forall_not_mem]
  rintro ⟨arrow, after⟩ ha
  obtain ⟨l, -, -, -, rfl⟩ := Rule.atFront?_labelled_iff.mp ha
  rw [← List.append_assoc, List.append_eq_append_iff] at hw
  have hend : ∀ {r}, label = w ++ k.token → ' ' :: t = l ++ '|' :: r → False := by
    intro r hl hr
    have hmem : '|' ∈ ' ' :: t := by simp [hr]
    exact h ⟨w, hl.symm⟩ (by simpa using hmem)
  rcases hw with ⟨a, hl, hr⟩ | ⟨a, hl, hr⟩
  · cases a with
    | nil =>
      rw [List.nil_append, List.cons.injEq] at hr
      exact hend (by simpa using hl) hr.2.symm
    | cons d a =>
      rw [List.cons_append, List.cons.injEq] at hr
      exact hbar (by rw [hl, ← hr.1]; simp)
  · cases a with
    | nil =>
      rw [List.nil_append, List.cons.injEq] at hr
      exact hend (by simpa using hl.symm) hr.2
    | cons d a =>
      rw [List.cons_append, List.cons.injEq] at hr
      obtain ⟨rfl, hr⟩ := hr
      have hsuf : k.token <:+ a :=
        suffix_of_suffix_append_cons (offToken_bar k) ⟨w, hl⟩
      have hinf : k.token <:+: ' ' :: t := by
        rw [hr]
        exact hsuf.isInfix.trans (List.prefix_append _ _).isInfix
      exact ht.cons offToken_space k hinf

theorem find?_labelled_between (hs : ArrowFree s) (ht : ArrowFree t) (hne : label ≠ [])
    (hbar : '|' ∉ label) (h : ∀ k ∈ kind.before, k.token <:+ label → '|' ∉ t) :
    find? (s ++ ' ' :: (kind.token ++ '|' :: (label ++ '|' :: ' ' :: t))) =
      some ⟨s ++ [' '], ⟨kind, some label⟩, ' ' :: t⟩ := by
  have hother : ∀ k ∈ kind.before,
      first? ⟨k, true⟩ (s ++ ' ' :: (kind.token ++ '|' :: (label ++ '|' :: ' ' :: t))) = none := by
    intro k hk
    have hk' : k ≠ kind := ArrowKind.ne_of_mem_before hk
    rw [first?_append_cons hs offToken_space,
      first?_token_cons offToken_bar (atFront?_token_of_ne offToken_bar hk'),
      first?_inside_label hbar ht k (h k hk)]
    rfl
  have hown : first? ⟨kind, true⟩
      (s ++ ' ' :: (kind.token ++ '|' :: (label ++ '|' :: ' ' :: t))) =
        some ⟨s ++ [' '], ⟨kind, some label⟩, ' ' :: t⟩ := by
    rw [first?_append_cons hs offToken_space,
      first?_of_atFront? (Rule.atFront?_labelled_iff.mpr ⟨label, rfl, hne, hbar, rfl⟩)]
    simp
  rw [find?_eq, findSome?_all hother hown]
  rfl

/-- A label that ends in an earlier token, with a bar in the text behind it, hides its own arrow. -/
theorem find?_hidden {k : ArrowKind} (hk : k ∈ kind.before) (hlabel : k.token <:+ label)
    (ht : '|' ∈ t) :
    ∃ found, find? (s ++ ' ' :: (kind.token ++ '|' :: (label ++ '|' :: ' ' :: t))) = some found ∧
      found.arrow.kind ≠ kind := by
  obtain ⟨p, rfl⟩ := hlabel
  obtain ⟨l, r, rfl, hl⟩ := List.eq_append_cons_of_mem ht
  set line := s ++ ' ' :: (kind.token ++ '|' :: ((p ++ k.token) ++ '|' :: ' ' :: (l ++ '|' :: r)))
    with hline
  have hfront : Rule.atFront? ⟨k, true⟩ (k.token ++ '|' :: ((' ' :: l) ++ '|' :: r)) =
      some (⟨k, some (' ' :: l)⟩, r) :=
    Rule.atFront?_labelled_iff.mpr ⟨' ' :: l, rfl, by simp, by simpa using hl, rfl⟩
  have hk1 : first? ⟨k, true⟩ line ≠ none := by
    rw [Ne, first?_eq_none_iff]
    intro hn
    have hu : k.token ++ '|' :: ((' ' :: l) ++ '|' :: r) <:+ line :=
      ⟨s ++ ' ' :: (kind.token ++ '|' :: p), by simp [hline]⟩
    rw [hn _ hu] at hfront
    cases hfront
  have hearly : (kind.before.findSome? fun k => first? ⟨k, true⟩ line).isSome := by
    rw [List.findSome?_isSome_iff]
    exact ⟨k, hk, Option.isSome_iff_ne_none.mpr hk1⟩
  obtain ⟨found, hfound⟩ := Option.isSome_iff_exists.mp hearly
  refine ⟨found, ?_, ?_⟩
  · obtain ⟨later, hall⟩ := kind.all_eq_before
    rw [find?_eq, hall, List.findSome?_append, hfound]
    rfl
  · obtain ⟨k', hk', hf⟩ := List.exists_of_findSome?_eq_some hfound
    rw [(first?_eq_some_iff.mp hf).1.admits.kind_eq]
    exact ArrowKind.ne_of_mem_before hk'

end ArrowMatch
end Flowchart
