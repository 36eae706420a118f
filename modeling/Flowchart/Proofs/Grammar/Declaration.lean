import Flowchart.Grammar.Declaration
import Flowchart.Proofs.Text.Lines
import Flowchart.Proofs.Text.Trim
import Mathlib.Tactic.Common

/-! Declarations between commas are read back, and the last usable one decides each field of a
style. -/
namespace Flowchart

namespace Text

theorem bounds_of_mem_capitalRuns :
    ∀ run ∈ capitalRuns, (65 ≤ run.1 ∧ run.2.1 ≤ 90) ∨ 192 ≤ run.1 := by
  decide +kernel

theorem lowerChar_eq_self {c : Char} (h : c.toNat < 65 ∨ 90 < c.toNat ∧ c.toNat < 192) :
    lowerChar c = [c] := by
  rw [lowerChar, if_neg (by omega)]
  split
  · next first last stride distance hfound =>
    have hbounds := bounds_of_mem_capitalRuns _ (List.mem_of_find?_eq_some hfound)
    have hfits := List.find?_some hfound
    simp only [Bool.and_eq_true, decide_eq_true_eq] at hbounds hfits
    omega
  · rfl

theorem lower_eq_self {s : List Char}
    (h : ∀ c ∈ s, c.toNat < 65 ∨ 90 < c.toNat ∧ c.toNat < 192) : lower s = s := by
  have hafter : ∀ before, lowerAfter before s = s := by
    induction s with
    | nil => exact fun _ => rfl
    | cons c s ih =>
      intro before
      have hc := h c List.mem_cons_self
      have hsigma : c ≠ capitalSigma := by
        rintro rfl
        exact absurd hc (by decide)
      rw [lowerAfter, if_neg hsigma, lowerChar_eq_self hc,
        ih fun d hd => h d (List.mem_cons_of_mem _ hd)]
      rfl
  exact hafter []

end Text

open Text

namespace Declaration

variable {s : List Char} {d : Declaration}

def toText (d : Declaration) : List Char :=
  d.name ++ ':' :: d.value

/-- The value can stand in a declaration: it is more than blanks, has none at its ends, and does not
end where a comma stands. -/
structure IsValue (value : List Char) : Prop where
  ne_nil : value ≠ []
  trimmed : trim value = value
  no_comma : ',' ∉ value

structure IsName (name : List Char) : Prop where
  ne_nil : name ≠ []
  lowered : lower (trim name) = name
  no_comma : ',' ∉ name
  no_colon : ':' ∉ name

instance (name : List Char) : Decidable (IsName name) :=
  decidable_of_iff (name ≠ [] ∧ lower (trim name) = name ∧ ',' ∉ name ∧ ':' ∉ name)
    ⟨fun ⟨h₁, h₂, h₃, h₄⟩ => ⟨h₁, h₂, h₃, h₄⟩, fun ⟨h₁, h₂, h₃, h₄⟩ => ⟨h₁, h₂, h₃, h₄⟩⟩

theorem splitAtColon?_append {name : List Char} (h : ':' ∉ name) (value : List Char) :
    splitAtColon? (name ++ ':' :: value) = some (name, value) := by
  induction name with
  | nil => rfl
  | cons c name ih =>
    rw [List.mem_cons, not_or] at h
    rw [List.cons_append, splitAtColon?, ih h.2]
    · rfl
    · exact fun hc => h.1 hc.symm

theorem splitAtColon?_sound {name value : List Char} (h : splitAtColon? s = some (name, value)) :
    s = name ++ ':' :: value := by
  induction s generalizing name value with
  | nil => cases h
  | cons c s ih =>
    by_cases hc : c = ':'
    · subst hc
      cases h
      rfl
    · rw [splitAtColon?] at h
      · obtain ⟨⟨n, v⟩, hs, he⟩ := Option.map_eq_some_iff.mp h
        cases he
        rw [ih hs]
        rfl
      · exact hc

theorem ofPart?_append {name : List Char} (hn : IsName name) (value : List Char) :
    ofPart? (name ++ ':' :: value) =
      if (trim value).isEmpty then none else some ⟨name, trim value⟩ := by
  simp [ofPart?, splitAtColon?_append hn.no_colon, hn.lowered, hn.ne_nil]

theorem ofPart?_toText (hn : IsName d.name) (hv : IsValue d.value) :
    ofPart? d.toText = some d := by
  have hne : d.value.isEmpty = false := by simpa using hv.ne_nil
  simp [toText, ofPart?_append hn, hv.trimmed, hne]

theorem comma_not_mem_toText (hn : IsName d.name) (hv : IsValue d.value) : ',' ∉ d.toText := by
  simp [toText, hn.no_comma, hv.no_comma]

theorem readAll_joinWith {parts : List (List Char)} (h : ∀ part ∈ parts, ',' ∉ part) :
    readAll (joinWith [','] parts) = parts.filterMap ofPart? := by
  cases parts with
  | nil => rfl
  | cons part parts => rw [readAll, splitAtChar_joinWith (by simp) h]

theorem readAll_toText {ds : List Declaration} (h : ∀ d ∈ ds, IsName d.name ∧ IsValue d.value) :
    readAll (joinWith [','] (ds.map toText)) = ds := by
  rw [readAll_joinWith]
  · rw [List.filterMap_map]
    have hid : ∀ d ∈ ds, (ofPart? ∘ toText) d = some d :=
      fun d hd => ofPart?_toText (h d hd).1 (h d hd).2
    rw [List.filterMap_congr hid, List.filterMap_some]
  · intro part hp
    obtain ⟨d, hd, rfl⟩ := List.mem_map.mp hp
    exact comma_not_mem_toText (h d hd).1 (h d hd).2

theorem isValue_of_mem_readAll (h : d ∈ readAll s) : IsValue d.value ∧ d.value ⊆ s := by
  obtain ⟨part, hp, hd⟩ := List.mem_filterMap.mp h
  obtain ⟨hcomma, hsub⟩ := mem_of_mem_splitAtChar hp
  simp only [ofPart?, Option.bind_eq_bind, Option.bind_eq_some_iff, Prod.exists] at hd
  obtain ⟨name, value, hsplit, hd⟩ := hd
  split_ifs at hd with he
  cases hd
  simp only [Bool.or_eq_true, List.isEmpty_iff, not_or] at he
  have hv : trim value ⊆ part := by
    intro c hc
    rw [splitAtColon?_sound hsplit]
    have := (trim_isInfix value).subset hc
    simp [this]
  exact ⟨⟨he.2, trim_trim value, fun hc => hcomma (hv hc)⟩, fun c hc => hsub (hv hc)⟩

section Fields

variable {P α : Type} {step : Declaration → P → P} {name : List Char} {get : P → Option α}
  {read : List Char → Option α}

/-- The field of a style change that the declarations of one name set, where their value is usable.
-/
def IsField (step : Declaration → P → P) (name : List Char) (get : P → Option α)
    (read : List Char → Option α) : Prop :=
  ∀ d p, get (step d p) = if d.name = name then (read d.value).or (get p) else get p

def lastUsable (name : List Char) (read : List Char → Option α) (ds : List Declaration) : Option α :=
  ds.reverse.findSome? fun d => if d.name = name then read d.value else none

theorem IsField.get_foldl (h : IsField step name get read) (ds : List Declaration) (p : P) :
    get (ds.foldl (fun p d => step d p) p) = (lastUsable name read ds).or (get p) := by
  induction ds generalizing p with
  | nil => rfl
  | cons d ds ih =>
    rw [List.foldl_cons, ih, h]
    simp only [lastUsable, List.reverse_cons, List.findSome?_append, List.findSome?_cons,
      List.findSome?_nil]
    split_ifs
    · cases ds.reverse.findSome? _ <;> cases read d.value <;> rfl
    · cases ds.reverse.findSome? _ <;> rfl

theorem lastUsable_append (ds es : List Declaration) :
    lastUsable name read (ds ++ es) = (lastUsable name read es).or (lastUsable name read ds) := by
  rw [lastUsable, List.reverse_append, List.findSome?_append]
  rfl

theorem IsField.getD_foldl_append (h : IsField step name get read) {p : P} (hp : get p = none)
    (ds es : List Declaration) (standard : α) :
    (get (es.foldl (fun p d => step d p) p)).getD ((lastUsable name read ds).getD standard) =
      (lastUsable name read (ds ++ es)).getD standard := by
  rw [h.get_foldl, hp, Option.or_none, lastUsable_append]
  cases lastUsable name read es <;> rfl

theorem IsField.exists_of_get_foldl {get : P → Option String}
    (h : IsField step name get (some <| String.ofList ·)) {p : P} (hp : get p = none)
    {ds : List Declaration} {text : String}
    (hget : get (ds.foldl (fun p d => step d p) p) = some text) :
    ∃ d ∈ ds, d.value = text.toList := by
  rw [h.get_foldl, hp, Option.or_none] at hget
  obtain ⟨d, hd, hread⟩ := List.exists_of_findSome?_eq_some hget
  split_ifs at hread
  obtain rfl := Option.some.inj hread
  exact ⟨d, List.mem_reverse.mp hd, by rw [String.toList_ofList]⟩

theorem lastUsable_filter (ds : List Declaration) :
    lastUsable name read (ds.filter (fun d => d.name = name)) = lastUsable name read ds := by
  unfold lastUsable
  rw [← List.filter_reverse]
  induction ds.reverse with
  | nil => rfl
  | cons d ds ih =>
    by_cases hd : d.name = name
    · simp [List.findSome?_cons, hd, ih]
    · simp [hd, ih]

theorem lastUsable_eq_none {ds : List Declaration} (h : ∀ d ∈ ds, d.name ≠ name) :
    lastUsable name read ds = none := by
  rw [lastUsable, List.findSome?_eq_none_iff]
  intro d hd
  rw [if_neg (h d (List.mem_reverse.mp hd))]

theorem lastUsable_eq_some {ds : List Declaration} {a : α} (hd : d ∈ ds) (hn : d.name = name)
    (hr : read d.value = some a) (hu : ∀ e ∈ ds, e.name = name → e = d) :
    lastUsable name read ds = some a := by
  have hsome : (lastUsable name read ds).isSome := by
    rw [lastUsable, List.findSome?_isSome_iff]
    exact ⟨d, List.mem_reverse.mpr hd, by simp [hn, hr]⟩
  obtain ⟨b, hb⟩ := Option.isSome_iff_exists.mp hsome
  obtain ⟨e, he, heb⟩ := List.exists_of_findSome?_eq_some hb
  split_ifs at heb with hen
  have := hu e (List.mem_reverse.mp he) hen
  rw [hb, ← heb, this, hr]

end Fields

end Declaration
end Flowchart
