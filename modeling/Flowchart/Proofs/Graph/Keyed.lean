import Flowchart.Graph.Keyed
import Mathlib.Data.List.Perm.Basic
import Mathlib.Tactic.Common

/-! What each operation on an ordered map does to the value under a key, and to the order of the
keys. -/
namespace Flowchart.Keyed

variable {α β : Type} {m : Keyed α} {key : String} {value : α}

theorem ext_entries {m n : Keyed α} (h : m.entries = n.entries) : m = n := by
  cases m
  cases n
  cases h
  rfl

@[simp] theorem find?_empty (k : String) : (empty : Keyed α).find? k = none := rfl

@[simp] theorem keys_empty : (empty : Keyed α).keys = [] := rfl

private theorem lookup?_cons (k : String) (v : α) (rest : List (String × α)) (key : String) :
    lookup? ((k, v) :: rest) key = if k = key then some v else lookup? rest key := by
  unfold lookup?
  by_cases h : k = key <;> simp [h]

private theorem lookup?_eq_none_iff {entries : List (String × α)} :
    lookup? entries key = none ↔ key ∉ entries.map (·.1) := by
  induction entries with
  | nil => simp [lookup?]
  | cons entry rest ih =>
    obtain ⟨k, v⟩ := entry
    rw [lookup?_cons, List.map_cons, List.mem_cons, not_or, ← ih]
    by_cases h : k = key
    · simp [h]
    · simp [h, Ne.symm h]

private theorem lookup?_eq_some_iff {entries : List (String × α)}
    (hn : (entries.map (·.1)).Nodup) : lookup? entries key = some value ↔ (key, value) ∈ entries := by
  induction entries with
  | nil => simp [lookup?]
  | cons entry rest ih =>
    obtain ⟨k, v⟩ := entry
    rw [List.map_cons, List.nodup_cons] at hn
    rw [lookup?_cons, List.mem_cons, Prod.mk.injEq]
    by_cases h : k = key
    · subst h
      have hrest : (k, value) ∉ rest := fun hm => hn.1 (List.mem_map.mpr ⟨_, hm, rfl⟩)
      simp [hrest, eq_comm]
    · simp [h, Ne.symm h, ih hn.2]

theorem find?_eq_some_iff : m.find? key = some value ↔ (key, value) ∈ m.entries :=
  lookup?_eq_some_iff m.nodup

theorem find?_eq_none_iff : m.find? key = none ↔ key ∉ m.keys :=
  lookup?_eq_none_iff

theorem isSome_find?_iff : (m.find? key).isSome ↔ key ∈ m.keys := by
  rw [← not_iff_not, Option.not_isSome_iff_eq_none, find?_eq_none_iff]

theorem contains_iff : m.contains key = true ↔ key ∈ m.keys := by
  rw [contains, List.contains_iff_mem]

theorem nodup_keys (m : Keyed α) : m.keys.Nodup := m.nodup

theorem mem_values_iff : value ∈ m.values ↔ ∃ key, m.find? key = some value := by
  simp only [values, List.mem_map, Prod.exists, exists_eq_right, find?_eq_some_iff]

/-- A map is known by its keys in order and the value under each of them. -/
theorem ext_find? {m n : Keyed α} (hk : m.keys = n.keys) (h : ∀ key, m.find? key = n.find? key) :
    m = n := by
  apply ext_entries
  have hentry : ∀ m : Keyed α, m.entries.map some = m.keys.map fun k => (m.find? k).map (k, ·) := by
    intro m
    rw [keys, List.map_map]
    refine List.map_congr_left fun entry he => ?_
    obtain ⟨k, v⟩ := entry
    simp [find?_eq_some_iff.mpr he]
  have hsome : m.entries.map some = n.entries.map some := by
    rw [hentry, hentry, hk]
    simp only [h]
  exact List.map_injective_iff.mpr (fun _ _ h => Option.some.inj h) hsome

section Insert

private theorem lookup?_put (entries : List (String × α)) (key : String) (value : α) (k : String) :
    lookup? (put entries key value) k = if key = k then some value else lookup? entries k := by
  induction entries with
  | nil => rw [put, lookup?_cons]
  | cons entry rest ih =>
    obtain ⟨a, v⟩ := entry
    rw [put]
    by_cases ha : a = key
    · subst ha
      rw [if_pos rfl, lookup?_cons, lookup?_cons]
      split_ifs <;> rfl
    · rw [if_neg ha, lookup?_cons, lookup?_cons, ih]
      split_ifs with h₁ h₂
      · exact absurd (h₁.trans h₂.symm) ha
      all_goals rfl

@[simp] theorem find?_insert (m : Keyed α) (key : String) (value : α) (k : String) :
    (m.insert key value).find? k = if key = k then some value else m.find? k :=
  lookup?_put m.entries key value k

theorem keys_insert (m : Keyed α) (key : String) (value : α) :
    (m.insert key value).keys = if key ∈ m.keys then m.keys else m.keys ++ [key] :=
  keys_put m.entries key value

@[simp] theorem mem_keys_insert {k : String} :
    k ∈ (m.insert key value).keys ↔ k = key ∨ k ∈ m.keys := by
  rw [keys_insert]
  split_ifs with h
  · constructor
    · exact .inr
    · rintro (rfl | hk)
      · exact h
      · exact hk
  · simp [or_comm]

private theorem put_of_not_mem {entries : List (String × α)} (h : key ∉ entries.map (·.1)) :
    put entries key value = entries ++ [(key, value)] := by
  induction entries with
  | nil => rfl
  | cons entry rest ih =>
    obtain ⟨k, v⟩ := entry
    rw [List.map_cons, List.mem_cons, not_or] at h
    rw [put, if_neg (Ne.symm h.1), ih h.2]
    rfl

theorem entries_insert_of_not_mem (h : key ∉ m.keys) (value : α) :
    (m.insert key value).entries = m.entries ++ [(key, value)] :=
  put_of_not_mem h

end Insert

section Erase

@[simp] theorem find?_erase (m : Keyed α) (key k : String) :
    (m.erase key).find? k = if k = key then none else m.find? k := by
  split_ifs with h
  · rw [find?_eq_none_iff]
    simp [keys, erase, h]
  · cases hf : m.find? k with
    | none =>
      rw [find?_eq_none_iff] at hf ⊢
      exact fun hk => hf ((List.filter_sublist.map _).subset hk)
    | some v =>
      rw [find?_eq_some_iff] at hf ⊢
      exact List.mem_filter.mpr ⟨hf, by simpa using h⟩

@[simp] theorem mem_keys_erase {k : String} : k ∈ (m.erase key).keys ↔ k ≠ key ∧ k ∈ m.keys := by
  rw [← isSome_find?_iff, ← isSome_find?_iff, find?_erase]
  split_ifs with h <;> simp [h]

end Erase

section Map

@[simp] theorem keys_mapValues (f : String → α → β) (m : Keyed α) :
    (m.mapValues f).keys = m.keys := by
  simp [keys, mapValues, List.map_map, Function.comp_def]

@[simp] theorem find?_mapValues (f : String → α → β) (m : Keyed α) (k : String) :
    (m.mapValues f).find? k = (m.find? k).map (f k) := by
  cases hf : m.find? k with
  | none =>
    rw [find?_eq_none_iff] at hf
    rw [Option.map_none, find?_eq_none_iff, keys_mapValues]
    exact hf
  | some v =>
    rw [find?_eq_some_iff] at hf
    rw [Option.map_some, find?_eq_some_iff]
    exact List.mem_map.mpr ⟨(k, v), hf, rfl⟩

@[simp] theorem keys_modify (m : Keyed α) (key : String) (f : α → α) :
    (m.modify key f).keys = m.keys :=
  keys_mapValues _ m

@[simp] theorem find?_modify (m : Keyed α) (key : String) (f : α → α) (k : String) :
    (m.modify key f).find? k = if k = key then (m.find? k).map f else m.find? k := by
  rw [modify, find?_mapValues]
  split_ifs with h <;> simp [h]

theorem modify_eq_self_iff {f : α → α} :
    m.modify key f = m ↔ ∀ value, m.find? key = some value → f value = value := by
  constructor
  · intro h value hv
    have hfound := find?_modify m key f key
    rw [h, if_pos rfl, hv] at hfound
    exact (Option.some.inj hfound).symm
  · intro h
    refine ext_find? (keys_modify m key f) fun k => ?_
    rw [find?_modify]
    split_ifs with hk
    · subst hk
      cases hv : m.find? k with
      | none => rfl
      | some value => exact congrArg some (h value hv)
    · rfl

theorem modify_modify (m : Keyed α) (key : String) (f g : α → α) :
    (m.modify key f).modify key g = m.modify key (g ∘ f) := by
  refine ext_find? (by simp) fun k => ?_
  rw [find?_modify, find?_modify, find?_modify]
  split_ifs
  · rw [Option.map_map]
  · rfl

end Map

section Fold

def addKey (keys : List String) (key : String) : List String :=
  if key ∈ keys then keys else keys ++ [key]

theorem keys_foldl {σ : Type} {step : Keyed α → σ → Keyed α} {name : σ → String}
    (h : ∀ m s, (step m s).keys = addKey m.keys (name s)) (l : List σ) (m : Keyed α) :
    (l.foldl step m).keys = (l.map name).foldl addKey m.keys := by
  induction l generalizing m with
  | nil => rfl
  | cons s l ih => rw [List.foldl_cons, ih, h, List.map_cons, List.foldl_cons]

/-- New keys come at the end, in the order of their first occurrence. -/
theorem foldl_addKey (added keys : List String) :
    added.foldl addKey keys = keys ++ (added.filter (· ∉ keys)).eraseDups := by
  induction added generalizing keys with
  | nil => simp
  | cons key added ih =>
    rw [List.foldl_cons, ih, addKey]
    split_ifs with hk
    · rw [List.filter_cons_of_neg (by simpa using hk)]
    · have hrest : added.filter (· ∉ keys ++ [key]) =
          (added.filter (· ∉ keys)).filter (fun k => !k == key) := by
        rw [List.filter_filter]
        refine List.filter_congr fun k _ => ?_
        simp [Bool.and_comm, Bool.beq_eq_decide_eq]
      rw [List.filter_cons_of_pos (by simpa using hk), List.eraseDups_cons, hrest,
        List.append_assoc, List.singleton_append]

theorem foldl_addKey_nil (added : List String) : added.foldl addKey [] = added.eraseDups := by
  simp [foldl_addKey]

theorem foldl_addKey_of_subset {keys added : List String} (h : ∀ key ∈ added, key ∈ keys) :
    added.foldl addKey keys = keys := by
  have hnone : added.filter (· ∉ keys) = [] := by
    rw [List.filter_eq_nil_iff]
    intro key hk
    simpa using h key hk
  rw [foldl_addKey, hnone, List.eraseDups_nil, List.append_nil]

theorem keys_ofValues (name : α → String) (values : List α) :
    (ofValues name values).keys = (values.map name).foldl addKey [] :=
  keys_foldl (fun m v => keys_insert m (name v) v) values empty

end Fold

section OfValues

variable {name : α → String}

/-- Every value stands under the key that it has itself. -/
def KeyedBy (name : α → String) (m : Keyed α) : Prop :=
  ∀ key value, m.find? key = some value → name value = key

theorem keyedBy_iff : KeyedBy name m ↔ ∀ entry ∈ m.entries, entry.1 = name entry.2 := by
  constructor
  · intro h entry he
    exact (h entry.1 entry.2 (find?_eq_some_iff.mpr he)).symm
  · intro h key value hf
    exact (h (key, value) (find?_eq_some_iff.mp hf)).symm

theorem KeyedBy.map_values (h : KeyedBy name m) : m.values.map name = m.keys := by
  rw [values, keys, List.map_map]
  exact List.map_congr_left fun entry he => (keyedBy_iff.mp h entry he).symm

theorem KeyedBy.insert (h : KeyedBy name m) (value : α) :
    KeyedBy name (m.insert (name value) value) := by
  intro k v hf
  rw [find?_insert] at hf
  split_ifs at hf with hk
  · cases hf
    exact hk
  · exact h k v hf

theorem entries_foldl_insert {values : List α}
    (hn : (m.keys ++ values.map name).Nodup) :
    (values.foldl (fun m v => m.insert (name v) v) m).entries =
      m.entries ++ values.map fun v => (name v, v) := by
  induction values generalizing m with
  | nil => simp
  | cons v values ih =>
    have hv : name v ∉ m.keys := by
      intro hk
      exact (List.nodup_append.mp hn).2.2 _ hk (name v) (by simp) rfl
    have hentries := entries_insert_of_not_mem hv v
    have hkeys : (m.insert (name v) v).keys = m.keys ++ [name v] := by rw [keys_insert, if_neg hv]
    rw [List.foldl_cons, ih, hentries]
    · simp
    · rw [hkeys]
      simpa using hn

theorem entries_ofValues {values : List α} (hn : (values.map name).Nodup) :
    (ofValues name values).entries = values.map fun v => (name v, v) := by
  rw [ofValues, entries_foldl_insert (by simpa using hn)]
  rfl

theorem find?_foldl_insert (values : List α) (m : Keyed α) (k : String) :
    (values.foldl (fun m v => m.insert (name v) v) m).find? k =
      (values.reverse.find? (name · = k)).or (m.find? k) := by
  induction values generalizing m with
  | nil => rfl
  | cons v values ih =>
    rw [List.foldl_cons, ih, find?_insert, List.reverse_cons, List.find?_append, Option.or_assoc]
    congr 1
    by_cases hk : name v = k <;> simp [hk]

/-- Of the values with a key the last one stands under it. -/
theorem find?_ofValues (values : List α) (k : String) :
    (ofValues name values).find? k = values.reverse.find? (name · = k) := by
  rw [ofValues, find?_foldl_insert, find?_empty, Option.or_none]

theorem mem_of_find?_ofValues {values : List α} {k : String}
    (h : (ofValues name values).find? k = some value) : value ∈ values ∧ name value = k := by
  rw [find?_ofValues] at h
  exact ⟨List.mem_reverse.mp (List.mem_of_find?_eq_some h), by simpa using List.find?_some h⟩

theorem values_ofValues_append {values added : List α} (hn : (added.map name).Nodup)
    (hnew : ∀ v ∈ added, name v ∉ values.map name) :
    (ofValues name (values ++ added)).values = (ofValues name values).values ++ added := by
  have hkeys : ((ofValues name values).keys ++ added.map name).Nodup := by
    refine List.nodup_append.mpr ⟨nodup_keys _, hn, ?_⟩
    rintro key hkey _ hadded rfl
    obtain ⟨old, hold⟩ := Option.isSome_iff_exists.mp (isSome_find?_iff.mpr hkey)
    obtain ⟨hmem, hname⟩ := mem_of_find?_ofValues hold
    obtain ⟨v, hv, hsame⟩ := List.mem_map.mp hadded
    exact hnew v hv (List.mem_map.mpr ⟨old, hmem, hname.trans hsame.symm⟩)
  rw [Keyed.values, ofValues, List.foldl_append]
  change ((added.foldl (fun m v => m.insert (name v) v) (ofValues name values)).entries).map _ = _
  rw [entries_foldl_insert hkeys]
  simp [Keyed.values, Function.comp_def]

theorem KeyedBy.ofValues_values (h : KeyedBy name m) : ofValues name m.values = m := by
  apply ext_entries
  rw [entries_ofValues (by rw [h.map_values]; exact m.nodup_keys), values, List.map_map]
  refine (List.map_congr_left fun entry he => ?_).trans (List.map_id _)
  exact Prod.ext (keyedBy_iff.mp h entry he).symm rfl

end OfValues

end Flowchart.Keyed
