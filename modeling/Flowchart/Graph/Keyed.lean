/-!
Ordered maps: entries in the order of their first insertion, each key once.
-/
namespace Flowchart

structure Keyed (α : Type) where
  entries : List (String × α)
  nodup : (entries.map (·.1)).Nodup

namespace Keyed

variable {α : Type}

def empty : Keyed α := ⟨[], by simp⟩

instance : Inhabited (Keyed α) := ⟨empty⟩

def keys (m : Keyed α) : List String :=
  m.entries.map (·.1)

def values (m : Keyed α) : List α :=
  m.entries.map (·.2)

def lookup? (entries : List (String × α)) (key : String) : Option α :=
  (entries.find? (·.1 == key)).map (·.2)

def find? (m : Keyed α) (key : String) : Option α :=
  lookup? m.entries key

def contains (m : Keyed α) (key : String) : Bool :=
  m.keys.contains key

/-- Overwrites the value of a key where it stands, or adds the entry at the end. -/
def put (entries : List (String × α)) (key : String) (value : α) : List (String × α) :=
  match entries with
  | [] => [(key, value)]
  | (k, v) :: rest => if k = key then (key, value) :: rest else (k, v) :: put rest key value

theorem keys_put (entries : List (String × α)) (key : String) (value : α) :
    (put entries key value).map (·.1) =
      if key ∈ entries.map (·.1) then entries.map (·.1) else entries.map (·.1) ++ [key] := by
  induction entries with
  | nil => simp [put]
  | cons entry rest ih =>
    obtain ⟨k, v⟩ := entry
    by_cases hk : k = key
    · simp [put, hk]
    · have hk' : key ≠ k := fun h => hk h.symm
      simp only [put, hk, if_false, List.map_cons, ih, List.mem_cons, hk', false_or]
      split <;> simp

private theorem nodup_put {entries : List (String × α)} (h : (entries.map (·.1)).Nodup)
    (key : String) (value : α) : ((put entries key value).map (·.1)).Nodup := by
  rw [keys_put]
  split
  · exact h
  · next hk =>
    refine List.nodup_append.2 ⟨h, by simp, ?_⟩
    intro a ha b hb
    simp only [List.mem_singleton] at hb
    rintro rfl
    exact hk (hb ▸ ha)

/-- The map with a value under a key. A known key keeps its place. -/
def insert (m : Keyed α) (key : String) (value : α) : Keyed α :=
  ⟨put m.entries key value, nodup_put m.nodup key value⟩

def erase (m : Keyed α) (key : String) : Keyed α :=
  ⟨m.entries.filter (·.1 != key), m.nodup.sublist ((List.filter_sublist).map _)⟩

def mapValues {β : Type} (f : String → α → β) (m : Keyed α) : Keyed β :=
  ⟨m.entries.map fun (k, v) => (k, f k v), by
    have : (m.entries.map fun (k, v) => (k, f k v)).map (·.1) = m.entries.map (·.1) := by
      simp [List.map_map, Function.comp_def]
    rw [this]; exact m.nodup⟩

def modify (m : Keyed α) (key : String) (f : α → α) : Keyed α :=
  m.mapValues fun k v => if k = key then f v else v

/-- Inserts values one after the other, each under its own key. -/
def ofValues (key : α → String) (values : List α) : Keyed α :=
  values.foldl (fun m v => m.insert (key v) v) empty

end Keyed
end Flowchart
