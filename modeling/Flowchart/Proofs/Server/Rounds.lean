import Flowchart.Server.Pool
import Mathlib.Tactic.Common

/-! A call can be brought to its end whatever becomes of its deliveries: each one can begin and end, and
what is over stays over. -/
namespace Flowchart.Server.Traffic

variable {t : Traffic} {call j k l : Nat}

/-- The delivery, if there is one, is over. -/
def IsOverAt (t : Traffic) (call j : Nat) : Prop :=
  ∀ d ∈ t.delivery? call j, ∃ delivered, d.progress = .over delivered

theorem delivery?_setProgress (t : Traffic) (call j : Nat) (progress : Progress) (k l : Nat) :
    (t.setProgress call j progress).delivery? k l =
      if call = k ∧ j = l then (t.delivery? k l).map fun d => { d with progress }
      else t.delivery? k l := by
  unfold delivery? setProgress
  dsimp only
  rw [List.getElem?_modify]
  by_cases hk : call = k
  · cases t.calls[k]? with
    | none => simp
    | some c =>
      simp only [hk, if_true, Option.map_eq_map, Option.map_some, Option.bind_some, true_and,
        List.getElem?_modify]
      split_ifs <;> simp
  · simp [hk]

def begun (p : Pool) (client : Nat) : Progress → Progress
  | .queued => started p client
  | progress => progress

def ended (delivered : Bool) : Progress → Progress
  | .sending => .over delivered
  | progress => progress

section Advance

variable {f : Nat → Progress → Progress}

theorem delivery?_setProgress_eq {d : Delivery} (hd : t.delivery? call j = some d) (k l : Nat) :
    (t.setProgress call j (f d.client d.progress)).delivery? k l =
      if call = k ∧ j = l then
        (t.delivery? k l).map fun d => { d with progress := f d.client d.progress }
      else t.delivery? k l := by
  rw [delivery?_setProgress]
  split_ifs with hsame
  · rw [← hsame.1, ← hsame.2, hd]
    rfl
  · rfl

theorem delivery?_eq_of_unmoved (h : ∀ d ∈ t.delivery? call j, f d.client d.progress = d.progress)
    (k l : Nat) : t.delivery? k l =
      if call = k ∧ j = l then
        (t.delivery? k l).map fun d => { d with progress := f d.client d.progress }
      else t.delivery? k l := by
  split_ifs with hsame
  · obtain ⟨rfl, rfl⟩ := hsame
    cases hd : t.delivery? call j with
    | none => rfl
    | some d => rw [Option.map_some, h d hd]
  · rfl

end Advance

theorem delivery?_begin (t : Traffic) (call j k l : Nat) :
    (t.next (.begin call j)).delivery? k l =
      if call = k ∧ j = l then
        (t.delivery? k l).map fun d => { d with progress := begun t.pool d.client d.progress }
      else t.delivery? k l := by
  rw [Traffic.next]
  split
  · next client hd => exact delivery?_setProgress_eq (f := begun t.pool) hd k l
  · next hother =>
    refine delivery?_eq_of_unmoved (fun d hd => ?_) k l
    obtain ⟨client, progress⟩ := d
    cases progress with
    | queued => exact absurd hd (hother client)
    | _ => rfl

theorem delivery?_finish (t : Traffic) (call j k l : Nat) (delivered : Bool) :
    (t.next (.finish call j delivered)).delivery? k l =
      if call = k ∧ j = l then
        (t.delivery? k l).map fun d => { d with progress := ended delivered d.progress }
      else t.delivery? k l := by
  rw [Traffic.next]
  split
  · next client hd =>
    rw [← delivery?_setProgress_eq (f := fun _ => ended delivered) hd k l]
    dsimp only
    split_ifs <;> rfl
  · next hother =>
    refine delivery?_eq_of_unmoved (f := fun _ => ended delivered) (fun d hd => ?_) k l
    obtain ⟨client, progress⟩ := d
    cases progress with
    | sending => exact absurd hd (hother client)
    | _ => rfl

/-- What is over stays over, whatever begins and ends. -/
theorem IsOverAt.round (h : t.IsOverAt k l) (call j : Nat) (delivered : Bool) :
    ((t.next (.begin call j)).next (.finish call j delivered)).IsOverAt k l := by
  intro d hd
  rw [delivery?_finish, delivery?_begin] at hd
  cases hold : t.delivery? k l with
  | none => simp [hold] at hd
  | some old =>
    obtain ⟨result, hover⟩ := h old hold
    have hsame : d.progress = old.progress := by
      rw [hold] at hd
      split_ifs at hd <;> cases hd
      · simp [hover, begun, ended]
      · rfl
    exact ⟨result, hsame.trans hover⟩

theorem exists_ended_begun (p : Pool) (client : Nat) (delivered : Bool) (progress : Progress) :
    ∃ result, ended delivered (begun p client progress) = .over result := by
  cases progress with
  | queued =>
    unfold begun started
    split_ifs
    · exact ⟨delivered, rfl⟩
    · exact ⟨false, rfl⟩
  | sending => exact ⟨delivered, rfl⟩
  | «over» result => exact ⟨result, rfl⟩

/-- However it stands, a delivery that may begin and end is over. -/
theorem isOverAt_round (t : Traffic) (call j : Nat) (delivered : Bool) :
    ((t.next (.begin call j)).next (.finish call j delivered)).IsOverAt call j := by
  intro d hd
  rw [delivery?_finish, delivery?_begin, if_pos ⟨rfl, rfl⟩, if_pos ⟨rfl, rfl⟩, Option.map_map] at hd
  obtain ⟨old, -, rfl⟩ := Option.map_eq_some_iff.mp hd
  exact exists_ended_begun t.pool old.client delivered old.progress

/-- The first deliveries of a call may begin and end one after the other, each with an outcome of its
own. -/
def rounds (call : Nat) (outcome : Nat → Bool) (n : Nat) : List Event :=
  (List.range n).flatMap fun j => [.begin call j, .finish call j (outcome j)]

theorem rounds_succ (call : Nat) (outcome : Nat → Bool) (n : Nat) :
    rounds call outcome (n + 1) =
      rounds call outcome n ++ [.begin call n, .finish call n (outcome n)] := by
  simp [rounds, List.range_succ]

theorem isOverAt_rounds (t : Traffic) (call : Nat) (outcome : Nat → Bool) {n j : Nat} (hj : j < n) :
    (t.run (rounds call outcome n)).IsOverAt call j := by
  induction n with
  | zero => exact absurd hj (Nat.not_lt_zero j)
  | succ n ih =>
    have hrun : t.run (rounds call outcome (n + 1)) =
        ((t.run (rounds call outcome n)).next (.begin call n)).next
          (.finish call n (outcome n)) := by
      rw [rounds_succ, run, List.foldl_append]
      rfl
    rw [hrun]
    rcases Nat.lt_succ_iff_lt_or_eq.mp hj with hlt | rfl
    · exact (ih hlt).round call n (outcome n)
    · exact isOverAt_round _ call j (outcome j)

end Flowchart.Server.Traffic
