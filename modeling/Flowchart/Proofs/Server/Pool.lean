import Flowchart.Proofs.Server.Rounds
import Mathlib.Data.List.Induction
import Mathlib.Data.List.Nodup

/-! The clients of the pool are those that joined and that nothing has removed since: neither their own
leave nor a failed delivery to them. A broadcast is tried with every client that it found and that is not
removed meanwhile, and it counts the deliveries that succeed. -/
namespace Flowchart.Server

/-- What a bystander sees of the traffic. -/
inductive Incident
  | joined (client : Nat)
  | left (client : Nat)
  /-- A broadcast begins, for the clients that are connected. -/
  | told (call : Nat) (message : Message) (clients : List Nat)
  /-- The socket of a client has reported the end of a delivery. -/
  | sent (call client : Nat) (delivered : Bool)
deriving DecidableEq

namespace Incident

def Removes (client : Nat) : Incident → Prop
  | left other => other = client
  | sent _ other delivered => other = client ∧ delivered = false
  | _ => False

def joins (log : List Incident) : List Nat :=
  log.filterMap fun i =>
    match i with
    | joined client => some client
    | _ => none

/-- The client joined, and nothing has removed it since. -/
def Stays (log : List Incident) (client : Nat) : Prop :=
  ∃ before after, log = before ++ joined client :: after ∧ ∀ i ∈ after, ¬i.Removes client

/-- The client was removed after a broadcast began. -/
def GoneSince (log : List Incident) (call client : Nat) : Prop :=
  ∃ before message clients after, log = before ++ told call message clients :: after ∧
    ∃ i ∈ after, i.Removes client

section Log

variable {log : List Incident} {i : Incident} {client call : Nat}

theorem joins_concat_joined : joins (log ++ [joined client]) = joins log ++ [client] := by
  simp [joins]

theorem joins_concat_of_ne (hi : ∀ client, i ≠ joined client) : joins (log ++ [i]) = joins log := by
  cases i with
  | joined client => exact absurd rfl (hi client)
  | _ => simp [joins]

theorem split_concat {before after : List Incident} {other : Incident}
    (h : log ++ [i] = before ++ other :: after) :
    (log = before ∧ i = other) ∨ ∃ rest, after = rest ++ [i] ∧ log = before ++ other :: rest := by
  rcases List.eq_nil_or_concat after with rfl | ⟨rest, last, rfl⟩
  · obtain ⟨hlog, hi⟩ := List.append_inj' h rfl
    exact .inl ⟨hlog, List.singleton_inj.mp hi⟩
  · rw [List.concat_eq_append, ← List.cons_append, ← List.append_assoc] at h
    obtain ⟨hlog, hi⟩ := List.append_inj' h rfl
    rw [List.singleton_inj.mp hi, List.concat_eq_append]
    exact .inr ⟨rest, rfl, hlog⟩

theorem stays_concat :
    Stays (log ++ [i]) client ↔ i = joined client ∨ (Stays log client ∧ ¬i.Removes client) := by
  constructor
  · rintro ⟨before, after, hsplit, hafter⟩
    rcases split_concat hsplit with ⟨-, hi⟩ | ⟨rest, rfl, hlog⟩
    · exact .inl hi
    · refine .inr ⟨⟨before, rest, hlog, fun j hj => hafter j ?_⟩, hafter i ?_⟩
      · exact List.mem_append_left _ hj
      · exact List.mem_append_right _ (List.mem_singleton.mpr rfl)
  · rintro (rfl | ⟨⟨before, after, rfl, hafter⟩, hi⟩)
    · exact ⟨log, [], rfl, by simp⟩
    · refine ⟨before, after ++ [i], by simp, fun j hj => ?_⟩
      rcases List.mem_append.mp hj with hj | hj
      · exact hafter j hj
      · rwa [List.mem_singleton.mp hj]

theorem GoneSince.concat (h : GoneSince log call client) (i : Incident) :
    GoneSince (log ++ [i]) call client := by
  obtain ⟨before, message, clients, after, rfl, j, hj, hremoves⟩ := h
  exact ⟨before, message, clients, after ++ [i], by simp, j, List.mem_append_left _ hj, hremoves⟩

/-- A client that was in the pool when a broadcast began, and is not any more, is gone since. -/
theorem goneSince_of_not_stays {before after : List Incident} {message : Message}
    {clients : List Nat} (hlog : log = before ++ told call message clients :: after)
    (hbefore : Stays before client) (hnow : ¬Stays log client) : GoneSince log call client := by
  refine ⟨before, message, clients, after, hlog, ?_⟩
  by_contra hnone
  obtain ⟨first, rest, rfl, hrest⟩ := hbefore
  refine hnow ⟨first, rest ++ told call message clients :: after, by simp [hlog], fun j hj => ?_⟩
  rcases List.mem_append.mp hj with hj | hj
  · exact hrest j hj
  · rcases List.mem_cons.mp hj with rfl | hj
    · exact id
    · exact fun hremoves => hnone ⟨j, hj, hremoves⟩

end Log

end Incident

open Incident

/-- What the log says of a delivery: it has not been reported, it has reached the client, or it has
failed, unless the client was gone when it was to begin. -/
def Delivery.Agrees (d : Delivery) (log : List Incident) (call : Nat) : Prop :=
  match d.progress with
  | .over true => sent call d.client true ∈ log
  | .over false => sent call d.client true ∉ log ∧
      (sent call d.client false ∈ log ∨
        ∀ message clients, told call message clients ∈ log → GoneSince log call d.client)
  | _ => ∀ delivered, sent call d.client delivered ∉ log

namespace Traffic

/-- What is seen of an event. -/
def incidents (t : Traffic) : Event → List Incident
  | .knock => []
  | .enroll => if t.handshakes = 0 then [] else [joined t.pool.nextId]
  | .leave client => [left client]
  | .send _ _ => []
  | .broadcast message => [told t.calls.length message t.pool.clients]
  | .begin _ _ => []
  | .finish call delivery delivered =>
    match t.delivery? call delivery with
    | some ⟨client, .sending⟩ => [sent call client delivered]
    | _ => []

/-- The traffic after events since its start, with what was seen of it. -/
def history (events : List Event) : Traffic × List Incident :=
  events.foldl (fun (t, log) event => (t.next event, log ++ t.incidents event)) (quiet .empty, [])

theorem history_concat (events : List Event) (event : Event) :
    history (events ++ [event]) =
      ((history events).1.next event,
        (history events).2 ++ (history events).1.incidents event) := by
  rw [history, List.foldl_append]
  rfl

end Traffic

/-- The pool is that of the log, and so was what each broadcast found. -/
structure Pool.Tracks (p : Pool) (log : List Incident) : Prop where
  increasing : (joins log).Pairwise (· < ·)
  fresh : ∀ client ∈ joins log, client < p.nextId
  sorted : p.clients.Pairwise (· < ·)
  clients : ∀ client, client ∈ p.clients ↔ Stays log client
  snapshots : ∀ before call message clients after,
    log = before ++ told call message clients :: after →
      clients.Pairwise (· < ·) ∧ ∀ client, client ∈ clients ↔ Stays before client

/-- The calls are those that the log knows of, and stand as it says. -/
structure TracksCalls (calls : List Call) (log : List Incident) : Prop where
  begun : ∀ call message clients, told call message clients ∈ log →
    ∃ c : Call, calls[call]? = some c ∧ c.message = message ∧
      c.deliveries.map Delivery.client = clients
  known : ∀ call client delivered, sent call client delivered ∈ log → call < calls.length
  nodup : ∀ (call : Nat) (c : Call), calls[call]? = some c →
    (c.deliveries.map Delivery.client).Nodup
  agrees : ∀ (call : Nat) (c : Call), calls[call]? = some c → ∀ d ∈ c.deliveries, d.Agrees log call

namespace Pool.Tracks

variable {p : Pool} {log : List Incident} {i : Incident}

theorem snapshots_concat (h : p.Tracks log) (hlast : ∀ call message clients,
      i = told call message clients →
        clients.Pairwise (· < ·) ∧ ∀ client, client ∈ clients ↔ Stays log client) :
    ∀ before call message clients after,
      log ++ [i] = before ++ told call message clients :: after →
        clients.Pairwise (· < ·) ∧ ∀ client, client ∈ clients ↔ Stays before client := by
  intro before call message clients after hsplit
  rcases split_concat hsplit with ⟨rfl, hi⟩ | ⟨rest, -, hlog⟩
  · exact hlast call message clients hi
  · exact h.snapshots before call message clients rest hlog

theorem mem_lt (h : p.Tracks log) {client : Nat} (hc : client ∈ p.clients) : client < p.nextId := by
  obtain ⟨before, after, rfl, -⟩ := (h.clients client).mp hc
  exact h.fresh client (by simp [joins])

theorem enroll (h : p.Tracks log) : p.enroll.2.Tracks (log ++ [joined p.nextId]) where
  increasing := by
    rw [joins_concat_joined, List.pairwise_append]
    refine ⟨h.increasing, List.pairwise_singleton _ _, fun a ha b hb => ?_⟩
    rw [List.mem_singleton.mp hb]
    exact h.fresh a ha
  fresh := by
    intro client hc
    rw [joins_concat_joined, List.mem_append, List.mem_singleton] at hc
    rcases hc with hc | rfl
    · exact Nat.lt_succ_of_lt (h.fresh client hc)
    · exact Nat.lt_succ_self _
  sorted := by
    refine List.pairwise_append.mpr ⟨h.sorted, List.pairwise_singleton _ _, fun a ha b hb => ?_⟩
    rw [List.mem_singleton.mp hb]
    exact h.mem_lt ha
  clients := by
    intro client
    rw [Pool.enroll, List.mem_append, List.mem_singleton, stays_concat, h.clients]
    simp [Removes, eq_comm, or_comm]
  snapshots := h.snapshots_concat (by simp)

theorem drop (h : p.Tracks log) {client : Nat} (hjoined : ∀ other, i ≠ joined other)
    (hi : ∀ other, i.Removes other ↔ other = client) : (p.drop client).Tracks (log ++ [i]) where
  increasing := by rw [joins_concat_of_ne hjoined]; exact h.increasing
  fresh := by rw [joins_concat_of_ne hjoined]; exact h.fresh
  sorted := h.sorted.filter _
  clients := by
    intro other
    rw [Pool.drop, List.mem_filter, stays_concat, hi, h.clients]
    simp [hjoined]
  snapshots := h.snapshots_concat fun call message clients htold => by
    subst htold
    exact absurd ((hi client).mpr rfl) id

theorem note (h : p.Tracks log) (hjoined : ∀ client, i ≠ joined client)
    (hi : ∀ client, ¬i.Removes client)
    (htold : ∀ call message clients, i = told call message clients → clients = p.clients) :
    p.Tracks (log ++ [i]) where
  increasing := by rw [joins_concat_of_ne hjoined]; exact h.increasing
  fresh := by rw [joins_concat_of_ne hjoined]; exact h.fresh
  sorted := h.sorted
  clients := by
    intro client
    rw [stays_concat, h.clients]
    simp [hjoined, hi]
  snapshots := h.snapshots_concat fun call message clients hi => by
    rw [htold call message clients hi]
    exact ⟨h.sorted, h.clients⟩

end Pool.Tracks

section Calls

variable {calls : List Call} {log log' : List Incident} {i : Incident} {d : Delivery} {call : Nat}

private theorem mem_of_mem_concat {α : Type} {l : List α} {a b : α} (h : a ∈ l ++ [b]) (hne : b ≠ a) :
    a ∈ l :=
  (List.mem_append.mp h).resolve_right fun hlast => hne (List.mem_singleton.mp hlast).symm

private theorem getElem?_concat_cases {α : Type} {l : List α} {a b : α} {k : Nat}
    (h : (l ++ [a])[k]? = some b) : l[k]? = some b ∨ (k = l.length ∧ b = a) := by
  rw [List.getElem?_append] at h
  split_ifs at h with hlt
  · exact .inl h
  · obtain ⟨hlast, hget⟩ := List.getElem?_eq_some_iff.mp h
    have hk : k = l.length := by
      rw [List.length_singleton] at hlast
      omega
    exact .inr ⟨hk, by simpa using hget.symm⟩

/-- What is seen later says nothing of a delivery that it is not about. -/
theorem Delivery.Agrees.concat (h : d.Agrees log call)
    (hsent : ∀ delivered, i ≠ sent call d.client delivered)
    (htold : ∀ message clients, i ≠ told call message clients) : d.Agrees (log ++ [i]) call := by
  have hmem : ∀ delivered, sent call d.client delivered ∈ log ++ [i] ↔
      sent call d.client delivered ∈ log := by
    intro delivered
    simp [(hsent delivered).symm]
  obtain ⟨client, progress⟩ := d
  cases progress with
  | queued => exact fun delivered => (hmem delivered).not.mpr (h delivered)
  | sending => exact fun delivered => (hmem delivered).not.mpr (h delivered)
  | «over» delivered =>
    cases delivered with
    | true => exact (hmem true).mpr h
    | false =>
      refine ⟨(hmem true).not.mpr h.1, h.2.imp (hmem false).mpr fun hgone message clients hmem => ?_⟩
      exact (hgone message clients (mem_of_mem_concat hmem (htold message clients))).concat i

theorem Delivery.Agrees.grow {k client : Nat} (h : d.Agrees log k)
    (hlog : log' = log ∨ ∃ delivered, log' = log ++ [sent call client delivered])
    (hother : k = call → d.client ≠ client) : d.Agrees log' k := by
  rcases hlog with rfl | ⟨delivered, rfl⟩
  · exact h
  · refine h.concat (fun _ hsame => ?_) (by simp)
    simp only [Incident.sent.injEq] at hsame
    exact hother hsame.1.symm hsame.2.1.symm

def Call.moved (c : Call) (j : Nat) (progress : Progress) : Call :=
  { c with deliveries := c.deliveries.modify j fun d => { d with progress } }

theorem Call.clients_moved (c : Call) (j : Nat) (progress : Progress) :
    (c.moved j progress).deliveries.map Delivery.client = c.deliveries.map Delivery.client := by
  refine List.ext_getElem? fun k => ?_
  rw [moved, List.getElem?_map, List.getElem?_map, List.getElem?_modify]
  split_ifs
  · cases c.deliveries[k]? <;> rfl
  · rw [id_map']

theorem getElem?_modify_eq_some_iff {α : Type} {l : List α} {f : α → α} {j k : Nat} {a : α} :
    (l.modify j f)[k]? = some a ↔ ∃ old, l[k]? = some old ∧ a = if j = k then f old else old := by
  rw [List.getElem?_modify]
  split_ifs <;> cases l[k]? <;> simp [eq_comm]

theorem Call.mem_moved {c : Call} {j : Nat} {progress : Progress} {d₀ : Delivery}
    (hn : (c.deliveries.map Delivery.client).Nodup) (hj : c.deliveries[j]? = some d₀)
    (hd : d ∈ (c.moved j progress).deliveries) :
    d = { d₀ with progress } ∨ (d ∈ c.deliveries ∧ d.client ≠ d₀.client) := by
  obtain ⟨k, hk⟩ := List.mem_iff_getElem?.mp hd
  obtain ⟨old, hold, rfl⟩ := getElem?_modify_eq_some_iff.mp hk
  split_ifs with hjk
  · subst hjk
    rw [hj] at hold
    cases hold
    exact .inl rfl
  · refine .inr ⟨List.mem_of_getElem? hold, fun hsame => hjk ?_⟩
    have hlt : j < (c.deliveries.map Delivery.client).length := by
      rw [List.length_map]
      exact (List.getElem?_eq_some_iff.mp hj).1
    refine (List.getElem?_inj hlt hn).mp ?_
    rw [List.getElem?_map, List.getElem?_map, hj, hold, Option.map_some, Option.map_some, hsame]

namespace TracksCalls

theorem note (h : TracksCalls calls log)
    (hsent : ∀ call client delivered, i ≠ sent call client delivered)
    (htold : ∀ call message clients, i ≠ told call message clients) :
    TracksCalls calls (log ++ [i]) where
  begun := fun call message clients hmem =>
    h.begun call message clients (mem_of_mem_concat hmem (htold call message clients))
  known := fun call client delivered hmem =>
    h.known call client delivered (mem_of_mem_concat hmem (hsent call client delivered))
  nodup := h.nodup
  agrees := fun call c hc d hd => (h.agrees call c hc d hd).concat (hsent call d.client) (htold call)

theorem append (h : TracksCalls calls log) {c : Call}
    (hlog : log' = log ∨
      log' = log ++ [told calls.length c.message (c.deliveries.map Delivery.client)])
    (hn : (c.deliveries.map Delivery.client).Nodup)
    (hc : ∀ d ∈ c.deliveries, d.Agrees log' calls.length) :
    TracksCalls (calls ++ [c]) log' := by
  have hsent : ∀ call client delivered, sent call client delivered ∈ log' →
      sent call client delivered ∈ log := by
    rcases hlog with rfl | rfl <;> simp
  constructor
  · intro call message clients hmem
    have hmem' : told call message clients ∈ log ∨ (call = calls.length ∧
        message = c.message ∧ clients = c.deliveries.map Delivery.client) := by
      rcases hlog with rfl | rfl
      · exact .inl hmem
      · simpa using hmem
    rcases hmem' with hmem | ⟨rfl, rfl, rfl⟩
    · obtain ⟨other, hother, hbegun⟩ := h.begun call message clients hmem
      have hlt := (List.getElem?_eq_some_iff.mp hother).1
      exact ⟨other, (List.getElem?_append_left hlt).trans hother, hbegun⟩
    · exact ⟨c, List.getElem?_concat_length, rfl, rfl⟩
  · intro call client delivered hmem
    have hlt := h.known call client delivered (hsent _ _ _ hmem)
    rw [List.length_append]
    exact Nat.lt_add_right _ hlt
  · intro call other hother
    rcases getElem?_concat_cases hother with hother | ⟨-, rfl⟩
    · exact h.nodup call other hother
    · exact hn
  · intro call other hother d hd
    rcases getElem?_concat_cases hother with hother | ⟨rfl, rfl⟩
    · have hagrees := h.agrees call other hother d hd
      rcases hlog with rfl | rfl
      · exact hagrees
      · refine hagrees.concat (by simp) fun message clients htold => ?_
        cases htold
        exact absurd (List.getElem?_eq_some_iff.mp hother).1 (Nat.lt_irrefl _)
    · exact hc d hd

theorem setProgress (h : TracksCalls calls log) {c : Call} {j : Nat} {progress : Progress}
    (hc : calls[call]? = some c) (hd : c.deliveries[j]? = some d)
    (hlog : log' = log ∨ ∃ delivered, log' = log ++ [sent call d.client delivered])
    (hnew : Delivery.Agrees { d with progress } log' call) :
    TracksCalls (calls.modify call (·.moved j progress)) log' := by
  constructor
  · intro k message clients hmem
    have htold : told k message clients ∈ log := by
      rcases hlog with rfl | ⟨delivered, rfl⟩
      · exact hmem
      · exact mem_of_mem_concat hmem nofun
    obtain ⟨old, hget, hmessage, hmap⟩ := h.begun k message clients htold
    refine ⟨_, getElem?_modify_eq_some_iff.mpr ⟨old, hget, rfl⟩, ?_⟩
    split_ifs
    · exact ⟨hmessage, by rw [Call.clients_moved, hmap]⟩
    · exact ⟨hmessage, hmap⟩
  · intro k client delivered hmem
    rw [List.length_modify]
    rcases hlog with rfl | ⟨_, rfl⟩
    · exact h.known k client delivered hmem
    · rcases List.mem_append.mp hmem with hmem | hmem
      · exact h.known k client delivered hmem
      · cases List.mem_singleton.mp hmem
        exact (List.getElem?_eq_some_iff.mp hc).1
  · intro k other hother
    obtain ⟨old, hget, rfl⟩ := getElem?_modify_eq_some_iff.mp hother
    split_ifs
    · rw [Call.clients_moved]
      exact h.nodup k old hget
    · exact h.nodup k old hget
  · intro k other hother d' hd'
    obtain ⟨old, hget, rfl⟩ := getElem?_modify_eq_some_iff.mp hother
    split_ifs at hd' with hk
    · subst hk
      rw [hc] at hget
      cases hget
      rcases Call.mem_moved (h.nodup call c hc) hd hd' with rfl | ⟨hmem, hclient⟩
      · exact hnew
      · exact (h.agrees call c hc d' hmem).grow hlog fun _ => hclient
    · exact (h.agrees k old hget d' hd').grow hlog fun hsame => absurd hsame.symm hk

end TracksCalls

end Calls

namespace Traffic

/-- The pool and the calls are those of the log. -/
structure Tracks (t : Traffic) (log : List Incident) : Prop where
  pool : t.pool.Tracks log
  calls : TracksCalls t.calls log

theorem delivery?_eq_some_iff {t : Traffic} {call j : Nat} {d : Delivery} :
    t.delivery? call j = some d ↔ ∃ c : Call, t.calls[call]? = some c ∧ c.deliveries[j]? = some d := by
  rw [delivery?, Option.bind_eq_some_iff]

namespace Tracks

variable {t : Traffic} {log : List Incident}

theorem sendTo (h : t.Tracks log) (client : Nat) (message : Message) :
    (t.sendTo client message).Tracks log := by
  refine ⟨h.pool, h.calls.append (.inl rfl) (List.nodup_singleton _) fun d hd => ?_⟩
  have hunknown : ∀ client delivered, sent t.calls.length client delivered ∉ log :=
    fun client delivered hmem => absurd (h.calls.known _ client delivered hmem) (Nat.lt_irrefl _)
  rw [List.mem_singleton.mp hd, started]
  split_ifs
  · exact hunknown client
  · refine ⟨hunknown client true, .inr fun message clients hmem => ?_⟩
    obtain ⟨c, hc, -⟩ := h.calls.begun _ message clients hmem
    exact absurd (List.getElem?_eq_some_iff.mp hc).1 (Nat.lt_irrefl _)

theorem enroll (h : t.Tracks log) : Tracks { t with pool := t.pool.enroll.2 } (log ++ [joined t.pool.nextId]) :=
  ⟨h.pool.enroll, h.calls.note (by simp) (by simp)⟩

theorem broadcast (h : t.Tracks log) (message : Message) :
    (t.next (.broadcast message)).Tracks
      (log ++ [told t.calls.length message t.pool.clients]) := by
  have hclients : (t.pool.clients.map (⟨·, .queued⟩)).map Delivery.client = t.pool.clients := by
    simp [Function.comp_def]
  refine ⟨h.pool.note (by simp) (fun _ => id) (by simp), h.calls.append (.inr ?_) ?_ ?_⟩
  · rw [hclients]
  · rw [hclients]
    exact h.pool.sorted.imp Nat.ne_of_lt
  · intro d hd
    obtain ⟨client, -, rfl⟩ := List.mem_map.mp hd
    intro delivered hmem
    have hknown := h.calls.known _ client delivered (by simpa using hmem)
    exact absurd hknown (Nat.lt_irrefl _)

theorem beginDelivery (h : t.Tracks log) {call j : Nat} {client : Nat}
    (hd : t.delivery? call j = some ⟨client, .queued⟩) :
    (t.setProgress call j (started t.pool client)).Tracks log := by
  obtain ⟨c, hc, hj⟩ := delivery?_eq_some_iff.mp hd
  have hqueued := h.calls.agrees call c hc _ (List.mem_of_getElem? hj)
  refine ⟨h.pool, h.calls.setProgress hc hj (.inl rfl) ?_⟩
  rw [started]
  split_ifs with hpool
  · exact hqueued
  · refine ⟨hqueued true, .inr fun message clients hmem => ?_⟩
    obtain ⟨before, after, hlog⟩ := List.append_of_mem hmem
    obtain ⟨c', hc', -, hclients⟩ := h.calls.begun call message clients hmem
    rw [hc] at hc'
    cases hc'
    have hmember : client ∈ clients := by
      rw [← hclients]
      exact List.mem_map_of_mem (List.mem_of_getElem? hj)
    refine goneSince_of_not_stays hlog
      (((h.pool.snapshots before call message clients after hlog).2 client).mp hmember) ?_
    rw [← h.pool.clients]
    simpa using hpool

/-- A delivery ends. If it failed, its client is removed, and no other one. -/
theorem finishDelivery (h : t.Tracks log) {call j client : Nat} (delivered : Bool)
    (hd : t.delivery? call j = some ⟨client, .sending⟩) :
    (t.next (.finish call j delivered)).Tracks (log ++ [sent call client delivered]) := by
  obtain ⟨c, hc, hj⟩ := delivery?_eq_some_iff.mp hd
  have hsending := h.calls.agrees call c hc _ (List.mem_of_getElem? hj)
  have hcalls : TracksCalls (t.setProgress call j (.over delivered)).calls
      (log ++ [sent call client delivered]) := by
    refine h.calls.setProgress hc hj (.inr ⟨delivered, rfl⟩) ?_
    cases delivered with
    | true => simp [Delivery.Agrees]
    | false => exact ⟨by simpa using hsending true, .inl (by simp)⟩
  simp only [next, hd]
  cases delivered with
  | true => exact ⟨h.pool.note (by simp) (by simp [Removes]) (by simp), hcalls⟩
  | false => exact ⟨h.pool.drop (by simp) (by simp [Removes, eq_comm]), hcalls⟩

/-- Every event keeps it. -/
theorem next (h : t.Tracks log) (event : Event) :
    (t.next event).Tracks (log ++ t.incidents event) := by
  cases event with
  | knock =>
    rw [incidents, List.append_nil]
    exact ⟨h.pool, h.calls⟩
  | enroll =>
    unfold Traffic.next incidents
    split_ifs
    · rwa [List.append_nil]
    · have hjoined : Tracks { t with handshakes := t.handshakes - 1, pool := t.pool.enroll.2 }
          (log ++ [joined t.pool.nextId]) := ⟨h.enroll.pool, h.enroll.calls⟩
      exact hjoined.sendTo t.pool.nextId (.connected t.pool.nextId)
  | leave client =>
    exact ⟨h.pool.drop (by simp) (by simp [Removes, eq_comm]), h.calls.note (by simp) (by simp)⟩
  | send client message =>
    rw [incidents, List.append_nil]
    exact h.sendTo client message
  | broadcast message => exact h.broadcast message
  | begin call j =>
    rw [incidents, List.append_nil, Traffic.next]
    split
    · next client hd => exact h.beginDelivery hd
    · exact h
  | finish call j delivered =>
    rw [incidents]
    split
    · next client hd => exact h.finishDelivery delivered hd
    · next hother =>
      rw [List.append_nil, Traffic.next]
      split
      · next client hd => exact absurd hd (hother client)
      · exact h

end Tracks

theorem tracks_history (events : List Event) :
    (history events).1.Tracks (history events).2 := by
  induction events using List.reverseRecOn with
  | nil =>
    have hnone : ∀ client, ¬Stays [] client := by
      rintro client ⟨before, after, hsplit, -⟩
      simp at hsplit
    refine ⟨⟨.nil, by simp [history, joins], .nil, ?_, by simp [history]⟩, ?_⟩
    · intro client
      exact iff_of_false (by simp [history, quiet, Pool.empty]) (hnone client)
    · constructor <;> simp [history, quiet]
  | append_singleton events event ih =>
    rw [history_concat]
    exact ih.next event

theorem history_append (events more : List Event) : ∃ log,
    history (events ++ more) = ((history events).1.run more, (history events).2 ++ log) := by
  induction more using List.reverseRecOn with
  | nil => exact ⟨[], by simp [run]⟩
  | append_singleton more event ih =>
    obtain ⟨log, hmore⟩ := ih
    rw [← List.append_assoc, history_concat, hmore]
    exact ⟨_, by rw [run, run, List.foldl_append, List.append_assoc]; rfl⟩

end Traffic

/-- The account of a broadcast: it is for the clients that it found, it counts those that its message
has reached, and when it is over each one was tried unless it was gone. -/
structure Call.Settles (c : Call) (log : List Incident) (call : Nat) (snapshot : List Nat) : Prop where
  clients : c.deliveries.map Delivery.client = snapshot
  count : c.count = (snapshot.filter fun client => sent call client true ∈ log).length
  tried : c.isOver = true → ∀ client ∈ snapshot,
    (∃ delivered, sent call client delivered ∈ log) ∨ GoneSince log call client

section Settles

variable {log : List Incident} {call : Nat} {d : Delivery}

theorem Delivery.Agrees.reached_iff (h : d.Agrees log call) :
    d.progress = .over true ↔ sent call d.client true ∈ log := by
  obtain ⟨client, progress⟩ := d
  cases progress with
  | queued => exact iff_of_false nofun (h true)
  | sending => exact iff_of_false nofun (h true)
  | «over» delivered =>
    cases delivered with
    | true => exact iff_of_true rfl h
    | false => exact iff_of_false nofun h.1

theorem TracksCalls.settles {calls : List Call} (h : TracksCalls calls log) {message : Message}
    {snapshot : List Nat} (htold : told call message snapshot ∈ log) :
    ∃ c : Call, calls[call]? = some c ∧ c.message = message ∧ c.Settles log call snapshot := by
  obtain ⟨c, hc, hmessage, rfl⟩ := h.begun call message snapshot htold
  refine ⟨c, hc, hmessage, rfl, ?_, ?_⟩
  · rw [Call.count, Call.reached, List.filter_map, List.length_map, List.length_map]
    refine congrArg List.length (List.filter_congr fun d hd => ?_)
    rw [Bool.eq_iff_iff, beq_iff_eq, (h.agrees call c hc d hd).reached_iff]
    simp
  · intro hover client hclient
    obtain ⟨d, hd, rfl⟩ := List.mem_map.mp hclient
    have hagrees := h.agrees call c hc d hd
    have hdover := List.all_eq_true.mp hover d hd
    obtain ⟨client, progress⟩ := d
    cases progress with
    | queued => cases hdover
    | sending => cases hdover
    | «over» delivered =>
      cases delivered with
      | true => exact .inl ⟨true, hagrees⟩
      | false => exact hagrees.2.imp (⟨false, ·⟩) fun hgone => hgone message _ htold

end Settles

namespace Traffic

/-- An event takes away no client but the one that it is about: one that leaves, or one to which a
delivery fails. -/
theorem Tracks.removes {t : Traffic} {log : List Incident} (h : t.Tracks log) {event : Event}
    {client : Nat} (hbefore : client ∈ t.pool.clients)
    (hafter : client ∉ (t.next event).pool.clients) :
    ∃ i ∈ t.incidents event, i.Removes client := by
  have hstays := (h.pool.clients client).mp hbefore
  have hgone := ((h.next event).pool.clients client).not.mp hafter
  have hone : t.incidents event = [] ∨ ∃ i, t.incidents event = [i] := by
    cases event <;> simp only [incidents] <;> (try split) <;> simp
  rcases hone with hnone | ⟨i, hi⟩
  · rw [hnone, List.append_nil] at hgone
    exact absurd hstays hgone
  · rw [hi] at hgone ⊢
    refine ⟨i, List.mem_singleton.mpr rfl, ?_⟩
    by_contra hkept
    exact hgone (stays_concat.mpr (.inr ⟨hstays, hkept⟩))

/-- In whatever order clients join and leave, calls begin, and deliveries begin and end: each client
joins under a greater id than all before it. The pool holds the clients that joined and were not removed
since, and nothing removes a client but its own leave or a failed delivery to it. A broadcast is for the
clients that the pool holds when it begins, counts those that it reaches, and tries all that are not
gone; and whichever of its deliveries fail, it can be brought to its end. -/
theorem history_accounts (events : List Event) :
    (joins (history events).2).Pairwise (· < ·) ∧
    ((history events).1.pool.clients.Pairwise (· < ·) ∧
      ∀ client, client ∈ (history events).1.pool.clients ↔ Stays (history events).2 client) ∧
    (∀ event client, client ∈ (history events).1.pool.clients →
      client ∉ ((history events).1.next event).pool.clients →
        ∃ i ∈ (history events).1.incidents event, i.Removes client) ∧
    ∀ call message snapshot, told call message snapshot ∈ (history events).2 →
      (∃ before after, (history events).2 = before ++ told call message snapshot :: after ∧
        ∀ client, client ∈ snapshot ↔ Stays before client) ∧
      (∃ c : Call, (history events).1.calls[call]? = some c ∧ c.message = message ∧
        c.Settles (history events).2 call snapshot) ∧
      ∀ outcome, ∃ c : Call,
        (history (events ++ rounds call outcome snapshot.length)).1.calls[call]? = some c ∧
          c.isOver = true := by
  have htracks := tracks_history events
  refine ⟨htracks.pool.increasing, ⟨htracks.pool.sorted, htracks.pool.clients⟩,
    fun event client => htracks.removes, fun call message snapshot htold => ⟨?_, ?_, ?_⟩⟩
  · obtain ⟨before, after, hlog⟩ := List.append_of_mem htold
    exact ⟨before, after, hlog, (htracks.pool.snapshots before call message snapshot after hlog).2⟩
  · exact htracks.calls.settles htold
  · intro outcome
    obtain ⟨log, hhistory⟩ := history_append events (rounds call outcome snapshot.length)
    have hlater := tracks_history (events ++ rounds call outcome snapshot.length)
    rw [hhistory] at hlater ⊢
    obtain ⟨c, hc, -, hclients, -, -⟩ := hlater.calls.settles (List.mem_append_left log htold)
    refine ⟨c, hc, List.all_eq_true.mpr fun d hd => ?_⟩
    obtain ⟨j, hj⟩ := List.mem_iff_getElem?.mp hd
    have hlt : j < snapshot.length := by
      rw [← hclients, List.length_map]
      exact (List.getElem?_eq_some_iff.mp hj).1
    obtain ⟨delivered, hover⟩ := isOverAt_rounds (history events).1 call outcome hlt d
      (delivery?_eq_some_iff.mpr ⟨c, hc, hj⟩)
    rw [hover]

/-- Three clients join. While a broadcast is sent to the first two, another one fails with the first, the
third leaves, and a fourth joins; then the first broadcast fails with the first client as well. -/
def crossing : List Event :=
  [.knock, .enroll, .finish 0 0 true, .knock, .knock, .enroll, .finish 1 0 true, .enroll,
    .finish 2 0 true, .broadcast .graphUpdated, .begin 3 0, .begin 3 1, .broadcast .pong, .begin 4 0,
    .finish 4 0 false, .leave 3, .knock, .enroll, .finish 3 0 false, .begin 3 2, .finish 3 1 true]

/-- The second client got the message, which counts, and the third was gone before its turn. -/
theorem history_accounts_crossing :
    joins (history crossing).2 = [1, 2, 3, 4] ∧ (history crossing).1.pool.clients = [2, 4] ∧
      ∃ c : Call, (history crossing).1.calls[3]? = some c ∧
        c.Settles (history crossing).2 3 [1, 2, 3] ∧ c.isOver = true ∧ c.count = 1 ∧
        GoneSince (history crossing).2 3 3 := by
  obtain ⟨-, -, -, hcalls⟩ := history_accounts crossing
  obtain ⟨-, ⟨c, hc, -, hsettles⟩, -⟩ := hcalls 3 .graphUpdated [1, 2, 3] (by decide)
  have hover : c.isOver = true := by
    have hall : ((history crossing).1.calls[3]?).all Call.isOver = true := by decide
    simpa [hc] using hall
  refine ⟨by decide, by decide, c, hc, hsettles, hover, by rw [hsettles.count]; decide, ?_⟩
  refine (hsettles.tried hover 3 (by simp)).resolve_left ?_
  rintro ⟨delivered, hsent⟩
  exact absurd hsent (by cases delivered <;> decide)

end Traffic
end Flowchart.Server
