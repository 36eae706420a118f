import Flowchart.Proofs.Live.Machine

/-! Serving and running are the same: the run of a call ends with a reply exactly if the call is served
with this reply at some depth. -/
namespace Flowchart.Live

variable {Memory : Type}

section Served

namespace Hub

open Config (Reaches)

variable {ls : Listeners Memory} {serve : Service Memory} {h h' : Hub Memory}

/-- The service does what runs do. -/
def Service.IsRun (serve : Service Memory) (ls : Listeners Memory) : Prop :=
  ∀ h call h' reply, serve h call = some (h', reply) → ∀ stack,
    Reaches ls ⟨h, .serve call, stack⟩ ⟨h', .reply reply, stack⟩

variable (hserve : Service.IsRun serve ls)
include hserve

theorem reaches_of_runScript {script : Script Memory} {fault : Option Fault}
    (hr : runScript serve h script = some (h', fault)) (stack : List (Frame Memory)) :
    Reaches ls ⟨h, .run script, stack⟩ ⟨h', .finish fault, stack⟩ := by
  induction script generalizing h with
  | done =>
    cases hr
    exact .head (.refl ls _)
  | raise fault =>
    cases hr
    exact .head (.refl ls _)
  | remember change next ih => exact .head (ih hr)
  | call call next ih =>
    rw [runScript] at hr
    cases hcall : serve h call with
    | none => simp [hcall] at hr
    | some served =>
      rw [hcall] at hr
      exact .head ((hserve _ _ _ _ hcall (.script next :: stack)).trans (.head (ih _ hr)))

theorem reaches_of_tellText {text : String} {listeners : List (Hub Memory → String → Script Memory)}
    {fault : Option Fault} (ht : tellText serve text listeners h = some (h', fault))
    (stack : List (Frame Memory)) :
    Reaches ls ⟨h, .tellText text listeners, stack⟩ ⟨h', .finish fault, stack⟩ := by
  induction listeners generalizing h with
  | nil =>
    cases ht
    exact .head (.refl ls _)
  | cons listener rest ih =>
    rw [tellText] at ht
    cases hrun : runScript serve h (listener h text) with
    | none => simp [hrun] at ht
    | some told =>
      obtain ⟨h₁, fault₁⟩ := told
      have hscript := reaches_of_runScript hserve hrun (.textListener text rest :: stack)
      rw [hrun] at ht
      cases fault₁ with
      | some _ =>
        cases ht
        exact .head (hscript.trans (.head (.refl ls _)))
      | none => exact .head (hscript.trans (.head (ih ht)))

theorem reaches_of_writeText {fault : Option Fault}
    (hw : writeText serve ls h = some (h', fault)) (stack : List (Frame Memory)) :
    Reaches ls (Config.beginWrite ls h stack) ⟨h', .finish fault, stack⟩ := by
  unfold writeText at hw
  unfold Config.beginWrite writing
  dsimp only at hw
  by_cases htext : Diagram.write h.store.document = h.coordinator.text
  · rw [if_pos htext] at hw
    cases hw
    rw [if_pos htext, if_pos htext, htext]
    exact .head (.refl ls _)
  · rw [if_neg htext] at hw
    rw [if_neg htext, if_neg htext]
    split at hw
    · cases hw
    · rename_i h₁ fault₁ htell
      cases hw
      exact (reaches_of_tellText hserve htell (.write :: stack)).trans (.head (.refl ls _))

theorem reaches_of_tellChange {change : Change}
    {listeners : List (Hub Memory → Change → Script Memory)}
    (ht : tellChange serve change listeners h = some h') (stack : List (Frame Memory)) :
    Reaches ls ⟨h, .tellChange change listeners, stack⟩ ⟨h', .finish none, stack⟩ := by
  induction listeners generalizing h with
  | nil =>
    cases ht
    exact .head (.refl ls _)
  | cons listener rest ih =>
    rw [tellChange] at ht
    cases hrun : runScript serve h (listener h change) with
    | none => simp [hrun] at ht
    | some told =>
      have hscript := reaches_of_runScript hserve hrun (.changeListener change rest :: stack)
      rw [hrun] at ht
      exact .head (hscript.trans (.head (ih ht)))

theorem reaches_of_takeChange {change : Change} (ht : takeChange serve ls change h = some h')
    (stack : List (Frame Memory)) :
    Reaches ls ⟨h, .announce change, stack⟩ ⟨h', .tellChange change ls.onChange, stack⟩ := by
  apply Reaches.head
  change Reaches ls (Config.beginAnnounce ls h change stack) _
  have hwrite : (writeText serve ls h.cancelPending).map (·.1) = some h' →
      Reaches ls (Config.beginWrite ls h.cancelPending (.direction :: stack))
        ⟨h', .tellChange .direction ls.onChange, stack⟩ := by
    intro hmap
    obtain ⟨⟨h₁, fault⟩, hw, rfl⟩ := Option.map_eq_some_iff.mp hmap
    exact (reaches_of_writeText hserve hw (.direction :: stack)).trans (.head (.refl ls _))
  unfold takeChange at ht
  unfold Config.beginAnnounce
  cases hp : h.coordinator.phase with
  | readingText | writingText =>
    simp only [hp, Option.some.injEq] at ht ⊢
    subst ht
    exact .refl ls _
  | idle | waiting =>
    cases change with
    | direction =>
      simp only [hp] at ht ⊢
      exact hwrite ht
    | _ =>
      simp only [hp, Option.some.injEq] at ht ⊢
      subst ht
      exact .refl ls _

theorem reaches_of_announce {change : Option Change} (ha : announce serve ls h change = some h')
    (stack : List (Frame Memory)) :
    Reaches ls ⟨h, change.elim (.finish none) .announce, stack⟩ ⟨h', .finish none, stack⟩ := by
  cases change with
  | none =>
    cases ha
    exact .refl ls _
  | some change =>
    rw [announce] at ha
    cases htake : takeChange serve ls change h with
    | none => simp [htake] at ha
    | some h₁ =>
      rw [htake] at ha
      exact (reaches_of_takeChange hserve htake stack).trans (reaches_of_tellChange hserve ha stack)

theorem reaches_of_operate {op : StoreOp} {result : Except StoreError Bool}
    (ho : operate serve ls h op = some (h', result)) (frame : Frame Memory)
    (stack : List (Frame Memory)) :
    Reaches ls
      ⟨{ h with store := (op.run h.store).store }, (op.run h.store).change.elim (.finish none) .announce,
        frame :: stack⟩
      ⟨h', .finish none, frame :: stack⟩ ∧ result = (op.run h.store).result := by
  obtain ⟨h₁, hannounce, heq⟩ := Option.map_eq_some_iff.mp ho
  cases heq
  exact ⟨reaches_of_announce hserve hannounce (frame :: stack), rfl⟩

theorem reaches_of_readText {text : String} {reply : Reply}
    (hr : readText serve ls h text = some (h', reply)) (stack : List (Frame Memory)) :
    Reaches ls (Config.beginRead h text stack) ⟨h', .reply reply, stack⟩ := by
  unfold readText at hr
  unfold Config.beginRead
  dsimp only at hr
  cases hread : Diagram.readArranged text with
  | error e =>
    rw [hread] at hr
    cases hr
    exact .refl ls _
  | ok outcome =>
    rw [hread] at hr
    cases outcome with
    | error e =>
      cases hr
      exact .refl ls _
    | ok reading =>
      dsimp only at hr
      split at hr
      · cases hr
      · rename_i h₁ result hoperate
        cases hr
        exact (reaches_of_operate hserve hoperate (.read reading) stack).1.trans
          (.head (.refl ls _))

theorem reaches_of_flush {reply : Reply} (hf : flush serve ls h = some (h', reply))
    (stack : List (Frame Memory)) :
    Reaches ls (Config.beginCall ls h .flush stack) ⟨h', .reply reply, stack⟩ := by
  unfold flush at hf
  unfold Config.beginCall
  dsimp only
  split_ifs at hf ⊢
  · cases hf
    exact .refl ls _
  · obtain ⟨⟨h₁, fault⟩, hw, heq⟩ := Option.map_eq_some_iff.mp hf
    cases heq
    exact (reaches_of_writeText hserve hw (.flush :: stack)).trans (.head (.refl ls _))

theorem reaches_of_fire {due : List Timer} {reply : Reply}
    (hf : fire serve ls due h = some (h', reply)) (stack : List (Frame Memory)) :
    Reaches ls ⟨h, .fire due, stack⟩ ⟨h', .reply reply, stack⟩ := by
  induction due generalizing h with
  | nil =>
    cases hf
    exact .head (.refl ls _)
  | cons timer rest ih =>
    rw [fire] at hf
    apply Reaches.head
    unfold Config.step
    dsimp only
    by_cases hl : h.timers.isLive timer.id
    · rw [if_pos hl] at hf ⊢
      dsimp only at hf
      split at hf
      · cases hf
      · rename_i h₁ fault hw
        cases hf
        exact (reaches_of_writeText hserve hw (.firing rest :: stack)).trans (.head (.refl ls _))
      · rename_i h₁ hw
        exact (reaches_of_writeText hserve hw (.firing rest :: stack)).trans (.head (ih hf))
    · rw [if_neg hl] at hf ⊢
      exact ih hf

theorem isRun_serveWith : Service.IsRun (serveWith serve ls) ls := by
  intro h call h' reply hs stack
  apply Reaches.head
  change Reaches ls (Config.beginCall ls h call stack) _
  cases call with
  | setText text =>
    rw [serveWith, setText] at hs
    unfold Config.beginCall
    dsimp only
    split_ifs at hs ⊢
    · cases hs
      exact .refl ls _
    · exact reaches_of_readText hserve hs stack
  | store op =>
    obtain ⟨⟨h₁, result⟩, hoperate, heq⟩ := Option.map_eq_some_iff.mp hs
    cases heq
    obtain ⟨hreaches, rfl⟩ :=
      reaches_of_operate hserve hoperate (.operation (op.run h.store).result) stack
    exact hreaches.trans (.head (.refl ls _))
  | flush => exact reaches_of_flush hserve hs stack
  | cancel =>
    cases hs
    exact .refl ls _
  | advance ms => exact reaches_of_fire hserve hs stack

omit hserve in
/-- A call that is served is a run that comes to its reply. -/
theorem isRun_serve (depth : Nat) : Service.IsRun (Hub.serve ls depth) ls := by
  induction depth with
  | zero => exact fun _ _ _ _ hs => nomatch hs
  | succ depth ih => exact isRun_serveWith ih

end Hub

end Served

section Unserved

namespace Config

variable {ls : Listeners Memory} {c c' : Config Memory} {d : Nat}

def Outlasts (ls : Listeners Memory) (c : Config Memory) (d : Nat) : Prop :=
  ∀ n ≤ d, ¬((step ls)^[n] c).IsOver

theorem Outlasts.of_reaches (hr : Reaches ls c c') (ho : Outlasts ls c' d) : Outlasts ls c d := by
  obtain ⟨m, rfl⟩ := hr
  intro n hn hover
  rcases Nat.le_total m n with hle | hle
  · obtain ⟨k, rfl⟩ := Nat.exists_eq_add_of_le' hle
    rw [Function.iterate_add_apply] at hover
    exact ho k (by omega) hover
  · obtain ⟨k, rfl⟩ := Nat.exists_eq_add_of_le' hle
    have hfixed : step ls ((step ls)^[n] c) = (step ls)^[n] c := hover.step_eq
    have hstays := Function.iterate_fixed hfixed k
    rw [← Function.iterate_add_apply] at hstays
    exact ho 0 (Nat.zero_le d) (hstays ▸ hover)

theorem Outlasts.head (ho : Outlasts ls (c.step ls) d) : Outlasts ls c d :=
  ho.of_reaches (.head (.refl ls _))

theorem Outlasts.succ (hc : ¬c.IsOver) (ho : Outlasts ls (c.step ls) d) :
    Outlasts ls c (d + 1) := by
  intro n hn hover
  cases n with
  | zero => exact hc hover
  | succ n => exact ho n (by omega) hover

end Config

namespace Hub

open Config (Outlasts)

variable {ls : Listeners Memory} {serve : Service Memory} {h : Hub Memory} {d : Nat}

/-- What the service leaves unanswered takes more than so many steps. -/
def Service.LeavesLong (serve : Service Memory) (ls : Listeners Memory) (d : Nat) : Prop :=
  ∀ h call, serve h call = none → ∀ stack, Outlasts ls ⟨h, .serve call, stack⟩ d

variable (hserve : Service.IsRun serve ls) (hlong : Service.LeavesLong serve ls d)
include hserve hlong

theorem outlasts_of_runScript {script : Script Memory} (hr : runScript serve h script = none)
    (stack : List (Frame Memory)) : Outlasts ls ⟨h, .run script, stack⟩ d := by
  induction script generalizing h with
  | done => cases hr
  | raise fault => cases hr
  | remember change next ih => exact .head (ih hr)
  | call call next ih =>
    rw [runScript] at hr
    cases hcall : serve h call with
    | none => exact .head (hlong _ _ hcall (.script next :: stack))
    | some served =>
      rw [hcall] at hr
      exact .head (.of_reaches (hserve _ _ _ _ hcall (.script next :: stack)) (.head (ih _ hr)))

theorem outlasts_of_tellText {text : String} {listeners : List (Hub Memory → String → Script Memory)}
    (ht : tellText serve text listeners h = none) (stack : List (Frame Memory)) :
    Outlasts ls ⟨h, .tellText text listeners, stack⟩ d := by
  induction listeners generalizing h with
  | nil => cases ht
  | cons listener rest ih =>
    rw [tellText] at ht
    cases hrun : runScript serve h (listener h text) with
    | none => exact .head (outlasts_of_runScript hserve hlong hrun (.textListener text rest :: stack))
    | some told =>
      obtain ⟨h₁, fault⟩ := told
      have hscript := reaches_of_runScript hserve hrun (.textListener text rest :: stack)
      rw [hrun] at ht
      cases fault with
      | some fault => cases ht
      | none => exact .head (.of_reaches hscript (.head (ih ht)))

theorem outlasts_of_tellChange {change : Change}
    {listeners : List (Hub Memory → Change → Script Memory)}
    (ht : tellChange serve change listeners h = none) (stack : List (Frame Memory)) :
    Outlasts ls ⟨h, .tellChange change listeners, stack⟩ d := by
  induction listeners generalizing h with
  | nil => cases ht
  | cons listener rest ih =>
    rw [tellChange] at ht
    cases hrun : runScript serve h (listener h change) with
    | none =>
      exact .head (outlasts_of_runScript hserve hlong hrun (.changeListener change rest :: stack))
    | some told =>
      have hscript := reaches_of_runScript hserve hrun (.changeListener change rest :: stack)
      rw [hrun] at ht
      exact .head (.of_reaches hscript (.head (ih ht)))

theorem outlasts_of_writeText (hw : writeText serve ls h = none) (stack : List (Frame Memory)) :
    Outlasts ls (Config.beginWrite ls h stack) d := by
  unfold writeText at hw
  unfold Config.beginWrite writing
  dsimp only at hw
  split_ifs at hw ⊢ with htext
  split at hw
  · rename_i htell
    exact outlasts_of_tellText hserve hlong htell (.write :: stack)
  · cases hw

theorem outlasts_of_takeChange {change : Change} (ht : takeChange serve ls change h = none)
    (stack : List (Frame Memory)) : Outlasts ls ⟨h, .announce change, stack⟩ d := by
  apply Outlasts.head
  change Outlasts ls (Config.beginAnnounce ls h change stack) d
  unfold takeChange at ht
  unfold Config.beginAnnounce
  cases hp : h.coordinator.phase with
  | readingText | writingText => simp [hp] at ht
  | idle | waiting =>
    cases change with
    | direction =>
      simp only [hp, Option.map_eq_none_iff] at ht ⊢
      exact outlasts_of_writeText hserve hlong ht (.direction :: stack)
    | _ => simp [hp] at ht

theorem outlasts_of_operate {op : StoreOp} (ho : operate serve ls h op = none)
    (stack : List (Frame Memory)) :
    Outlasts ls
      ⟨{ h with store := (op.run h.store).store }, (op.run h.store).change.elim (.finish none) .announce,
        stack⟩ d := by
  have hannounce := Option.map_eq_none_iff.mp ho
  cases hchange : (op.run h.store).change with
  | none => simp [hchange, announce] at hannounce
  | some change =>
    rw [hchange, announce] at hannounce
    cases htake : takeChange serve ls change { h with store := (op.run h.store).store } with
    | none => exact outlasts_of_takeChange hserve hlong htake stack
    | some h₁ =>
      rw [htake] at hannounce
      exact .of_reaches (reaches_of_takeChange hserve htake stack)
        (outlasts_of_tellChange hserve hlong hannounce stack)

theorem outlasts_of_fire {due : List Timer} (hf : fire serve ls due h = none)
    (stack : List (Frame Memory)) : Outlasts ls ⟨h, .fire due, stack⟩ d := by
  induction due generalizing h with
  | nil => cases hf
  | cons timer rest ih =>
    rw [fire] at hf
    apply Outlasts.head
    unfold Config.step
    dsimp only
    by_cases hl : h.timers.isLive timer.id
    · rw [if_pos hl] at hf ⊢
      dsimp only at hf
      split at hf
      · rename_i hw
        exact outlasts_of_writeText hserve hlong hw (.firing rest :: stack)
      · cases hf
      · rename_i h₁ hw
        exact .of_reaches (reaches_of_writeText hserve hw (.firing rest :: stack)) (.head (ih hf))
    · rw [if_neg hl] at hf ⊢
      exact ih hf

theorem leavesLong_serveWith : Service.LeavesLong (serveWith serve ls) ls (d + 1) := by
  intro h call hs stack
  refine .succ (fun hover => nomatch hover.2) ?_
  change Outlasts ls (Config.beginCall ls h call stack) d
  unfold Config.beginCall
  cases call with
  | setText text =>
    rw [serveWith, setText] at hs
    dsimp only
    split_ifs at hs ⊢
    unfold readText at hs
    unfold Config.beginRead
    dsimp only at hs
    cases hread : Diagram.readArranged text with
    | error e => simp [hread] at hs
    | ok outcome =>
      rw [hread] at hs
      cases outcome with
      | error e => cases hs
      | ok reading =>
        dsimp only at hs
        split at hs
        · rename_i hoperate
          exact outlasts_of_operate hserve hlong hoperate (.read reading :: stack)
        · cases hs
  | store op => exact outlasts_of_operate hserve hlong (Option.map_eq_none_iff.mp hs) _
  | flush =>
    rw [serveWith, flush] at hs
    dsimp only
    split_ifs at hs ⊢
    exact outlasts_of_writeText hserve hlong (Option.map_eq_none_iff.mp hs) (.flush :: stack)
  | cancel => cases hs
  | advance ms => exact outlasts_of_fire hserve hlong hs stack

omit hserve hlong in
theorem leavesLong_serve (depth : Nat) : Service.LeavesLong (Hub.serve ls depth) ls depth := by
  induction depth with
  | zero =>
    intro h call _ stack n hn hover
    cases Nat.le_zero.mp hn
    exact nomatch hover.2
  | succ depth ih => exact leavesLong_serveWith (isRun_serve depth) ih

omit hserve hlong in
/-- A call is served with a reply at some depth exactly if its run comes to this reply. -/
theorem exists_serve_iff_reaches {call : Call} {h' : Hub Memory} {reply : Reply} :
    (∃ depth, Hub.serve ls depth h call = some (h', reply)) ↔
      Config.Reaches ls ⟨h, .serve call, []⟩ ⟨h', .reply reply, []⟩ := by
  constructor
  · rintro ⟨depth, hs⟩
    exact isRun_serve depth _ _ _ _ hs []
  · rintro ⟨n, hn⟩
    cases hs : Hub.serve ls n h call with
    | none =>
      refine absurd ?_ (leavesLong_serve n h call hs [] n (Nat.le_refl n))
      rw [hn]
      exact ⟨rfl, reply, rfl⟩
    | some served =>
      obtain ⟨h₁, reply₁⟩ := served
      have heq := Config.Reaches.eq_of_isOver ⟨n, hn⟩ (isRun_serve n _ _ _ _ hs [])
        ⟨rfl, reply, rfl⟩ ⟨rfl, reply₁, rfl⟩
      cases heq
      exact ⟨n, hs⟩

end Hub

end Unserved

end Flowchart.Live
