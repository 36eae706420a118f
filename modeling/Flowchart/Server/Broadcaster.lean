import Flowchart.Server.Message

/-!
The loop that tells editors about changes. Changes may come at any time: while the loop waits, and
while one of its broadcasts is under way.
-/
namespace Flowchart.Server

/-- What the loop is waiting for. -/
inductive BroadcastStage
  /-- A signal that something changed. -/
  | idle
  /-- The end of the broadcast that the graph changed. -/
  | tellingGraph
  /-- The end of the broadcast of a text. -/
  | tellingText
deriving DecidableEq, Repr

structure Broadcaster where
  signalled : Bool
  graphChanged : Bool
  /-- The last text that was not yet broadcast. -/
  text : Option String
  stage : BroadcastStage
deriving DecidableEq, Repr

namespace Broadcaster

def start : Broadcaster where
  signalled := false
  graphChanged := false
  text := none
  stage := .idle

def noteGraph (b : Broadcaster) : Broadcaster :=
  { b with graphChanged := true, signalled := true }

/-- Takes note of a text that was written from the graph. -/
def noteText (text : String) (b : Broadcaster) : Broadcaster :=
  { b with text := some text, signalled := true }

/-- Goes on after the graph was told: begins the broadcast of a text that waits for it. -/
def tellText (b : Broadcaster) : Broadcaster × Option Message :=
  match b.text with
  | some text => ({ b with text := none, stage := .tellingText }, some (.textUpdated text))
  | none => ({ b with stage := .idle }, none)

/-- Goes on after a signal: a change of the graph is told first. -/
def tellGraph (b : Broadcaster) : Broadcaster × Option Message :=
  if b.graphChanged then
    ({ b with graphChanged := false, stage := .tellingGraph }, some .graphUpdated)
  else b.tellText

/-- Runs the loop up to its next wait, with the message whose broadcast it begins. Without a signal an
idle loop stays where it is. -/
def resume (b : Broadcaster) : Broadcaster × Option Message :=
  match b.stage with
  | .idle => if b.signalled then tellGraph { b with signalled := false } else (b, none)
  | .tellingGraph => b.tellText
  | .tellingText => ({ b with stage := .idle }, none)

inductive Event
  | graph
  | text (text : String)
  | resume

/-- The state after an event, with the message whose broadcast begins. -/
def next (b : Broadcaster) : Event → Broadcaster × Option Message
  | .graph => (b.noteGraph, none)
  | .text text => (b.noteText text, none)
  | .resume => b.resume

/-- The loop waits and no signal is set. -/
def isSettled (b : Broadcaster) : Bool :=
  b.stage == .idle && !b.signalled

/-- How often the loop runs at most until it is settled, if nothing happens meanwhile. -/
def work (b : Broadcaster) : Nat :=
  (if b.signalled then 3 else 0) +
    match b.stage with
    | .idle => 0
    | .tellingGraph => 2
    | .tellingText => 1

theorem work_resume_lt (b : Broadcaster) (h : b.isSettled = false) : b.resume.1.work < b.work := by
  obtain ⟨signalled, graphChanged, text, stage⟩ := b
  cases signalled <;> cases graphChanged <;> cases text <;> cases stage <;>
    simp_all [isSettled, work, resume, tellGraph, tellText]

/-- The messages that are broadcast until the loop is settled, if nothing happens meanwhile. -/
def drain (b : Broadcaster) : Broadcaster × List Message :=
  if _h : b.isSettled then (b, [])
  else
    let rest := b.resume.1.drain
    (rest.1, b.resume.2.toList ++ rest.2)
termination_by b.work
decreasing_by exact work_resume_lt b (by simpa using _h)

end Broadcaster
end Flowchart.Server
