import Flowchart.Diagram.Reader
import Flowchart.Diagram.Writer
import Flowchart.Live.Store
import Flowchart.Live.Timers

/-!
Keeping a text and a live graph consistent. An edit of the text is taken into the graph at once; a
change of the graph is written to the text after a quiet period, a change of the direction at once.
Changes that the coordinator causes itself trigger nothing.

Listeners of both sides may call back. What they do is a finite script, and calls from scripts are
served by the level below, so that the depth of nesting is bounded by a number.
-/
namespace Flowchart.Live

open Diagram (ReadError Reading Outcome)

inductive Phase
  | idle
  | readingText
  | writingText
  | waiting
deriving DecidableEq, Repr

def Phase.name : Phase → String
  | idle => "idle"
  | readingText => "syncing_from_text"
  | writingText => "syncing_from_graph"
  | waiting => "debouncing"

structure Coordinator where
  phase : Phase
  /-- The timer of the next graph-to-text sync. -/
  pending : Option Nat
  /-- The text as last seen or written. -/
  text : String
  /-- Why the current text could not be read, if so. -/
  error : Option ReadError
  /-- How often the graph was written. -/
  writes : Nat
  /-- How many changes of the graph were ignored because the coordinator caused them. -/
  suppressed : Nat
  /-- The quiet period. -/
  delay : Delay

def Coordinator.start (delay : Delay) : Coordinator where
  phase := .idle
  pending := none
  text := ""
  error := none
  writes := 0
  suppressed := 0
  delay := delay

/-- The graph, the coordinator, the timers, and what listeners remember. -/
structure Hub (Memory : Type) where
  store : Store
  coordinator : Coordinator
  timers : Timers
  memory : Memory

/-- What can be asked of a hub. -/
inductive Call
  | setText (text : String)
  | store (op : StoreOp)
  | flush
  | cancel
  | advance (ms : Nat)

/-- What breaks a call off: a listener, or a position in the text that is not read. -/
inductive Fault
  | listener
  | position (e : PositionError)
deriving DecidableEq, Repr

/-- How a call ended: with a result, or broken off. -/
inductive Reply
  /-- The reading of a new text; nothing if the text is the current one. -/
  | reading (result : Option Outcome)
  | stored (result : Except StoreError Bool)
  | flushed (ran : Bool)
  | done
  | broken (fault : Fault)

/-- What a listener does in response to an event. -/
inductive Script (Memory : Type)
  | done
  | raise (fault : Fault)
  | remember (change : Memory → Memory) (next : Script Memory)
  | call (call : Call) (next : Reply → Script Memory)

/-- The listeners of both sides, in the order of their registration. The coordinator listens to the graph
as well and is not among them: it is there before all others. -/
structure Listeners (Memory : Type) where
  onChange : List (Hub Memory → Change → Script Memory)
  onText : List (Hub Memory → String → Script Memory)

variable {Memory : Type}

/-- The service of calls that scripts make; nothing if scripts nest too deeply. -/
abbrev Service (Memory : Type) := Hub Memory → Call → Option (Hub Memory × Reply)

namespace Hub

def start (document : Document) (delay : Delay) (memory : Memory) : Hub Memory where
  store := .ofDocument document
  coordinator := .start delay
  timers := .start
  memory := memory

def withPhase (h : Hub Memory) (phase : Phase) : Hub Memory :=
  { h with coordinator := { h.coordinator with phase := phase } }

/-- Runs a script, up to the fault that breaks it off. -/
def runScript (serve : Service Memory) (h : Hub Memory) :
    Script Memory → Option (Hub Memory × Option Fault)
  | .done => some (h, none)
  | .raise fault => some (h, some fault)
  | .remember change next => runScript serve { h with memory := change h.memory } next
  | .call call next =>
    match serve h call with
    | none => none
    | some (h, reply) => runScript serve h (next reply)

def cancelPending (h : Hub Memory) : Hub Memory :=
  let h :=
    match h.coordinator.pending with
    | none => h
    | some id =>
      { h with
        timers := h.timers.remove id
        coordinator := { h.coordinator with pending := none } }
  if h.coordinator.phase = .waiting then h.withPhase .idle else h

/-- Starts the quiet period anew. -/
def schedule (h : Hub Memory) : Hub Memory :=
  let h := h.cancelPending
  let (id, timers) := h.timers.set h.coordinator.delay
  { h with
    timers := timers
    coordinator := { h.coordinator with pending := some id, phase := .waiting } }

/-- Tells a new text to the listeners one after the other, up to the first fault. -/
def tellText (serve : Service Memory) (text : String) :
    List (Hub Memory → String → Script Memory) → Hub Memory → Option (Hub Memory × Option Fault)
  | [], h => some (h, none)
  | listener :: rest, h =>
    match runScript serve h (listener h text) with
    | none => none
    | some (h, some fault) => some (h, some fault)
    | some (h, none) => tellText serve text rest h

/-- Writes the graph to the text, and tells the fault of a listener. -/
def writeText (serve : Service Memory) (ls : Listeners Memory) (h : Hub Memory) :
    Option (Hub Memory × Option Fault) :=
  let text := Diagram.write h.store.document
  let h :=
    { h with coordinator :=
      { h.coordinator with phase := .writingText, writes := h.coordinator.writes + 1 } }
  if text = h.coordinator.text then some (h.withPhase .idle, none)
  else
    let h := { h with coordinator := { h.coordinator with text := text, error := none } }
    match tellText serve text ls.onText h with
    | none => none
    | some (h, fault) => some (h.withPhase .idle, fault)

/-- How the coordinator takes a change of the graph. -/
def takeChange (serve : Service Memory) (ls : Listeners Memory) (change : Change)
    (h : Hub Memory) : Option (Hub Memory) :=
  match h.coordinator.phase, change with
  | .readingText, _ =>
    some { h with coordinator := { h.coordinator with suppressed := h.coordinator.suppressed + 1 } }
  | .writingText, _ => some h
  | _, .selection => some h
  | _, .position => some h
  | _, .direction => (writeText serve ls h.cancelPending).map (·.1)
  | _, _ => some h.schedule

/-- Tells a change to listeners one after the other; a fault of one stops nobody. -/
def tellChange (serve : Service Memory) (change : Change) :
    List (Hub Memory → Change → Script Memory) → Hub Memory → Option (Hub Memory)
  | [], h => some h
  | listener :: rest, h =>
    match runScript serve h (listener h change) with
    | none => none
    | some (h, _) => tellChange serve change rest h

/-- Announces a change: first to the coordinator, which was registered before everybody else, then to the
listeners. -/
def announce (serve : Service Memory) (ls : Listeners Memory) (h : Hub Memory) :
    Option Change → Option (Hub Memory)
  | none => some h
  | some change =>
    match takeChange serve ls change h with
    | none => none
    | some h => tellChange serve change ls.onChange h

/-- Runs an operation on the graph and announces what it changed. -/
def operate (serve : Service Memory) (ls : Listeners Memory) (h : Hub Memory) (op : StoreOp) :
    Option (Hub Memory × Except StoreError Bool) :=
  let effect := op.run h.store
  (announce serve ls { h with store := effect.store } effect.change).map (·, effect.result)

/-- A reading with its nodes and edges as the listeners left them, found by their ids. A listener that
deletes some of them, or has another graph taken in, before the edit is over hides what happened to them
until then: they are shown as they were read, or as the other graph has them. -/
def current (h : Hub Memory) (reading : Reading) : Reading :=
  let document := reading.document
  { reading with document :=
    { document with
      nodes := document.nodes.mapValues fun id node => (h.store.node? id).getD node
      edges := document.edges.map fun e => (h.store.edge? e.id).getD e } }

/-- Takes in a text that differs from the current one. If its reading is broken off, the text is the
current one all the same, and the graph stays as it is. -/
def readText (serve : Service Memory) (ls : Listeners Memory) (h : Hub Memory) (text : String) :
    Option (Hub Memory × Reply) :=
  let h := h.cancelPending
  let h := { h with coordinator := { h.coordinator with text := text, phase := .readingText } }
  match Diagram.readArranged text with
  | .error e => some (h.withPhase .idle, .broken (.position e))
  | .ok (.error e) =>
    let h := { h with coordinator := { h.coordinator with error := some e } }
    some (h.withPhase .idle, .reading (some (.error e)))
  | .ok (.ok reading) =>
    match operate serve ls h (.replaceAll reading.document) with
    | none => none
    | some (h, _) =>
      let reading := h.current reading
      let h := { h with coordinator := { h.coordinator with error := none } }
      some (h.withPhase .idle, .reading (some (.ok reading)))

def setText (serve : Service Memory) (ls : Listeners Memory) (h : Hub Memory) (text : String) :
    Option (Hub Memory × Reply) :=
  if text = h.coordinator.text then some (h, .reading none)
  else readText serve ls h text

def flush (serve : Service Memory) (ls : Listeners Memory) (h : Hub Memory) :
    Option (Hub Memory × Reply) :=
  if h.coordinator.pending.isNone then some (h, .flushed false)
  else
    (writeText serve ls h.cancelPending).map fun (h, fault) =>
      (h, (fault.map .broken).getD (.flushed true))

/-- Fires timers one after the other, up to the first fault. -/
def fire (serve : Service Memory) (ls : Listeners Memory) :
    List Timer → Hub Memory → Option (Hub Memory × Reply)
  | [], h => some (h, .done)
  | timer :: rest, h =>
    if h.timers.isLive timer.id then
      let h :=
        { h with
          timers := h.timers.remove timer.id
          coordinator := { h.coordinator with pending := none } }
      match writeText serve ls h with
      | none => none
      | some (h, some fault) => some (h, .broken fault)
      | some (h, none) => fire serve ls rest h
    else fire serve ls rest h

/-- Serves one call, given the service of the calls that listeners make meanwhile. -/
def serveWith (serve : Service Memory) (ls : Listeners Memory) : Service Memory
  | h, .setText text => setText serve ls h text
  | h, .store op => (operate serve ls h op).map fun (h, result) => (h, .stored result)
  | h, .flush => flush serve ls h
  | h, .cancel => some (h.cancelPending, .done)
  | h, .advance ms =>
    let h := { h with timers := h.timers.advance ms }
    fire serve ls h.timers.due h

/-- Serves calls from scripts nested up to a depth. -/
def serve (ls : Listeners Memory) : Nat → Service Memory
  | 0 => fun _ _ => none
  | depth + 1 => serveWith (serve ls depth) ls

end Hub
end Flowchart.Live
