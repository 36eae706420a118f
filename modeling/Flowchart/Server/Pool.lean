import Flowchart.Server.Message

/-!
The clients that are connected, and the deliveries of messages to them. Every call hands out a client
id or delivers a message to one client or to all of them; between the steps of a call anything else
may happen. A client to which a delivery fails is dropped.
-/
namespace Flowchart.Server

structure Pool where
  /-- The id that the next client gets. -/
  nextId : Nat
  /-- The connected clients in the order of their ids. -/
  clients : List Nat
deriving DecidableEq, Repr

namespace Pool

def empty : Pool := ⟨1, []⟩

def enroll (p : Pool) : Nat × Pool :=
  (p.nextId, ⟨p.nextId + 1, p.clients ++ [p.nextId]⟩)

def drop (p : Pool) (client : Nat) : Pool :=
  { p with clients := p.clients.filter (· != client) }

end Pool

/-- How far the delivery of a message to one client has come. -/
inductive Progress
  | queued
  | sending
  | over (delivered : Bool)
deriving DecidableEq, Repr

structure Delivery where
  client : Nat
  progress : Progress
deriving DecidableEq, Repr

/-- A call that delivers a message to the clients that it found when it began. -/
structure Call where
  message : Message
  deliveries : List Delivery
deriving DecidableEq, Repr

namespace Call

def isOver (c : Call) : Bool :=
  c.deliveries.all fun d =>
    match d.progress with
    | .over _ => true
    | _ => false

/-- The clients that got the message. -/
def reached (c : Call) : List Nat :=
  (c.deliveries.filter (·.progress == .over true)).map (·.client)

def count (c : Call) : Nat :=
  c.reached.length

end Call

/-- The pool with the handshakes and calls that were begun. -/
structure Traffic where
  pool : Pool
  /-- The handshakes that are not complete. -/
  handshakes : Nat
  calls : List Call
deriving DecidableEq, Repr

namespace Traffic

inductive Event
  /-- A client asks to be connected. -/
  | knock
  /-- A handshake is complete: the client gets its id and is greeted. -/
  | enroll
  /-- A client is gone. -/
  | leave (client : Nat)
  /-- A message for one client. -/
  | send (client : Nat) (message : Message)
  /-- A message for all clients that are connected now. -/
  | broadcast (message : Message)
  /-- A queued delivery begins. -/
  | begin (call delivery : Nat)
  /-- The socket reports the end of a delivery. -/
  | finish (call delivery : Nat) (delivered : Bool)

/-- How a delivery stands after it began: there is none to a client that is not connected. -/
def started (p : Pool) (client : Nat) : Progress :=
  if p.clients.contains client then .sending else .over false

def delivery? (t : Traffic) (call delivery : Nat) : Option Delivery :=
  (t.calls[call]?).bind (·.deliveries[delivery]?)

def setProgress (t : Traffic) (call delivery : Nat) (progress : Progress) : Traffic :=
  { t with calls := t.calls.modify call fun c =>
    { c with deliveries := c.deliveries.modify delivery fun d => { d with progress } } }

/-- Begins to deliver a message to one client. -/
def sendTo (t : Traffic) (client : Nat) (message : Message) : Traffic :=
  { t with calls := t.calls ++ [⟨message, [⟨client, started t.pool client⟩]⟩] }

/-- The state after an event. An event that cannot happen changes nothing. -/
def next (t : Traffic) : Event → Traffic
  | .knock => { t with handshakes := t.handshakes + 1 }
  | .enroll =>
    if t.handshakes = 0 then t
    else
      let (client, pool) := t.pool.enroll
      sendTo { t with handshakes := t.handshakes - 1, pool } client (.connected client)
  | .leave client => { t with pool := t.pool.drop client }
  | .send client message => t.sendTo client message
  | .broadcast message =>
    { t with calls := t.calls ++ [⟨message, t.pool.clients.map (⟨·, .queued⟩)⟩] }
  | .begin call delivery =>
    match t.delivery? call delivery with
    | some ⟨client, .queued⟩ => t.setProgress call delivery (started t.pool client)
    | _ => t
  | .finish call delivery delivered =>
    match t.delivery? call delivery with
    | some ⟨client, .sending⟩ =>
      let t := t.setProgress call delivery (.over delivered)
      if delivered then t else { t with pool := t.pool.drop client }
    | _ => t

def run (t : Traffic) (events : List Event) : Traffic :=
  events.foldl next t

def quiet (p : Pool) : Traffic := ⟨p, 0, []⟩

/-- The events that bring the only call to its end, delivery after delivery, given which clients can be
reached. -/
def completion (reachable : Nat → Bool) (c : Call) : List Event :=
  c.deliveries.zipIdx.flatMap fun (d, i) => [.begin 0 i, .finish 0 i (reachable d.client)]

/-- Begins a call when nothing else is under way and brings it to its end. -/
def runCall (reachable : Nat → Bool) (p : Pool) (events : List Event) : Pool × List Call :=
  let t := (quiet p).run events
  let t := t.run (t.calls.flatMap (completion reachable))
  (t.pool, t.calls)

end Traffic
end Flowchart.Server
