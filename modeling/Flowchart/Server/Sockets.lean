import Flowchart.Server.App
import Flowchart.Server.Settings

/-!
The service and its clients: what comes from a socket, and what the clients are told about changes.
-/
namespace Flowchart.Server

open Live

namespace App

/-- A message that reached a client. -/
abbrev Sent := Nat × Message

/-- Runs one call on the pool. -/
def deliver (reachable : Nat → Bool) (app : App) (events : List Traffic.Event) : App × List Sent :=
  let (pool, calls) := Traffic.runCall reachable app.pool events
  ({ app with pool }, calls.flatMap fun c => c.reached.map (·, c.message))

def broadcast (reachable : Nat → Bool) (app : App) : List Message → App × List Sent
  | [] => (app, [])
  | message :: rest =>
    let (app, first) := app.deliver reachable [.broadcast message]
    let (app, others) := broadcast reachable app rest
    (app, first ++ others)

/-- Lets time pass, and tells the clients what changed since they were told last. -/
def settle (reachable : Nat → Bool) (app : App) (milliseconds : Nat) : App × List Sent :=
  let (app, _) := app.call (.advance milliseconds)
  let (broadcaster, messages) := app.hub.memory.drain
  broadcast reachable { app with hub := { app.hub with memory := broadcaster } } messages

inductive Incoming
  | text (s : String)
  | binary
  | closed

/-- A client that pings is answered; one that sends anything but text, or text that is an error, or
closes, is gone. -/
def receive [Json.Nesting] (reachable : Nat → Bool) (app : App) (client : Nat) : Incoming → App × List Sent
  | .text s =>
    match isPing s with
    | .ok true => app.deliver reachable [.send client .pong]
    | .ok false => (app, [])
    | .error _ => app.deliver reachable [.leave client]
  | .binary => app.deliver reachable [.leave client]
  | .closed => app.deliver reachable [.leave client]

/-- Connects a client; its id is the next one of the pool. -/
def connect (reachable : Nat → Bool) (app : App) : App × List Sent :=
  app.deliver reachable [.knock, .enroll]

inductive StartError
  /-- The quiet period is beyond all numbers of seconds. -/
  | endlessDelay
  /-- The reading of the first text is broken off. -/
  | broken (fault : Fault)

/-- The service when it starts, with its first text read and nothing left to tell. -/
def start (settings : Settings) : Except StartError App :=
  match secondsOf? settings.delay with
  | none => .error .endlessDelay
  | some seconds =>
    let app : App := ⟨Hub.start .empty (.ofSeconds seconds) .start, .first, .empty⟩
    match app.call (.setText settings.initialText) with
    | (_, .broken fault) => .error (.broken fault)
    | (app, _) => .ok (app.settle (fun _ => true) 0).1

end App
end Flowchart.Server
