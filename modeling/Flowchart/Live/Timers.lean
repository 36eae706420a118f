import Flowchart.Number.Binary64

/-!
A clock in whole milliseconds with timers that wait for it. A delay is so many milliseconds, or it has no
end. It is told in milliseconds of any kind, which are first turned into seconds, and the seconds into what
the clock counts; both times the nearest floating-point number is taken.
-/
namespace Flowchart.Live

def secondsOf? (milliseconds : Int) : Option Binary64 :=
  match Binary64.ofQuotient (milliseconds < 0) milliseconds.natAbs 1000 with
  | .infinite _ => none
  | seconds => some seconds

/-- A delay: how long it takes, if it ever ends. -/
abbrev Delay := Option Nat

/-- The delay of so many seconds. Less than none are none, and too many for the clock never end. -/
def Delay.ofSeconds (seconds : Binary64) : Delay :=
  (seconds.scaled 1000 1).nearestInt?.map Int.toNat

structure Timer where
  id : Nat
  /-- When the timer fires, if it ever does. -/
  due : Option Nat
deriving DecidableEq

/-- The clock and the timers that are neither cancelled nor fired. -/
structure Timers where
  now : Nat
  nextId : Nat
  live : List Timer
deriving DecidableEq

namespace Timers

def start : Timers where
  now := 0
  nextId := 0
  live := []

/-- Sets a timer that is due after a delay; its id is new. -/
def set (t : Timers) (delay : Delay) : Nat × Timers :=
  let timer : Timer := ⟨t.nextId, delay.map (t.now + ·)⟩
  (t.nextId, { t with nextId := t.nextId + 1, live := t.live ++ [timer] })

/-- Takes a timer out, because it is cancelled or because it fires. -/
def remove (t : Timers) (id : Nat) : Timers :=
  { t with live := t.live.filter (·.id != id) }

def isLive (t : Timers) (id : Nat) : Bool :=
  t.live.any (·.id == id)

def advance (t : Timers) (milliseconds : Nat) : Timers :=
  { t with now := t.now + milliseconds }

def due (t : Timers) : List Timer :=
  (t.live.filter fun timer => timer.due.any (· ≤ t.now)).mergeSort fun first second =>
    first.due.getD 0 ≤ second.due.getD 0

end Timers
end Flowchart.Live
