import SchemaDiagram.EventLoop
import SchemaDiagram.Log

/-!
Postponed actions. A payload waits out a window of quiet; a newer one takes its place and begins the
window again. Only the window can be called off: once it is over, the action runs as a task of its
own to its end.
-/

set_option autoImplicit false

namespace SchemaDiagram

structure Debouncer (B : Type) where
  delay : Float
  window : Option TaskId := none
  pending : Option B := none

namespace Debounce

/-- Where a task stands, with `A` the points of actions and other work, and `K` what follows a wait
    for quiet. -/
inductive Point (A K : Type) where
  /-- A task that times a window. -/
  | window (begun : Bool)
  /-- A task that waits until nothing is pending or running. -/
  | quiet (next : K)
  /-- A task that sleeps. -/
  | pause (begun : Bool) (seconds : Float)
  | own (a : A)

/-- A debouncer on a loop, with the world that its actions work on. -/
structure Machine (W B A K : Type) where
  loop : Loop (Point A K) := {}
  debouncer : Debouncer B
  log : List LogLine := []
  world : W

structure Use (W B A K : Type) where
  start : B → A
  resume : TaskId → A → Signal → Machine W B A K → Machine W B A K
  afterQuiet : TaskId → K → Machine W B A K → Machine W B A K

namespace Machine

variable {W B A K : Type}

def note (m : Machine W B A K) (l : LogLine) : Machine W B A K := { m with log := m.log ++ [l] }

def withWorld (m : Machine W B A K) (w : W) : Machine W B A K := { m with world := w }

def finish (m : Machine W B A K) (t : TaskId) (o : Outcome) : Machine W B A K :=
  { m with loop := m.loop.finish t o }

def window? (m : Machine W B A K) : Option TaskId :=
  m.debouncer.window.filter fun t => (m.loop.outcome? t).isNone

def pending (m : Machine W B A K) : Bool := m.window?.isSome

def fired (m : Machine W B A K) : List TaskId := m.loop.members .fired

def running (m : Machine W B A K) : Bool := !m.fired.isEmpty

def cancel (m : Machine W B A K) : Machine W B A K :=
  let loop := match m.debouncer.window with
    | some t => m.loop.cancel t
    | none => m.loop
  { m with loop := loop, debouncer := { m.debouncer with window := none, pending := none } }

def schedule (m : Machine W B A K) (payload : B) : Machine W B A K :=
  let m := m.cancel
  let (loop, t) := m.loop.spawn (.window false)
  { m with loop := loop, debouncer := { m.debouncer with window := some t, pending := some payload } }

def takePending (m : Machine W B A K) : Machine W B A K × Option B :=
  if m.pending then (m.cancel, m.debouncer.pending) else (m, none)

def fire (use : Use W B A K) (m : Machine W B A K) (t : TaskId) : Machine W B A K :=
  let payload := m.debouncer.pending
  let m := { m with debouncer := { m.debouncer with window := none, pending := none } }
  let loop := match payload with
    | some b => (m.loop.spawnIn .fired (.own (use.start b))).1
    | none => m.loop
  { m with loop := loop }.finish t (.returned .null)

def awaitQuiet (use : Use W B A K) (m : Machine W B A K) (t : TaskId) (next : K) :
    Machine W B A K :=
  match m.window? with
  | some w => { m with loop := m.loop.join t w (.quiet next) }
  | none =>
    if m.running then { m with loop := m.loop.gather t m.fired (.quiet next) }
    else use.afterQuiet t next m

def resume (use : Use W B A K) (t : TaskId) (p : Point A K) (signal : Signal)
    (m : Machine W B A K) : Machine W B A K :=
  match p, signal with
  | .window _, .cancelled => m.finish t .cancelled
  | .window _, .failed f => m.finish t (.failed f)
  | .window false, .go => { m with loop := m.loop.sleep t m.debouncer.delay (.window true) }
  | .window true, .go => fire use m t
  | .quiet _, .failed f => m.finish t (.failed f)
  | .quiet next, .cancelled =>
    (m.note ⟨.debug, .debouncer, "Debounced call superseded while waiting"⟩).awaitQuiet use t next
  | .quiet next, .go => m.awaitQuiet use t next
  | .pause false seconds, .go => { m with loop := m.loop.sleep t seconds (.pause true seconds) }
  | .pause true _, .go => m.finish t (.returned .null)
  | .pause _ _, .cancelled => m.finish t .cancelled
  | .pause _ _, .failed f => m.finish t (.failed f)
  | .own a, signal => use.resume t a signal m

end Machine

def Use.host {W B A K : Type} (use : Use W B A K) :
    LoopHost (Machine W B A K) (Point A K) where
  loop m := m.loop
  putLoop l m := { m with loop := l }
  resume t p signal m := m.resume use t p signal

end Debounce

end SchemaDiagram
