import SchemaDiagram.Fault

/-!
A cooperative event loop. Tasks run one at a time, each until it waits for something; what is ready
runs in the order in which it became ready. A task stands at a point, and everything that a point
stands for is left to the host of the loop. The clock moves only when nothing is ready.
-/

set_option autoImplicit false

namespace SchemaDiagram

inductive Outcome where
  | returned (v : Json)
  | failed (f : Fault)
  | cancelled
  deriving DecidableEq

/-- How a task goes on: what it waited for has come, has failed, or was called off. -/
inductive Signal where
  | go
  | failed (f : Fault)
  | cancelled
  deriving DecidableEq

def Outcome.signal : Outcome → Signal
  | returned _ => .go
  | failed f => .failed f
  | cancelled => .cancelled

abbrev TaskId := Nat

/-- The sets in which running tasks are kept until their end has been seen. -/
inductive TaskGroup where
  /-- Actions that a quiet window has started. -/
  | fired
  /-- Saves that a committed edit has started. -/
  | spawned
  deriving DecidableEq, Repr

inductive Listener where
  /-- The task leaves its group. -/
  | leave (group : TaskGroup)
  /-- A task that waited for it goes on. -/
  | resume (waiter : TaskId)
  /-- A gathering counts it. -/
  | gather (id : Nat)
  deriving DecidableEq

structure Task (P : Type) where
  id : TaskId
  point : P
  listeners : List Listener := []
  /-- The task is to be called off when it goes on next. -/
  calledOff : Bool := false
  outcome : Option Outcome := none

/-- A task that waits until others have all ended or one has failed. -/
structure Gathering where
  id : Nat
  waiter : TaskId
  left : Nat
  settled : Bool := false
  deriving DecidableEq

inductive Callback where
  | step (task : TaskId) (signal : Signal)
  | ended (task : TaskId) (outcome : Outcome) (listener : Listener)
  deriving DecidableEq

structure Sleeper where
  task : TaskId
  wakeAt : Float
  deriving DecidableEq

structure Loop (P : Type) where
  now : Float := 0.0
  fresh : Nat := 0
  tasks : List (Task P) := []
  ready : List Callback := []
  sleepers : List Sleeper := []
  gatherings : List Gathering := []
  groups : List (TaskGroup × TaskId) := []

namespace Loop

variable {P : Type}

def task? (l : Loop P) (t : TaskId) : Option (Task P) := l.tasks.find? fun x => x.id = t

def mapTask (l : Loop P) (t : TaskId) (f : Task P → Task P) : Loop P :=
  { l with tasks := l.tasks.map fun x => if x.id = t then f x else x }

def outcome? (l : Loop P) (t : TaskId) : Option Outcome := (l.task? t).bind Task.outcome

def members (l : Loop P) (g : TaskGroup) : List TaskId :=
  (l.groups.filter fun p => p.1 = g).map fun p => p.2

def push (l : Loop P) (c : Callback) : Loop P := { l with ready := l.ready ++ [c] }

/-- A task that runs at once, in the place of whoever makes it. -/
def enter (l : Loop P) (p : P) : Loop P × TaskId :=
  ({ l with fresh := l.fresh + 1, tasks := l.tasks ++ [{ id := l.fresh, point := p }] }, l.fresh)

def spawn (l : Loop P) (p : P) : Loop P × TaskId :=
  let (l, t) := l.enter p
  (l.push (.step t .go), t)

/-- A task that will start in its turn and is kept in a group until its end has been seen. -/
def spawnIn (l : Loop P) (g : TaskGroup) (p : P) : Loop P × TaskId :=
  let (l, t) := l.spawn p
  ({ l.mapTask t fun x => { x with listeners := x.listeners ++ [.leave g] } with
    groups := l.groups ++ [(g, t)] }, t)

def wait (l : Loop P) (t : TaskId) (p : P) : Loop P := l.mapTask t fun x => { x with point := p }

def wake (l : Loop P) (t : TaskId) : Loop P := l.push (.step t .go)

/-- Puts a task to sleep; a sleep of no length only lets the others have their turn. -/
def sleep (l : Loop P) (t : TaskId) (seconds : Float) (p : P) : Loop P :=
  let l := l.wait t p
  if seconds ≤ 0 then l.wake t
  else { l with sleepers := l.sleepers ++ [⟨t, l.now + seconds⟩] }

def listen (l : Loop P) (t : TaskId) (x : Listener) : Loop P :=
  l.mapTask t fun task => { task with listeners := task.listeners ++ [x] }

def join (l : Loop P) (waiter target : TaskId) (p : P) : Loop P :=
  (l.wait waiter p).listen target (.resume waiter)

/-- Lets a task wait for the ends of others. The ends that have come are counted in their turn. -/
def gather (l : Loop P) (waiter : TaskId) (targets : List TaskId) (p : P) : Loop P :=
  let id := l.fresh
  let l := { l.wait waiter p with
    fresh := l.fresh + 1
    gatherings := l.gatherings ++ [⟨id, waiter, targets.length, false⟩] }
  targets.foldl (fun l t =>
    match l.outcome? t with
    | some o => l.push (.ended t o (.gather id))
    | none => l.listen t (.gather id)) l

/-- Ends a task; its listeners hear of it in their turn. -/
def finish (l : Loop P) (t : TaskId) (o : Outcome) : Loop P :=
  match l.task? t with
  | none => l
  | some task =>
    let l := l.mapTask t fun x => { x with outcome := some o, listeners := [] }
    { l with ready := l.ready ++ task.listeners.map fun x => .ended t o x }

/-- Calls a task off. It ends when it goes on next, which a sleeping task does in its turn. -/
def cancel (l : Loop P) (t : TaskId) : Loop P :=
  if (l.outcome? t).isSome then l
  else
    let l := l.mapTask t fun x => { x with calledOff := true }
    if l.sleepers.any fun s => s.task = t then
      { l with sleepers := l.sleepers.filter fun s => s.task ≠ t }.push (.step t .cancelled)
    else l

/-- Counts an end in a gathering. The waiter goes on at the first failure or at the last end. -/
def count (l : Loop P) (id : Nat) (o : Outcome) : Loop P :=
  match l.gatherings.find? fun g => g.id = id with
  | none => l
  | some g =>
    if g.settled then l
    else
      let put (g : Gathering) : Loop P :=
        { l with gatherings := l.gatherings.map fun x => if x.id = id then g else x }
      match o with
      | .returned _ =>
        if g.left ≤ 1 then (put { g with left := 0, settled := true }).push (.step g.waiter .go)
        else put { g with left := g.left - 1 }
      | o => (put { g with settled := true }).push (.step g.waiter o.signal)

def nextTime? (l : Loop P) : Option Float :=
  l.sleepers.foldl (fun acc s =>
    match acc with
    | none => some s.wakeAt
    | some x => some (if s.wakeAt < x then s.wakeAt else x)) none

/-- Moves the clock to the next time at which a sleeper wakes and wakes all of that time. -/
def advance? (l : Loop P) : Option (Loop P) :=
  l.nextTime?.map fun time =>
    let due := l.sleepers.filter fun s => s.wakeAt ≤ time
    { l with
      now := time
      sleepers := l.sleepers.filter fun s => ¬ s.wakeAt ≤ time
      ready := l.ready ++ due.map fun s => .step s.task .go }

end Loop

/-- The host of a loop says what a task does when it goes on from a point, until it waits again or
    ends. `S` is the host's state with the loop in it. -/
structure LoopHost (S P : Type) where
  loop : S → Loop P
  putLoop : Loop P → S → S
  resume : TaskId → P → Signal → S → S

namespace LoopHost

variable {S P : Type}

/-- Lets a task go on. One that was called off goes on as cancelled, one that has ended does not. -/
def step (host : LoopHost S P) (t : TaskId) (signal : Signal) (s : S) : S :=
  match (host.loop s).task? t with
  | none => s
  | some task =>
    if task.outcome.isSome then s
    else host.resume t task.point (if task.calledOff then .cancelled else signal) s

def run (host : LoopHost S P) (c : Callback) (s : S) : S :=
  match c with
  | .step t signal => host.step t signal s
  | .ended t _ (.leave g) =>
    let l := host.loop s
    host.putLoop { l with groups := l.groups.filter fun p => p ≠ (g, t) } s
  | .ended _ o (.resume waiter) => host.step waiter o.signal s
  | .ended _ o (.gather id) => host.putLoop ((host.loop s).count id o) s

def turn? (host : LoopHost S P) (s : S) : Option S :=
  match (host.loop s).ready with
  | [] => none
  | c :: rest => some (host.run c (host.putLoop { host.loop s with ready := rest } s))

/-- Runs what is ready until nothing is, the clock standing still. The first argument bounds the
    number of turns. -/
def settle (host : LoopHost S P) : Nat → S → S
  | 0, s => s
  | n + 1, s =>
    match host.turn? s with
    | some s => host.settle n s
    | none => s

/-- Runs until a task has ended, moving the clock when nothing is ready. The first argument bounds
    the number of turns. -/
def await (host : LoopHost S P) (t : TaskId) : Nat → S → S
  | 0, s => s
  | n + 1, s =>
    if ((host.loop s).outcome? t).isSome then s
    else
      match host.turn? s with
      | some s => host.await t n s
      | none =>
        match (host.loop s).advance? with
        | some l => host.await t n (host.putLoop l s)
        | none => s

def enter (host : LoopHost S P) (p : P) (s : S) : S × TaskId :=
  let (l, t) := (host.loop s).enter p
  (host.resume t p .go (host.putLoop l s), t)

end LoopHost

end SchemaDiagram
