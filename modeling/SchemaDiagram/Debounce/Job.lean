import SchemaDiagram.Debounce

/-!
Jobs as the actions of a debouncer: each has a name, may take some time and may fail. Starts and
ends are recorded with their times.
-/

set_option autoImplicit false

namespace SchemaDiagram.Debounce

structure Job where
  name : Json
  /-- Seconds of work. -/
  work : Option Float := none
  /-- The message with which the job fails. -/
  failure : Option String := none
  deriving DecidableEq

inductive Job.Event where
  | start (time : Float) (name : Json)
  | done (time : Float) (name : Json)
  | failed (time : Float) (name : Json)
  deriving DecidableEq

inductive Job.Stage where
  | start (j : Job)
  | work (j : Job)
  | flush

namespace Job

abbrev Machine := Debounce.Machine (List Event) Job Stage Unit

def record (m : Machine) (e : Event) : Machine := m.withWorld (m.world ++ [e])

def complete (t : TaskId) (j : Job) (m : Machine) : Machine :=
  match j.failure with
  | some message =>
    (record m (.failed m.loop.now j.name)).finish t (.failed (.handler message))
  | none => (record m (.done m.loop.now j.name)).finish t (.returned .null)

def begin (t : TaskId) (j : Job) (m : Machine) : Machine :=
  let m := record m (.start m.loop.now j.name)
  match j.work with
  | some seconds => { m with loop := m.loop.sleep t seconds (.own (.work j)) }
  | none => complete t j m

def resume (t : TaskId) (stage : Stage) (signal : Signal) (m : Machine) : Machine :=
  match signal with
  | .failed f => m.finish t (.failed f)
  | .cancelled => m.finish t .cancelled
  | .go =>
    match stage with
    | .start j => begin t j m
    | .work j => complete t j m
    | .flush =>
      match m.takePending with
      | (m, some j) => begin t j m
      | (m, none) => m.finish t (.returned .null)

def use : Use (List Event) Job Stage Unit where
  start := .start
  resume := resume
  afterQuiet t _ m := m.finish t (.returned .null)

end Job

end SchemaDiagram.Debounce
