import SchemaDiagram.Sync.Loading

/-!
Runs of a coordinator. Whatever reaches a coordinator is an operation: a call, a message, the start
of a task, the turn of a task that is ready, a step of the clock. A run is any list of operations,
so that tasks, replies and calls come in any order.
-/

set_option autoImplicit false

namespace SchemaDiagram.Sync

/-- Work that is given to a coordinator as a task of its own. -/
inductive Errand where
  | save (members : List (String × Json))
  | flush
  | drain
  | close
  | load (id : Json)
  | pause (seconds : Float)
  deriving DecidableEq

def Errand.point : Errand → Debounce.Point Point Wait
  | save members => .own (.request members)
  | flush => .own .flush
  | drain => .own .drain
  | close => .own .close
  | load id => .own (.load id)
  | pause seconds => .pause false seconds

def Errand.loads : Errand → Bool
  | load _ => true
  | save _ | flush | drain | close | pause _ => false

inductive Operation where
  | start
  | parse (text : Json)
  | deliver (message : Message)
  | setConnected (up : Bool)
  | edit (e : Edit)
  | moveTable (id position : Json)
  | postpone (members : List (String × Json))
  /-- A task that will start in its turn. -/
  | spawn (e : Errand)
  /-- A task that runs at once. -/
  | enter (e : Errand)
  | turn
  | advance
  deriving DecidableEq

/-- Whether an operation asks for a load. -/
def Operation.loads : Operation → Bool
  | spawn e | enter e => e.loads
  | _ => false

/-- Whether an operation is work of tasks, and no call, message or edit. -/
def Operation.works : Operation → Bool
  | spawn _ | enter _ | turn | advance => true
  | start | parse _ | deliver _ | setConnected _ | edit _ | moveTable _ _ | postpone _ => false

namespace Coordinator

def fresh (settings : Settings) (delay : Float) (session : Session)
    (channel : Channel Inbound Unit) (notifier : Notifier Unit) (backend : Backend) :
    Coordinator where
  debouncer := { delay := delay }
  world :=
    { settings := settings, session := session, channel := channel, notifier := notifier,
      backend := backend }

def perform (m : Coordinator) : Operation → Coordinator
  | .start => (start m).1
  | .parse text => (parse text m).1
  | .deliver message => (channelHost.deliver message m).1
  | .setConnected up => (channelHost.setConnected up m).1
  | .edit e => (edit e m).1
  | .moveTable id position => (moveTable id position m).1
  | .postpone members => (postpone members m).1
  | .spawn e => { m with loop := (m.loop.spawn e.point).1 }
  | .enter e => (host.enter e.point m).1
  | .turn => (host.turn? m).getD m
  | .advance => (m.loop.advance?.map fun l => { m with loop := l }).getD m

def performAll (operations : List Operation) (m : Coordinator) : Coordinator :=
  operations.foldl perform m

theorem performAll_append (operations : List Operation) (o : Operation) (m : Coordinator) :
    performAll (operations ++ [o]) m = perform (performAll operations m) o := by
  simp [performAll]

/-- What holds at first and is kept by every operation of a run holds after the run. -/
theorem performAll_induction {I : Coordinator → Prop} {operations : List Operation}
    {m : Coordinator} (start : I m) (step : ∀ o ∈ operations, ∀ m, I m → I (perform m o)) :
    I (performAll operations m) :=
  List.foldlRecOn operations perform start fun m hm o ho => step o ho m hm

/-- Something holds of every operation of a run and of the moment at which it is performed. -/
def Throughout (P : Coordinator → Operation → Prop) (m : Coordinator) (operations : List Operation) :
    Prop :=
  ∀ earlier o, earlier ++ [o] <+: operations → P (performAll earlier m) o

section Throughout

variable {P : Coordinator → Operation → Prop} {m : Coordinator} {passed operations : List Operation}

theorem throughout_cons {o : Operation} :
    Throughout P m (o :: operations) ↔ P m o ∧ Throughout P (perform m o) operations := by
  constructor
  · intro h
    refine ⟨h [] o ⟨operations, rfl⟩, fun earlier p part => ?_⟩
    exact h (o :: earlier) p (List.cons_prefix_cons.mpr ⟨rfl, part⟩)
  · rintro ⟨first, others⟩ earlier p part
    cases earlier with
    | nil =>
      obtain rfl := (List.cons_prefix_cons.mp part).1
      exact first
    | cons q earlier =>
      obtain ⟨rfl, later⟩ := List.cons_prefix_cons.mp part
      exact others earlier p later

instance decideThroughout [∀ m o, Decidable (P m o)] :
    (operations : List Operation) → (m : Coordinator) → Decidable (Throughout P m operations)
  | [], _ => isTrue fun _ _ part => by simp at part
  | o :: rest, m =>
    have := decideThroughout rest (perform m o)
    decidable_of_iff _ throughout_cons.symm

theorem Throughout.earlier (h : Throughout P m operations) (part : passed <+: operations) :
    Throughout P m passed :=
  fun _ _ before => h _ _ (before.trans part)

theorem Throughout.last {o : Operation} (h : Throughout P m (passed ++ [o])) :
    P (performAll passed m) o :=
  h passed o List.prefix_rfl

theorem Throughout.forall_mem {Q : Operation → Prop} (h : Throughout P m operations)
    (always : ∀ {m o}, P m o → Q o) : ∀ o ∈ operations, Q o := by
  intro o ho
  obtain ⟨before, after, rfl⟩ := List.mem_iff_append.mp ho
  exact always (h before o ⟨after, by simp⟩)

end Throughout

end Coordinator

end SchemaDiagram.Sync
