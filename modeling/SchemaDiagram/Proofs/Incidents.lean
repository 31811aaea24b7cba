import SchemaDiagram.Proofs.EditAtomic
import SchemaDiagram.Proofs.Moves

/-!
What happens to a coordinator, one thing after another. The incidents of an operation are computed from the
coordinator that it finds: texts sent to be parsed, commits, loads that start, what records bring, and every
message that a handler is called with. A peer may answer while a call is still being made, so a host that
writes down the calls of its handlers runs beside the coordinator; its record is forgotten, the run stays as
it is. The incidents of a run are those of its operations in order.
-/

set_option autoImplicit false

namespace SchemaDiagram

namespace ChannelHost

variable {S H W : Type}

structure Call (S H : Type) where
  handler : H
  payload : Json
  found : S

def recording (host : ChannelHost S H W) : ChannelHost (S × List (Call S H)) H W where
  channel p := host.channel p.1
  putChannel c p := (host.putChannel c p.1, p.2)
  handle h payload p :=
    (((host.handle h payload p.1).1, p.2 ++ [⟨h, payload, p.1⟩]), (host.handle h payload p.1).2)
  watch w up p := (((host.watch w up p.1).1, p.2), (host.watch w up p.1).2)
  log l p := (host.log l p.1, p.2)
  sending m p := (host.sending m p.1, p.2)

/-- A relation that spans the calls of handlers, each with its record, and what is done around them. -/
structure Tracks (host : ChannelHost S H W) (R : S → List (Call S H) → S → Prop) : Prop where
  refl : ∀ s, R s [] s
  trans : ∀ {s t u calls calls'}, R s calls t → R t calls' u → R s (calls ++ calls') u
  handle : ∀ h payload s, R s [⟨h, payload, s⟩] (host.handle h payload s).1
  sending : ∀ c m s, R s [] (host.sending m (host.putChannel c s))
  log : ∀ l s, R s [] (host.log l s)

/-- Writing down leaves a step as it is, and what is written down leads from its start to its end. -/
def Records (R : S → List (Call S H) → S → Prop) (step : S → S × Option Fault)
    (written : S × List (Call S H) → (S × List (Call S H)) × Option Fault) : Prop :=
  ∀ s calls, ∃ new, written (s, calls) = (((step s).1, calls ++ new), (step s).2) ∧
    R s new (step s).1

section Records

variable {host : ChannelHost S H W} {R : S → List (Call S H) → S → Prop}

theorem Tracks.callAll (tracks : host.Tracks R) {A : Type} {step : A → S → S × Option Fault}
    {written : A → S × List (Call S H) → (S × List (Call S H)) × Option Fault}
    (each : ∀ a, Records R (step a) (written a)) (as : List A) :
    Records R (callAll step as) (callAll written as) := by
  induction as with
  | nil => exact fun s calls => ⟨[], by rw [List.append_nil]; rfl, tracks.refl s⟩
  | cons a rest ih =>
    intro s calls
    obtain ⟨new, same, first⟩ := each a s calls
    unfold SchemaDiagram.callAll
    rw [same]
    rcases hs : step a s with ⟨t, f⟩
    rw [hs] at first
    cases f with
    | some f => exact ⟨new, rfl, first⟩
    | none =>
      obtain ⟨more, same', others⟩ := ih t (calls ++ new)
      exact ⟨new ++ more, same'.trans (by rw [List.append_assoc]), tracks.trans first others⟩

theorem Tracks.deliver (tracks : host.Tracks R) (m : Message) :
    Records R (host.deliver m) (host.recording.deliver m) :=
  fun s calls => tracks.callAll (fun h s _ =>
    ⟨[⟨h, m.2, s⟩], rfl, tracks.handle h m.2 s⟩) ((host.channel s).handlersOf m.1) s calls

theorem Tracks.emit (tracks : host.Tracks R) (m : Message) :
    Records R (host.emit m) (host.recording.emit m) := by
  intro s calls
  have channel : host.recording.channel (s, calls) = host.channel s := rfl
  unfold ChannelHost.emit
  simp only [channel]
  split
  · obtain ⟨new, same, told⟩ := tracks.callAll tracks.deliver ((host.channel s).answers m.1 m.2)
      (host.sending m (host.putChannel { host.channel s with sent := (host.channel s).sent ++ [m] } s))
      calls
    exact ⟨new, same, tracks.trans (tracks.sending _ m s) told⟩
  · exact ⟨[], by rw [List.append_nil]; rfl, tracks.log _ s⟩

end Records

end ChannelHost

namespace Sync.Coordinator

/-- What happens to a coordinator, as far as it bears on the session and on the answers that count. -/
inductive Incident where
  /-- A text is sent to be parsed, by this coordinator. -/
  | requested (text : Json) (sender : Coordinator)
  | committed (schema : Schema)
  | loadStarted
  /-- A load takes over the text of its record. -/
  | brought (text : Json)
  /-- A load draws the schema of its record. -/
  | drawn (schema : Schema)
  /-- A handler is called with a message, and finds this coordinator. -/
  | heard (kind : Inbound) (payload : Json) (found : Coordinator)

/-- The coordinator to which something happens, if it is on record. -/
def Incident.found? : Incident → Option Coordinator
  | requested _ m | heard _ _ m => some m
  | committed _ | loadStarted | brought _ | drawn _ => none

def update (schema : Schema) : Message :=
  (Channel.Event.updateSchema, .obj [("ast", Record.toWire schema)])

def committed (m : Coordinator) : Operation → Option Schema
  | .edit e => ((session m).attempt m.world.settings.grid e).2.schema?
  | _ => none

def incidentsOfCalls (calls : List (ChannelHost.Call Coordinator Inbound)) : List Incident :=
  calls.map fun c => .heard c.handler c.payload c.found

def whileDelivered (message : Message) (m : Coordinator) : List Incident :=
  incidentsOfCalls (channelHost.recording.deliver message (m, [])).1.2

def whileSent (message : Message) (m : Coordinator) : List Incident :=
  incidentsOfCalls (channelHost.recording.emit message (m, [])).1.2

def whileParsed (text : Json) (m : Coordinator) : List Incident :=
  if m.world.connected then
    .requested text m :: whileSent (parseRequest text m) (requesting text m)
  else []

def whileCommitted (schema : Schema) (m : Coordinator) : List Incident :=
  .committed schema ::
    if m.world.connected then whileSent (update schema) (superseding schema m) else []

def whileEdited (e : Edit) (m : Coordinator) : List Incident :=
  match (session m).attempt m.world.settings.grid e with
  | (s, .passed schema _) => whileCommitted schema (editHost.commitState e s schema m)
  | (_, .failed _) | (_, .rolledBack _) => []

def whileFurnished (members : List (String × Json)) (m : Coordinator) : List Incident :=
  if (member members "ast").truthy then
    match drawnIn m.world.settings.grid members with
    | .ok (schema, _) => [.drawn schema]
    | .error _ => []
  else if (textIn members).truthy then whileParsed (textIn members) m
  else []

def whileFilled (id record : Json) (m : Coordinator) : List Incident :=
  match membersIn record with
  | .ok members => .brought (textIn members) :: whileFurnished members (entitled id members m)
  | .error _ => []

def whileReceived (id : Json) (reply : Reply) (m : Coordinator) : List Incident :=
  match loaded id reply m with
  | .ok record => whileFilled id record m
  | .error _ => []

def whileLoaded (id : Json) (m : Coordinator) : List Incident :=
  .loadStarted ::
    match (loadReply m).delay with
    | some _ => []
    | none => whileReceived id (loadReply m) (blanking id m)

def whileResumed : Debounce.Point Point Wait → Coordinator → List Incident
  | .own (.load id), m => whileLoaded id m
  | .own (.loading id reply), m => whileReceived id reply m
  | _, _ => []

/-- The point from which a task goes on in an operation, with the coordinator as it then is. -/
def resumed? (m : Coordinator) : Operation → Option (Debounce.Point Point Wait × Coordinator)
  | .enter e => some (e.point, { m with loop := (m.loop.enter e.point).1 })
  | .turn =>
    match m.loop.ready with
    | [] => none
    | c :: rest => (c.target?.bind m.loop.standing).map fun p => (p, takeUp rest m)
  | _ => none

def incidents (m : Coordinator) : Operation → List Incident
  | .parse text => whileParsed text m
  | .deliver message => whileDelivered message m
  | .edit e => whileEdited e m
  | o =>
    match resumed? m o with
    | some (p, n) => whileResumed p n
    | none => []

def incidentsOf (m : Coordinator) : List Operation → List Incident
  | [] => []
  | o :: rest => incidents m o ++ incidentsOf (perform m o) rest

/-- A moment of a run, with the incidents until then: the end of an operation, or the call of a handler,
    before or after it. -/
inductive Moment (m : Coordinator) (operations : List Operation) : List Incident → Coordinator → Prop where
  | now : Moment m operations (incidentsOf m operations) (performAll operations m)
  | before {earlier later : List Incident} {kind : Inbound} {payload : Json} {k : Coordinator}
      (calls : incidentsOf m operations = earlier ++ .heard kind payload k :: later) :
      Moment m operations earlier k
  | after {earlier later : List Incident} {kind : Inbound} {payload : Json} {k : Coordinator}
      (calls : incidentsOf m operations = earlier ++ .heard kind payload k :: later) :
      Moment m operations (earlier ++ [.heard kind payload k]) (handle kind payload k).1

end Sync.Coordinator

end SchemaDiagram
