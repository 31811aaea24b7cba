import SchemaDiagram.Notification

/-!
The message channel to the remote parser. Handlers are subscribed by event and called in order, each
to its end; watchers are told of every change of the connection. What is sent while the channel is
down is dropped. A peer may be given that answers each message at once.
-/

set_option autoImplicit false

namespace SchemaDiagram

namespace Channel.Event

def parse : String := "diagram:parse"

def updateSchema : String := "diagram:update-ast"

def parsed : String := "diagram:parsed"

def parseFailed : String := "diagram:error"

def schemaUpdated : String := "diagram:ast-updated"

end Channel.Event

abbrev Message := String × Json

/-- An answer of the peer; it may carry the version of what it answers. -/
structure PeerReply where
  event : String
  payload : Json
  echo : Bool := false
  deriving DecidableEq

namespace PeerReply

def message (r : PeerReply) (payload : Json) : Message :=
  match r.echo, r.payload with
  | true, .obj members => (r.event, .obj (Json.store "version" (payload.get "version") members))
  | _, p => (r.event, p)

end PeerReply

abbrev Peer := List (String × List PeerReply)

structure Channel (H W : Type) where
  connected : Bool := true
  handlers : List (String × List H) := []
  watchers : List W := []
  peer : Peer := []
  sent : List Message := []

namespace Channel

variable {H W S : Type}

def handlersOf (c : Channel H W) (event : String) : List H :=
  match c.handlers.find? fun p => p.1 = event with
  | some p => p.2
  | none => []

def mapHandlers (event : String) (f : List H → List H) :
    List (String × List H) → List (String × List H)
  | [] => [(event, f [])]
  | (e, hs) :: rest => if e = event then (e, f hs) :: rest else (e, hs) :: mapHandlers event f rest

def on (c : Channel H W) (event : String) (h : H) : Channel H W :=
  { c with handlers := mapHandlers event (· ++ [h]) c.handlers }

/-- Drops the first subscription of a handler to an event. -/
def off [DecidableEq H] (c : Channel H W) (event : String) (h : H) : Channel H W :=
  { c with handlers := mapHandlers event (·.erase h) c.handlers }

def offAll (c : Channel H W) (event : String) : Channel H W :=
  { c with handlers := mapHandlers event (fun _ => []) c.handlers }

def unwatch [DecidableEq W] (c : Channel H W) (w : W) : Channel H W :=
  { c with watchers := c.watchers.erase w }

def answers (c : Channel H W) (event : String) (payload : Json) : List Message :=
  match c.peer.find? fun p => p.1 = event with
  | some p => p.2.map fun r => r.message payload
  | none => []

end Channel

/-- What surrounds a channel: its own state, in which the channel is kept, and what it does with
    messages, changes of the connection, lines for the log and messages sent. -/
structure ChannelHost (S H W : Type) where
  channel : S → Channel H W
  putChannel : Channel H W → S → S
  handle : H → Json → S → S × Option Fault
  watch : W → Bool → S → S × Option Fault
  log : LogLine → S → S
  sending : Message → S → S

namespace ChannelHost

variable {S H W : Type}

def deliver (host : ChannelHost S H W) (m : Message) (s : S) : S × Option Fault :=
  callAll (fun h => host.handle h m.2) ((host.channel s).handlersOf m.1) s

/-- Sends a message, unless the channel is down. The peer's answers are delivered at once. -/
def emit (host : ChannelHost S H W) (m : Message) (s : S) : S × Option Fault :=
  let c := host.channel s
  if c.connected then
    let s := host.sending m (host.putChannel { c with sent := c.sent ++ [m] } s)
    callAll host.deliver (c.answers m.1 m.2) s
  else (host.log ⟨.warning, .channel, "Channel not connected, cannot emit: " ++ m.1⟩ s, none)

def setConnected (host : ChannelHost S H W) (up : Bool) (s : S) : S × Option Fault :=
  let c := host.channel s
  if c.connected = up then (s, none)
  else
    let word := if up then "Channel connected" else "Channel disconnected"
    let s := host.log ⟨.info, .channel, word⟩ (host.putChannel { c with connected := up } s)
    callAll (fun w => host.watch w up) c.watchers s

def addWatcher (host : ChannelHost S H W) (w : W) (s : S) : S × Option Fault :=
  let c := host.channel s
  host.watch w c.connected (host.putChannel { c with watchers := c.watchers ++ [w] } s)

end ChannelHost

end SchemaDiagram
