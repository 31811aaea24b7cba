import SchemaDiagram.Fault
import SchemaDiagram.Json.Agreement
import SchemaDiagram.Log

/-!
Notifications for the user: each is kept in a bounded history, logged, and handed to every handler
in the order of subscription. A handler that fails ends the round.
-/

set_option autoImplicit false

namespace SchemaDiagram

def callAll {H S : Type} (call : H → S → S × Option Fault) : List H → S → S × Option Fault
  | [], s => (s, none)
  | h :: rest, s =>
    match call h s with
    | (s, some f) => (s, some f)
    | (s, none) => callAll call rest s

structure Note where
  level : Json
  message : Json
  source : Json
  deriving DecidableEq

namespace Note

def logLevel (n : Note) : LogLevel :=
  if n.level = .str "error" then .error
  else if n.level = .str "warning" then .warning
  else .info

def log (n : Note) : LogLine :=
  ⟨n.logLevel, .notifications, "[" ++ n.source.display ++ "] " ++ n.message.display⟩

/-- What keeps a notification from being logged: its level cannot be looked up among levels. -/
def refusal? (n : Note) : Option Fault :=
  match n.level with
  | .arr _ | .obj _ => some (.unhashable n.level.kindName)
  | _ => none

def editorSource : String := "editor"

def error (message source : String) : Note := ⟨.str "error", .str message, .str source⟩

end Note

structure Notifier (H : Type) where
  handlers : List H := []
  history : List Note := []
  capacity : Nat

namespace Notifier

variable {H : Type}

/-- The most notifications that a size asks to keep, which must be an integer of 64 bits. -/
def capacityOf (size : Json) : Result Nat :=
  match size.asNumber with
  | .int n =>
    if n < -Int.pow 2 63 ∨ Int.pow 2 63 ≤ n then .error .hugeHistory
    else if n < 0 then .error .negativeHistory
    else .ok n.toNat
  | _ => .error .unknownHistory

def create (size : Json) : Result (Notifier H) :=
  (capacityOf size).map fun capacity => ⟨[], [], capacity⟩

def subscribe (n : Notifier H) (h : H) : Notifier H :=
  { n with handlers := n.handlers ++ [h] }

def unsubscribe [DecidableEq H] (n : Notifier H) (h : H) : Notifier H :=
  { n with handlers := n.handlers.erase h }

/-- Keeps a notification; the oldest ones give way. -/
def keep (n : Notifier H) (note : Note) : Notifier H :=
  let all := n.history ++ [note]
  { n with history := all.drop (all.length - n.capacity) }

def last? (n : Notifier H) : Option Note := n.history.getLast?

end Notifier

end SchemaDiagram
