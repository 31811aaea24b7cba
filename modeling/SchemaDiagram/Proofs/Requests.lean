import SchemaDiagram.Proofs.Results
import SchemaDiagram.Proofs.Spellings
import SchemaDiagram.Proofs.WireReturn
import SchemaDiagram.Sync.Client

/-!
The calls of the client of the diagram service. Each sends at most one request, and the answer is decided
by the reply to it: an object with a status that holds, under a code below 400, gives its data, and
everything else is a fault of persistence. Other faults come of requests that cannot be written, of
replies that are nested too deep, and of addresses that are of no kind.
-/

set_option autoImplicit false

namespace SchemaDiagram.Sync

open Record (decode toWire)

/-- A payload that was read of a value. -/
def Payload.Accepted (p : Payload) : Prop := ∃ src v, decode src v = .ok p

namespace Payload

end Payload

namespace Call

end Call

namespace Client

variable {c : Client} {call : Call} {r : Request} {f : Fault}

mutual

theorem numberFault?_cases {v : Json} (h : numberFault? v = some f) :
    f = .unwritableNumber ∨ f = .longNumber := by
  cases v with
  | null | bool _ | str _ => cases h
  | int i =>
    unfold numberFault? at h
    split at h
    · cases h
    · exact .inr (Option.some.inj h).symm
  | float x =>
    unfold numberFault? at h
    split at h
    · cases h
    · exact .inl (Option.some.inj h).symm
  | arr items => exact itemsFault?_cases h
  | obj members => exact membersFault?_cases h

theorem itemsFault?_cases {items : List Json} (h : itemsFault? items = some f) :
    f = .unwritableNumber ∨ f = .longNumber := by
  cases items with
  | nil => cases h
  | cons v rest =>
    rw [itemsFault?] at h
    cases first : numberFault? v with
    | some g =>
      rw [first] at h
      exact numberFault?_cases (first.trans h)
    | none =>
      rw [first] at h
      exact itemsFault?_cases h

theorem membersFault?_cases {members : List (String × Json)} (h : membersFault? members = some f) :
    f = .unwritableNumber ∨ f = .longNumber := by
  cases members with
  | nil => cases h
  | cons m rest =>
    rw [membersFault?] at h
    cases first : numberFault? m.2 with
    | some g =>
      rw [first] at h
      exact numberFault?_cases (first.trans h)
    | none =>
      rw [first] at h
      exact membersFault?_cases h

end

end Client

def Line.next (l : Line) : Transmission := l.answers.head?.getD plain

theorem Line.send_eq (l : Line) (r : Request) :
    (l.send r).2 = l.next ∧ (l.send r).1.sent = l.sent ++ [r] := by
  unfold send next
  cases l.answers <;> exact ⟨rfl, rfl⟩

namespace Client

end Client

end SchemaDiagram.Sync
