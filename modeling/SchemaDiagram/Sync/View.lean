import SchemaDiagram.Session.View
import SchemaDiagram.Sync.Client
import SchemaDiagram.Sync.Coordinator

/-!
What can be seen of a coordinator and of a client's requests, as named values.
-/

set_option autoImplicit false

namespace SchemaDiagram.Sync

namespace Event

def toJson : Event → Json
  | sent m => .arr [.str "sent", .str m.1, m.2]
  | save time id status payload =>
    .arr [.str "save", .float time, id, .str status.spelling, Record.toWire payload]
  | answered time _ => .arr [.str "answered", .float time]
  | load time id => .arr [.str "get", .float time, id]
  | loadStarter time => .arr [.str "get_default", .float time]
  | note n => .arr [.str "note", n.level, n.message, n.source]

end Event

namespace Request

def toJson (r : Request) : Json :=
  .obj [("method", .str r.method.name), ("url", .str r.url.toString),
    ("authorization", .ofText? r.authorization), ("content_type", .str contentType),
    ("timeout", r.timeout), ("body", r.body)]

end Request

namespace Coordinator

def members (m : Coordinator) : List (String × Json) :=
  m.world.session.members.filter (fun v => v.1 ≠ "previous") ++
  [("connected", .bool m.world.connected), ("pending", .bool m.pending),
   ("running", .bool m.running), ("last_saved", m.world.lastSaved),
   ("notes", .int m.world.notifier.history.length)]

end Coordinator

end SchemaDiagram.Sync
