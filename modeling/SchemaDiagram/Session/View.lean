import SchemaDiagram.Notification
import SchemaDiagram.Session

/-!
What can be seen of a session, as named values.
-/

set_option autoImplicit false

namespace SchemaDiagram

namespace Issue

def toJson (i : Issue) : Json :=
  .obj [("message", .str i.message), ("code", .str i.code), ("table", .ofText? i.table?),
    ("column", .ofText? i.column?)]

end Issue

namespace Verdict

def members (v : Verdict) : List (String × Json) :=
  [("valid", .bool v.valid), ("errors", .arr (v.issues.map Issue.toJson)),
   ("codes", .arr (v.codes.map .str)), ("first_message", .str v.firstMessage)]

end Verdict

namespace Note

def toJson (n : Note) : Json :=
  .obj [("level", n.level), ("message", n.message), ("source", n.source)]

end Note

namespace Session

def members (s : Session) : List (String × Json) :=
  [("nodes", .arr (s.diagram.nodes.map Record.toWire)),
   ("edges", .arr (s.diagram.edges.map Record.toWire)),
   ("diagram_id", s.canvas.diagramId),
   ("previous", .ofOption Diagram.toJson s.canvas.previous),
   ("dbml_text", s.document.text),
   ("ast", .ofOption Record.toWire s.document.schema),
   ("errors", .arr (s.document.errors.map Record.toWire)),
   ("status", .str s.document.status.spelling),
   ("active_tab", .str s.selection.panel.spelling),
   ("selected", s.selection.node)]

end Session

end SchemaDiagram
