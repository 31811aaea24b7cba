import SchemaDiagram.Files.Tree

/-!
What work in a folder has left behind: the texts of the files that read differently than before, and
the new folders that hold nothing.
-/

set_option autoImplicit false

namespace SchemaDiagram.Files.Tree

def isBelow (folder place : Place) : Bool := folder.isPrefixOf place && place != folder

def nameFrom (folder place : Place) : String := String.intercalate "/" (place.drop folder.length)

def isSame (before : Tree) (place : Place) (e : Entry) : Bool :=
  match e, before.get? place with
  | .file (.text s), some (.file (.text old)) => String.ofList (plainLines s.toList) = old
  | e, old => old = some e

/-- The changes below a folder by name. A folder has a bar behind its name and no text. -/
def changes (folder : Place) (before after : Tree) : List (String × Option String) :=
  let below := after.entries.filter fun e => isBelow folder e.1 && !isSame before e.1 e.2
  below.filterMap fun (place, e) =>
    match e with
    | .file (.text s) => some (nameFrom folder place, some (String.ofList (plainLines s.toList)))
    | .file .raw => none
    | .folder =>
      if after.entries.any fun x => isBelow place x.1 then none
      else some (nameFrom folder place ++ "/", none)

end SchemaDiagram.Files.Tree
