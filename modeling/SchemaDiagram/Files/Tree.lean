import SchemaDiagram.Fault
import SchemaDiagram.Files.Path

/-!
A tree of folders and files, with the folder in which work is done. A path is followed part by
part: what stands before another part must be a folder, and a double dot leads to the folder above.
Paths and their parts may only be so long.
-/

set_option autoImplicit false

namespace SchemaDiagram.Files

inductive Content where
  | text (s : String)
  | raw
  deriving DecidableEq

def plainLines : List Char → List Char
  | [] => []
  | '\r' :: '\n' :: rest => '\n' :: plainLines rest
  | '\r' :: rest => '\n' :: plainLines rest
  | c :: rest => c :: plainLines rest

def Content.read : Content → Result String
  | .text s => .ok (String.ofList (plainLines s.toList))
  | .raw => .error .badEncoding

inductive Entry where
  | folder
  | file (c : Content)
  deriving DecidableEq

abbrev Place := List String

structure Tree where
  here : Place := []
  entries : List (Place × Entry) := []
  deriving DecidableEq

def Path.ofJson : Json → Result Path
  | .str s => .ok (.ofString s)
  | v => .error (.notText .path v.kindName)

namespace Tree

def get? (t : Tree) (place : Place) : Option Entry :=
  if place = [] then some .folder else (t.entries.find? fun e => e.1 = place).map fun e => e.2

def putEntry (place : Place) (e : Entry) : List (Place × Entry) → List (Place × Entry)
  | [] => [(place, e)]
  | (p, old) :: rest => if p = place then (place, e) :: rest else (p, old) :: putEntry place e rest

def put (t : Tree) (place : Place) (e : Entry) : Tree :=
  { t with entries := putEntry place e t.entries }

def step (folder : Place) (part : String) : Place :=
  if part = ".." then folder.dropLast else folder ++ [part]

def longestPart : Nat := 255

def longestPath : Nat := 4095

/-- Refuses paths that cannot be followed at all. -/
def check (p : Path) : Except FileFault Unit :=
  if !p.parts.all Text.isSystemText then .error .unencodable
  else if p.parts.any fun part => part.toList.contains '\x00' then .error .nulCharacter
  else if longestPath < p.toString.utf8ByteSize then .error .longName
  else .ok ()

def walk (t : Tree) : Place → List String → Except FileFault Place
  | cur, [] => .ok cur
  | cur, part :: rest =>
    match t.get? cur with
    | none => .error .missing
    | some (.file _) => .error .notDirectory
    | some .folder =>
      if longestPart < part.utf8ByteSize then .error .longName else t.walk (step cur part) rest

def start (t : Tree) (p : Path) : Place := if p.root = 0 then t.here else []

/-- The place that a path leads to, whether anything is there or not. -/
def locate (t : Tree) (p : Path) : Except FileFault Place := do
  check p
  t.walk (t.start p) p.parts

def entry (t : Tree) (p : Path) : Except FileFault Entry := do
  let place ← t.locate p
  match t.get? place with
  | some e => return e
  | none => throw .missing

def holds (t : Tree) (p : Path) : Except FileFault Bool :=
  match t.entry p with
  | .ok _ => .ok true
  | .error .longName => .error .longName
  | .error _ => .ok false

def ofFile {α : Type} : Except FileFault α → Result α
  | .ok a => .ok a
  | .error f => .error (.file f)

def read (t : Tree) (p : Path) : Result String := do
  match ← ofFile (t.entry p) with
  | .folder => throw (.file .isDirectory)
  | .file c => Content.read c

/-- Makes the folders of parts that are missing. Those before a fault are made. -/
def grow (t : Tree) : Place → List String → Tree × Option FileFault
  | _, [] => (t, none)
  | cur, part :: rest =>
    if longestPart < part.utf8ByteSize then (t, some .longName)
    else
      let next := step cur part
      match t.get? next with
      | none => (t.put next .folder).grow next rest
      | some .folder => t.grow next rest
      | some (.file _) => (t, some (if rest = [] then .exists else .notDirectory))

def makeFolders (t : Tree) (p : Path) : Tree × Option FileFault :=
  match check p with
  | .error f => (t, some f)
  | .ok () => t.grow (t.start p) p.parts

def writeAt (t : Tree) (place : Place) (text : String) : Except FileFault Tree :=
  match t.get? place with
  | some .folder => .error .isDirectory
  | _ => .ok (t.put place (.file (.text text)))

def write (t : Tree) (p : Path) (text : String) : Except FileFault Tree := do
  t.writeAt (← t.locate p) text

def appendAt (t : Tree) (place : Place) (text : String) : Except FileFault Tree :=
  match t.get? place with
  | some .folder => .error .isDirectory
  | some (.file (.text old)) => .ok (t.put place (.file (.text (old ++ text))))
  | some (.file .raw) => .ok t
  | none => .ok (t.put place (.file (.text text)))

theorem get?_put_self (t : Tree) {place : Place} (e : Entry) (h : place ≠ []) :
    (t.put place e).get? place = some e := by
  simp only [get?, if_neg h, put]
  induction t.entries with
  | nil => simp [putEntry]
  | cons x rest ih => by_cases hx : x.1 = place <;> simp [putEntry, hx, ih]

theorem get?_put_of_ne (t : Tree) {place other : Place} (e : Entry) (h : other ≠ place) :
    (t.put place e).get? other = t.get? other := by
  simp only [get?, put]
  split
  · rfl
  · induction t.entries with
    | nil => simp [putEntry, Ne.symm h]
    | cons x rest ih =>
      by_cases hx : x.1 = place
      · simp [putEntry, hx, Ne.symm h]
      · by_cases ho : x.1 = other
        · simp [putEntry, ho, h]
        · simp [putEntry, hx, ho, ih]

end Tree

end SchemaDiagram.Files
