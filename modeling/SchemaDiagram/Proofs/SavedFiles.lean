import SchemaDiagram.Files.Document
import SchemaDiagram.Proofs.WireReturn

/-!
Schemas and diagrams come back from the files they are saved in. What is written has no carriage returns,
so that its lines are read as they were written; it starts and ends with a brace, so that nothing is
stripped; and a file that was written is found again on its path.
-/

set_option autoImplicit false

namespace SchemaDiagram

open Record (decode toWire)

namespace Text

theorem plainLines_eq {cs : List Char} (h : '\r' ∉ cs) : Files.plainLines cs = cs := by
  fun_induction Files.plainLines cs with
  | case1 => rfl
  | case2 rest => simp at h
  | case3 rest => simp at h
  | case4 c rest _ _ ih => rw [ih (List.not_mem_of_not_mem_cons h)]

theorem trimBy_eq {p : Char → Bool} {first last : Char} {cs : List Char} (opens : p first = false)
    (closes : p last = false) : trimBy p (first :: (cs ++ [last])) = first :: (cs ++ [last]) := by
  simp [trimBy, opens, closes]

end Text

namespace Json

theorem digitChar_ne_return (n : Nat) : Nat.digitChar n ≠ '\r' := by
  grind [Nat.digitChar]

theorem return_not_mem_toDigitsCore {base : Nat} (fuel n : Nat) {acc : List Char} (h : '\r' ∉ acc) :
    '\r' ∉ Nat.toDigitsCore base fuel n acc := by
  induction fuel generalizing n acc with
  | zero => exact h
  | succ fuel ih =>
    have more : '\r' ∉ Nat.digitChar (n % base) :: acc := by simp [h, (digitChar_ne_return _).symm]
    rw [Nat.toDigitsCore]
    split
    · exact more
    · exact ih _ more

theorem return_not_mem_toDigits (base n : Nat) : '\r' ∉ Nat.toDigits base n :=
  return_not_mem_toDigitsCore _ _ nofun

theorem return_not_mem_escapeUnit (n : Nat) : '\r' ∉ escapeUnit n := by
  simp [escapeUnit, hexDigits, return_not_mem_toDigits]

theorem return_not_mem_escapeChar (c : Char) : '\r' ∉ escapeChar c := by
  unfold escapeChar
  split
  case h_8 c _ _ _ other _ _ _ =>
    dsimp only
    split
    · simpa using Ne.symm other
    · split
      · exact return_not_mem_escapeUnit _
      · simp [return_not_mem_escapeUnit]
  all_goals decide

theorem return_not_mem_quote (s : String) : '\r' ∉ quote s := by
  simp [quote, return_not_mem_escapeChar]

theorem return_not_mem_int (i : Int) : '\r' ∉ (toString i).toList := by
  cases i with
  | ofNat n => simpa [toString, Int.repr, Nat.repr] using return_not_mem_toDigits 10 n
  | negSucc n => simpa [toString, Int.repr, Nat.repr] using return_not_mem_toDigits 10 (n + 1)

theorem return_not_mem_zeros (n : Nat) : '\r' ∉ Decimal.zeros n := by
  simp [Decimal.zeros]

theorem return_not_mem_positional {digits : List Char} (h : '\r' ∉ digits) (exponent : Int) :
    '\r' ∉ Decimal.positional digits exponent := by
  unfold Decimal.positional
  split
  · simp [h, return_not_mem_zeros]
  · rename_i k
    have padded : '\r' ∉ Decimal.zeros (k + 1 + 1 - digits.length) ++ digits := by
      simp [h, return_not_mem_zeros]
    simp only [List.mem_append, List.mem_cons, not_or]
    exact ⟨mt List.mem_of_mem_take padded, by decide, mt List.mem_of_mem_drop padded⟩

theorem return_not_mem_scientific (f : Decimal.Layout) {digits : List Char} (h : '\r' ∉ digits) (lead : Int) :
    '\r' ∉ Decimal.scientific f digits lead := by
  unfold Decimal.scientific
  simp only [List.mem_append, List.mem_cons, not_or]
  refine ⟨?mantissa, by decide, ?sign, return_not_mem_zeros _, return_not_mem_toDigits _ _⟩
  case mantissa => split <;> simp_all
  case sign => split <;> decide

theorem return_not_mem_float (x : Float) : '\r' ∉ (Decimal.document.write x).toList := by
  have digits (d : Decimal.Digits) : '\r' ∉ d.write Decimal.document := by
    unfold Decimal.Digits.write
    dsimp only
    split
    · exact return_not_mem_positional (return_not_mem_toDigits _ _) _
    · exact return_not_mem_scientific _ (return_not_mem_toDigits _ _) _
  have sign (bits : Nat) : '\r' ∉ (if bits = 1 then "-" else "").toList := by
    split <;> decide
  unfold Decimal.Layout.write
  dsimp only
  split
  · decide
  · split
    · simp [sign, Decimal.document]
    · split
      · simp [sign]
      · simp [sign, digits]

section Spacing

variable (sp : Spacing)

theorem return_not_mem_gap : '\r' ∉ sp.gap := by
  cases sp <;> simp [Spacing.gap]

theorem return_not_mem_colon : '\r' ∉ sp.colon := by
  cases sp <;> simp [Spacing.colon]

end Spacing

mutual

theorem return_not_mem_write (sp : Spacing) : (v : Json) → '\r' ∉ write sp v
  | .null => by simp [write]
  | .bool true => by simp [write]
  | .bool false => by simp [write]
  | .int i => return_not_mem_int i
  | .float x => return_not_mem_float x
  | .str s => return_not_mem_quote s
  | .arr [] => by simp [write]
  | .arr (x :: xs) => by
    simp [write, return_not_mem_gap, return_not_mem_write sp.deeper x, return_not_mem_writeItems sp.deeper xs]
  | .obj [] => by simp [write]
  | .obj ((k, x) :: ms) => by
    simp [write, return_not_mem_gap, return_not_mem_colon, return_not_mem_quote, return_not_mem_write sp.deeper x,
      return_not_mem_writeMembers sp.deeper ms]

theorem return_not_mem_writeItems (sp : Spacing) : (xs : List Json) → '\r' ∉ writeItems sp xs
  | [] => nofun
  | x :: xs => by
    simp [writeItems, return_not_mem_gap, return_not_mem_write sp x, return_not_mem_writeItems sp xs]

theorem return_not_mem_writeMembers (sp : Spacing) :
    (ms : List (String × Json)) → '\r' ∉ writeMembers sp ms
  | [] => nofun
  | (k, x) :: ms => by
    simp [writeMembers, return_not_mem_gap, return_not_mem_colon, return_not_mem_quote, return_not_mem_write sp x,
      return_not_mem_writeMembers sp ms]

end

theorem write_obj (sp : Spacing) (ms : List (String × Json)) :
    ∃ cs, write sp (.obj ms) = '\x7b' :: (cs ++ ['\x7d']) := by
  cases ms with
  | nil => exact ⟨[], rfl⟩
  | cons m rest => exact ⟨_, by rw [write]⟩

theorem parse_pretty {d : Dialect} {v : Json} :
    let cs := write (.indented 0) v
    (readValue d (2 * cs.length + 2) d.depth cs).toOption = some (v, []) → parse d v.pretty = .ok v := by
  intro cs read
  unfold parse pretty
  rw [String.toList_ofList]
  dsimp only
  cases found : readValue d (2 * cs.length + 2) d.depth cs with
  | error f =>
    rw [found] at read
    cases read
  | ok p =>
    rw [found] at read
    cases read
    rfl

end Json

namespace Files

theorem read_pretty (ms : List (String × Json)) :
    Content.read (.text (Json.obj ms).pretty) = .ok (Json.obj ms).pretty := by
  unfold Content.read Json.pretty
  simp only
  rw [String.toList_ofList, Text.plainLines_eq (Json.return_not_mem_write _ _)]

theorem strip_pretty (ms : List (String × Json)) :
    Text.strip (Json.obj ms).pretty = (Json.obj ms).pretty ∧ (Json.obj ms).pretty ≠ "" := by
  obtain ⟨cs, written⟩ := Json.write_obj (.indented 0) ms
  unfold Text.strip Json.pretty
  rw [String.toList_ofList, written, Text.trimBy_eq (by decide) (by decide)]
  exact ⟨rfl, by simp⟩

namespace Tree

variable {t : Tree} {place : Place}

theorem walk_put {cur : Place} {parts : List String} {found : Place} (e : Entry)
    (other : t.get? place ≠ some .folder) (h : t.walk cur parts = .ok found) :
    (t.put place e).walk cur parts = .ok found := by
  induction parts generalizing cur with
  | nil => exact h
  | cons part rest ih =>
    rw [walk] at h ⊢
    split at h
    · cases h
    · cases h
    · have here : cur ≠ place := fun same => other (same ▸ ‹_›)
      rw [get?_put_of_ne t e here]
      simp only [‹t.get? cur = _›]
      split at h
      · cases h
      · rw [if_neg ‹_›]
        exact ih h

theorem locate_put {p : Path} (e : Entry) (other : t.get? place ≠ some .folder)
    (h : t.locate p = .ok place) : (t.put place e).locate p = .ok place := by
  unfold locate at h ⊢
  cases checked : check p with
  | error f =>
    rw [checked] at h
    cases h
  | ok _ =>
    rw [checked] at h
    exact walk_put e other h

/-- A file that was written has the text on its path. -/
theorem entry_write {t' : Tree} {p : Path} {text : String} (h : t.write p text = .ok t') :
    t'.entry p = .ok (.file (.text text)) := by
  unfold write at h
  cases located : t.locate p with
  | error f =>
    rw [located] at h
    cases h
  | ok place =>
    rw [located] at h
    change t.writeAt place text = .ok t' at h
    unfold writeAt at h
    split at h
    · cases h
    · rename_i other
      cases h
      have apart : place ≠ [] := fun root => other (by rw [root]; rfl)
      unfold entry
      rw [locate_put _ other located]
      simp only [bind, Except.bind, get?_put_self t _ apart]
      rfl

end Tree

variable {t : Tree} {p : Path}

theorem readDocument_save {what : String} {ms : List (String × Json)}
    (saved : (save t p (.obj ms)).2 = none) :
    readDocument (save t p (.obj ms)).1 what p = .ok (Json.obj ms).pretty := by
  unfold save at saved ⊢
  split at saved
  · cases saved
  · rename_i t' made
    split at saved
    · cases saved
    · rename_i k written
      change readDocument k what p = _
      obtain ⟨stripped, given⟩ := strip_pretty ms
      have holds : k.holds p = .ok true := by
        rw [Tree.holds, Tree.entry_write written]
      have read : k.read p = .ok (Json.obj ms).pretty := by
        rw [Tree.read, Tree.entry_write written]
        exact read_pretty ms
      rw [readDocument, holds, read]
      simp [Tree.ofFile, bind, Except.bind, pure, Except.pure, stripped, given]

theorem loadSchema_saveSchema {s : Schema} (saved : (saveSchema t p s).2 = none)
    (inverse : Json.parse .strict (toWire s).pretty = .ok (toWire s)) :
    loadSchema (saveSchema t p s).1 p = .ok s := by
  obtain ⟨ms, written⟩ : ∃ ms, toWire s = .obj ms := ⟨_, rfl⟩
  unfold saveSchema at saved ⊢
  unfold loadSchema
  rw [written] at saved inverse ⊢
  rw [readDocument_save saved]
  have read : schemaOfText (Json.obj ms).pretty = .ok s := by
    unfold schemaOfText
    rw [inverse, ← written]
    simp only [Record.validate, s.decode_toWire .text]
  simp only [bind, Except.bind, read]
  rfl

theorem recordsUnder_eq {α : Type} [Record α] {members : List (String × Json)} {key : String}
    {xs : List α} (found : Json.lookup key members = some (.arr (xs.map toWire)))
    (back : ∀ a ∈ xs, decode .value (toWire a) = .ok a) :
    recordsUnder α members key = .ok xs := by
  have filled (items : List Json) : (Json.arr items).orElse (.arr []) = .arr items := by
    cases items <;> rfl
  unfold recordsUnder
  rw [found]
  simp only [Option.getD_some, filled, Decode.list_back_of_mem back]

theorem diagramOf_toJson {d : Diagram} (headed : ∀ n ∈ d.nodes, n.data.label.IsText) :
    diagramOf d.toJson = .ok d := by
  have nodes : recordsUnder Node [("nodes", .arr (d.nodes.map toWire)),
      ("edges", .arr (d.edges.map toWire))] "nodes" = .ok d.nodes :=
    recordsUnder_eq rfl fun n hn => Node.decode_toWire_of_text .value (headed n hn)
  have edges : recordsUnder Edge [("nodes", .arr (d.nodes.map toWire)),
      ("edges", .arr (d.edges.map toWire))] "edges" = .ok d.edges :=
    recordsUnder_eq rfl fun e _ => e.decode_toWire .value
  unfold Diagram.toJson diagramOf
  simp only [nodes, edges]

theorem loadDiagram_saveDiagram {d : Diagram} (saved : (saveDiagram t p d).2 = none)
    (inverse : Json.parse .lenient d.toJson.pretty = .ok d.toJson)
    (headed : ∀ n ∈ d.nodes, n.data.label.IsText) :
    loadDiagram (saveDiagram t p d).1 p = .ok d := by
  obtain ⟨ms, written⟩ : ∃ ms, d.toJson = .obj ms := ⟨_, rfl⟩
  have back := diagramOf_toJson headed
  unfold saveDiagram at saved ⊢
  unfold loadDiagram
  rw [written] at saved inverse back ⊢
  rw [readDocument_save saved]
  simp only [bind, Except.bind, inverse, back]
  rfl

/-- Nothing is lost on the wire. Whatever kind of record is read of a value, in either spelling of its
    fields, the same record is read of its wire form, so that a value in normal form stays as it is; a
    default value is written just as it was given. A schema or a diagram that was saved in a file is
    loaded from it, if its text is read as the value that was written. -/
theorem wire_form_comes_back :
    (∀ (k : Kind) (src again : Source) (v : Json) (a : k.Value), decode src v = .ok a →
      decode again (toWire a) = .ok a ∧
        k.normalise src v = .ok (toWire a) ∧ k.normalise again (toWire a) = .ok (toWire a)) ∧
    (∀ (src : Source) (members : List (String × Json)),
      (∀ c : Column, decode src (.obj members) = .ok c →
        (toWire c).get "defaultValue" = Column.givenDefault members) ∧
      ∀ c : NodeColumn, decode src (.obj members) = .ok c →
        (toWire c).get "defaultValue" = Column.givenDefault members) ∧
    ∀ (t : Tree) (p : Path),
      (∀ s : Schema, (saveSchema t p s).2 = none →
        Json.parse .strict (toWire s).pretty = .ok (toWire s) →
        loadSchema (saveSchema t p s).1 p = .ok s) ∧
      ∀ d : Diagram, (saveDiagram t p d).2 = none →
        Json.parse .lenient d.toJson.pretty = .ok d.toJson →
        (∀ n ∈ d.nodes, n.data.label.IsText) →
        loadDiagram (saveDiagram t p d).1 p = .ok d := by
  refine ⟨fun k src again v a read => ?_, fun src members => ?_, fun t p => ?_⟩
  · have normal : k.normalise src v = .ok (toWire a) := Decoded.map_eq _ read
    exact ⟨k.decode_toWire read again, normal, k.normalise_normalise normal again⟩
  · exact ⟨fun c => Column.get_default, fun c => NodeColumn.get_default⟩
  · exact ⟨fun s => loadSchema_saveSchema, fun d => loadDiagram_saveDiagram⟩

/-- A column in the other spelling, a schema and a diagram in a folder that is made for them. -/
theorem wire_form_comes_back_of_column :
    let members := [("name", Json.str "id"), ("default_value", .bool true), ("primary_key", .str "yes")]
    let column : Column := { name := "id", primaryKey := true, defaultValue := some (.bool true) }
    let schema : Schema := ⟨[{ id := "t1", name := "users", columns := [column] }], []⟩
    let diagram : Diagram := ⟨[{ id := "t1", data := { label := .text "users" } }], [{ id := "e1" }]⟩
    let path : Path := ⟨0, ["out", "saved.json"]⟩
    (decode .value (.obj members) = .ok column ∧ decode .text (toWire column) = .ok column ∧
      (toWire column).get "defaultValue" = .bool true) ∧
    loadSchema (saveSchema {} path schema).1 path = .ok schema ∧
    loadDiagram (saveDiagram {} path diagram).1 path = .ok diagram := by
  intro members column schema diagram path
  obtain ⟨wire, defaults, files⟩ := wire_form_comes_back
  have read : decode .value (.obj members) = .ok column := rfl
  have headed : ∀ n ∈ diagram.nodes, n.data.label.IsText :=
    List.forall_mem_singleton.mpr ⟨"users", rfl⟩
  refine ⟨⟨read, (wire .column .value .text _ column read).1,
    (defaults .value members).1 column read⟩, ?_, ?_⟩
  · exact (files {} path).1 schema (by decide +kernel) (Json.parse_pretty (by decide +kernel))
  · exact (files {} path).2 diagram (by decide +kernel) (Json.parse_pretty (by decide +kernel)) headed

end Files

end SchemaDiagram
