import SchemaDiagram.Log.Setup
import SchemaDiagram.Proofs.SavedFiles

/-!
Where a document can be saved. The folders on the way to it are made where they are missing, so that only a
file in the way, a folder in its place or a name that is too long can prevent it. Nothing that is in the tree
changes before the way is made; then the one file is written.
-/

set_option autoImplicit false

namespace SchemaDiagram.Files

open Logging (placeOf)

namespace Path

theorem intercalate_dropLast_le (separator : String) (parts : List String) :
    (String.intercalate separator parts.dropLast).utf8ByteSize ≤
      (String.intercalate separator parts).utf8ByteSize := by
  rcases parts.eq_nil_or_concat with rfl | ⟨init, last, rfl⟩
  · exact Nat.le_refl _
  · rw [List.concat_eq_append, List.dropLast_concat]
    by_cases empty : init = []
    · subst empty
      exact Nat.zero_le _
    · rw [String.intercalate_append_of_ne_nil empty (List.cons_ne_nil _ _), String.utf8ByteSize_append,
        String.utf8ByteSize_append]
      omega

theorem toString_parent_le (p : Path) : p.parent.toString.utf8ByteSize ≤ max 1 p.toString.utf8ByteSize := by
  have shorter := intercalate_dropLast_le "/" p.parts
  unfold toString parent
  dsimp only
  split
  · exact Nat.le_max_left _ _
  · rename_i shown
    have longer : ¬ (p.root = 0 ∧ p.parts = []) := fun h => shown ⟨h.1, by rw [h.2]; rfl⟩
    rw [if_neg longer, String.utf8ByteSize_append, String.utf8ByteSize_append]
    omega

end Path

namespace Tree

variable {t k l : Tree} {p : Path} {place cur : Place} {parts : List String}

theorem check_parent (h : check p = .ok ()) : check p.parent = .ok () := by
  unfold check at h ⊢
  split at h
  · cases h
  · rename_i texts
    split at h
    · cases h
    · rename_i plain
      split at h
      · cases h
      · rename_i short
        have texts' : p.parent.parts.all Text.isSystemText = true := by
          rw [Bool.not_eq_true', Bool.not_eq_false] at texts
          exact List.all_eq_true.mpr fun part mem => List.all_eq_true.mp texts part (List.dropLast_subset _ mem)
        have plain' : ¬ (p.parent.parts.any fun part => part.toList.contains '\x00') = true := fun found => by
          obtain ⟨part, mem, has⟩ := List.any_eq_true.mp found
          exact plain (List.any_eq_true.mpr ⟨part, List.dropLast_subset _ mem, has⟩)
        have short' : ¬ longestPath < p.parent.toString.utf8ByteSize := by
          have := p.toString_parent_le
          unfold longestPath at short ⊢
          omega
        rw [texts', if_neg plain', if_neg short']
        rfl

/-- A later tree has all that an earlier one had; what it has more is folders. -/
structure Kept (t k : Tree) : Prop where
  here : k.here = t.here
  entries : ∀ place e, t.get? place = some e → k.get? place = some e
  folders : ∀ place e, k.get? place = some e → t.get? place = some e ∨ e = .folder

namespace Kept

theorem refl (t : Tree) : Kept t t := ⟨rfl, fun _ _ h => h, fun _ _ h => .inl h⟩

theorem trans (first : Kept t k) (second : Kept k l) : Kept t l := by
  refine ⟨second.here.trans first.here, fun place e h => second.entries place e (first.entries place e h), ?_⟩
  intro place e h
  rcases second.folders place e h with h | h
  · exact first.folders place e h
  · exact .inr h

theorem put_folder (missing : t.get? place = none) : Kept t (t.put place .folder) := by
  have apart : place ≠ [] := by
    rintro rfl
    cases missing
  refine ⟨rfl, fun other e h => ?_, fun other e h => ?_⟩
  · have different : other ≠ place := by
      rintro rfl
      rw [missing] at h
      cases h
    rw [get?_put_of_ne t _ different]
    exact h
  · by_cases same : other = place
    · subst same
      rw [get?_put_self t _ apart] at h
      exact .inr (Option.some.inj h).symm
    · rw [get?_put_of_ne t _ same] at h
      exact .inl h

theorem file_iff (kept : Kept t k) (place : Place) (c : Content) :
    k.get? place = some (.file c) ↔ t.get? place = some (.file c) := by
  constructor
  · intro h
    exact (kept.folders place _ h).resolve_right nofun
  · exact kept.entries place _

theorem start (kept : Kept t k) (p : Path) : k.start p = t.start p := by
  unfold Tree.start
  rw [kept.here]

theorem walk (kept : Kept t k) (h : t.walk cur parts = .ok place) : k.walk cur parts = .ok place := by
  induction parts generalizing cur with
  | nil => exact h
  | cons part rest ih =>
    rw [Tree.walk] at h ⊢
    split at h
    · cases h
    · cases h
    · rename_i folder
      rw [kept.entries cur _ folder]
      split at h
      · cases h
      · rename_i short
        simp only [if_neg short]
        exact ih h

end Kept

theorem locate_ok_iff : t.locate p = .ok place ↔
    check p = .ok () ∧ t.walk (t.start p) p.parts = .ok place := by
  unfold locate
  cases check p with
  | error f => simp [bind, Except.bind]
  | ok _ => simp [bind, Except.bind]

theorem entry_ok_iff {e : Entry} : t.entry p = .ok e ↔
    ∃ place, t.locate p = .ok place ∧ t.get? place = some e := by
  unfold entry
  cases t.locate p with
  | error f => simp [bind, Except.bind]
  | ok place =>
    cases found : t.get? place with
    | none => simp [bind, Except.bind, found, throw, throwThe, MonadExceptOf.throw]
    | some e' => simp [bind, Except.bind, found, pure, Except.pure]

theorem Kept.entry (kept : Kept t k) {e : Entry} (h : t.entry p = .ok e) : k.entry p = .ok e := by
  obtain ⟨place, located, found⟩ := entry_ok_iff.mp h
  obtain ⟨checked, walked⟩ := locate_ok_iff.mp located
  have located' : k.locate p = .ok place := locate_ok_iff.mpr ⟨checked, kept.start p ▸ kept.walk walked⟩
  exact entry_ok_iff.mpr ⟨place, located', kept.entries place e found⟩

def way (cur : Place) : List String → List Place
  | [] => []
  | part :: rest => step cur part :: way (step cur part) rest

theorem walk_ok_iff {last : String} : t.walk cur (parts ++ [last]) = .ok place ↔
    (∀ x ∈ cur :: way cur parts, t.get? x = some .folder) ∧
      (∀ part ∈ parts ++ [last], part.utf8ByteSize ≤ longestPart) ∧
      (parts ++ [last]).foldl step cur = place := by
  induction parts generalizing cur with
  | nil =>
    rw [List.nil_append, walk]
    cases found : t.get? cur with
    | none => simp [found]
    | some e =>
      cases e with
      | file c => simp [found]
      | folder =>
        by_cases long : longestPart < last.utf8ByteSize
        · simp [long, Nat.not_le.mpr long]
        · simp [found, long, walk, way, Nat.not_lt.mp long]
  | cons part rest ih =>
    rw [List.cons_append, walk]
    cases found : t.get? cur with
    | none => simp [found]
    | some e =>
      cases e with
      | file c => simp [found]
      | folder =>
        by_cases long : longestPart < part.utf8ByteSize
        · simp [long, Nat.not_le.mpr long]
        · simp [found, long, ih, way, Nat.not_lt.mp long]

theorem walk_way (h : t.walk cur parts = .ok place) :
    (∀ x ∈ way cur parts.dropLast, t.get? x = some .folder) ∧
      ∀ part ∈ parts, part.utf8ByteSize ≤ longestPart := by
  rcases parts.eq_nil_or_concat with rfl | ⟨init, last, rfl⟩
  · exact ⟨nofun, nofun⟩
  · rw [List.concat_eq_append] at h ⊢
    obtain ⟨folders, short, -⟩ := walk_ok_iff.mp h
    rw [List.dropLast_concat]
    exact ⟨(List.forall_mem_cons.mp folders).2, short⟩

theorem grow_kept (t : Tree) (cur : Place) (parts : List String) : Kept t (t.grow cur parts).1 := by
  fun_induction t.grow cur parts with
  | case1 t cur => exact .refl t
  | case2 t cur part rest long => exact .refl t
  | case3 t cur part rest short next missing ih => exact (Kept.put_folder missing).trans ih
  | case4 t cur part rest short next found ih => exact ih
  | case5 t cur part rest short next c found => exact .refl t

theorem grow_ok_iff (t : Tree) (cur : Place) (parts : List String) : (t.grow cur parts).2 = none ↔
    (∀ part ∈ parts, part.utf8ByteSize ≤ longestPart) ∧
      ∀ x ∈ way cur parts, ∀ c, t.get? x ≠ some (.file c) := by
  fun_induction t.grow cur parts with
  | case1 t cur => simp [way]
  | case2 t cur part rest long => simp [Nat.not_le.mpr long]
  | case3 t cur part rest short next missing ih =>
    have same (x : Place) (c : Content) := (Kept.put_folder missing).file_iff x c
    simp [ih, same, way, Nat.not_lt.mp short, missing, next]
  | case4 t cur part rest short next found ih =>
    simp [ih, way, Nat.not_lt.mp short, found, next]
  | case5 t cur part rest short next c found =>
    simp [way, found, next]

theorem grow_folders (t : Tree) (cur : Place) (parts : List String) (made : (t.grow cur parts).2 = none) :
    ∀ x ∈ way cur parts, (t.grow cur parts).1.get? x = some .folder := by
  fun_induction t.grow cur parts with
  | case1 t cur => exact nofun
  | case2 t cur part rest long => cases made
  | case3 t cur part rest short next missing ih =>
    have apart : next ≠ [] := by
      intro root
      rw [root] at missing
      cases missing
    exact List.forall_mem_cons.mpr ⟨(grow_kept _ _ _).entries _ _ (get?_put_self t _ apart), ih made⟩
  | case4 t cur part rest short next found ih =>
    exact List.forall_mem_cons.mpr ⟨(grow_kept _ _ _).entries _ _ found, ih made⟩
  | case5 t cur part rest short next c found => cases made

theorem grow_made {x : Place} (h : (t.grow cur parts).1.get? x = some .folder) :
    t.get? x = some .folder ∨ x ∈ way cur parts := by
  fun_induction t.grow cur parts with
  | case1 t cur => exact .inl h
  | case2 t cur part rest long => exact .inl h
  | case3 t cur part rest short next missing ih =>
    rcases ih h with before | later
    · by_cases same : x = next
      · exact .inr (List.mem_cons.mpr (.inl same))
      · rw [get?_put_of_ne t _ same] at before
        exact .inl before
    · exact .inr (List.mem_cons_of_mem _ later)
  | case4 t cur part rest short next found ih => exact (ih h).imp_right (List.mem_cons_of_mem _)
  | case5 t cur part rest short next c found => exact .inl h

theorem makeFolders_kept (t : Tree) (p : Path) : Kept t (t.makeFolders p).1 := by
  unfold makeFolders
  split
  · exact .refl t
  · exact grow_kept t _ _

theorem makeFolders_ok_iff : (t.makeFolders p).2 = none ↔
    check p = .ok () ∧ (t.grow (t.start p) p.parts).2 = none := by
  unfold makeFolders
  cases check p with
  | error f => simp
  | ok _ => simp

theorem makeFolders_eq (h : check p = .ok ()) : t.makeFolders p = t.grow (t.start p) p.parts := by
  unfold makeFolders
  rw [h]

theorem write_ok_iff {text : String} : t.write p text = .ok k ↔
    ∃ place, t.locate p = .ok place ∧ t.get? place ≠ some .folder ∧ t.put place (.file (.text text)) = k := by
  unfold write
  cases t.locate p with
  | error f => simp [bind, Except.bind]
  | ok place =>
    simp only [bind, Except.bind, Except.ok.injEq, exists_eq_left']
    unfold writeAt
    split
    · simp [*]
    · rename_i other
      have other : t.get? place ≠ some .folder := other
      simp [other]

theorem folder_of_write_error {text : String} {f : FileFault} (failed : t.write p text = .error f)
    (located : t.locate p = .ok place) : t.get? place = some .folder := by
  refine Decidable.byContradiction fun other => ?_
  have done : t.write p text = .ok (t.put place (.file (.text text))) :=
    write_ok_iff.mpr ⟨place, located, other, rfl⟩
  cases failed.symm.trans done

end Tree

open Files.Tree

variable {t k : Tree} {p : Path} {v : Json}

/-- A path under which a document can be saved. No file is on the way to it, and it leads to no folder, be it
    one that is there or one that is made on the way. -/
structure Tree.Writable (t : Tree) (p : Path) : Prop where
  checked : check p = .ok ()
  short : ∀ part ∈ p.parts, part.utf8ByteSize ≤ longestPart
  clear : ∀ x ∈ way (t.start p) p.parent.parts, ∀ c, t.get? x ≠ some (.file c)
  free : t.get? (placeOf t p) ≠ some .folder
  ahead : placeOf t p ∉ way (t.start p) p.parent.parts

/-- How saving goes: the folders are made or not, and then the file is written or not. -/
inductive Saving (t : Tree) (p : Path) (v : Json) : Tree × Option Fault → Prop where
  | unmade {k : Tree} {f : FileFault} (folders : t.makeFolders p.parent = (k, some f)) :
      Saving t p v (k, some (.file f))
  | unwritten {k : Tree} {f : FileFault} (folders : t.makeFolders p.parent = (k, none))
      (write : k.write p v.pretty = .error f) : Saving t p v (k, some (.file f))
  | written {k l : Tree} (folders : t.makeFolders p.parent = (k, none)) (write : k.write p v.pretty = .ok l) :
      Saving t p v (l, none)

theorem saving (t : Tree) (p : Path) (v : Json) : Saving t p v (save t p v) := by
  unfold save
  split
  · exact .unmade ‹_›
  · split
    · exact .unwritten ‹_› ‹_›
    · exact .written ‹_› ‹_›

theorem entry_save (saved : (save t p v).2 = none) :
    (save t p v).1.entry p = .ok (.file (.text v.pretty)) := by
  have result := saving t p v
  generalize save t p v = r at saved result
  cases result with
  | unmade _ => cases saved
  | unwritten _ _ => cases saved
  | written _ write => exact entry_write write

theorem save_here (t : Tree) (p : Path) (v : Json) : (save t p v).1.here = t.here := by
  have kept := makeFolders_kept t p.parent
  have result := saving t p v
  generalize save t p v = r at result
  cases result with
  | unmade folders => rw [folders] at kept; exact kept.here
  | unwritten folders _ => rw [folders] at kept; exact kept.here
  | written folders write =>
    obtain ⟨place, -, -, rfl⟩ := write_ok_iff.mp write
    rw [folders] at kept
    exact kept.here

theorem save_folder {x : Place} (h : t.get? x = some .folder) : (save t p v).1.get? x = some .folder := by
  have kept := makeFolders_kept t p.parent
  have result := saving t p v
  generalize save t p v = r at result
  cases result with
  | unmade folders => rw [folders] at kept; exact kept.entries x _ h
  | unwritten folders _ => rw [folders] at kept; exact kept.entries x _ h
  | written folders write =>
    obtain ⟨place, -, other, rfl⟩ := write_ok_iff.mp write
    rw [folders] at kept
    have stays := kept.entries x _ h
    have apart : x ≠ place := by
      rintro rfl
      exact other stays
    rw [get?_put_of_ne _ _ apart]
    exact stays

theorem save_none_iff : (save t p v).2 = none ↔ (t.makeFolders p.parent).2 = none ∧
    ∃ place, (t.makeFolders p.parent).1.locate p = .ok place ∧
      (t.makeFolders p.parent).1.get? place ≠ some .folder := by
  have result := saving t p v
  generalize save t p v = r at result
  cases result with
  | unmade folders => simp [folders]
  | unwritten folders write =>
    simp only [folders, reduceCtorEq, true_and, false_iff]
    rintro ⟨place, located, other⟩
    exact other (folder_of_write_error write located)
  | written folders write =>
    obtain ⟨place, located, other, -⟩ := write_ok_iff.mp write
    simp only [folders, true_and, true_iff]
    exact ⟨place, located, other⟩

theorem start_rooted (rooted : t.get? t.here = some .folder) (p : Path) : t.get? (t.start p) = some .folder := by
  unfold Tree.start
  split
  · exact rooted
  · rfl

/-- Whether a document can be saved under a path is seen from the tree as it is. -/
theorem save_ok_iff (rooted : t.get? t.here = some .folder) : (save t p v).2 = none ↔ t.Writable p := by
  have started := start_rooted rooted p
  have kept := makeFolders_kept t p.parent
  rcases p.parts.eq_nil_or_concat with empty | ⟨init, last, parts⟩
  · -- a path without parts leads to the folder in which it starts
    have leads : placeOf t p = t.start p := by
      unfold placeOf
      rw [empty]
      rfl
    refine iff_of_false (fun saved => ?_) fun writable => writable.free (leads ▸ started)
    obtain ⟨-, place, located, other⟩ := save_none_iff.mp saved
    obtain ⟨-, walked⟩ := locate_ok_iff.mp located
    rw [empty, kept.start] at walked
    cases walked
    exact other (kept.entries _ _ started)
  · rw [List.concat_eq_append] at parts
    have folder : p.parent.parts = init := by
      unfold Path.parent
      rw [parts, List.dropLast_concat]
    have leads : placeOf t p = (init ++ [last]).foldl step (t.start p) := by
      unfold placeOf
      rw [parts]
    rw [save_none_iff]
    constructor
    · rintro ⟨made, place, located, other⟩
      obtain ⟨checked, walked⟩ := locate_ok_iff.mp located
      rw [parts, kept.start, walk_ok_iff] at walked
      obtain ⟨folders, short, reached⟩ := walked
      rw [← leads] at reached
      subst reached
      obtain ⟨-, behind⟩ := List.forall_mem_cons.mp folders
      refine ⟨checked, parts ▸ short, fun x hx c file => ?_, fun before => ?_, fun passed => ?_⟩
      · have now := behind x (folder ▸ hx)
        rw [kept.entries x _ file] at now
        cases now
      · exact other (kept.entries _ _ before)
      · exact other (behind _ (folder ▸ passed))
    · intro writable
      have checked := check_parent writable.checked
      have short : ∀ part ∈ init ++ [last], part.utf8ByteSize ≤ longestPart := parts ▸ writable.short
      have made : (t.grow (t.start p) init).2 = none := by
        refine (grow_ok_iff _ _ _).mpr ⟨fun part mem => short part (List.mem_append_left _ mem), ?_⟩
        exact folder ▸ writable.clear
      have grown : t.makeFolders p.parent = t.grow (t.start p) init := by
        rw [makeFolders_eq checked, folder]
        rfl
      rw [grown] at kept ⊢
      refine ⟨made, placeOf t p, locate_ok_iff.mpr ⟨writable.checked, ?_⟩, fun found => ?_⟩
      · rw [parts, kept.start, walk_ok_iff]
        exact ⟨List.forall_mem_cons.mpr ⟨kept.entries _ _ started, grow_folders _ _ _ made⟩, short, leads.symm⟩
      · rcases grow_made found with before | passed
        · exact writable.free before
        · exact writable.ahead (folder ▸ passed)

theorem makeFolders_of_entry (kept : Kept t k) {e : Entry} (found : k.entry p = .ok e) :
    (t.makeFolders p.parent).2 = none := by
  obtain ⟨place, located, -⟩ := entry_ok_iff.mp found
  obtain ⟨checked, walked⟩ := locate_ok_iff.mp located
  obtain ⟨passed, short⟩ := walk_way walked
  rw [kept.start] at passed
  refine makeFolders_ok_iff.mpr ⟨check_parent checked, (grow_ok_iff _ _ _).mpr ⟨fun part mem => ?_, ?_⟩⟩
  · exact short part (List.dropLast_subset _ mem)
  · intro x hx c file
    have now := passed x hx
    rw [kept.entries x _ file] at now
    cases now

theorem writable_of_file (rooted : t.get? t.here = some .folder) {c : Content}
    (found : t.entry p = .ok (.file c)) : t.Writable p := by
  obtain ⟨place, located, file⟩ := entry_ok_iff.mp ((makeFolders_kept t p.parent).entry found)
  refine (save_ok_iff (v := .null) rooted).mp (save_none_iff.mpr ⟨?_, place, located, fun folder => ?_⟩)
  · exact makeFolders_of_entry (.refl t) found
  · cases folder.symm.trans file

/-- A document that is not saved leaves every file as it was, and its path does not lead to a file. -/
theorem save_failed {f : Fault} (failed : (save t p v).2 = some f) :
    Kept t (save t p v).1 ∧ ∀ c, (save t p v).1.entry p ≠ .ok (.file c) := by
  have kept := makeFolders_kept t p.parent
  have result := saving t p v
  generalize save t p v = r at failed result
  cases result with
  | unmade folders =>
    rw [folders] at kept
    refine ⟨kept, fun c found => ?_⟩
    have made := makeFolders_of_entry kept found
    rw [folders] at made
    cases made
  | unwritten folders write =>
    rw [folders] at kept
    refine ⟨kept, fun c found => ?_⟩
    obtain ⟨place, located, file⟩ := entry_ok_iff.mp found
    cases file.symm.trans (folder_of_write_error write located)
  | written _ _ => cases failed

end SchemaDiagram.Files
