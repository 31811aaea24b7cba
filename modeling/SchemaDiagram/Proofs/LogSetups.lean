import Mathlib.Logic.Relation
import SchemaDiagram.Log.Setup
import SchemaDiagram.Proofs.Results

/-!
Setting up the log. A setup that is done leaves the engine's logger with one handler for the console and, if a
file is configured, one for the file, whatever handlers there were. A setup that fails is not undone: how far
it came is seen by the level and the handlers, while all that comes last, and every file, is as it was. So the
handlers of a logger stand at its level after any uses of the log.
-/

set_option autoImplicit false

namespace SchemaDiagram

open Files (Tree Place)

namespace Logging

variable {settings : Settings} {r : LogRequest} {l l' : Logging} {t t' : Tree} {level : Int} {f : Fault}

/-- The value that names the level of a request, else that of the settings. -/
def levelValue (settings : Settings) (r : LogRequest) : Json := r.level.orElse (.str settings.logLevel)

/-- The level that is asked for. Levels are known by their names in letters of any case. -/
def LevelAsked (settings : Settings) (r : LogRequest) (level : Int) : Prop :=
  ∃ s, levelValue settings r = .str s ∧ (Text.toUpper s, level) ∈ levels

theorem levelOf_ok_iff {name : String} : levelOf name = .ok level ↔ (name, level) ∈ levels := by
  have distinct : ∀ a ∈ levels, ∀ b ∈ levels, a.1 = b.1 → a = b := by decide
  unfold levelOf
  cases found : levels.find? fun l => l.1 = name with
  | none =>
    refine ⟨nofun, fun listed => ?_⟩
    exact absurd (List.find?_eq_none.mp found _ listed) (by simp)
  | some entry =>
    have listed := List.mem_of_find?_eq_some found
    have named : entry.1 = name := by simpa using List.find?_some found
    constructor
    · intro h
      cases h
      rwa [← named]
    · intro other
      cases distinct entry listed _ other named
      rfl

theorem levelNamed_ok_iff : levelNamed (levelValue settings r) = .ok level ↔ LevelAsked settings r level := by
  unfold LevelAsked
  cases levelValue settings r with
  | str s => simp only [levelNamed, levelOf_ok_iff, Json.str.injEq, exists_eq_left']
  | _ => simp [levelNamed]

/-- The file that a request asks for, else that of the settings. -/
inductive FileAsked (settings : Settings) (r : LogRequest) : Option Files.Path → Prop
  | given {p : Files.Path} (named : r.file.truthy = true) (path : Files.Path.ofJson r.file = .ok p) :
      FileAsked settings r (some p)
  | settled (absent : r.file.truthy = false) : FileAsked settings r settings.logFile

theorem fileOf_ok {place : Option Place} (h : fileOf settings r.file t = .ok (place, t')) :
    ∃ p, FileAsked settings r p ∧ place = p.map (placeOf t) := by
  have placed (p : Files.Path) (h : (do return (some (placeOf t p), ← Tree.ofFile (openFile t p))) =
      (.ok (place, t') : Result (Option Place × Tree))) : place = some (placeOf t p) := by
    obtain ⟨t'', -, h⟩ := Result.bind_ok h
    cases h
    rfl
  unfold fileOf at h
  by_cases named : r.file.truthy
  · rw [if_pos named] at h
    obtain ⟨asked, given, h⟩ := Result.bind_ok h
    cases path : Files.Path.ofJson r.file with
    | error f =>
      rw [path] at given
      cases given
    | ok p =>
      rw [path] at given
      cases given
      exact ⟨some p, .given named path, placed p h⟩
  · rw [if_neg named] at h
    refine ⟨settings.logFile, .settled (Bool.eq_false_iff.mpr named), ?_⟩
    cases settled : settings.logFile with
    | none =>
      rw [settled] at h
      cases h
      rfl
    | some p =>
      rw [settled] at h
      exact placed p h

def handlersAt (level : Int) (format : String) (place : Option Place) : List LogHandler :=
  ⟨.console, level, format⟩ :: place.toList.map fun p => ⟨.file p, level, format⟩

/-- How a setup goes. The level is looked up, the format is read and the file is opened, and each can fail; the
    level is set and the handlers are dropped before the format is read, and the console has its handler before
    the file is opened. -/
inductive SettingUp (settings : Settings) (r : LogRequest) (l : Logging) (t : Tree) :
    Logging × Tree × Option Fault → Prop
  | unnamed {f : Fault} (level : levelNamed (levelValue settings r) = .error f) :
      SettingUp settings r l t (l, t, some f)
  | unformatted {level : Int} {f : Fault} (named : levelNamed (levelValue settings r) = .ok level)
      (format : formatOf r.format = .error f) :
      SettingUp settings r l t ({ l with level := level, handlers := [] }, t, some f)
  | unopened {level : Int} {format : String} {f : Fault} (named : levelNamed (levelValue settings r) = .ok level)
      (formatted : formatOf r.format = .ok format) (file : fileOf settings r.file t = .error f) :
      SettingUp settings r l t ({ l with level := level, handlers := handlersAt level format none }, t, some f)
  | done {level : Int} {format : String} {place : Option Place} {t' : Tree}
      (named : levelNamed (levelValue settings r) = .ok level) (formatted : formatOf r.format = .ok format)
      (opened : fileOf settings r.file t = .ok (place, t')) :
      SettingUp settings r l t ({ l with
        level := level
        handlers := handlersAt level format place
        propagate := false
        clientLevel := requestLevel level
        transportLevel := requestLevel level }, t', none)

theorem settingUp (settings : Settings) (r : LogRequest) (l : Logging) (t : Tree) :
    SettingUp settings r l t (setup settings r l t) := by
  unfold setup
  split
  · exact .unnamed ‹_›
  · split
    · exact .unformatted ‹_› ‹_›
    · split
      · exact .unopened ‹_› ‹_› ‹_›
      · exact .done ‹_› ‹_› ‹_›

/-- What a setup changes last, or not at all, is as it was. -/
structure Held (l l' : Logging) : Prop where
  propagate : l'.propagate = l.propagate
  clientLevel : l'.clientLevel = l.clientLevel
  transportLevel : l'.transportLevel = l.transportLevel
  console : l'.console = l.console

/-- What a failed setup leaves. The level and the handlers tell how far it came. -/
structure BrokenOff (settings : Settings) (r : LogRequest) (l : Logging) (t : Tree) (f : Fault) (l' : Logging) :
    Prop where
  held : Held l l'
  unnamed : (∀ level, ¬ LevelAsked settings r level) → l'.level = l.level ∧ l'.handlers = l.handlers
  named : ∀ level, LevelAsked settings r level → l'.level = level
  unformatted : ∀ level, LevelAsked settings r level → ∀ g, formatOf r.format = .error g →
    g = f ∧ l'.handlers = []
  unopened : ∀ level, LevelAsked settings r level → ∀ format, formatOf r.format = .ok format →
    fileOf settings r.file t = .error f ∧ l'.handlers = handlersAt level format none

/-- What a setup that is done leaves. -/
structure Whole (settings : Settings) (r : LogRequest) (t : Tree) (l' : Logging) : Prop where
  level : LevelAsked settings r l'.level
  handlers : ∃ format p, formatOf r.format = .ok format ∧ FileAsked settings r p ∧
    l'.handlers = handlersAt l'.level format (p.map (placeOf t))
  propagate : l'.propagate = false
  clientLevel : l'.clientLevel = requestLevel l'.level
  transportLevel : l'.transportLevel = requestLevel l'.level

theorem levelAsked_unique {level' : Int} (named : levelNamed (levelValue settings r) = .ok level)
    (asked : LevelAsked settings r level') : level' = level := by
  rw [levelNamed_ok_iff.mpr asked] at named
  cases named
  rfl

theorem brokenOff_of_named (named : levelNamed (levelValue settings r) = .ok level) (held : Held l l')
    (set : l'.level = level) (unformatted : ∀ g, formatOf r.format = .error g → g = f ∧ l'.handlers = [])
    (unopened : ∀ format, formatOf r.format = .ok format →
      fileOf settings r.file t = .error f ∧ l'.handlers = handlersAt level format none) :
    BrokenOff settings r l t f l' where
  held := held
  unnamed unasked := absurd (levelNamed_ok_iff.mp named) (unasked level)
  named level' asked := by rw [set, levelAsked_unique named asked]
  unformatted _ _ := unformatted
  unopened level' asked := by
    rw [levelAsked_unique named asked]
    exact unopened

/-- A setup that is done is whole, whatever there was before. One that fails has touched no file and nothing of
    what comes last, and its level and handlers are as far as it came. -/
theorem setup_whole_or_broken_off (settings : Settings) (r : LogRequest) (l : Logging) (t : Tree) :
    match setup settings r l t with
    | (l', _, none) => Whole settings r t l'
    | (l', t', some f) => BrokenOff settings r l t f l' ∧ t' = t := by
  have how := settingUp settings r l t
  generalize setup settings r l t = s at how
  cases how with
  | unnamed refused =>
    have unasked (level : Int) : ¬ LevelAsked settings r level := by
      intro asked
      rw [levelNamed_ok_iff.mpr asked] at refused
      cases refused
    refine ⟨⟨⟨rfl, rfl, rfl, rfl⟩, fun _ => ⟨rfl, rfl⟩, ?_, ?_, ?_⟩, rfl⟩
    all_goals exact fun level asked => absurd asked (unasked level)
  | unformatted named refused =>
    refine ⟨brokenOff_of_named named ⟨rfl, rfl, rfl, rfl⟩ rfl (fun g failed => ?_) (fun format read => ?_), rfl⟩
    · rw [failed] at refused
      cases refused
      exact ⟨rfl, rfl⟩
    · rw [read] at refused
      cases refused
  | unopened named formatted refused =>
    refine ⟨brokenOff_of_named named ⟨rfl, rfl, rfl, rfl⟩ rfl (fun g failed => ?_) (fun format also => ?_), rfl⟩
    · rw [failed] at formatted
      cases formatted
    · rw [also] at formatted
      cases formatted
      exact ⟨refused, rfl⟩
  | @done level format place t' named formatted opened =>
    obtain ⟨p, asked, placed⟩ := fileOf_ok opened
    exact ⟨levelNamed_ok_iff.mp named, ⟨format, p, formatted, asked, by rw [placed]⟩, rfl, rfl, rfl⟩

/-- A logger that is set up loses its handlers to a format that says nothing about a line, and all but the
    console's to a file without a folder. -/
theorem handlers_lost_to_failure :
    let settings : Settings := { logFile := some ⟨0, ["no", "engine.log"]⟩ }
    let furnished : Logging := { level := 20, handlers := handlersAt 20 basicFormat (some ["engine.log"]) }
    let unformatted := setup settings { level := .str "error", format := .str "no fields" } furnished {}
    let unopened := setup settings { level := .str "error" } furnished {}
    unformatted.2.2 = some (.unknownFormat "no fields") ∧ unformatted.1.level = 40 ∧
      unformatted.1.handlers = [] ∧
      unopened.2.2 = some (.file .missing) ∧ unopened.1.level = 40 ∧
      unopened.1.handlers = handlersAt 40 defaultFormat none := by
  decide +kernel

theorem getLogger_state (settings : Settings) (name : Json) (l : Logging) (t : Tree) :
    ((getLogger settings name l t).1, (getLogger settings name l t).2.1) =
      if l.handlers = [] then ((setup settings {} l t).1, (setup settings {} l t).2.1) else (l, t) := by
  unfold getLogger
  split
  · generalize setup settings {} l t = s
    obtain ⟨l', t', outcome⟩ := s
    cases outcome <;> rfl
  · rfl

theorem handlers_of_default (known : LevelAsked settings {} level) : (setup settings {} l t).1.handlers ≠ [] := by
  have valid : LogFormat.isValid defaultFormat = true := by decide +kernel
  have default : formatOf .null = .ok defaultFormat := by simp [formatOf, Json.orElse, Json.truthy, valid]
  have how := settingUp settings {} l t
  generalize setup settings {} l t = s at how
  cases how with
  | unnamed refused =>
    rw [levelNamed_ok_iff.mpr known] at refused
    cases refused
  | unformatted _ refused =>
    rw [default] at refused
    cases refused
  | unopened => exact List.cons_ne_nil _ _
  | done => exact List.cons_ne_nil _ _

/-- The default setup is made for a logger at most once: even if the file cannot be opened the console has its
    handler, so that the next logger that is got changes nothing. -/
theorem getLogger_settled (known : LevelAsked settings {} level) (name other : Json) (l : Logging) (t : Tree) :
    getLogger settings other (getLogger settings name l t).1 (getLogger settings name l t).2.1 =
      ((getLogger settings name l t).1, (getLogger settings name l t).2.1, loggerNamed other) := by
  have handled : (getLogger settings name l t).1.handlers ≠ [] := by
    rw [congrArg Prod.fst (getLogger_state settings name l t)]
    split
    · exact handlers_of_default known
    · assumption
  generalize getLogger settings name l t = s at handled ⊢
  exact if_neg handled

/-- The console alone is written to by a line. -/
def Written (l l' : Logging) : Prop := ∃ text, l' = { l with console := text }

theorem emitTo_written (level : Int) (name : String) (message : Json) (s : Logging × Tree) (h : LogHandler) :
    Written s.1 (emitTo level name message s h).1 := by
  unfold emitTo
  split
  · split
    · exact ⟨_, rfl⟩
    · exact ⟨_, rfl⟩
    · split <;> exact ⟨_, rfl⟩
  · exact ⟨_, rfl⟩

theorem write_written (level : Int) (name : String) (message : Json) (l : Logging) (t : Tree) :
    Written l (write level name message l t).1 := by
  have emitted (hs : List LogHandler) (s : Logging × Tree) :
      Written s.1 (hs.foldl (emitTo level name message) s).1 := by
    induction hs generalizing s with
    | nil => exact ⟨_, rfl⟩
    | cons h rest ih =>
      obtain ⟨text, first⟩ := emitTo_written level name message s h
      obtain ⟨text', more⟩ := ih (emitTo level name message s h)
      exact ⟨text', by rw [List.foldl_cons, more, first]⟩
  unfold write
  split
  · exact emitted l.handlers (l, t)
  · exact ⟨_, rfl⟩

/-- The handlers of a logger, if it has any, are the console's and at most one of a file. They stand at its level
    and write in one format. -/
def Furnished (l : Logging) : Prop :=
  l.handlers = [] ∨ ∃ format place, l.handlers = handlersAt l.level format place

/-- One use of the log: a setup, a logger that is got, or a line. -/
inductive Uses (settings : Settings) : Logging × Tree → Logging × Tree → Prop
  | setup (r : LogRequest) (l : Logging) (t : Tree) :
      Uses settings (l, t) ((Logging.setup settings r l t).1, (Logging.setup settings r l t).2.1)
  | logger (name : Json) (l : Logging) (t : Tree) :
      Uses settings (l, t) ((getLogger settings name l t).1, (getLogger settings name l t).2.1)
  | line (level : Int) (name : String) (message : Json) (l : Logging) (t : Tree) :
      Uses settings (l, t) (write level name message l t)

theorem Furnished.setup (furnished : Furnished l) (settings : Settings) (r : LogRequest) (t : Tree) :
    Furnished (Logging.setup settings r l t).1 := by
  have how := settingUp settings r l t
  generalize Logging.setup settings r l t = s at how
  cases how with
  | unnamed => exact furnished
  | unformatted => exact .inl rfl
  | unopened => exact .inr ⟨_, _, rfl⟩
  | done => exact .inr ⟨_, _, rfl⟩

theorem Furnished.uses {s s' : Logging × Tree} (furnished : Furnished s.1) (use : Uses settings s s') :
    Furnished s'.1 := by
  cases use with
  | setup r l t => exact furnished.setup settings r t
  | logger name l t =>
    rw [getLogger_state]
    split
    · exact furnished.setup settings {} t
    · exact furnished
  | line level name message l t =>
    obtain ⟨text, written⟩ := write_written level name message l t
    rw [written]
    exact furnished

/-- However the log is used, the handlers stand at the level of their logger, one for each target. -/
theorem Furnished.run {s s' : Logging × Tree} (furnished : Furnished s.1)
    (run : Relation.ReflTransGen (Uses settings) s s') : Furnished s'.1 := by
  induction run with
  | refl => exact furnished
  | tail _ use ih => exact ih.uses use

end Logging

end SchemaDiagram
