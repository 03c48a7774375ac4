import Synopsis.Reading
import Synopsis.Structure
import Synopsis.Yaml.Read
import Synopsis.Yaml.Write

/-!
# Configuration

A workspace may have a file that sets the level of the issues to report, the checks of names, and the
categories to leave out. It has no other entries. What is saved reads back as the same configuration.
-/

namespace Synopsis

structure Config where
  level : Level := .structural
  policy : Policy := {}
  exclude : List Text := []
  deriving DecidableEq, Repr

namespace Config

def fileName : Text := ".docsyntax.yaml".toList

/-- The names of an entry; the first one is the one written, and counts where both are given. -/
structure Names where
  written : String
  accepted : String

def levelNames : Names := ⟨"warning-level", "warning_level"⟩

def namesNames : Names := ⟨"check-parameter-names", "check_parameter_names"⟩

def reservedNames : Names := ⟨"check-reserved-words", "check_reserved_words"⟩

def excludeNames : Names := ⟨"exclude", "exclude"⟩

def allNames : List Names := [levelNames, namesNames, reservedNames, excludeNames]

def Names.used (n : Names) (entries : Reading.Entries) : Text :=
  if (Value.field? entries n.written.toList).isSome then n.written.toList else n.accepted.toList

def entry {α : Type} (entries : Reading.Entries) (n : Names) (default : α) (read : Value → Reading α) :
    Reading α :=
  Reading.aliased entries n.written n.accepted default read

/-- Every key must be a text, and one that names an entry. -/
def checkKey (entries : Reading.Entries) (key : Value) : Reading Unit :=
  match key with
  | .text t =>
    if allNames.any fun n => n.used entries == t then .ok ()
    else Reading.under (.name t) (Reading.fault .keyForbidden)
  | k => Reading.under (Reading.stepOfKey k) (Reading.fault .keyNotText)

def isCodes : Value → Bool
  | .codes _ => true
  | _ => false

/-- Reads the entries; no key may hold halves of characters, which hides all other faults. -/
def readEntries (entries : Reading.Entries) : Reading Config :=
  if entries.any fun e => isCodes e.1 then Reading.fault .notUnicode
  else (fun level names reserved exclude _ => ⟨level, ⟨names, reserved⟩, exclude⟩)
    <$> entry entries levelNames .structural (Reading.choice Level.ofNumber?)
    <*> entry entries namesNames false Reading.truth
    <*> entry entries reservedNames false Reading.truth
    <*> entry entries excludeNames [] (Reading.list Reading.text)
    <*> Reading.each (fun e => checkKey entries e.1) entries

def read : Value → Reading Config :=
  Reading.record readEntries

def dump (c : Config) : Value :=
  .record [(namesNames.written, .bool c.policy.checkNames),
    (reservedNames.written, .bool c.policy.checkReserved),
    (excludeNames.written, .list (c.exclude.map .text)), (levelNames.written, .int c.level.number)]

def toYaml (c : Config) : Text :=
  Yaml.write c.dump

/-- Why the text of a file is no configuration. -/
inductive Defect where
  | yaml (d : Yaml.Defect)
  | notMapping
  | invalid (faults : List Fault)
  deriving DecidableEq, Repr

/-- Reads the text of a file; an empty one gives the default configuration. -/
def ofYaml (t : Text) : Except Defect Config :=
  match Yaml.read t with
  | .error d => .error (.yaml d)
  | .ok .null => .ok {}
  | .ok (.object entries) =>
    match readEntries entries with
    | .ok c => .ok c
    | .faulty faults => .error (.invalid faults)
  | .ok _ => .error .notMapping

theorem read_dump (c : Config) : read c.dump = .ok c := by
  have hexclude : Reading.list Reading.text (.list (c.exclude.map .text)) = .ok c.exclude :=
    @Reading.eachItem_eq_ok Text Reading.text .text (fun _ => rfl) c.exclude 0
  have hlevel : Reading.choice Level.ofNumber? (.int c.level.number) = .ok c.level := by
    simp [Reading.choice, Reading.whole, Level.ofNumber?_number]
  simp [read, readEntries, dump, entry, Reading.record, Value.record, Reading.aliased,
    Value.field?_cons, levelNames, namesNames, reservedNames, excludeNames, Reading.truth, Reading.each,
    checkKey, allNames, Names.used, isCodes, hexclude, hlevel]

end Config

end Synopsis
