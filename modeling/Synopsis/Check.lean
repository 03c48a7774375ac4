import Synopsis.Comparison

/-!
# Checking commands

A command is checked variant by variant: the issues up to a level, and the comparison with its table if
it has one. A catalogue is checked command by command, excluded categories apart.
-/

namespace Synopsis

/-- What the check of one variant finds; without a table there is no comparison. -/
structure Finding where
  variant : Variant
  issues : List Issue
  comparison : Option Comparison
  deriving DecidableEq, Repr

namespace Finding

def hasIssues (f : Finding) : Bool :=
  !f.issues.isEmpty || f.comparison.any Comparison.hasErrors

end Finding

structure Report where
  name : Text
  notationText : Text
  rows : List Row
  documentedNames : List Text
  findings : List Finding
  deriving DecidableEq, Repr

namespace Report

def hasIssues (r : Report) : Bool :=
  r.findings.any Finding.hasIssues

end Report

/-- The level up to which issues are reported, and the checks of names that are on. -/
structure Checker where
  level : Level
  policy : Policy
  deriving DecidableEq, Repr

namespace Checker

def finding (c : Checker) (rows : List Row) (v : Variant) : Finding :=
  ⟨v, v.issuesUpTo c.level,
    if rows.isEmpty then none else some (Comparison.ofVariant rows (Comparison.documentedNames rows) v)⟩

def checkCommand (c : Checker) (name : Text) (command : Command) : Option Report :=
  match command.notationText with
  | none | some [] => none
  | some t =>
    some ⟨name, t, command.rows, Comparison.documentedNames command.rows,
      (Variant.parse c.policy t).map (c.finding command.rows)⟩

def qualified (category command : Text) : Text :=
  category ++ '.' :: command

def checkCategory (c : Checker) (category : Text) (commands : List (Text × Command)) : List Report :=
  commands.filterMap fun entry => c.checkCommand (qualified category entry.1) entry.2

def checkCatalogue (c : Checker) (exclude : List Text) (catalogue : Catalogue) : List Report :=
  (catalogue.filter fun entry => !exclude.contains entry.1).flatMap fun entry => c.checkCategory entry.1 entry.2

/-- A step of a check, as a log tells it. -/
inductive Step where
  | categoryExcluded (category : Text)
  | categoryStarted (category : Text) (commands : Nat)
  | commandSkipped (name : Text)
  | commandChecked (name : Text) (variants : Nat) (hasIssues : Bool)
  deriving DecidableEq, Repr

def commandStep (c : Checker) (category : Text) (entry : Text × Command) : Step :=
  let name := qualified category entry.1
  match c.checkCommand name entry.2 with
  | none => .commandSkipped name
  | some r => .commandChecked name r.findings.length r.hasIssues

def steps (c : Checker) (exclude : List Text) (catalogue : Catalogue) : List Step :=
  catalogue.flatMap fun entry =>
    if exclude.contains entry.1 then [.categoryExcluded entry.1]
    else .categoryStarted entry.1 entry.2.length :: entry.2.map (c.commandStep entry.1)

@[simp] theorem checkCatalogue_nil (c : Checker) (exclude : List Text) : c.checkCatalogue exclude [] = [] := rfl

end Checker

end Synopsis
