import Synopsis.CommandLine.Program
import Synopsis.Report.Render
import Synopsis.Workspace

/-!
# Runs

A run takes the words of a command line and a file system to an exit, the lines of the output and of the
error output, and a file system. Asking for help and parsing leave all files alone, initialization adds
one configuration, and a check writes at most the file it is told to write.
-/

namespace Synopsis

namespace CommandLine

open Workspace (Abort ConfigError CatalogueError Failure)

/-- A run ends with a code, or is cut off. -/
inductive Exit where
  | code (n : Nat)
  | aborted (a : Abort)
  deriving DecidableEq, Repr

structure Outcome where
  exit : Exit
  output : List Text
  errors : List Text
  files : FileSystem
  deriving DecidableEq, Repr

/-- Why a command does not do its work. -/
inductive Trouble where
  | config (e : ConfigError)
  | catalogue (e : CatalogueError)
  | directoryMissing (path : Path)
  | alreadyConfigured (path : Path)
  | recordsMissing (path : Path)
  | reportUnwritable (path : Path) (e : OsError)
  deriving DecidableEq, Repr

namespace Trouble

def message : Trouble → Text
  | .config e => e.message
  | .catalogue e => e.message
  | .directoryMissing path => "directory '".toList ++ path.toText ++ "' does not exist.".toList
  | .alreadyConfigured path => "configuration already exists at '".toList ++ path.toText ++ "'.".toList
  | .recordsMissing path => "records file '".toList ++ path.toText ++ "' does not exist.".toList
  | .reportUnwritable path e => "cannot write report to '".toList ++ path.toText ++ "': ".toList ++ e.message

def line (t : Trouble) : Text :=
  "Error: ".toList ++ t.message

end Trouble

def exitOf (hasIssues : Bool) : Exit :=
  .code (if hasIssues then 1 else 0)

def failed (fs : FileSystem) (t : Trouble) : Outcome :=
  ⟨.code 1, [], [t.line], fs⟩

def stopped (fs : FileSystem) : Failure Trouble → Outcome
  | .aborted a => ⟨.aborted a, [], [], fs⟩
  | .failed t => failed fs t

/-- Lines as the text of a file, each with its line break. -/
def unlines (ls : List Text) : Text :=
  ls.flatMap (· ++ ['\n'])

def standardConfig (fs : FileSystem) : Path :=
  Path.join ⟨['/'], fs.cwd⟩ Config.fileName

/-- Whether there is something at a path; the run is cut off where this cannot be told. -/
def present (fs : FileSystem) (path : Path) : Except (Failure Trouble) Bool :=
  (fs.exists? path).mapError fun k => .aborted (.inaccessible k)

def chooseConfig (fs : FileSystem) : Given Text → Except (Failure Trouble) Config
  | .value name => (Workspace.loadConfig fs (Path.ofText name)).mapError (Failure.map .config)
  | .blank => .error (.aborted .blankPath)
  | .absent => do
    if ← present fs (standardConfig fs) then
      (Workspace.loadConfig fs (standardConfig fs)).mapError (Failure.map .config)
    else return {}

/-- Adds a configuration to a directory that has none, and tells where it is. -/
def configure (fs : FileSystem) (directory : Path) : Except (Failure Trouble) (Path × FileSystem) := do
  if directory.hasNull then throw (.aborted .nullInPath)
  let place := directory.resolve fs.cwd
  let file := place.join Config.fileName
  if !(← present fs place) then throw (.failed (.directoryMissing place))
  if ← present fs file then throw (.failed (.alreadyConfigured file))
  let files ← (Workspace.saveConfig fs file {}).mapError (Failure.map .config)
  return (file, files)

def runInit (fs : FileSystem) (directory : Text) : Outcome :=
  match configure fs (Path.ofText directory) with
  | .error f => stopped fs f
  | .ok (file, files) =>
    ⟨.code 0, ["Initialized docsyntax workspace at '".toList ++ file.toText ++ "'.".toList], [], files⟩

def variantsJson (variants : List Variant) : Text :=
  Value.toJson .raw (.list (variants.map Variant.toValue))

def runParse (fs : FileSystem) (notationText : Text) (config : Given Text) : Outcome :=
  match chooseConfig fs config with
  | .error f => stopped fs f
  | .ok c =>
    let variants := Variant.parse c.policy notationText
    ⟨exitOf (variants.any fun v => !(v.issuesUpTo c.level).isEmpty), [variantsJson variants], [], fs⟩

/-- All that a check of a catalogue starts from. -/
structure Inspection where
  records : Path
  checker : Checker
  exclude : List Text
  catalogue : Catalogue
  deriving DecidableEq, Repr

namespace Inspection

def chooseLevel (config : Config) : Given Level → Except (Failure Trouble) Level
  | .value l => .ok l
  | .blank => .error (.aborted .blankLevel)
  | .absent => .ok config.level

def prepare (fs : FileSystem) (records : Text) (s : Settings) : Except (Failure Trouble) Inspection := do
  let config ← chooseConfig fs s.config
  let path := Path.ofText records
  if !(← present fs path) then throw (.failed (.recordsMissing path))
  let catalogue ← (Workspace.loadCatalogue fs path).mapError (Failure.map .catalogue)
  return ⟨path, ⟨← chooseLevel config s.level, config.policy⟩, config.exclude, catalogue⟩

def reports (i : Inspection) : List Report :=
  i.checker.checkCatalogue i.exclude i.catalogue

def failures (i : Inspection) : Nat :=
  i.reports.countP Report.hasIssues

def rule : Text := List.replicate 50 '='

def lines (i : Inspection) : List Text :=
  ["Warning level: ".toList ++ Text.ofNat i.checker.level.number
      ++ " (".toList ++ i.checker.level.label ++ [')'],
    "Checking ".toList ++ Text.ofNat i.reports.length
      ++ " command(s) from '".toList ++ i.records.toText ++ ['\''],
    rule]
    ++ i.reports.flatMap Report.render
    ++ [rule, "Syntax check completed: ".toList ++ Text.ofNat i.failures ++ " command(s) with issues.".toList]

def stepText : Checker.Step → Text
  | .categoryExcluded category => "Skipping excluded category ".toList ++ category
  | .categoryStarted category commands =>
    "Checking ".toList ++ category ++ " (".toList ++ Text.ofNat commands ++ " items)".toList
  | .commandSkipped name => "Skipping ".toList ++ name ++ ": no syntax".toList
  | .commandChecked name variants hasIssues =>
    "Checked ".toList ++ name ++ ": ".toList ++ Text.ofNat variants ++ " variant(s), issues=".toList
      ++ (if hasIssues then "True".toList else "False".toList)

def log (i : Inspection) : List Text :=
  (i.checker.steps i.exclude i.catalogue).map fun s =>
    "DEBUG docsyntax.validation.checks: ".toList ++ stepText s

def exit (i : Inspection) : Exit :=
  exitOf (decide (0 < i.failures))

def finish (i : Inspection) (fs : FileSystem) (log : List Text) : Given Text → Outcome
  | .absent => ⟨i.exit, i.lines, log, fs⟩
  | .blank => ⟨.aborted .blankPath, i.lines, log, fs⟩
  | .value name =>
    let path := Path.ofText name
    match (fs.write path (.text (unlines i.lines))).mapError
      (Failure.ofAccess (Trouble.reportUnwritable path)) with
    | .error (.aborted a) => ⟨.aborted a, i.lines, log, fs⟩
    | .error (.failed t) => ⟨.code 1, i.lines, log ++ [t.line], fs⟩
    | .ok files => ⟨i.exit, i.lines ++ ["Results written to: ".toList ++ path.toText], log, files⟩

end Inspection

def runCheck (fs : FileSystem) (records : Text) (s : Settings) : Outcome :=
  match Inspection.prepare fs records s with
  | .error f => stopped fs f
  | .ok i => i.finish fs (if s.verbose then i.log else []) s.output

/-- The paths that a request may read or write. -/
def Request.paths (fs : FileSystem) : Request → List Path
  | .help _ | .refused _ _ => []
  | .init directory =>
    let place := (Path.ofText directory).resolve fs.cwd
    [place, place.join Config.fileName]
  | .parse _ config => [configPath config]
  | .check records s => configPath s.config :: Path.ofText records :: outputPath s.output
where
  configPath : Given Text → Path
    | .value name => Path.ofText name
    | _ => standardConfig fs
  outputPath : Given Text → List Path
    | .value name => [Path.ofText name]
    | _ => []

def Request.run (fs : FileSystem) : Request → Outcome
  | .help p => ⟨.code 0, p.help, [], fs⟩
  | .refused p c => ⟨.code 2, [], p.refusal c, fs⟩
  | .init directory => runInit fs directory
  | .parse notationText config => runParse fs notationText config
  | .check records settings => runCheck fs records settings

def run (fs : FileSystem) (ts : List Text) : Outcome :=
  (Request.ofWords ts).run fs

theorem files_runParse (fs : FileSystem) (notationText : Text) (config : Given Text) :
    (runParse fs notationText config).files = fs := by
  unfold runParse
  split
  · unfold stopped failed
    split <;> rfl
  · rfl

end CommandLine

end Synopsis
