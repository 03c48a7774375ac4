import Synopsis.CommandLine.Run
import Synopsis.Proofs.FileChanges
import Synopsis.Proofs.VerboseOption

/-!
# What runs do to files

Every run leaves all files alone but for one at most: the configuration that an initialization adds where there
was none, or the file that a check is told to write its report to. An initialization that does not end well
changes nothing. The report is written as it is printed, and neither it nor the log changes how a check ends.
Over any sequence of runs without checks whatever was there stays as it was.
-/

namespace Synopsis

namespace CommandLine

open Workspace (Failure)

theorem files_stopped (fs : FileSystem) (f : Failure Trouble) : (stopped fs f).files = fs := by
  cases f <;> rfl

theorem output_stopped (fs : FileSystem) (f : Failure Trouble) : (stopped fs f).output = [] := by
  cases f <;> rfl

theorem exit_stopped (fs : FileSystem) (f : Failure Trouble) : (stopped fs f).exit ≠ .code 0 := by
  cases f <;> simp [stopped, failed]

def configPath (fs : FileSystem) (directory : Text) : Path :=
  ((Path.ofText directory).resolve fs.cwd).join Config.fileName

/-- How an initialization ends: the configuration is added where there was none, or nothing is changed. -/
inductive Initialized (fs : FileSystem) (directory : Text) (o : Outcome) : Prop
  | added (place : List Text) (hexit : o.exit = .code 0)
    (hplace : fs.place (configPath fs directory) = .ok place)
      (hnone : fs.find? place = none) (hsame : fs.SameBut place o.files)
      (hfile : o.files.find? place = some (.file (.text (Config.toYaml {}))))
  | unchanged (hexit : o.exit ≠ .code 0) (hfiles : o.files = fs)

theorem present_eq_ok {fs : FileSystem} {path : Path} {b : Bool} (h : present fs path = .ok b) :
    fs.exists? path = .ok b := by
  unfold present at h
  cases hexists : fs.exists? path with
  | error k =>
      rw [hexists] at h
      cases h
  | ok b' =>
      rw [hexists] at h
      cases h
      rfl

theorem mapError_eq_ok {ε δ α : Type} {f : ε → δ} {x : Except ε α} {a : α} (h : x.mapError f = .ok a) :
    x = .ok a := by
  cases x with
  | error e => cases h
  | ok a' =>
      cases h
      rfl

theorem bind_eq_ok {ε α β : Type} {x : Except ε α} {f : α → Except ε β} {b : β} (h : x >>= f = .ok b) :
    ∃ a, x = .ok a ∧ f a = .ok b := by
  cases x with
  | error e => cases h
  | ok a => exact ⟨a, rfl, h⟩

theorem throw_eq_ok {ε β : Type} {p : Prop} [Decidable p] {e : ε} {f : Unit → Except ε β} {b : β}
    (h : (if p then (throw e : Except ε Unit) >>= f else f ()) = .ok b) : ¬ p ∧ f () = .ok b := by
  by_cases hp : p
  · rw [if_pos hp] at h
    cases h
  · rw [if_neg hp] at h
    exact ⟨hp, h⟩

/-- A configuration is added only behind the check that there is none. -/
theorem configure_cases {fs files : FileSystem} {directory file : Path}
    (h : configure fs directory = .ok (file, files)) :
    file = (directory.resolve fs.cwd).join Config.fileName ∧ fs.exists? file = .ok false ∧
      fs.write file (.text (Config.toYaml {})) = .ok files := by
  unfold configure at h
  obtain ⟨-, h⟩ := throw_eq_ok h
  obtain ⟨exists?, -, h⟩ := bind_eq_ok h
  obtain ⟨-, h⟩ := throw_eq_ok h
  obtain ⟨configured, hpresent, h⟩ := bind_eq_ok h
  obtain ⟨hconfigured, h⟩ := throw_eq_ok h
  obtain ⟨files', hsave, h⟩ := bind_eq_ok h
  cases h
  rw [Bool.not_eq_true] at hconfigured
  subst hconfigured
  exact ⟨rfl, present_eq_ok hpresent, mapError_eq_ok (mapError_eq_ok hsave)⟩

theorem initialized_runInit (fs : FileSystem) (directory : Text) :
    Initialized fs directory (runInit fs directory) := by
  unfold runInit
  cases hconfigure : configure fs (Path.ofText directory) with
  | error f => exact .unchanged (exit_stopped fs f) (files_stopped fs f)
  | ok r =>
      obtain ⟨file, files⟩ := r
      obtain ⟨rfl, hexists, hwrite⟩ := configure_cases hconfigure
      obtain ⟨place, hplace, hnone, hfile, hsame⟩ := FileSystem.write_of_not_exists hexists hwrite
      exact .added place rfl hplace hnone hsame hfile

/-- Two runs that differ in the error output at most. -/
structure SameButErrors (o o' : Outcome) : Prop where
  exit : o.exit = o'.exit
  output : o.output = o'.output
  files : o.files = o'.files

theorem SameButErrors.refl (o : Outcome) : SameButErrors o o := ⟨rfl, rfl, rfl⟩

/-- How a check ends that is told to write its report to `path`, beside the same check that is not. -/
inductive Reported (fs : FileSystem) (path : Path) (plain o : Outcome) : Prop
  | unprepared (hsame : o = plain) (houtput : o.output = []) (hexit : o.exit ≠ .code 0) (hfiles : o.files = fs)
  | unwritten (e : AccessError) (hwrite : fs.write path (.text (unlines plain.output)) = .error e)
      (houtput : o.output = plain.output) (hexit : o.exit ≠ .code 0) (hfiles : o.files = fs)
  | written (place : List Text) (hplace : fs.place path = .ok place) (hsame : fs.SameBut place o.files)
      (hfile : o.files.find? place = some (.file (.text (unlines plain.output))))
      (houtput : o.output = plain.output ++ ["Results written to: ".toList ++ path.toText])
      (hexit : o.exit = plain.exit)

/-- How a check ends: it changes nothing but the file it is told to write, and the log changes the error output
alone. -/
structure Checked (fs : FileSystem) (records : Text) (s : Settings) (o : Outcome) : Prop where
  unchanged : (∀ name, s.output ≠ .value name) → o.files = fs
  reported : ∀ name, s.output = .value name →
    Reported fs (Path.ofText name) (runCheck fs records { s with output := .absent }) o
  logged : ∀ verbose, SameButErrors (runCheck fs records { s with verbose := verbose }) o

theorem reported_finish (i : Inspection) (fs : FileSystem) (log : List Text) (name : Text) :
    Reported fs (Path.ofText name) (i.finish fs log .absent) (i.finish fs log (.value name)) := by
  cases hwrite : fs.write (Path.ofText name) (.text (unlines i.lines)) with
  | error e =>
      refine .unwritten e hwrite ?_ ?_ ?_
      all_goals cases e <;> simp [Inspection.finish, hwrite, mapError_error, Failure.ofAccess]
  | ok files =>
      obtain ⟨place, -, hplace, hdirectory, hfiles⟩ := FileSystem.write_cases hwrite
      have hfinish : i.finish fs log (.value name) =
          ⟨i.exit, i.lines ++ ["Results written to: ".toList ++ (Path.ofText name).toText], log, files⟩ := by
        simp [Inspection.finish, hwrite, mapError_ok]
      rw [hfinish]
      subst hfiles
      exact .written place hplace (fs.sameBut_put place _) (FileSystem.find?_put_file hdirectory _) rfl rfl

theorem files_finish (i : Inspection) (fs : FileSystem) (log : List Text) {output : Given Text}
    (h : ∀ name, output ≠ .value name) : (i.finish fs log output).files = fs := by
  cases output with
  | absent => rfl
  | blank => rfl
  | value name => exact absurd rfl (h name)

theorem sameButErrors_finish (i : Inspection) (fs : FileSystem) (log log' : List Text) (output : Given Text) :
    SameButErrors (i.finish fs log output) (i.finish fs log' output) := by
  cases output with
  | absent => exact ⟨rfl, rfl, rfl⟩
  | blank => exact ⟨rfl, rfl, rfl⟩
  | value name =>
      unfold Inspection.finish
      simp only
      split <;> exact ⟨rfl, rfl, rfl⟩

theorem checked_runCheck (fs : FileSystem) (records : Text) (s : Settings) :
    Checked fs records s (runCheck fs records s) := by
  cases hprepare : Inspection.prepare fs records s with
  | error f =>
      have hstopped : ∀ output verbose, runCheck fs records { s with output := output, verbose := verbose } =
          stopped fs f := by
        intro output verbose
        simp only [runCheck,
          show Inspection.prepare fs records { s with output := output, verbose := verbose } =
          .error f from hprepare]
      have hrun : runCheck fs records s = stopped fs f := hstopped s.output s.verbose
      constructor
      · intro _
        rw [hrun, files_stopped]
      · intro name _
        rw [hrun, hstopped .absent s.verbose]
        exact .unprepared rfl (output_stopped fs f) (exit_stopped fs f) (files_stopped fs f)
      · intro verbose
        rw [hrun, hstopped s.output verbose]
        exact .refl _
  | ok i =>
      have hfinish : ∀ output verbose, runCheck fs records { s with output := output, verbose := verbose } =
          i.finish fs (if verbose then i.log else []) output := by
        intro output verbose
        simp only [runCheck,
          show Inspection.prepare fs records { s with output := output, verbose := verbose } =
          .ok i from hprepare]
      have hrun : runCheck fs records s = i.finish fs (if s.verbose then i.log else []) s.output :=
        hfinish s.output s.verbose
      constructor
      · intro houtput
        rw [hrun]
        exact files_finish i fs _ houtput
      · intro name hname
        rw [hrun, hname, hfinish .absent s.verbose]
        exact reported_finish i fs _ name
      · intro verbose
        rw [hrun, hfinish s.output verbose]
        exact sameButErrors_finish i fs _ _ s.output

/-- What a run for a request may do to the files. -/
def Effects (fs : FileSystem) (o : Outcome) : Request → Prop
  | .init directory => Initialized fs directory o
  | .check records s => Checked fs records s o
  | .help _ | .refused _ _ | .parse _ _ => o.files = fs

def Request.isCheck : Request → Bool
  | .check _ _ => true
  | _ => false

theorem effects_run (fs : FileSystem) (q : Request) : Effects fs (q.run fs) q := by
  cases q with
  | help p => rfl
  | refused p c => rfl
  | init directory => exact initialized_runInit fs directory
  | parse notationText config => exact files_runParse fs notationText config
  | check records s => exact checked_runCheck fs records s

theorem Initialized.keeps {fs : FileSystem} {directory : Text} {o : Outcome} (h : Initialized fs directory o) :
    fs.Keeps o.files := by
  cases h with
  | added place hexit hplace hnone hsame hfile => exact hsame.keeps hnone
  | unchanged hexit hfiles =>
      rw [hfiles]
      exact .refl fs

theorem keeps_run (fs : FileSystem) {q : Request} (h : q.isCheck = false) : fs.Keeps (q.run fs).files := by
  have heffects := effects_run fs q
  cases q with
  | check records s => cases h
  | init directory => exact Initialized.keeps heffects
  | help p => exact .refl fs
  | refused p c => exact .refl fs
  | parse notationText config =>
      rw [show ((Request.parse notationText config).run fs).files = fs from heffects]
      exact .refl fs

def filesAfter (fs : FileSystem) (runs : List (List Text)) : FileSystem :=
  runs.foldl (fun fs ts => (run fs ts).files) fs

theorem keeps_filesAfter {runs : List (List Text)} (h : ∀ ts ∈ runs, (Request.ofWords ts).isCheck = false)
    (fs : FileSystem) : fs.Keeps (filesAfter fs runs) := by
  induction runs generalizing fs with
  | nil => exact .refl fs
  | cons ts runs ih =>
      have hstep : fs.Keeps (run fs ts).files := keeps_run fs (h ts List.mem_cons_self)
      exact hstep.trans (ih (fun ts' hts' => h ts' (List.mem_cons_of_mem ts hts')) (run fs ts).files)

theorem sameButErrors_run_loud (fs : FileSystem) (q : Request) : SameButErrors (q.loud.run fs) (q.run fs) := by
  cases q with
  | check records s => exact (checked_runCheck fs records s).logged true
  | _ => exact .refl _

/-- What the words of a command line ask for bounds what the run does to the files; the word for the log changes
the error output alone; and runs without checks, in any number, keep all that was there. -/
theorem run_changes_one_file (fs : FileSystem) (ts : List Text) :
    Effects fs (run fs ts) (Request.ofWords ts) ∧
      SameButErrors (run fs (Program.check.name :: Grammar.logWord :: ts)) (run fs (Program.check.name :: ts)) ∧
      ∀ runs : List (List Text), (∀ words ∈ runs, (Request.ofWords words).isCheck = false) →
        fs.Keeps (filesAfter fs runs) := by
  refine ⟨effects_run fs _, ?_, fun runs h => keeps_filesAfter h fs⟩
  rw [run, run, Request.ofWords_logWord]
  exact sameButErrors_run_loud fs _

/-- The second of these runs fails, the third one adds a configuration beside the one that is kept. -/
theorem run_changes_one_file_of_configured :
    let fs : FileSystem :=
      ⟨[['w']], [([['w']], .directory), ([['w'], Config.fileName], .file (.text "warning-level: 2\n".toList))]⟩
    let runs := [["parse".toList, "f(a".toList], ["init".toList], ["init".toList, "..".toList]]
    (∀ words ∈ runs, (Request.ofWords words).isCheck = false) ∧ fs.Keeps (filesAfter fs runs) ∧
      (filesAfter fs runs).find? [['w'], Config.fileName] = some (.file (.text "warning-level: 2\n".toList)) ∧
      (filesAfter fs runs).find? [Config.fileName] = some (.file (.text (Config.toYaml {}))) := by
  intro fs runs
  have hruns : ∀ words ∈ runs, (Request.ofWords words).isCheck = false := by decide +kernel
  have hkeeps := (run_changes_one_file fs []).2.2 runs hruns
  exact ⟨hruns, hkeeps, hkeeps _ _ rfl, by decide +kernel⟩

end CommandLine

end Synopsis
