import Mathlib.Data.List.Forall2
import Synopsis.CommandLine.Run

/-!
# The level as a threshold

Checks of the same commands at the two levels find the same, but that the lower one leaves out the issues of
types: it lists those issues that it admits, in their order, and compares with the table all the same. So no
command has issues at the lower level only. A run that parses notation fails exactly where the check of a
command with that notation and without a table has issues.
-/

namespace Synopsis

theorem Issue.upTo_ne_nil {threshold : Level} {issues : List Issue} (h : upTo threshold issues ≠ []) :
    issues ≠ [] := by
  rintro rfl
  exact h rfl

namespace Finding

/-- What is found of a variant at the lower level, beside what is found at the higher one. -/
structure LowerOf (f g : Finding) : Prop where
  variant : f.variant = g.variant
  comparison : f.comparison = g.comparison
  issues : f.issues = Issue.upTo .structural g.issues

theorem hasIssues_iff {f : Finding} :
    f.hasIssues = true ↔ f.issues ≠ [] ∨ f.comparison.any Comparison.hasErrors = true := by
  simp [hasIssues]

theorem LowerOf.hasIssues {f g : Finding} (h : LowerOf f g) (hf : f.hasIssues = true) : g.hasIssues = true := by
  rw [hasIssues_iff] at hf ⊢
  rcases hf with hissues | herrors
  · left
    apply Issue.upTo_ne_nil
    rwa [← h.issues]
  · right
    rwa [← h.comparison]

end Finding

namespace Report

/-- The report of a command at the lower level, beside the one at the higher level. -/
structure LowerOf (r s : Report) : Prop where
  name : r.name = s.name
  notationText : r.notationText = s.notationText
  rows : r.rows = s.rows
  documentedNames : r.documentedNames = s.documentedNames
  findings : List.Forall₂ Finding.LowerOf r.findings s.findings

theorem any_hasIssues {fs gs : List Finding} (h : List.Forall₂ Finding.LowerOf fs gs)
    (hfs : fs.any Finding.hasIssues = true) : gs.any Finding.hasIssues = true := by
  induction h with
  | nil => exact hfs
  | @cons f g fs gs hfg _ ih =>
      rw [List.any_cons, Bool.or_eq_true] at hfs ⊢
      rcases hfs with hf | hfs
      · exact .inl (hfg.hasIssues hf)
      · exact .inr (ih hfs)

theorem LowerOf.hasIssues {r s : Report} (h : LowerOf r s) (hr : r.hasIssues = true) : s.hasIssues = true :=
  any_hasIssues h.findings hr

theorem countP_hasIssues_le {rs ss : List Report} (h : List.Forall₂ LowerOf rs ss) :
    rs.countP hasIssues ≤ ss.countP hasIssues := by
  induction h with
  | nil => exact Nat.le_refl _
  | @cons r s rs ss hrs _ ih =>
      rw [List.countP_cons, List.countP_cons]
      by_cases hr : r.hasIssues = true
      · rw [if_pos hr, if_pos (hrs.hasIssues hr)]
        omega
      · rw [if_neg hr]
        omega

end Report

namespace Checker

theorem lowerOf_finding (policy : Policy) (rows : List Row) (v : Variant) :
    Finding.LowerOf (finding ⟨.structural, policy⟩ rows v) (finding ⟨.typing, policy⟩ rows v) where
  variant := rfl
  comparison := rfl
  issues := by simp [finding, Variant.issuesUpTo]

theorem lowerOf_checkCommand (policy : Policy) (name : Text) (command : Command) :
    Option.Rel Report.LowerOf (checkCommand ⟨.structural, policy⟩ name command)
      (checkCommand ⟨.typing, policy⟩ name command) := by
  unfold checkCommand
  split
  · exact .none
  · exact .none
  · next t _ _ =>
      refine .some ⟨rfl, rfl, rfl, rfl, ?_⟩
      rw [List.forall₂_map_left_iff, List.forall₂_map_right_iff, List.forall₂_same]
      exact fun v _ => lowerOf_finding policy command.rows v

theorem lowerOf_checkCategory (policy : Policy) (category : Text) (commands : List (Text × Command)) :
    List.Forall₂ Report.LowerOf (checkCategory ⟨.structural, policy⟩ category commands)
      (checkCategory ⟨.typing, policy⟩ category commands) := by
  apply List.rel_filterMap (R := Eq)
  · rintro entry _ rfl
    exact lowerOf_checkCommand policy (qualified category entry.1) entry.2
  · rw [List.forall₂_same]
    exact fun _ _ => rfl

theorem lowerOf_checkCatalogue (policy : Policy) (exclude : List Text) (catalogue : Catalogue) :
    List.Forall₂ Report.LowerOf (checkCatalogue ⟨.structural, policy⟩ exclude catalogue)
      (checkCatalogue ⟨.typing, policy⟩ exclude catalogue) := by
  unfold checkCatalogue
  induction catalogue.filter fun entry => !exclude.contains entry.1 with
  | nil => exact .nil
  | cons entry rest ih =>
      rw [List.flatMap_cons, List.flatMap_cons]
      exact List.rel_append (lowerOf_checkCategory policy entry.1 entry.2) ih

/-- Without a table, a command has issues where one of its variants has issues up to the level. -/
theorem checkCommand_of_notation (c : Checker) (name : Text) {t : Text} (h : t ≠ []) :
    ∃ r, c.checkCommand name ⟨some t, []⟩ = some r ∧
      r.hasIssues = (Variant.parse c.policy t).any fun v => !(v.issuesUpTo c.level).isEmpty := by
  cases t with
  | nil => exact absurd rfl h
  | cons d t =>
      refine ⟨_, rfl, ?_⟩
      rw [Report.hasIssues, List.any_map]
      apply congrArg
      funext v
      simp [finding, Finding.hasIssues]

end Checker

namespace CommandLine

theorem exitOf_eq_one_iff (hasIssues : Bool) : exitOf hasIssues = .code 1 ↔ hasIssues = true := by
  cases hasIssues <;> simp [exitOf]

theorem exit_runParse {fs : FileSystem} {given : Given Text} {config : Config}
    (h : chooseConfig fs given = .ok config) (t : Text) : (runParse fs t given).exit =
      exitOf ((Variant.parse config.policy t).any fun v => !(v.issuesUpTo config.level).isEmpty) := by
  simp [runParse, h]

/-- At the lower level the same commands are reported with the same findings, up to the issues that the
level does not admit; and parsing notation fails where the check of a command without a table has issues. -/
theorem level_is_threshold (policy : Policy) (exclude : List Text) (catalogue : Catalogue) :
    List.Forall₂ (fun r s => Report.LowerOf r s ∧ (r.hasIssues = true → s.hasIssues = true))
        (Checker.checkCatalogue ⟨.structural, policy⟩ exclude catalogue)
        (Checker.checkCatalogue ⟨.typing, policy⟩ exclude catalogue) ∧
      (Checker.checkCatalogue ⟨.structural, policy⟩ exclude catalogue).countP Report.hasIssues ≤
        (Checker.checkCatalogue ⟨.typing, policy⟩ exclude catalogue).countP Report.hasIssues ∧
      ∀ (fs : FileSystem) (ts : List Text) (t name : Text) (given : Given Text) (config : Config),
        Request.ofWords ts = .parse t given → t ≠ [] → chooseConfig fs given = .ok config →
          ∃ r, Checker.checkCommand ⟨config.level, config.policy⟩ name ⟨some t, []⟩ = some r ∧
            ((run fs ts).exit = .code 1 ↔ r.hasIssues = true) := by
  have hlower := Checker.lowerOf_checkCatalogue policy exclude catalogue
  refine ⟨hlower.imp fun r s h => ⟨h, h.hasIssues⟩, Report.countP_hasIssues_le hlower, ?_⟩
  intro fs ts t name given config hwords ht hconfig
  obtain ⟨r, hr, hissues⟩ := Checker.checkCommand_of_notation ⟨config.level, config.policy⟩ name ht
  refine ⟨r, hr, ?_⟩
  rw [run, hwords, Request.run, exit_runParse hconfig, exitOf_eq_one_iff, hissues]

/-- A parameter without a type fails the run only because the configuration raises the level. -/
theorem level_is_threshold_of_raised_level :
    let fs : FileSystem :=
      ⟨[['w']], [([['w']], .directory), ([['w'], Config.fileName], .file (.text "warning-level: 2\n".toList))]⟩
    let t := "f(a ; b : Real)".toList
    Request.ofWords ["parse".toList, t] = .parse t .absent ∧ t ≠ [] ∧
      chooseConfig fs .absent = .ok ⟨.typing, {}, []⟩ ∧ (run fs ["parse".toList, t]).exit = .code 1 ∧
      (run (.fresh [['w']]) ["parse".toList, t]).exit = .code 0 ∧
      ∃ r, Checker.checkCommand ⟨.typing, {}⟩ "c.f".toList ⟨some t, []⟩ = some r ∧
        ((run fs ["parse".toList, t]).exit = .code 1 ↔ r.hasIssues = true) := by
  intro fs t
  have hwords : Request.ofWords ["parse".toList, t] = .parse t .absent := by decide +kernel
  have hconfig : chooseConfig fs .absent = .ok ⟨.typing, {}, []⟩ := by decide +kernel
  have ht : t ≠ [] := List.cons_ne_nil _ _
  have hparse := (level_is_threshold {} [] []).2.2 fs _ t "c.f".toList .absent _ hwords ht hconfig
  exact ⟨hwords, ht, hconfig, by decide +kernel, by decide +kernel, hparse⟩

end CommandLine

end Synopsis
