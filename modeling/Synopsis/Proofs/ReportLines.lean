import Mathlib.Algebra.GroupWithZero.Nat
import Synopsis.CommandLine.Run

/-!
# What the lines of a report tell

Four kinds of line can be counted in a printed report: the rule that ends a command with issues, the entry
of an issue or of a disagreement, the line of extra names, and the approval of a variant. Every other line
begins with a text of its own that no line of these kinds begins with, so names, types and notation cannot
pass for one of them, and the lines count exactly what was found.
-/

namespace Synopsis

namespace Text

/-- Neither text begins with the other. -/
def diverges (s t : Text) : Bool :=
  !startsWith s t && !startsWith t s

theorem not_prefix_append_of_diverges {s t : Text} (h : diverges s t = true) (rest : Text) :
    ¬ t <+: s ++ rest := by
  rw [diverges, Bool.and_eq_true, Bool.not_eq_true', Bool.not_eq_true', ← Bool.not_eq_true, ← Bool.not_eq_true,
    startsWith_iff, startsWith_iff] at h
  intro ht
  rcases List.prefix_or_prefix_of_prefix ht (List.prefix_append s rest) with hts | hst
  · exact h.2 hts
  · exact h.1 hst

end Text

namespace Finding

/-- The issues and the disagreements about types that a report lists of a variant. -/
def listed (f : Finding) : Nat :=
  f.issues.length + f.comparison.elim 0 fun c => c.types.length + c.returns.length

def namesExtra (f : Finding) : Bool :=
  f.comparison.any fun c => !c.extra.isEmpty

/-- What has no issues lists nothing and names nothing. -/
theorem listed_of_clean {f : Finding} (h : f.hasIssues = false) : f.listed = 0 ∧ f.namesExtra = false := by
  rw [hasIssues, Bool.or_eq_false_iff] at h
  have hissues : f.issues = [] := by simpa using h.1
  cases hc : f.comparison with
  | none => simp [listed, namesExtra, hissues, hc]
  | some c =>
      have hclean : c.hasErrors = false := by simpa [hc] using h.2
      have hempty : (c.extra = [] ∧ c.types = []) ∧ c.returns = [] := by
        simpa [Comparison.hasErrors] using hclean
      simp [listed, namesExtra, hissues, hc, hempty]

end Finding

namespace Report

def approval : Text := "All parsed parameters are valid!".toList

/-- The kinds of line that are counted. -/
inductive Landmark where
  | rule
  | entry
  | extra
  | approval
  deriving DecidableEq

namespace Landmark

def lead : Landmark → Text
  | .rule => Report.rule
  | .entry => "   - ".toList
  | .extra => "Extra/Invalid parameters: ".toList
  | .approval => Report.approval

def marks (k : Landmark) (line : Text) : Bool :=
  match k with
  | .rule | .approval => line == k.lead
  | .entry | .extra => Text.startsWith k.lead line

variable {k : Landmark}

theorem prefix_of_marks {line : Text} (h : k.marks line = true) : k.lead <+: line := by
  cases k with
  | rule => exact (beq_iff_eq.mp h).symm ▸ List.prefix_rfl
  | entry => exact Text.startsWith_iff.mp h
  | extra => exact Text.startsWith_iff.mp h
  | approval => exact (beq_iff_eq.mp h).symm ▸ List.prefix_rfl

theorem not_marks_of_diverges {lead : Text} (h : Text.diverges lead k.lead = true) (rest : Text) :
    k.marks (lead ++ rest) = false := by
  rw [← Bool.not_eq_true]
  exact fun hmarks => Text.not_prefix_append_of_diverges h rest (prefix_of_marks hmarks)

/-- A text that no line of any kind begins with, and that begins none. -/
def isPlain (lead : Text) : Bool :=
  [rule, entry, extra, approval].all fun k => Text.diverges lead k.lead

theorem not_marks_of_isPlain {lead : Text} (h : isPlain lead = true) (rest : Text) :
    k.marks (lead ++ rest) = false := by
  apply not_marks_of_diverges
  apply List.all_eq_true.mp h k
  cases k <;> simp

/-- The lines of one kind. -/
def count (k : Landmark) (lines : List Text) : Nat :=
  lines.countP k.marks

@[simp] theorem count_nil : k.count [] = 0 := rfl

@[simp] theorem count_append (l l' : List Text) : k.count (l ++ l') = k.count l + k.count l' :=
  List.countP_append

theorem count_cons_of_isPlain {lead : Text} (h : isPlain lead = true) (rest : Text) (lines : List Text) :
    k.count ((lead ++ rest) :: lines) = k.count lines :=
  List.countP_cons_of_neg (by rw [not_marks_of_isPlain h]; exact Bool.false_ne_true)

theorem count_title {title : Text} (h : isPlain title = true) (lines : List Text) :
    k.count (title :: lines) = k.count lines := by
  have hline := count_cons_of_isPlain (k := k) h [] lines
  rwa [List.append_nil] at hline

theorem count_blank (lines : List Text) : k.count ([] :: lines) = k.count lines :=
  List.countP_cons_of_neg (by cases k <;> decide)

theorem diverges_lead {j k : Landmark} (h : j ≠ k) : Text.diverges j.lead k.lead = true := by
  cases j <;> cases k <;> first | exact absurd rfl h | decide

theorem marks_lead (j : Landmark) : k.marks j.lead = decide (k = j) := by
  by_cases hk : k = j
  · rw [decide_eq_true hk, hk]
    cases j with
    | rule => exact beq_self_eq_true _
    | entry => exact Text.startsWith_iff.mpr List.prefix_rfl
    | extra => exact Text.startsWith_iff.mpr List.prefix_rfl
    | approval => exact beq_self_eq_true _
  · have hmarks := not_marks_of_diverges (diverges_lead (Ne.symm hk)) []
    rwa [List.append_nil, ← decide_eq_false hk] at hmarks

theorem count_lead (j : Landmark) : k.count [j.lead] = if k = j then 1 else 0 := by
  rw [count, List.countP_singleton, marks_lead]
  simp

/-- A line of data behind the lead of an entry or of extra names is of that kind, whatever the data. -/
theorem marks_lead_append {j : Landmark} (hj : j = entry ∨ j = extra) (rest : Text) :
    k.marks (j.lead ++ rest) = decide (k = j) := by
  by_cases hk : k = j
  · have hstarts := Text.startsWith_iff.mpr (List.prefix_append j.lead rest)
    rw [decide_eq_true hk, hk]
    rcases hj with rfl | rfl
    · exact hstarts
    · exact hstarts
  · rw [decide_eq_false hk]
    exact not_marks_of_diverges (diverges_lead (Ne.symm hk)) rest

theorem count_map_entry {α : Type} (line : α → Text) (text : α → Text)
    (hline : ∀ a, line a = entry.lead ++ text a)
    (l : List α) : k.count (l.map line) = if k = entry then l.length else 0 := by
  have hmarks : k.marks ∘ line = fun _ => decide (k = entry) := by
    funext a
    rw [Function.comp_apply, hline, marks_lead_append (.inl rfl)]
  rw [count, List.countP_map, hmarks]
  by_cases hk : k = entry <;> simp [hk]

end Landmark

section Findings

open Landmark

variable {k : Landmark}

theorem issueLine_eq (i : Issue) :
    issueLine i = entry.lead ++ ('[' :: (levelTag i.level ++ "] ".toList ++ i.wording)) := rfl

theorem mismatchLine_eq (m : Mismatch) :
    mismatchLine m = entry.lead ++ (m.name ++ ": syntax declares '".toList ++ m.declared
      ++ "' but params declare '".toList ++ m.documented ++ "'".toList) := rfl

theorem count_issueLines (issues : List Issue) :
    k.count (issueLines issues) = if k = .entry then issues.length else 0 := by
  cases issues with
  | nil => simp [issueLines]
  | cons i issues =>
      have htitle : isPlain "Syntax malformation detected:".toList = true := by decide
      rw [issueLines, List.isEmpty_cons, if_neg Bool.false_ne_true, count_title htitle,
        count_map_entry _ _ issueLine_eq]

theorem count_mismatchLines {title : Text} (htitle : isPlain title = true) (mismatches : List Mismatch) :
    k.count (mismatchLines title mismatches) = if k = .entry then mismatches.length else 0 := by
  cases mismatches with
  | nil => simp [mismatchLines]
  | cons m mismatches =>
      rw [mismatchLines, List.isEmpty_cons, if_neg Bool.false_ne_true, count_title htitle,
        count_map_entry _ _ mismatchLine_eq]

theorem count_extraLines (extra : List Text) :
    k.count (extraLines extra) = if k = .extra ∧ extra ≠ [] then 1 else 0 := by
  cases extra with
  | nil => simp [extraLines]
  | cons name names =>
      have hlead : "Extra/Invalid parameters: ".toList = extra.lead := rfl
      rw [extraLines, List.isEmpty_cons, if_neg Bool.false_ne_true, hlead, count, List.countP_singleton,
        marks_lead_append (.inr rfl)]
      simp

theorem count_heading (index : Nat) : k.count (heading index) = 0 := by
  have hplain : isPlain "Variant ".toList = true := by decide
  rw [heading, count_blank, List.append_assoc, count_cons_of_isPlain hplain, count_nil]

theorem count_comparisonLines (c : Comparison) :
    k.count (comparisonLines c) =
      (if k = .extra ∧ c.extra ≠ [] then 1 else 0) +
        if k = .entry then c.types.length + c.returns.length else 0 := by
  have htypes : isPlain "Type mismatches:".toList = true := by decide
  have hreturns : isPlain "Return type mismatches:".toList = true := by decide
  rw [comparisonLines, count_append, count_append, count_extraLines, count_mismatchLines htypes,
    count_mismatchLines hreturns]
  split <;> split <;> omega

/-- What a variant adds to the lines of a kind, where the command has a table. -/
def share (k : Landmark) (f : Finding) : Nat :=
  match k with
  | .rule => 0
  | .entry => f.listed
  | .extra => if f.namesExtra then 1 else 0
  | .approval => if f.hasIssues then 0 else 1

theorem count_compared (f : Finding) :
    k.count (f.comparison.elim [] comparisonLines) =
      (if k = .extra ∧ f.namesExtra = true then 1 else 0) +
        if k = .entry then f.comparison.elim 0 fun c => c.types.length + c.returns.length else 0 := by
  cases hc : f.comparison with
  | none => simp [Finding.namesExtra, hc]
  | some c =>
      rw [Option.elim_some, Option.elim_some, count_comparisonLines]
      simp [Finding.namesExtra, hc]

theorem findingLines_eq (index : Nat) (f : Finding) :
    findingLines index f = heading index
      ++ ["Parsed parameter names: ".toList
        ++ quotedList (f.variant.parameters.map fun p => Text.lowercase p.name)]
      ++ issueLines f.issues ++ f.comparison.elim [] comparisonLines
      ++ (if f.hasIssues then [] else [approval]) := by
  unfold findingLines
  cases f.comparison <;> rfl

theorem count_findingLines (index : Nat) (f : Finding) : k.count (findingLines index f) = share k f := by
  have hnames : isPlain "Parsed parameter names: ".toList = true := by decide
  have happroval : k.count (if f.hasIssues then [] else [approval]) =
      if k = .approval ∧ f.hasIssues = false then 1 else 0 := by
    cases f.hasIssues with
    | true => simp
    | false => exact (count_lead .approval).trans (by simp)
  rw [findingLines_eq, count_append, count_append, count_append, count_append, count_heading,
    count_cons_of_isPlain hnames, count_nil, count_issueLines, count_compared, happroval]
  cases k with
  | rule => simp [share]
  | entry => simp [share, Finding.listed]
  | extra => simp [share]
  | approval => cases hissues : f.hasIssues <;> simp [share, hissues]

theorem count_bareFindingLines (index : Nat) (f : Finding) :
    k.count (bareFindingLines index f) = if k = .entry then f.issues.length else 0 := by
  unfold bareFindingLines
  split
  · next hempty => simp [List.isEmpty_iff.mp hempty]
  · rw [count_append, count_heading, count_issueLines, Nat.zero_add]

theorem count_numbered {render : Nat → Finding → List Text} {number : Finding → Nat}
    (h : ∀ index f, k.count (render index f) = number f) (findings : List Finding) :
    k.count (numbered render findings) = (findings.map number).sum := by
  rw [numbered, count, List.countP_flatMap]
  calc (findings.zipIdx.map fun p => k.count (render p.2 p.1)).sum
      = (findings.zipIdx.map (number ∘ Prod.fst)).sum :=
        congrArg List.sum (List.map_congr_left fun p _ => h p.2 p.1)
    _ = (findings.map number).sum := by rw [← List.map_map, List.zipIdx_map_fst]

end Findings

section Reports

open Landmark

variable {k : Landmark}

/-- What a variant adds to the lines of a kind in the report of its command. -/
def shareIn (r : Report) (k : Landmark) (f : Finding) : Nat :=
  if r.rows.isEmpty then (if k = .entry then f.issues.length else 0) else share k f

theorem count_details (r : Report) : k.count r.details = (r.findings.map (r.shareIn k)).sum := by
  have hnone : isPlain "No Params field found for this command".toList = true := by decide
  have hrows : isPlain "Actual Params: ".toList = true := by decide
  have hnames : isPlain "Expected parameter names: ".toList = true := by decide
  unfold details shareIn
  split
  · rw [count_append, count_blank, count_title hnone, count_nil, count_numbered count_bareFindingLines,
      Nat.zero_add]
  · rw [count_append, count_blank, count_cons_of_isPlain hrows, count_cons_of_isPlain hnames, count_nil,
      count_numbered count_findingLines, Nat.zero_add]

/-- A clean command has no line of any kind; one with issues has its rule and what its variants add. -/
theorem count_render (r : Report) :
    k.count r.render =
      if r.hasIssues then (r.findings.map (r.shareIn k)).sum + (if k = .rule then 1 else 0) else 0 := by
  have hname : isPlain "Command: ".toList = true := by decide
  have hnotation : isPlain "Syntax: ".toList = true := by decide
  have hvariants : isPlain "Parsed variants: ".toList = true := by decide
  have hrule : k.count [Report.rule] = if k = .rule then 1 else 0 := count_lead .rule
  unfold render
  split
  · rw [count_append, count_append, count_cons_of_isPlain hname, count_cons_of_isPlain hnotation,
      count_cons_of_isPlain hvariants, count_nil, count_details, hrule, Nat.zero_add]
  · rw [List.append_assoc, List.append_assoc, count_cons_of_isPlain hname, count_nil]

theorem sum_map_ite {α : Type} (p : α → Bool) (l : List α) :
    (l.map fun a => if p a then 1 else 0).sum = l.countP p := by
  induction l with
  | nil => rfl
  | cons a l ih => rw [List.map_cons, List.sum_cons, ih, List.countP_cons, Nat.add_comm]

/-- A command with issues and a table, whose variants are all shown. -/
def isAnalysed (r : Report) : Bool :=
  r.hasIssues && !r.rows.isEmpty

/-- The lines tell of the reports what was found: each command with issues has its rule, each issue and
disagreement its entry, each variant with extra names its line, and each clean variant of an analysed
command its approval. -/
structure Accounts (reports : List Report) (lines : List Text) : Prop where
  rules : lines.count rule = reports.countP hasIssues
  entries : lines.countP (Text.startsWith "   - ".toList) = ((reports.flatMap findings).map Finding.listed).sum
  extras : lines.countP (Text.startsWith "Extra/Invalid parameters: ".toList) =
    (reports.flatMap findings).countP Finding.namesExtra
  approvals : lines.count approval =
    ((reports.filter isAnalysed).flatMap findings).countP fun f => !f.hasIssues

theorem Accounts.nil : Accounts [] [] :=
  ⟨rfl, rfl, rfl, rfl⟩

theorem Accounts.append {rs rs' : List Report} {ls ls' : List Text} (h : Accounts rs ls)
    (h' : Accounts rs' ls') :
    Accounts (rs ++ rs') (ls ++ ls') where
  rules := by rw [List.count_append, List.countP_append, h.rules, h'.rules]
  entries := by
    rw [List.countP_append, List.flatMap_append, List.map_append, List.sum_append, h.entries, h'.entries]
  extras := by rw [List.countP_append, List.flatMap_append, List.countP_append, h.extras, h'.extras]
  approvals := by
    rw [List.count_append, List.filter_append, List.flatMap_append, List.countP_append, h.approvals,
      h'.approvals]

/-- There is a comparison of each variant exactly where there is a table. -/
def IsCompared (r : Report) : Prop :=
  ∀ f ∈ r.findings, f.comparison.isSome = !r.rows.isEmpty

theorem shareIn_rule (r : Report) (f : Finding) : r.shareIn .rule f = 0 := by
  unfold shareIn
  split <;> rfl

theorem shareIn_entry {r : Report} (h : r.IsCompared) {f : Finding} (hf : f ∈ r.findings) :
    r.shareIn .entry f = f.listed := by
  unfold shareIn
  split
  · next hrows =>
      have hnone : f.comparison = none := by simpa [hrows] using h f hf
      simp [Finding.listed, hnone]
  · rfl

theorem shareIn_extra {r : Report} (h : r.IsCompared) {f : Finding} (hf : f ∈ r.findings) :
    r.shareIn .extra f = if f.namesExtra then 1 else 0 := by
  unfold shareIn
  split
  · next hrows =>
      have hnone : f.comparison = none := by simpa [hrows] using h f hf
      simp [Finding.namesExtra, hnone]
  · rfl

theorem shareIn_approval (r : Report) (f : Finding) :
    r.shareIn .approval f = if !r.rows.isEmpty && !f.hasIssues then 1 else 0 := by
  unfold shareIn share
  cases r.rows.isEmpty <;> cases f.hasIssues <;> rfl

/-- Where only variants with issues add to a kind, whether the command is clean makes no difference. -/
theorem count_render_of_share {r : Report} {number : Finding → Nat} (hk : k ≠ .rule)
    (hshare : ∀ f ∈ r.findings, r.shareIn k f = number f)
    (hclean : ∀ f, f.hasIssues = false → number f = 0) :
    k.count r.render = (r.findings.map number).sum := by
  rw [count_render, if_neg hk, Nat.add_zero]
  split
  · exact congrArg List.sum (List.map_congr_left hshare)
  · next hissues =>
      -- The one line is of no kind, and no variant of a clean command has anything to add.
      have hall : ∀ f ∈ r.findings, number f = 0 := by
        intro f hf
        apply hclean
        rw [← Bool.not_eq_true]
        exact fun h => hissues (List.any_eq_true.mpr ⟨f, hf, h⟩)
      rw [List.map_congr_left hall, List.map_const', List.sum_replicate_nat, Nat.mul_zero]

theorem count_rule_render (r : Report) : count .rule r.render = if r.hasIssues then 1 else 0 := by
  rw [count_render, List.map_congr_left fun f _ => r.shareIn_rule f, List.map_const', List.sum_replicate_nat,
    Nat.mul_zero]
  rfl

theorem count_entry_render {r : Report} (h : r.IsCompared) :
    count .entry r.render = (r.findings.map Finding.listed).sum :=
  count_render_of_share (by decide) (fun _ hf => shareIn_entry h hf) fun _ hf => (Finding.listed_of_clean hf).1

theorem count_extra_render {r : Report} (h : r.IsCompared) :
    count .extra r.render = r.findings.countP Finding.namesExtra := by
  rw [← sum_map_ite]
  apply count_render_of_share (by decide) (fun _ hf => shareIn_extra h hf)
  intro f hf
  rw [(Finding.listed_of_clean hf).2]
  rfl

theorem count_approval_render (r : Report) :
    count .approval r.render = if r.isAnalysed then r.findings.countP fun f => !f.hasIssues else 0 := by
  have hk : Landmark.approval ≠ .rule := by decide
  rw [count_render, if_neg hk, Nat.add_zero, List.map_congr_left fun f _ => r.shareIn_approval f, sum_map_ite]
  unfold isAnalysed
  cases r.hasIssues <;> cases r.rows.isEmpty <;> simp

theorem accounts_render {r : Report} (h : r.IsCompared) : Accounts [r] r.render where
  rules := by
    rw [List.countP_singleton]
    exact r.count_rule_render
  entries := by
    rw [List.flatMap_singleton]
    exact count_entry_render h
  extras := by
    rw [List.flatMap_singleton]
    exact count_extra_render h
  approvals := by
    refine r.count_approval_render.trans ?_
    cases hanalysed : r.isAnalysed <;> simp [hanalysed]

theorem accounts_flatMap {reports : List Report} (h : ∀ r ∈ reports, r.IsCompared) :
    Accounts reports (reports.flatMap render) := by
  induction reports with
  | nil => exact .nil
  | cons r reports ih =>
      rw [List.flatMap_cons]
      exact (accounts_render (h r List.mem_cons_self)).append (ih fun s hs => h s (List.mem_cons_of_mem r hs))

end Reports

end Report

namespace Checker

theorem isCompared_of_checkCommand {c : Checker} {name : Text} {command : Command} {r : Report}
    (h : c.checkCommand name command = some r) : r.IsCompared := by
  unfold checkCommand at h
  split at h
  · cases h
  · cases h
  · next t _ _ =>
      cases h
      intro f hf
      obtain ⟨v, _, rfl⟩ := List.mem_map.mp hf
      unfold finding
      cases command.rows.isEmpty <;> rfl

theorem isCompared_of_mem_checkCatalogue {c : Checker} {exclude : List Text} {catalogue : Catalogue}
    {r : Report} (h : r ∈ c.checkCatalogue exclude catalogue) : r.IsCompared := by
  obtain ⟨category, _, hr⟩ := List.mem_flatMap.mp h
  obtain ⟨entry, _, hentry⟩ := List.mem_filterMap.mp hr
  exact isCompared_of_checkCommand hentry

end Checker

namespace CommandLine

namespace Inspection

/-- The lines of the reports of a check account for all that it found, those of the analysed commands
account for their clean variants, and the rules among them decide how the check ends. -/
theorem lines_account_for_findings (i : Inspection) :
    Report.Accounts i.reports (i.reports.flatMap Report.render) ∧
      ((i.reports.filter Report.isAnalysed).flatMap Report.render).count Report.approval =
        ((i.reports.filter Report.isAnalysed).flatMap Report.findings).countP (fun f => !f.hasIssues) ∧
      i.failures = (i.reports.flatMap Report.render).count Report.rule ∧
      ∀ fs log, (i.finish fs log .absent).exit =
        exitOf (decide (0 < (i.reports.flatMap Report.render).count Report.rule)) := by
  have hcompared : ∀ r ∈ i.reports, r.IsCompared := fun _ hr => Checker.isCompared_of_mem_checkCatalogue hr
  have haccounts := Report.accounts_flatMap hcompared
  have hanalysed : ∀ r ∈ i.reports.filter Report.isAnalysed, r.IsCompared :=
    fun r hr => hcompared r (List.mem_filter.mp hr).1
  have hfailures : i.failures = (i.reports.flatMap Report.render).count Report.rule := haccounts.rules.symm
  refine ⟨haccounts, ?_, hfailures, ?_⟩
  · have happrovals := (Report.accounts_flatMap hanalysed).approvals
    simpa only [List.filter_filter, Bool.and_self] using happrovals
  · intro fs log
    rw [finish, exit, hfailures]

/-- Names that look like lines of two kinds, a clean variant, and one with an issue and an extra name. -/
example :
    let reports := Checker.checkCatalogue ⟨.typing, {}⟩ [] [("   - ".toList, [(Report.approval,
      ⟨some "f(a : Text)<br/>f(a : Text ; ; b : Text)".toList,
        [⟨"a".toList, "Text".toList, "->".toList, []⟩]⟩)])]
    [Report.Landmark.rule, .entry, .extra, .approval].map (fun k => k.count (reports.flatMap Report.render)) =
      [1, 1, 1, 1] := by
  decide +kernel

end Inspection

end CommandLine

end Synopsis
