import Synopsis.CommandLine.Program

/-!
# The option to log

A word that asks for the log, directly behind the name of the command for checks, asks for nothing else: what
the words behind it ask for is the same with and without it, also where they are refused.
-/

namespace Synopsis

namespace CommandLine

section Errors

variable {ε δ α : Type}

theorem mapError_ok (f : ε → δ) (a : α) : (Except.ok a : Except ε α).mapError f = .ok a := rfl

theorem mapError_error (f : ε → δ) (e : ε) : (Except.error e : Except ε α).mapError f = .error (f e) := rfl

end Errors

namespace Settings

/-- The same settings with the log asked for. -/
def loud (s : Settings) : Settings :=
  { s with verbose := true }

theorem set_loud (s : Settings) (x : Setting) : s.loud.set x = (s.set x).loud := by
  cases x <;> rfl

theorem foldl_set_loud (xs : List Setting) (s : Settings) : xs.foldl set s.loud = (xs.foldl set s).loud := by
  induction xs generalizing s with
  | nil => rfl
  | cons x xs ih => rw [List.foldl_cons, List.foldl_cons, set_loud, ih]

end Settings

namespace Parsed

def loud (p : Parsed) : Parsed :=
  { p with settings := p.settings.loud }

@[simp] theorem operand_loud (p : Parsed) : p.loud.operand = p.operand := rfl

@[simp] theorem extras_loud (p : Parsed) : p.loud.extras = p.extras := rfl

theorem addSettings_loud (p : Parsed) (xs : List Setting) :
    p.loud.addSettings xs = (p.addSettings xs).loud := by
  simp only [addSettings, loud, Settings.foldl_set_loud]

end Parsed

namespace Grammar

variable {g : Grammar}

theorem parseWords_loud (p : Parsed) (ws : List Word) :
    g.parseWords p.loud ws = (g.parseWords p ws).map Parsed.loud := by
  fun_induction g.parseWords p ws with
  | case1 p => simp only [parseWords, Except.map]
  | case2 p w rest c hexpand => simp only [parseWords, hexpand, Except.map]
  | case3 p w rest e hexpand stop hstop =>
      rw [parseWords, hexpand]
      simp only
      split <;> simp_all [Except.map]
  | case4 p w rest e hexpand settings after hafter _ ih =>
      rw [← Parsed.addSettings_loud] at ih
      rw [parseWords, hexpand, ← ih]
      simp only
      split <;> simp_all
  | case5 p w rest hexpand hcommand hoperand hrole =>
      simp only [parseWords, hrole, Parsed.operand_loud, hoperand, hcommand, Except.map]
      rfl
  | case6 p w rest hexpand hcommand hoperand hrole hrest =>
      simp only [parseWords, hrole, Parsed.operand_loud, hoperand, hcommand, hrest, if_true, Except.map]
      rfl
  | case7 p w rest hexpand hcommand hoperand hrole hrest =>
      simp only [parseWords, hrole, Parsed.operand_loud, hoperand, hcommand, hrest, Except.map]
      rfl
  | case8 p w rest hexpand hoperand hrole _ hcommand ih =>
      rw [← ih, parseWords, hexpand]
      simp only [hrole, Parsed.operand_loud, hoperand]
      rfl
  | case9 p w rest hexpand hoperand hrole hcommand ih =>
      rw [← ih, parseWords, hexpand]
      simp only [hrole, Parsed.operand_loud, hoperand]
  | case10 p w rest hexpand hargument hseparator _ _ ih =>
      rw [← ih, parseWords, hexpand]
      simp_all [Parsed.addExtras, Parsed.loud]

theorem words_cons {t : Text} {r : Role} (hseparator : t ≠ ['-', '-']) (hrole : g.role t = .ok r)
    (ts : List Text) :
    g.words (t :: ts) = (g.words ts).map (⟨t, r⟩ :: ·) := by
  rw [words, if_neg hseparator, hrole]
  rfl

theorem map_text_words {ts : List Text} {ws : List Word} (h : g.words ts = .ok ws) : ws.map Word.text = ts := by
  induction ts generalizing ws with
  | nil =>
      cases h
      rfl
  | cons t ts ih =>
      rw [words] at h
      split at h
      · cases h
        simp [Function.comp_def]
      · cases hrole : g.role t with
        | error c => simp [hrole, bind, Except.bind] at h
        | ok r =>
            cases hws : g.words ts with
            | error c => simp [hrole, hws, bind, Except.bind] at h
            | ok ws' =>
                simp only [hrole, hws, bind, Except.bind, pure, Except.pure, Except.ok.injEq] at h
                subst h
                rw [List.map_cons, ih hws]

def logWord : Text := "-v".toList

theorem parse_logWord (ts : List Text) :
    Program.check.grammar.parse (logWord :: ts) = (Program.check.grammar.parse ts).map Parsed.loud := by
  have hrole : Program.check.grammar.role logWord = .ok (.short .verbose []) := rfl
  have hstep : ∀ ws, Program.check.grammar.parseWords {} (⟨logWord, .short .verbose []⟩ :: ws) =
      (Program.check.grammar.parseWords {} ws).map Parsed.loud := by
    intro ws
    rw [← parseWords_loud, parseWords]
    rfl
  unfold parse
  rw [words_cons (by decide) hrole]
  cases Program.check.grammar.words ts with
  | error c => rfl
  | ok ws =>
      simp only [Except.map, mapError_ok, bind, Except.bind, hstep]
      cases Program.check.grammar.parseWords {} ws with
      | error stop => rfl
      | ok p =>
          simp only [Parsed.operand_loud]
          cases p.operand <;> rfl

end Grammar

namespace Request

/-- The same request; if it is a check, with the log asked for. -/
def loud : Request → Request
  | .check records s => .check records s.loud
  | q => q

theorem ofStop_loud (p : Program) (stop : Stop) : (ofStop p stop).loud = ofStop p stop := by
  cases stop <;> rfl

theorem ofParsed_loud (before : List Text) (parsed : Parsed) :
    ofParsed .check before parsed.loud = (ofParsed .check before parsed).loud := by
  unfold ofParsed
  rw [Parsed.extras_loud]
  split
  · rw [Parsed.operand_loud]
    cases parsed.operand.bind List.head? <;> rfl
  · rfl

theorem ofCommandWords_logWord (before ts : List Text) :
    ofCommandWords before Program.check.name (Grammar.logWord :: ts) =
      (ofCommandWords before Program.check.name ts).loud := by
  unfold ofCommandWords
  rw [Program.ofName?_name (by decide)]
  simp only [Grammar.parse_logWord]
  cases Program.check.grammar.parse ts with
  | error stop => exact (ofStop_loud _ stop).symm
  | ok parsed => exact ofParsed_loud before parsed

/-- The name of a command takes all words behind it, unless one of them cannot be told. -/
theorem ofWords_name (p : Program) (ts : List Text) :
    ofWords (p.name :: ts) = match Program.whole.grammar.words ts with
      | .error c => .refused .whole c
      | .ok _ => ofCommandWords [] p.name ts := by
  have hrole : Program.whole.grammar.role p.name = .ok .argument := by cases p <;> rfl
  have hparse : Program.whole.grammar.parse (p.name :: ts) = match Program.whole.grammar.words ts with
      | .error c => .error (.complaint c)
      | .ok _ => .ok { operand := some (p.name :: ts) } := by
    rw [Grammar.parse, Grammar.words_cons (by cases p <;> decide) hrole]
    cases hws : Program.whole.grammar.words ts with
    | error c => rfl
    | ok ws =>
        simp only [Except.map, mapError_ok, bind, Except.bind]
        rw [Grammar.parseWords]
        simp only [Grammar.expand, Program.grammar, Grammar.map_text_words hws]
        rfl
  rw [ofWords, hparse]
  cases Program.whole.grammar.words ts <;> rfl

/-- Directly behind the name of the command, the word for the log adds nothing but the log. -/
theorem ofWords_logWord (ts : List Text) :
    ofWords (Program.check.name :: Grammar.logWord :: ts) = (ofWords (Program.check.name :: ts)).loud := by
  have hrole : Program.whole.grammar.role Grammar.logWord = .ok .unknownOption := rfl
  rw [ofWords_name, ofWords_name, Grammar.words_cons (by decide) hrole]
  cases Program.whole.grammar.words ts with
  | error c => rfl
  | ok ws => exact ofCommandWords_logWord [] ts

end Request

end CommandLine

end Synopsis
