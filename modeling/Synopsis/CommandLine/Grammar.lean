import Synopsis.Issue
import Synopsis.Text.Digit
import Synopsis.Text.Quoted

/-!
# The grammar of a command line

A command takes options, which begin with a dash and may have a value, and one operand. Long options may be
shortened, short ones may be joined in one word, and a value may stand in the same word. A word of two
dashes ends the options. Words that find no use are kept as extras.
-/

namespace Synopsis

namespace CommandLine

inductive Flag where
  | help
  | config
  | level
  | output
  | verbose
  deriving DecidableEq, Repr

namespace Flag

def spellings : Flag → List Text
  | .help => ["-h".toList, "--help".toList]
  | .config => ["--config".toList]
  | .level => ["-w".toList, "--warning-level".toList]
  | .output => ["-o".toList, "--output".toList]
  | .verbose => ["-v".toList, "--verbose".toList]

def label (f : Flag) : Text :=
  ['/'].intercalate f.spellings

def takesValue : Flag → Bool
  | .config | .level | .output => true
  | .help | .verbose => false

end Flag

/-- The operand of a command; that of the program itself is a command with all the words after it. -/
inductive Operand where
  | command
  | required (name : Text)
  | optional
  deriving DecidableEq, Repr

structure Grammar where
  flags : List Flag
  operand : Operand
  deriving DecidableEq, Repr

inductive Complaint where
  | ambiguous (word : Text) (spellings : List Text)
  | valueExpected (f : Flag)
  | valueUnexpected (f : Flag) (value : Text)
  | notNumber (f : Flag) (value : Text)
  | notChoice (f : Flag) (value : Int)
  | unknownCommand (word : Text) (commands : List Text)
  | operandMissing (name : Text)
  | unrecognized (words : List Text)
  deriving DecidableEq, Repr

namespace Complaint

def about (label message : Text) : Text :=
  "argument ".toList ++ label ++ ':' :: ' ' :: message

def choices (items : List Text) : Text :=
  " (choose from ".toList ++ [',', ' '].intercalate items ++ [')']

def message : Complaint → Text
  | .ambiguous word spellings =>
    "ambiguous option: ".toList ++ word ++ " could match ".toList ++ [',', ' '].intercalate spellings
  | .valueExpected f => about f.label "expected one argument".toList
  | .valueUnexpected f value => about f.label ("ignored explicit argument ".toList ++ Text.quoted value)
  | .notNumber f value => about f.label ("invalid int value: ".toList ++ Text.quoted value)
  | .notChoice f value =>
    about f.label ("invalid choice: ".toList ++ Text.ofInt value ++ choices [['1'], ['2']])
  | .unknownCommand word commands =>
    about "COMMAND".toList ("invalid choice: ".toList ++ Text.quoted word ++ choices (commands.map Text.quoted))
  | .operandMissing name => "the following arguments are required: ".toList ++ name
  | .unrecognized words => "unrecognized arguments: ".toList ++ [' '].intercalate words

end Complaint

/-- Why reading stops: help is asked for, or something is wrong. -/
inductive Stop where
  | help
  | complaint (c : Complaint)
  deriving DecidableEq, Repr

/-- What is given for an option: nothing, a value, or two dashes, which leave it blank. -/
inductive Given (α : Type) where
  | absent
  | blank
  | value (a : α)
  deriving DecidableEq, Repr

inductive Setting where
  | config (path : Given Text)
  | level (l : Given Level)
  | output (path : Given Text)
  | verbose
  deriving DecidableEq, Repr

structure Settings where
  config : Given Text := .absent
  level : Given Level := .absent
  output : Given Text := .absent
  verbose : Bool := false
  deriving DecidableEq, Repr

namespace Settings

def set (s : Settings) : Setting → Settings
  | .config path => { s with config := path }
  | .level l => { s with level := l }
  | .output path => { s with output := path }
  | .verbose => { s with verbose := true }

end Settings

/-- What a word is. A long option may have a value behind an equals sign, a short one is followed by the rest
of the word. -/
inductive Role where
  | separator
  | argument
  | long (f : Flag) (value : Option Text)
  | short (f : Flag) (rest : Text)
  | unknownOption
  deriving DecidableEq, Repr

structure Word where
  text : Text
  role : Role
  deriving DecidableEq, Repr

/-- The operand of the program itself has several words, any other one. -/
structure Parsed where
  operand : Option (List Text) := none
  settings : Settings := {}
  extras : List Text := []
  deriving DecidableEq, Repr

namespace Parsed

def addExtras (p : Parsed) (ts : List Text) : Parsed :=
  { p with extras := p.extras ++ ts }

def addSettings (p : Parsed) (settings : List Setting) : Parsed :=
  { p with settings := settings.foldl Settings.set p.settings }

end Parsed

/-- Digits after a dash, with at most one point before the last of them; a line break may follow. -/
def isNegativeNumber : Text → Bool
  | '-' :: body =>
    let ends := fun t : Text => t == [] || t == ['\n']
    match body.span Text.isDecimal with
    | (_, '.' :: after) => ends (after.dropWhile Text.isDecimal) && after.any Text.isDecimal
    | (before, rest) => ends rest && !before.isEmpty
  | _ => false

namespace Grammar

def spelled? (g : Grammar) (t : Text) : Option Flag :=
  g.flags.find? fun f => f.spellings.contains t

def cutValue (t : Text) : Text × Option Text :=
  match t.dropWhile (· != '=') with
  | [] => (t, none)
  | _ :: value => (t.takeWhile (· != '='), some value)

def extensions (g : Grammar) (lead : Text) : List (Flag × Text) :=
  g.flags.flatMap fun f => (f.spellings.filter (Text.startsWith lead)).map fun s => (f, s)

def longRole (g : Grammar) (t : Text) : Except Complaint (Option Role) :=
  let (lead, value) := cutValue t
  match g.spelled? lead, g.extensions lead with
  | some f, _ => .ok (some (.long f value))
  | none, [] => .ok none
  | none, [(f, _)] => .ok (some (.long f value))
  | none, many => .error (.ambiguous t (many.map Prod.snd))

def shortRole (g : Grammar) (t : Text) : Option Role :=
  (g.spelled? (t.take 2)).map fun f => .short f (t.drop 2)

/-- A word with a dash and more is an option, unless it is a negative number or holds a space. -/
def plainRole (t : Text) : Role :=
  if isNegativeNumber t || t.contains ' ' then .argument else .unknownOption

def role (g : Grammar) (t : Text) : Except Complaint Role :=
  match t with
  | '-' :: '-' :: _ => (g.longRole t).map fun r => r.getD (plainRole t)
  | '-' :: _ :: _ => .ok ((g.shortRole t).getD (plainRole t))
  | _ => .ok .argument

def words (g : Grammar) : List Text → Except Complaint (List Word)
  | [] => .ok []
  | t :: rest =>
    if t = ['-', '-'] then .ok (⟨t, .separator⟩ :: rest.map (⟨·, .argument⟩))
    else do return ⟨t, ← g.role t⟩ :: (← words g rest)

/-- The options that a word stands for, with their values in the word. -/
abbrev Expansion := List (Flag × Option Text)

def expandLong (f : Flag) : Option Text → Except Complaint Expansion
  | none => .ok [(f, none)]
  | some value => if f.takesValue then .ok [(f, some value)] else .error (.valueUnexpected f value)

/-- What stands in a word behind the letter of an option is its value, or else the letters of more options. -/
def expandJoined (g : Grammar) (f : Flag) (joined : Text) : Except Complaint Expansion :=
  if f.takesValue then .ok [(f, some joined)]
  else match joined with
    | [] => .error (.valueUnexpected f [])
    | c :: rest =>
      match g.spelled? ['-', c] with
      | none => .error (.valueUnexpected f joined)
      | some next =>
        if rest.isEmpty then .ok [(f, none), (next, none)]
        else (expandJoined g next rest).map fun e => (f, none) :: e

/-- An equals sign directly behind the first letter does not count. -/
def expandShort (g : Grammar) (f : Flag) : Text → Except Complaint Expansion
  | [] => .ok [(f, none)]
  | '=' :: joined => g.expandJoined f joined
  | joined => g.expandJoined f joined

def complete : Expansion → List Word → Except Complaint (Expansion × List Word)
  | [], rest => .ok ([], rest)
  | [(f, none)], rest =>
    if f.takesValue then
      match rest with
      | ⟨t, .argument⟩ :: rest => .ok ([(f, some t)], rest)
      | _ => .error (.valueExpected f)
    else .ok ([(f, none)], rest)
  | p :: ps, rest => do
    let (ps, rest) ← complete ps rest
    return (p :: ps, rest)

theorem length_complete_le {ps qs : Expansion} {ws rest : List Word}
    (h : complete ps ws = .ok (qs, rest)) : rest.length ≤ ws.length := by
  fun_induction complete ps ws generalizing qs with
  | case1 => cases h; exact Nat.le_refl _
  | case2 => cases h; simp
  | case3 => cases h
  | case4 => cases h; exact Nat.le_refl _
  | case5 p ps rest' _ ih =>
      cases hc : complete ps rest' with
      | error e => simp [hc, bind, Except.bind] at h
      | ok r =>
          obtain ⟨qs', after⟩ := r
          simp only [hc, bind, Except.bind, pure, Except.pure, Except.ok.injEq, Prod.mk.injEq] at h
          obtain ⟨-, rfl⟩ := h
          exact ih hc

def levelOf (value : Text) : Except Complaint Level :=
  match Text.toInt? 10 value with
  | none => .error (.notNumber .level value)
  | some n =>
    match Level.ofNumber? n with
    | some l => .ok l
    | none => .error (.notChoice .level n)

def given {α : Type} (read : Text → Except Complaint α) (value : Text) : Except Stop (Given α) :=
  if value = ['-', '-'] then .ok .blank else ((read value).map .value).mapError .complaint

def setting : Flag × Option Text → Except Stop Setting
  | (.help, _) => .error .help
  | (.verbose, _) => .ok .verbose
  | (.config, value) => (given .ok (value.getD [])).map .config
  | (.output, value) => (given .ok (value.getD [])).map .output
  | (.level, value) => (given levelOf (value.getD [])).map .level

def takeOptions (e : Expansion) (rest : List Word) : Except Stop (List Setting × List Word) :=
  match complete e rest with
  | .error c => .error (.complaint c)
  | .ok (options, rest) => (options.mapM setting).map fun settings => (settings, rest)

theorem length_takeOptions_le {e : Expansion} {rest after : List Word} {settings : List Setting}
    (h : takeOptions e rest = .ok (settings, after)) : after.length ≤ rest.length := by
  unfold takeOptions at h
  split at h
  · cases h
  · next options rest' hc =>
      cases hm : options.mapM setting with
      | error e => simp [hm, Except.map] at h
      | ok s =>
          simp only [hm, Except.map, Except.ok.injEq, Prod.mk.injEq] at h
          exact h.2 ▸ length_complete_le hc

def expand (g : Grammar) : Role → Option (Except Complaint Expansion)
  | .long f value => some (expandLong f value)
  | .short f rest => some (g.expandShort f rest)
  | _ => none

/-- Reads the words one by one; the first argument is the operand. -/
def parseWords (g : Grammar) (p : Parsed) : List Word → Except Stop Parsed
  | [] => .ok p
  | w :: rest =>
    match g.expand w.role with
    | some (.error c) => .error (.complaint c)
    | some (.ok e) =>
      match h : takeOptions e rest with
      | .error stop => .error stop
      | .ok (settings, after) =>
        have := length_takeOptions_le h
        parseWords g (p.addSettings settings) after
    | none =>
      match w.role, p.operand, g.operand with
      | .argument, none, .command => .ok { p with operand := some (w.text :: rest.map Word.text) }
      | .separator, none, .command =>
        if rest.isEmpty then .ok (p.addExtras [w.text])
        else .ok { p with operand := some (w.text :: rest.map Word.text) }
      | .argument, none, _ =>
        have := (List.dropWhile_suffix (l := rest) fun w => w.role == .separator).length_le
        parseWords g { p with operand := some [w.text] } (rest.dropWhile fun w => w.role == .separator)
      | .separator, none, _ => parseWords g p rest
      | _, _, _ => parseWords g (p.addExtras [w.text]) rest
termination_by ws => ws.length
decreasing_by all_goals simp only [List.length_cons]; omega

def parse (g : Grammar) (ts : List Text) : Except Stop Parsed := do
  let ws ← (g.words ts).mapError .complaint
  let p ← g.parseWords {} ws
  match g.operand, p.operand with
  | .required name, none => .error (.complaint (.operandMissing name))
  | _, _ => return p

end Grammar

end CommandLine

end Synopsis
