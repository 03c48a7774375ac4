import Synopsis.Check
import Synopsis.Value.Json
import Synopsis.Variant.Schema

/-!
# Reports as text

A clean command takes one line. A command with issues is shown with its variants, its table and what was
found for each variant, and a rule of dashes ends it. A line may itself hold line breaks, as the data do.
-/

namespace Synopsis

namespace Report

def rule : Text := List.replicate 60 '-'

def levelTag (l : Level) : Text :=
  'L' :: Text.ofNat l.number

def issueLine (i : Issue) : Text :=
  "   - [".toList ++ levelTag i.level ++ "] ".toList ++ i.wording

def issueLines (issues : List Issue) : List Text :=
  if issues.isEmpty then [] else "Syntax malformation detected:".toList :: issues.map issueLine

def mismatchLine (m : Mismatch) : Text :=
  "   - ".toList ++ m.name ++ ": syntax declares '".toList ++ m.declared ++ "' but params declare '".toList
    ++ m.documented ++ "'".toList

def mismatchLines (title : Text) (mismatches : List Mismatch) : List Text :=
  if mismatches.isEmpty then [] else title :: mismatches.map mismatchLine

def extraLines (extra : List Text) : List Text :=
  if extra.isEmpty then [] else ["Extra/Invalid parameters: ".toList ++ [',', ' '].intercalate extra]

def comparisonLines (c : Comparison) : List Text :=
  extraLines c.extra ++ mismatchLines "Type mismatches:".toList c.types
    ++ mismatchLines "Return type mismatches:".toList c.returns

def quotedList (items : List Text) : Text :=
  Text.bracketed (items.map Text.quoted)

def heading (index : Nat) : List Text :=
  [[], "Variant ".toList ++ Text.ofNat (index + 1) ++ " analysis:".toList]

def findingLines (index : Nat) (f : Finding) : List Text :=
  heading index
    ++ ["Parsed parameter names: ".toList
      ++ quotedList (f.variant.parameters.map fun p => Text.lowercase p.name)]
    ++ issueLines f.issues
    ++ (match f.comparison with
      | some c => comparisonLines c
      | none => [])
    ++ (if f.hasIssues then [] else ["All parsed parameters are valid!".toList])

/-- Without a table, only variants with issues are shown. -/
def bareFindingLines (index : Nat) (f : Finding) : List Text :=
  if f.issues.isEmpty then [] else heading index ++ issueLines f.issues

def numbered (render : Nat → Finding → List Text) (findings : List Finding) : List Text :=
  findings.zipIdx.flatMap fun p => render p.2 p.1

def variantsJson (r : Report) : Text :=
  Value.toJson .raw (.list (r.findings.map fun f => f.variant.toValue))

def rowsJson (r : Report) : Text :=
  Value.toJson .ascii (.list (r.rows.map Row.dump))

def details (r : Report) : List Text :=
  if r.rows.isEmpty then
    [[], "No Params field found for this command".toList] ++ numbered bareFindingLines r.findings
  else
    [[], "Actual Params: ".toList ++ r.rowsJson,
      "Expected parameter names: ".toList ++ quotedList r.documentedNames]
      ++ numbered findingLines r.findings

def render (r : Report) : List Text :=
  if r.hasIssues then
    ["Command: ".toList ++ r.name, "Syntax: ".toList ++ r.notationText,
      "Parsed variants: ".toList ++ r.variantsJson]
      ++ r.details ++ [rule]
  else ["Command: ".toList ++ r.name ++ " - Syntax: ".toList ++ r.notationText]

end Report

end Synopsis
