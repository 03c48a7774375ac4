import Synopsis.Reading
import Synopsis.Variant

/-!
# Variants as data

A variant is written as a record without its absent fields, and an issue with its level and message
added; an issue without a message cannot be written. Reading takes the id of an issue to tell which kind
it is, and ignores what it does not know.
-/

namespace Synopsis

open Reading

namespace Issue

/-- The field of an issue that its kind alone does not give. -/
def ownField : Issue → List (String × Value)
  | .unclosedOptionalBlock missing => [("missing", .int missing)]
  | .nonIdentifierName name | .reservedName name | .untypedParameter name => [("name", .text name)]
  | .invalidType typeName => [("type_name", .text typeName)]
  | _ => []

/-- An issue with its level and a message behind what it holds itself. -/
def recordWith (i : Issue) (message : Text) : Value :=
  .record ([("id", .text i.kind.id)] ++ i.ownField ++
    [("level", .int i.level.number), ("message", .text message)])

def toValue (i : Issue) : Value :=
  i.recordWith i.wording

def dump? (i : Issue) : Option Value :=
  i.message?.map i.recordWith

/-- Reads the fields that an issue of kind `k` has. -/
def readAs (entries : Entries) : Kind → Reading Issue
  | .missingClosingParenthesis => .ok .missingClosingParenthesis
  | .unclosedOptionalBlock => .unclosedOptionalBlock <$> required entries "missing" whole
  | .extraClosingBrace => .ok .extraClosingBrace
  | .doubleSemicolon => .ok .doubleSemicolon
  | .leadingSemicolon => .ok .leadingSemicolon
  | .unexpectedColon => .ok .unexpectedColon
  | .doubleColon => .ok .doubleColon
  | .semicolonAfterColon => .ok .semicolonAfterColon
  | .braceAfterColon => .ok .braceAfterColon
  | .nonIdentifierName => .nonIdentifierName <$> required entries "name" text
  | .reservedName => .reservedName <$> required entries "name" text
  | .emptyType => .ok .emptyType
  | .invalidType => .invalidType <$> required entries "type_name" text
  | .untypedParameter => .untypedParameter <$> required entries "name" text

def read : Value → Reading Issue
  | .object entries =>
    match Value.field? entries "id".toList with
    | none => fault .tagMissing
    | some (.text code) =>
      match Kind.ofId? code with
      | some k => under (.name code) (readAs entries k)
      | none => fault .tagUnknown
    | some _ => fault .tagUnknown
  | _ => fault .notTagged

end Issue

namespace Parameter

def dump (p : Parameter) : Value :=
  .record [("name", .text p.name), ("type", .text p.type), ("optional", .bool p.optional),
    ("spread", .bool p.spread)]

def read : Value → Reading Parameter :=
  record fun entries =>
    mk <$> required entries "name" text <*> defaulted entries "type" unknownType text
      <*> defaulted entries "optional" false truth <*> defaulted entries "spread" false truth

theorem read_dump (p : Parameter) : read p.dump = .ok p := by
  simp [read, dump, record, Value.record, required, defaulted, Value.field?_cons, text, truth]

end Parameter

/-- A field that is written only if there is something in it. -/
def presentField (name : String) : Option Value → List (String × Value)
  | some v => [(name, v)]
  | none => []

namespace ReturnType

def dump (r : ReturnType) : Value :=
  .record (presentField "name" (r.name.map .text) ++ presentField "type" (r.type.map .text))

def read : Value → Reading ReturnType :=
  record fun entries =>
    mk <$> defaulted entries "name" none (nullable text) <*> defaulted entries "type" none (nullable text)

theorem read_dump (r : ReturnType) : read r.dump = .ok r := by
  rcases r with ⟨_ | name, _ | type⟩ <;>
    simp [read, dump, record, presentField, Value.record, defaulted, Value.field?_cons, nullable, text]

end ReturnType

namespace Variant

/-- A variant with what is written of its issues. -/
def recordWith (v : Variant) (issues : Option (List Value)) : Value :=
  .record ([("source_text", .text v.sourceText), ("parameters", .list (v.parameters.map Parameter.dump))]
    ++ presentField "return_type" (v.returnType.map ReturnType.dump)
    ++ presentField "malformation" (issues.map .list))

/-- A variant as data, each issue with its words. That is what is written of a variant read from a text, in
which stand all the braces that its issues count. -/
def toValue (v : Variant) : Value :=
  v.recordWith (v.malformation.map fun issues => issues.map Issue.toValue)

def dump? (v : Variant) : Option Value :=
  (v.malformation.mapM (List.mapM Issue.dump?)).map v.recordWith

def read : Value → Reading Variant :=
  record fun entries =>
    mk <$> required entries "source_text" text <*> defaulted entries "parameters" [] (list Parameter.read)
      <*> defaulted entries "return_type" none (nullable ReturnType.read)
      <*> defaulted entries "malformation" none (nullable (list Issue.read))

end Variant

end Synopsis
