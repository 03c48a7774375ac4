import Synopsis.Text.Codes

/-!
# Tokens of a YAML file

The tokens make the layout of a file explicit: where collections that are laid out by indentation begin
and end, and which nodes are keys.
-/

namespace Synopsis

namespace Yaml

inductive Directive where
  | version (major minor : Nat)
  | tag (handle lead : Text)
  | unknown
  deriving DecidableEq, Repr

inductive Token where
  | directive (d : Directive)
  | documentStart
  | documentEnd
  | streamEnd
  | blockSequenceStart
  | blockMappingStart
  | blockEnd
  | flowSequenceStart
  | flowSequenceEnd
  | flowMappingStart
  | flowMappingEnd
  | flowEntry
  | blockEntry
  | key
  | value
  | alias (name : Text)
  | anchor (name : Text)
  | tag (handle : Option Text) (suffix : Text)
  | scalar (plain : Bool) (t : Codes)
  deriving DecidableEq, Repr

end Yaml

end Synopsis
