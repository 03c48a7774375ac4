import Synopsis.Config
import Synopsis.Documented
import Synopsis.FileSystem

/-!
# Workspaces

Configurations and catalogues are kept in files. Loading one tells apart a file that cannot be read, text
that is not well formed, and data of another shape than expected.
-/

namespace Synopsis

namespace Workspace

/-- What cuts a run off: an option left blank, a path that cannot be followed, or a file that holds no text
or no values. -/
inductive Abort where
  | blankPath
  | blankLevel
  | undecodable
  | nullInPath
  | inaccessible (k : OsError.Kind)
  | breakdown (b : Yaml.Breakdown)
  deriving DecidableEq, Repr

inductive Failure (ε : Type) where
  | aborted (a : Abort)
  | failed (e : ε)
  deriving DecidableEq, Repr

namespace Failure

def map {ε δ : Type} (f : ε → δ) : Failure ε → Failure δ
  | .aborted a => .aborted a
  | .failed e => .failed (f e)

def ofAccess {ε : Type} (f : OsError → ε) : AccessError → Failure ε
  | .system e => .failed (f e)
  | .nullInPath => .aborted .nullInPath
  | .undecodable => .aborted .undecodable

end Failure

inductive ConfigError where
  | notFound (path : Path)
  | unreadable (e : OsError)
  | malformed (path : Path)
  | notMapping (path : Path)
  | invalid (path : Path) (faults : List Fault)
  | unwritable (path : Path) (e : OsError)
  deriving DecidableEq, Repr

inductive CatalogueError where
  | unreadable (path : Path) (e : OsError)
  | malformed (path : Path)
  | invalid (path : Path) (faults : List Fault)
  deriving DecidableEq, Repr

def faultCount (n : Nat) (title : String) : Text :=
  Text.ofNat n ++ " validation error".toList ++ (if n = 1 then [] else ['s']) ++ " for ".toList ++ title.toList

namespace ConfigError

def message : ConfigError → Text
  | .notFound path => "Workspace config file not found: ".toList ++ path.toText
  | .unreadable e => "Cannot read workspace config file: ".toList ++ e.message
  | .malformed path => "Invalid YAML in ".toList ++ path.toText
  | .notMapping path => path.toText ++ ": workspace config must be a YAML mapping".toList
  | .invalid path faults =>
    "Invalid workspace config ".toList ++ path.toText ++ ": ".toList ++
      faultCount faults.length "WorkspaceConfig"
  | .unwritable path e =>
    "Cannot write workspace config file '".toList ++ path.toText ++ "': ".toList ++ e.message

def faults : ConfigError → List Fault
  | .invalid _ faults => faults
  | _ => []

end ConfigError

namespace CatalogueError

def message : CatalogueError → Text
  | .unreadable path e => "Cannot read records file '".toList ++ path.toText ++ "': ".toList ++ e.message
  | .malformed path => "Invalid YAML in records file '".toList ++ path.toText ++ "'".toList
  | .invalid path faults =>
    "Invalid records file '".toList ++ path.toText ++ "': ".toList
      ++ faultCount faults.length "dict[str,dict[str,CommandRecord]]"

def faults : CatalogueError → List Fault
  | .invalid _ faults => faults
  | _ => []

end CatalogueError

def configOfText (path : Path) (t : Text) : Except (Failure ConfigError) Config :=
  match Config.ofYaml t with
  | .ok c => .ok c
  | .error (.yaml .malformed) => .error (.failed (.malformed path))
  | .error (.yaml (.breakdown b)) => .error (.aborted (.breakdown b))
  | .error .notMapping => .error (.failed (.notMapping path))
  | .error (.invalid faults) => .error (.failed (.invalid path faults))

def loadConfig (fs : FileSystem) (path : Path) : Except (Failure ConfigError) Config :=
  match fs.read path with
  | .ok t => configOfText path t
  | .error e => .error (.ofAccess (fun e => if e.kind = .notFound then .notFound path else .unreadable e) e)

def saveConfig (fs : FileSystem) (path : Path) (c : Config) : Except (Failure ConfigError) FileSystem :=
  (fs.write path (.text c.toYaml)).mapError (.ofAccess (.unwritable path))

/-- Reads the text of a catalogue; an empty file has no commands. -/
def catalogueOfText (path : Path) (t : Text) : Except (Failure CatalogueError) Catalogue :=
  match Yaml.read t with
  | .error .malformed => .error (.failed (.malformed path))
  | .error (.breakdown b) => .error (.aborted (.breakdown b))
  | .ok .null => .ok []
  | .ok v =>
    match Catalogue.read v with
    | .ok c => .ok c
    | .faulty faults => .error (.failed (.invalid path faults))

def loadCatalogue (fs : FileSystem) (path : Path) : Except (Failure CatalogueError) Catalogue :=
  match fs.read path with
  | .ok t => catalogueOfText path t
  | .error e => .error (.ofAccess (.unreadable path) e)

end Workspace

end Synopsis
