import Synopsis.Bytes
import Synopsis.Text.Quoted

/-!
# File systems

A file system is a value: the directory one works in, and the directories and files with their places. A
path is kept in normal form, without empty parts and single dots. There are no links and no permissions.
Reading and writing a file either succeed or leave everything as it was.
-/

namespace Synopsis

/-- A path by its parts; the root is empty for a path that starts from the working directory. -/
structure Path where
  root : Text
  parts : List Text
  deriving DecidableEq, Repr

namespace Path

/-- Two slashes at the start are kept apart from one. -/
def rootOf : Text → Text
  | '/' :: '/' :: '/' :: _ => ['/']
  | '/' :: '/' :: _ => ['/', '/']
  | '/' :: _ => ['/']
  | _ => []

def ofText (t : Text) : Path :=
  ⟨rootOf t, (Text.cutAt '/' t).filter fun p => !(p == [] || p == ['.'])⟩

def toText (p : Path) : Text :=
  if p.root = [] ∧ p.parts = [] then ['.'] else p.root ++ ['/'].intercalate p.parts

/-- A null character ends the name of a file, so that no path may hold one. -/
def hasNull (p : Path) : Bool :=
  p.parts.any fun part => part.contains '\x00'

def join (p : Path) (name : Text) : Path :=
  { p with parts := p.parts ++ [name] }

def directory (p : Path) : Path :=
  { p with parts := p.parts.dropLast }

def parent : Text := ['.', '.']

def step (here : List Text) (part : Text) : List Text :=
  if part = parent then here.dropLast else here ++ [part]

def resolve (cwd : List Text) (p : Path) : Path :=
  ⟨['/'], p.parts.foldl step (if p.root = [] then cwd else [])⟩

@[simp] theorem ofText_dot : ofText ['.'] = ⟨[], []⟩ := by decide

end Path

/-- What a file holds: text, or bytes that are none. -/
inductive Content where
  | text (t : Text)
  | bytes (bs : Bytes)
  deriving DecidableEq, Repr

namespace Content

def ofBytes (bs : Bytes) : Content :=
  match bs.toText? with
  | some t => .text t
  | none => .bytes bs

end Content

inductive Entry where
  | directory
  | file (content : Content)
  deriving DecidableEq, Repr

inductive OsError.Kind where
  | notFound
  | notDirectory
  | isDirectory
  | nameTooLong
  deriving DecidableEq, Repr

/-- Why an access failed, with the path as it was given. -/
structure OsError where
  kind : OsError.Kind
  path : Path
  deriving DecidableEq, Repr

namespace OsError

def Kind.message : Kind → Text
  | .notFound => "[Errno 2] No such file or directory".toList
  | .notDirectory => "[Errno 20] Not a directory".toList
  | .isDirectory => "[Errno 21] Is a directory".toList
  | .nameTooLong => "[Errno 36] File name too long".toList

def message (e : OsError) : Text :=
  e.kind.message ++ ':' :: ' ' :: Text.quoted e.path.toText

end OsError

/-- Why a file cannot be read or written: the system refuses, its path holds a null character, or what it
holds is no text. -/
inductive AccessError where
  | system (e : OsError)
  | nullInPath
  | undecodable
  deriving DecidableEq, Repr

/-- Places are absolute lists of parts; the root is always there. -/
structure FileSystem where
  cwd : List Text
  entries : List (List Text × Entry)
  deriving DecidableEq, Repr

namespace FileSystem

def fresh (cwd : List Text) : FileSystem :=
  ⟨cwd, [(cwd, .directory)]⟩

def find? (fs : FileSystem) (place : List Text) : Option Entry :=
  if place = [] then some .directory else (fs.entries.find? fun e => e.1 == place).map Prod.snd

/-- How many bytes a part of a path may have in UTF-8. -/
def maxPartSize : Nat := 255

def maxPathSize : Nat := 4095

def sizeOf (t : Text) : Nat :=
  t.foldr (fun c size => c.utf8Size + size) 0

/-- Goes down the parts; each one but the last must be a directory. -/
def walk (fs : FileSystem) (place : List Text) : List Text → Except OsError.Kind (List Text)
  | [] => .ok place
  | part :: rest =>
    match fs.find? place with
    | some .directory =>
      if maxPartSize < sizeOf part then .error .nameTooLong else walk fs (Path.step place part) rest
    | some (.file _) => .error .notDirectory
    | none => .error .notFound

def place (fs : FileSystem) (p : Path) : Except OsError.Kind (List Text) :=
  if maxPathSize < sizeOf p.toText then .error .nameTooLong
  else fs.walk (if p.root = [] then fs.cwd else []) p.parts

def exists? (fs : FileSystem) (p : Path) : Except OsError.Kind Bool :=
  if p.hasNull then .ok false
  else match fs.place p with
    | .ok place => .ok (fs.find? place).isSome
    | .error .nameTooLong => .error .nameTooLong
    | .error _ => .ok false

def put (fs : FileSystem) (place : List Text) (e : Entry) : FileSystem :=
  { fs with entries := (place, e) :: fs.entries.filter fun x => x.1 != place }

theorem find?_put_self (fs : FileSystem) {place : List Text} (h : place ≠ []) (e : Entry) :
    (fs.put place e).find? place = some e := by
  simp [put, find?, h]

theorem find?_put_of_ne (fs : FileSystem) {place other : List Text} (h : other ≠ place) (e : Entry) :
    (fs.put place e).find? other = fs.find? other := by
  have hfind : (fs.entries.filter fun x => x.1 != place).find? (fun x => x.1 == other)
      = fs.entries.find? fun x => x.1 == other := by
    rw [List.find?_filter]
    congr 1
    funext x
    by_cases hx : x.1 = other <;> simp [hx, h]
  unfold find? put
  rw [List.find?_cons_of_neg (by simpa using Ne.symm h), hfind]

def unifyBreaks : Text → Text
  | '\r' :: '\n' :: rest => '\n' :: unifyBreaks rest
  | '\r' :: rest => '\n' :: unifyBreaks rest
  | c :: rest => c :: unifyBreaks rest
  | [] => []

def read (fs : FileSystem) (p : Path) : Except AccessError Text :=
  if p.hasNull then .error .nullInPath
  else match fs.place p with
    | .error k => .error (.system ⟨k, p⟩)
    | .ok place =>
      match fs.find? place with
      | none => .error (.system ⟨.notFound, p⟩)
      | some .directory => .error (.system ⟨.isDirectory, p⟩)
      | some (.file (.text t)) => .ok (unifyBreaks t)
      | some (.file (.bytes _)) => .error .undecodable

def write (fs : FileSystem) (p : Path) (c : Content) : Except AccessError FileSystem :=
  if p.hasNull then .error .nullInPath
  else match fs.place p with
    | .error k => .error (.system ⟨k, p⟩)
    | .ok place =>
      match fs.find? place with
      | some .directory => .error (.system ⟨.isDirectory, p⟩)
      | _ => .ok (fs.put place (.file c))

/-- Makes the directories down the parts that are not there; a file on the way stops it. -/
def makeAlong (fs : FileSystem) (place : List Text) : List Text → FileSystem
  | [] => fs
  | part :: rest =>
    let next := Path.step place part
    match fs.find? next with
    | some .directory => makeAlong fs next rest
    | some (.file _) => fs
    | none => makeAlong (fs.put next .directory) next rest

def makeDirectory (fs : FileSystem) (p : Path) : FileSystem :=
  fs.makeAlong (if p.root = [] then fs.cwd else []) p.parts

def remove (fs : FileSystem) (p : Path) : FileSystem :=
  match fs.place p with
  | .ok place => { fs with entries := fs.entries.filter fun x => !place.isPrefixOf x.1 }
  | .error _ => fs

end FileSystem

end Synopsis
