import Synopsis.CommandLine.Run

/-!
# The program

The outer layer: it takes the places that a request may touch into a file system, runs the request on it,
writes the files that changed, and prints the output.
-/

namespace Synopsis

namespace Main

def placeText (place : List Text) : String :=
  String.ofList ('/' :: ['/'].intercalate place)

def entryAt (place : List Text) : IO (Option Entry) := do
  let path := (← IO.currentDir) / placeText place
  if ← path.isDir then return some .directory
  if ← path.pathExists then return some (.file (.ofBytes (← IO.FS.readBinFile path).toList))
  return none

/-- Adds what the disk holds along a path, from a directory on. -/
def addAlong (fs : FileSystem) (here : List Text) : List Text → IO FileSystem
  | [] => return fs
  | part :: rest => do
    let place := Path.step here part
    match ← entryAt place with
    | some e => addAlong (fs.put place e) place rest
    | none => return fs

def addPath (fs : FileSystem) (p : Path) : IO FileSystem :=
  addAlong fs (if p.root.isEmpty then fs.cwd else []) p.parts

def save (before after : FileSystem) : IO Unit := do
  for (place, e) in after.entries do
    match e with
    | .file (.text t) =>
      if before.find? place != some e then
        IO.FS.writeFile ((← IO.currentDir) / placeText place) (String.ofList t)
    | _ => pure ()

def printLines (out : IO.FS.Stream) (ls : List Text) : IO Unit := do
  out.putStr (String.ofList (CommandLine.unlines ls))
  out.flush

end Main

end Synopsis

open Synopsis in
def main (arguments : List String) : IO UInt32 := do
  let cwd := (Path.ofText (← IO.currentDir).toString.toList).parts
  let request := CommandLine.Request.ofWords (arguments.map String.toList)
  let here ← Main.addAlong ⟨cwd, []⟩ [] cwd
  let before ← (request.paths here).foldlM Main.addPath here
  let outcome := request.run before
  Main.save before outcome.files
  Main.printLines (← IO.getStdout) outcome.output
  Main.printLines (← IO.getStderr) outcome.errors
  match outcome.exit with
  | .code n => return n.toUInt32
  | .aborted _ => return 1
