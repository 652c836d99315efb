import Conductor.CommandLine
import Std.Time.DateTime.Timestamp

/-!
# The program

Reads the words of the command line, the environment and the files that a run looks
for, and writes what the run wrote. A run is a function of the files it is given, so
a run that looks for a file which is on the disk begins again with that file; what a
run writes reaches the disk when it is over.
-/

set_option autoImplicit false

namespace Conductor

namespace Program

def knownNames : List String := ["REXA_CONFIG", "REXA_REGISTRY_URL", "REXA_REMOTE_URL", "REXA_DEBUG"]

def environment : IO (Table String String) := do
  let found ← knownNames.mapM fun name => do return (← IO.getEnv name).map fun v => (name, v)
  return found.filterMap id

def now : IO Moment := do
  let nanoseconds := (← Std.Time.Timestamp.now).toNanosecondsSinceUnixEpoch.val.toNat
  return .ofEpoch (nanoseconds / 1000000000) (nanoseconds / 1000 % 1000000)

def startWorld : IO World := do
  let working := toString (← IO.currentDir)
  let home := (← IO.getEnv "HOME").getD "/"
  return { files := { working, home }, environ := ← environment, now := ← now }

def contentOf (path : String) : IO (Option Content) := do
  try
    return some (.bytes (← IO.FS.readBinFile path).toList)
  catch _ => return none

/-- Puts files that are on the disk into the world; the answer says whether there were new ones. -/
def supply (w : World) (paths : List String) : IO (World × Bool) :=
  paths.foldlM (fun (w, fresh) path => do
    let p := w.files.place path
    if w.files.entries.contains p then return (w, fresh)
    match ← contentOf p with
    | some c => return ({ w with files := { w.files with entries := w.files.entries.put p c } }, true)
    | none => return (w, fresh)) (w, false)

/-- Makes the same run with more and more files, until it looks for none that it lacks. -/
partial def settle {α : Type} (run : World → Except Problem (Machine × α)) (w : World) :
    IO (World × Except Problem (Machine × α)) := do
  match run w with
  | .error p => return (w, .error p)
  | .ok (m, a) =>
    let (w, fresh) ← supply w m.world.sought
    if fresh then settle run w else return (w, .ok (m, a))

def store (before after : Files) : IO Unit :=
  after.entries.forM fun (path, c) => do
    match c, before.entries.get? path with
    | .bytes data, some (.bytes old) => if data != old then write path data
    | .bytes data, _ => write path data
    | .module _, _ => return ()
where
  write (path : String) (data : List UInt8) : IO Unit := do
    IO.FS.createDirAll (Path.directory path)
    IO.FS.writeBinFile path ⟨data.toArray⟩

def show_ (c : Console) : IO Unit := do
  IO.print c.stdout
  IO.eprint c.stderr
  (← IO.getStdout).flush

def complain (p : Problem) : IO UInt32 := do
  IO.eprintln (p.kindName ++ ": " ++ p.message)
  return 1

def runFile (w : World) (path : String) (args : List String) : IO UInt32 := do
  let (w, _) ← supply w (path :: w.environ.values)
  match ← settle (fun w => CommandLine.runFile w path args) w with
  | (_, .error p) => complain p
  | (w, .ok (m, c)) =>
    show_ c
    store w.files m.world.files
    return UInt32.ofNat c.exit

def answerLine (t : CommandLine.Talk) (line : String) (w : World) : Except Problem (Machine × Option CommandLine.Talk × Console) := do
  let (next, c) ← CommandLine.takeLine { t with machine := { t.machine with world := w } } line
  return ((next.map CommandLine.Talk.machine).getD { t.machine with world := w }, next, c)

partial def converse (t : CommandLine.Talk) : IO UInt32 := do
  let t := CommandLine.prompt { t with console := {} }
  show_ t.console
  let line ← (← IO.getStdin).getLine
  if line.isEmpty then
    IO.println "\nExiting."
    return 0
  let t := { t with console := {} }
  match ← settle (answerLine t (String.ofList (Text.dropEndWhile (· == '\n') line.toList))) t.machine.world with
  | (_, .error p) => complain p
  | (w, .ok (m, next, c)) =>
    show_ c
    store w.files m.world.files
    match next with
    | some t => converse t
    | none => return 0

def talk (w : World) : IO UInt32 := do
  let (w, _) ← supply w w.environ.values
  match CommandLine.start w with
  | .error p => complain p
  | .ok t =>
    show_ t.console
    converse t

end Program

end Conductor

def main (words : List String) : IO UInt32 := do
  let w ← Conductor.Program.startWorld
  match Conductor.CommandLine.script? words with
  | some (path, args) => Conductor.Program.runFile w path args
  | none => Conductor.Program.talk w
