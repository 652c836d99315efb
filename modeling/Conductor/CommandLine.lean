import Conductor.Run.Script

/-!
# The command line

With the name of a file the program runs that script, with the other words as its
arguments; without one it holds a conversation, a piece of program at a time. Both
are functions of the world, the words and the lines that are typed.
-/

set_option autoImplicit false

namespace Conductor

structure Console where
  stdout : String := ""
  stderr : String := ""
  exit : Nat := 0
  deriving DecidableEq, Repr, Inhabited

namespace Console

def say (c : Console) (s : String) : Console := { c with stdout := c.stdout ++ s }

def sayLine (c : Console) (s : String) : Console := c.say (s ++ "\n")

def complain (c : Console) (s : String) : Console := { c with stderr := c.stderr ++ s ++ "\n" }

end Console

namespace CommandLine

def runner (w : World) (sourceDir : String) : Except Problem Machine := do
  let config ← (Config.ofEnvironment w.files w.environ).mapError .failure
  let registry ← if config.registryUrl.holds then (config.registryUrl.asName.mapError .failure).map some else .ok none
  let s ← Session.ofConfig config none
  return { session := { s with sourceDir := some sourceDir }, world := { w with loader := { w.loader with registry } } }

def present (r : Report) (m : Machine) (c : Console) : Except Problem (Bool × Console) := do
  let c := r.stdout.foldl Console.sayLine c
  match r.verdict with
  | .error f => return (false, c.complain f.formatted)
  | .success .absent | .success (.text "") => return (true, c)
  | .success v =>
    let shown ← ((m.world.store.tree v).bind fun t => t.printed {} 0).mapError .failure
    return (true, c.sayLine shown)

/-- Where a conversation stands: the lines of a piece that is not complete yet, the latest first. -/
structure Talk where
  machine : Machine
  console : Console
  pending : List String := []

def runText (source : String) (args : List String) (m : Machine) (c : Console) :
    Except Problem (Bool × Machine × Console) := do
  let (r, m) := Play.attempt (Play.runScript source (args.map .text) false) m
  let (ok, c) ← present (← r) m c
  return (ok, m, c)

/-! ## A script -/

def parentOf (path : String) : String :=
  let d := Path.directory (Path.normalize path)
  if d.isEmpty then "." else d

def runFile (w : World) (path : String) (args : List String) : Except Problem (Machine × Console) := do
  let full := w.files.place path
  if !w.files.isFile full && !w.files.isDirectory full then
    return ({ world := w }, { ({} : Console).complain ("Error: file not found: " ++ path) with exit := 1 })
  if w.files.isDirectory full then .error (.failure (.system "IsADirectoryError" 21 "Is a directory" (Path.normalize path)))
  let source ← (w.files.readText none full).mapError .failure
  let m ← runner w (w.files.place (parentOf path))
  let (ok, m, c) ← runText source args m {}
  return (m, if ok then c else { c with exit := 1 })

/-! ## A conversation -/

def greeting : String := "Rexa REPL v0.1\nType 'exit' or press Ctrl+D to quit.\n"

def start (w : World) : Except Problem Talk := do
  let m ← runner w w.files.working
  return { machine := m, console := ({} : Console).say greeting }

def prompt (t : Talk) : Talk :=
  { t with console := t.console.say (if t.pending.isEmpty then ">> " else ".. ") }

def takeLine (t : Talk) (line : String) : Except Problem (Option Talk × Console) := do
  let fresh := t.pending.isEmpty
  if fresh && Text.lower (Text.strip line) == "exit" then return (none, t.console)
  if fresh && Text.allBlank line then return (some t, t.console)
  let pending := line :: t.pending
  let source := String.intercalate "\n" pending.reverse
  if ← (Syntax.needsMore source).mapError .failure then return (some { t with pending }, t.console)
  let (_, m, c) ← runText source [] t.machine t.console
  return (some { machine := m, console := c }, c)

def talk (t : Talk) : List String → Except Problem Console
  | [] => .ok ((prompt t).console.say "\nExiting.\n")
  | line :: rest => do
    match ← takeLine (prompt t) line with
    | (some t, _) => talk t rest
    | (none, c) => return c

/-- The lines of a text; what follows the last line end is a line if it is not empty. -/
def linesOf (input : String) : List String :=
  match (Text.pieces "\n" input).reverse with
  | "" :: rest => rest.reverse
  | lines => lines.reverse

def script? : List String → Option (String × List String)
  | [] => none
  | path :: args => if Text.startsWith path "-" then none else some (path, args)

def run (w : World) (words : List String) (input : String) : Except Problem Console :=
  match script? words with
  | some (path, args) => (runFile w path args).map Prod.snd
  | none => do talk (← start w) (linesOf input)

end CommandLine

end Conductor
