import Conductor.Document.Structured
import Conductor.Function.Entry

/-!
# Files

The files that programs read and write, and the modules of the host that stand
beside them. A directory is there when it was made or holds something. Reading a
text decodes it strictly and brings every line ending to one form.
-/

set_option autoImplicit false

namespace Conductor

/-- A module of the host: its functions, the names it gives them if it lists its exports, the modules
it asks for, what it says of its functions, and what it raises when it is loaded. -/
structure HostModule where
  functions : List (String × HostFunction) := []
  listed : Option (List (String × String)) := none
  requires : Option Tree := none
  dependencies : Option Tree := none
  metadata : List (String × Tree) := []
  raises : Option Raise := none

inductive Content
  | bytes (data : List UInt8)
  | module (m : HostModule)

structure Files where
  entries : Table String Content := []
  directories : List String := []
  home : String := "/"
  working : String := "/"

namespace Files

def parents : Nat → String → List String
  | 0, _ => []
  | fuel + 1, p =>
    let d := Path.directory p
    if d == p || d.isEmpty then [] else d :: parents fuel d

def place (fs : Files) (path : String) : String := Path.normalize (Path.join fs.working path)

def content? (fs : Files) (path : String) : Option Content := fs.entries.get? (fs.place path)

def isFile (fs : Files) (path : String) : Bool := (fs.content? path).isSome

def isDirectory (fs : Files) (path : String) : Bool :=
  let p := fs.place path
  let above (s : String) : Bool := Text.startsWith s (p ++ "/")
  p == "/" || p == fs.working || (parents fs.working.length fs.working).contains p ||
    fs.directories.any (fun d => d == p || above d) || fs.entries.any fun e => above e.1

def resolve (fs : Files) (base : Option String) (locator : String) : String :=
  Path.resolve fs.home fs.working base locator

def unifyLines : List Char → List Char
  | '\r' :: '\n' :: rest => '\n' :: unifyLines rest
  | '\r' :: rest => '\n' :: unifyLines rest
  | c :: rest => c :: unifyLines rest
  | [] => []

def textOf (data : List UInt8) : Except Failure String :=
  match Charset.utf8Fault? data with
  | some what => .error (.undecodable what)
  | none => .ok (String.ofList (unifyLines (Charset.utf8 data).toList))

def readText (fs : Files) (base : Option String) (locator : String) : Except Failure String :=
  let path := fs.resolve base locator
  match fs.content? path with
  | some (.bytes data) => textOf data
  | some (.module _) => .ok ""
  | none => .error (.noSuchFile path)

def list (fs : Files) (path : String) : List String :=
  let start := if fs.place path == "/" then "/" else fs.place path ++ "/"
  Text.sorted (fs.entries.filterMap fun e =>
    if Text.startsWith e.1 start then
      let rest := Text.dropChars start.length e.1
      if rest.toList.contains '/' then none else some rest
    else none)

/-- What a program reads: the data of a file, or the names in a directory. -/
def read (fs : Files) (base : Option String) (locator : String) : Except Failure Tree :=
  let path := fs.resolve base locator
  if fs.isDirectory path then .ok (.list ((fs.list path).map .text))
  else do
    let text ← fs.readText none path
    match Structured.formatForPath path with
    | some f => Structured.decode text "" (some f)
    | none => .ok (.text text)

def belowFile? (fs : Files) (path : String) : Option String :=
  let above := parents path.length path
  (((path :: above).zip above).find? fun e => fs.isFile e.2).map Prod.fst

def makeDirectory (fs : Files) (path : String) : Except Failure Files :=
  if fs.isDirectory path then .ok fs
  else if fs.isFile path then .error (.system "FileExistsError" 17 "File exists" path)
  else match fs.belowFile? path with
    | some p => .error (.system "NotADirectoryError" 20 "Not a directory" p)
    | none => .ok { fs with directories := fs.directories ++ [fs.place path] }

def put (fs : Files) (path : String) (text : String) : Except Failure Files :=
  if fs.isDirectory path then .error (.system "IsADirectoryError" 21 "Is a directory" path)
  else .ok { fs with entries := fs.entries.put (fs.place path) (.bytes text.toUTF8.toList) }

/-- Writes data to the file that a locator names, in the format of its name; the directory is made first. -/
def write (fs : Files) (base : Option String) (locator : String) (data : Tree) : Except Failure String × Files :=
  let path := fs.resolve base locator
  let parent := Path.directory path
  match (if parent.isEmpty then .ok fs else fs.makeDirectory parent) with
  | .error e => (.error e, fs)
  | .ok fs =>
    let text := match Structured.formatForPath path with
      | some f => do Structured.write (← data.plain) true f
      | none => data.shown
    match text with
    | .error e => (.error e, fs)
    | .ok text =>
      match fs.put path text with
      | .ok fs => (.ok path, fs)
      | .error e => (.error e, fs)

end Files

end Conductor
