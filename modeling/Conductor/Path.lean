import Conductor.Text.Split

/-!
# Paths

Paths with slashes, treated as texts: joining, the directory part, the extension, and
the normal form without `.`, `..` and repeated slashes. Nothing here looks at files.
-/

set_option autoImplicit false

namespace Conductor.Path

def isAbsolute (p : String) : Bool := Text.startsWith p "/"

/-- One component put on a stack of components, the last first. Above the root there is nothing. -/
def pushComponent (rooted : Bool) (stack : List String) (c : String) : List String :=
  if c == "" || c == "." then stack
  else if c == ".." then
    match stack with
    | [] => if rooted then [] else [".."]
    | top :: rest => if top == ".." then ".." :: stack else rest
  else c :: stack

def normalize (p : String) : String :=
  if p.isEmpty then "." else
    let rooted := isAbsolute p
    let slashes := if !rooted then "" else
      if Text.startsWith p "//" && !Text.startsWith p "///" then "//" else "/"
    let stack := (Text.pieces "/" p).foldl (pushComponent rooted) []
    let joined := slashes ++ String.intercalate "/" stack.reverse
    if joined.isEmpty then "." else joined

def join (base p : String) : String :=
  if isAbsolute p || base.isEmpty then p
  else if Text.endsWith base "/" then base ++ p
  else base ++ "/" ++ p

def base (p : String) : String := ((Text.pieces "/" p).getLast?).getD p

def directory (p : String) : String :=
  let cs := p.toList
  let head := (cs.reverse.dropWhile (· != '/')).reverse
  if head.all (· == '/') then String.ofList head
  else String.ofList (Text.dropEndWhile (· == '/') head)

def extension (p : String) : String :=
  let name := (base p).toList
  let body := name.dropWhile (· == '.')
  if body.contains '.' then
    String.ofList ('.' :: (body.reverse.takeWhile (· != '.')).reverse)
  else ""

def expandHome (home p : String) : String :=
  match p.toList with
  | ['~'] => if (Text.dropEndWhile (· == '/') home.toList).isEmpty then "/" else
      String.ofList (Text.dropEndWhile (· == '/') home.toList)
  | '~' :: '/' :: rest => String.ofList (Text.dropEndWhile (· == '/') home.toList) ++ "/" ++ String.ofList rest
  | _ => p

/-- The place that a locator names: a file locator, a path under the home directory, an absolute path
or one relative to a base. -/
def resolve (home working : String) (base : Option String) (locator : String) : String :=
  let p := if Text.startsWith locator "file://" then Text.dropChars 7 locator else locator
  if Text.startsWith p "~" then expandHome home p
  else if isAbsolute p then normalize p
  else normalize (join (match base with | some "" | none => working | some b => b) p)

end Conductor.Path
