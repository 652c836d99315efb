import Conductor.Table
import Conductor.Text.Case
import Conductor.Text.Split

/-!
# Addresses on the web

An address cut into its parts and put together again, a reference resolved against
a base address, templates with names in double braces, and the encoding of query
parameters.
-/

set_option autoImplicit false

namespace Conductor

structure Url where
  scheme : String := ""
  authority : Option String := none
  path : String := ""
  query : Option String := none
  fragment : Option String := none

namespace Url

def isSchemeChar (c : Char) : Bool := c.isAlphanum || c == '+' || c == '-' || c == '.'

def takeScheme (s : String) : String × String :=
  match Text.cutAt ":" s with
  | (head, some rest) =>
    match head.toList with
    | c :: cs => if c.isAlpha && cs.all isSchemeChar then (Text.lower head, rest) else ("", s)
    | [] => ("", s)
  | _ => ("", s)

def parse (s : String) : Url :=
  let (scheme, rest) := takeScheme s
  let (authority, rest) :=
    if Text.startsWith rest "//" then
      let body := (rest.toList.drop 2)
      let isEnd (c : Char) : Bool := c == '/' || c == '?' || c == '#'
      (some (String.ofList (body.takeWhile (!isEnd ·))), String.ofList (body.dropWhile (!isEnd ·)))
    else (none, rest)
  let (rest, fragment) := Text.cutAt "#" rest
  let (path, query) := Text.cutAt "?" rest
  { scheme, authority, path, query, fragment }

def mark (sign : String) : Option String → String
  | some "" | none => ""
  | some s => sign ++ s

def text (u : Url) : String :=
  let authority := match u.authority with
    | some "" | none => ""
    | some a => a
  let head := if authority.isEmpty then u.path
    else "//" ++ authority ++ (if u.path.isEmpty || Text.startsWith u.path "/" then u.path else "/" ++ u.path)
  (if u.scheme.isEmpty then "" else u.scheme ++ ":") ++ head ++ mark "?" u.query ++ mark "#" u.fragment

def climb (segments : List String) : List String :=
  let stack := segments.foldl (fun stack seg =>
    if seg == ".." then stack.drop 1 else if seg == "." then stack else seg :: stack) []
  let stack := match segments.getLast? with
    | some "." | some ".." => "" :: stack
    | _ => stack
  stack.reverse

def dropInnerEmpty : List String → List String
  | [] => []
  | [a] => [a]
  | a :: rest => a :: (rest.dropLast.filter (!·.isEmpty)) ++ [rest.getLastD ""]

def joinPath (base path : String) : String :=
  let parts := Text.pieces "/" base
  let parts := if parts.getLast? == some "" then parts else parts.dropLast
  let segments := if Text.startsWith path "/" then Text.pieces "/" path
    else dropInnerEmpty (parts ++ Text.pieces "/" path)
  let joined := String.intercalate "/" (climb segments)
  if joined.isEmpty then "/" else joined

def join (base reference : String) : String :=
  if base.isEmpty then reference
  else if reference.isEmpty then base
  else
    let b := parse base
    let (scheme, _) := takeScheme reference
    if scheme != "" && scheme != b.scheme then reference
    else
      let u := parse reference
      let u := { u with scheme := b.scheme }
      match u.authority with
      | some (a : String) => if a.isEmpty then within b u else u.text
      | none => within b u
where
  within (b u : Url) : String :=
    let u := { u with authority := b.authority }
    if u.path.isEmpty then
      ({ u with path := b.path, query := u.query <|> b.query }).text
    else ({ u with path := joinPath b.path u.path }).text

/-! ## Templates -/

/-- What a tag stands for: its name may be marked as not to be escaped; a comment stands for nothing. -/
def tagText (values : Table String String) (tag : List Char) : String :=
  let tag := Text.stripWhile Text.isBlank tag
  let name := match tag with
    | '&' :: rest => Text.stripWhile Text.isBlank rest
    | '\x7b' :: rest => Text.stripWhile Text.isBlank rest
    | cs => cs
  (values.get? (String.ofList name)).getD ""

def fillFrom (values : Table String String) : Nat → List Char → List Char
  | 0, cs => cs
  | fuel + 1, cs =>
    match Text.findSplit ['\x7b', '\x7b'] cs with
    | none => cs
    | some (before, rest) =>
      let stop := match rest with
        | '\x7b' :: _ => ['\x7d', '\x7d', '\x7d']
        | _ => ['\x7d', '\x7d']
      match Text.findSplit stop rest with
      | none => cs
      | some (tag, after) => before ++ (tagText values tag).toList ++ fillFrom values fuel after

def fill (template : String) (values : Table String String) : String :=
  String.ofList (fillFrom values (template.length + 1) template.toList)

/-! ## Query parameters -/

def isUnreserved (b : UInt8) : Bool :=
  let c := Char.ofNat b.toNat
  b.toNat < 128 && (c.isAlphanum || c == '-' || c == '_' || c == '.' || c == '~')

def hexPair (n : Nat) : String :=
  let digit (k : Nat) : Char := if k < 10 then Char.ofNat (48 + k) else Char.ofNat (55 + k)
  String.ofList [digit (n / 16), digit (n % 16)]

def encodePart (s : String) : String :=
  String.join (s.toUTF8.toList.map fun b =>
    if isUnreserved b then String.singleton (Char.ofNat b.toNat)
    else if b == 32 then "+"
    else "%" ++ hexPair b.toNat)

def withParams (address : String) (params : List (String × String)) : String :=
  if params.isEmpty then address
  else
    let query := String.intercalate "&" (params.map fun e => encodePart e.1 ++ "=" ++ encodePart e.2)
    address ++ (if address.toList.contains '?' then "&" else "?") ++ query

end Url

end Conductor
