import Conductor.Files
import Conductor.Url

/-!
# Where a module is

A module is named by an identifier: a module of the host, an address on the web, a
name with a version in a registry, or a path. What an identifier means depends on
where it is written: relative ones are resolved against the place of the module
that asks.
-/

set_option autoImplicit false

namespace Conductor.Module

inductive Origin
  | file
  | url
  | host
  deriving DecidableEq, Repr

def Origin.name : Origin → String
  | file => "file"
  | url => "url"
  | host => "py"

/-- What a module is written in: as a script, or as a module of the host. -/
inductive Language
  | script
  | host
  deriving DecidableEq, Repr

def Language.name : Language → String
  | script => "script"
  | host => "python"

structure Location where
  origin : Origin
  text : String
  language : Language

def languageOf (text : String) : Language :=
  if Text.endsWith (Text.cutAt "?" text).1 ".py" then .host else .script

def isWeb (s : String) : Bool := Text.startsWith s "http://" || Text.startsWith s "https://"

def isVersionChar (c : Char) : Bool := Text.isWordChar c || c == '.' || c == '-'

def registryName? (identifier : String) : Option (String × String) :=
  let rest := if Text.startsWith identifier "registry:" then Text.dropChars 9 identifier else identifier
  match Text.cutAt "@" rest with
  | (name, some version) =>
    match name.toList with
    | c :: cs =>
      if (c.isAlphanum || c == '_') && cs.all (fun c => isVersionChar c || c == '/') &&
          !version.isEmpty && version.toList.all isVersionChar
      then some (name, version) else none
    | [] => none
  | _ => none

def defaultExtensions : List String := [".rexa", ".py"]

def located (origin : Origin) (text : String) : Location := { origin, text, language := languageOf text }

/-- The file that a path means: one without an extension may stand for one with. -/
def completePath (fs : Files) (path : String) : String :=
  if !(Path.extension path).isEmpty then path
  else match defaultExtensions.find? fun ext => fs.isFile (path ++ ext) with
    | some ext => path ++ ext
    | none => path

/-- Resolves an identifier that stands in a module whose base is given. -/
def locate (fs : Files) (registry : Option String) (identifier : String) (base : Option String) :
    Except Condition Location :=
  let ident := Text.strip identifier
  if ident.isEmpty then .error { cause := .emptyIdentifier identifier }
  else if Text.startsWith ident "py:" then .ok { origin := .host, text := ident, language := .host }
  else if isWeb ident then .ok (located .url ident)
  else match registryName? ident with
    | some (name, version) =>
      match registry with
      | some "" | none => .error { cause := .noRegistry ident identifier }
      | some template => .ok (located .url (Url.fill template [("name", name), ("version", version)]))
    | none =>
      let fromWeb := match base with
        | some b => isWeb b && !Text.startsWith ident "/" && !Text.startsWith ident "file://"
        | none => false
      if fromWeb then
        let b := base.getD ""
        .ok (located .url (Url.join (if Text.endsWith b "/" then b else b ++ "/") ident))
      else .ok (located .file (completePath fs (fs.resolve base ident)))

def parentOf (fs : Files) (l : Location) : String :=
  match l.origin with
  | .url => String.intercalate "/" (Text.pieces "/" l.text).dropLast ++ "/"
  | _ =>
    let d := Path.directory l.text
    if d.isEmpty then fs.working else d

end Conductor.Module
