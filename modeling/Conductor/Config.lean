import Conductor.Files
import Conductor.Tree.Coerce

/-!
# Settings

The settings of a runner, from plain data, from a file in the outline format, or
from environment variables. Names may be written with hyphens. A name that is not
known is refused before anything else is looked at; the values that a runner
computes with are checked in a fixed order.
-/

set_option autoImplicit false

namespace Conductor

structure Config where
  defaultDomain : Tree := .text "DEFAULT"
  registryUrl : Tree := .absent
  remoteUrl : Tree := .absent
  autoload : Table String String := []
  fallbackOrder : List String := ["capability", "remote"]
  dispatchTimeout : Option Float := none
  interpolationPattern : Tree := .text "handlebars"
  yieldInterval : Int := 64
  debug : Tree := .bool false

namespace Config

def names : List String :=
  ["default_domain", "registry_url", "remote_url", "autoload", "fallback_order", "dispatch_timeout",
    "interpolation_pattern", "yield_interval", "debug"]

/-- Names between parentheses, each in quotes; a single one is followed by a comma. -/
def tupleText : List String → String
  | [name] => "(" ++ Text.quoted name ++ ",)"
  | names => "(" ++ String.intercalate ", " (names.map Text.quoted) ++ ")"

def checkOrder (order : List String) : Except Failure Unit :=
  if order == ["capability", "remote"] || order == ["remote", "capability"] then .ok ()
  else .error (.fallbackOrder (tupleText order))

def orderOf : Option Tree → Except Failure (List String)
  | none => .ok ["capability", "remote"]
  | some t => do
    let order ← traverse (fun e => do return Text.lower (← e.asName)) (← t.elements)
    checkOrder order
    return order

def autoloadOf : Option Tree → Except Failure (Table String String)
  | none => .ok []
  | some t =>
    if !t.holds then .ok []
    else match t with
      | .dict entries => do
        return Table.ofEntries (← traverse (fun e => do return (Text.upper (← e.1.asName), ← e.2.asName)) entries)
      | t => .error (.raised "AttributeError" ("'" ++ t.kindName ++ "' object has no attribute 'items'"))

def ofSettings (t : Table String Tree) : Except Failure Config := do
  let unknown := Text.sorted (t.keys.filter fun k => !names.contains k)
  if !unknown.isEmpty then .error (.unknownSettings unknown)
  let fallbackOrder ← orderOf (t.get? "fallback_order")
  let autoload ← autoloadOf (t.get? "autoload")
  let dispatchTimeout ← match t.get? "dispatch_timeout" with
    | none | some .absent => .ok none
    | some v => v.asFloat.map some
  let yieldInterval ← ((t.get? "yield_interval").getD (.int 64)).asInteger
  return {
    defaultDomain := (t.get? "default_domain").getD (.text "DEFAULT")
    registryUrl := (t.get? "registry_url").getD .absent
    remoteUrl := (t.get? "remote_url").getD .absent
    autoload, fallbackOrder, dispatchTimeout, yieldInterval
    interpolationPattern := (t.get? "interpolation_pattern").getD (.text "handlebars")
    debug := (t.get? "debug").getD (.bool false) }

def ofTree (t : Tree) : Except Failure Config := do
  let entries ← if t.holds then t.pairs else .ok []
  let settings ← traverse (fun e => do return (Text.replaceAll "-" "_" (← e.1.asName), e.2)) entries
  ofSettings (Table.ofEntries settings)

def ofFile (fs : Files) (path : String) : Except Failure Config := do
  let text ← match fs.content? path with
    | some (.bytes data) => Files.textOf data
    | some (.module _) => .ok ""
    | none =>
      if fs.isDirectory path then .error (.system "IsADirectoryError" 21 "Is a directory" path)
      else .error (.system "FileNotFoundError" 2 "No such file or directory" path)
  let data ← Yaml.parse text
  if !data.holds then ofTree (.dict [])
  else match data with
    | .dict entries => ofTree (.dict entries)
    | _ => .error (.settingsNotMapping path)

def isOn (word : String) : Bool := ["1", "true", "yes", "on"].contains (Text.lower (Text.strip word))

/-- Settings from environment variables, some of which override the file that one of them names. -/
def ofEnvironment (fs : Files) (environ : Table String String) : Except Failure Config := do
  let given (k : String) : Option String := match environ.get? k with
    | some "" | none => none
    | v => v
  let config ← match given "REXA_CONFIG" with
    | some path => ofFile fs path
    | none => .ok {}
  let config := match given "REXA_REGISTRY_URL" with
    | some url => { config with registryUrl := .text url }
    | none => config
  let config := match given "REXA_REMOTE_URL" with
    | some url => { config with remoteUrl := .text url }
    | none => config
  return if isOn ((environ.get? "REXA_DEBUG").getD "") then { config with debug := .bool true } else config

def fields (c : Config) : List (String × Tree) :=
  [("default_domain", c.defaultDomain), ("registry_url", c.registryUrl), ("remote_url", c.remoteUrl),
    ("autoload", .dict (c.autoload.map fun e => (.text e.1, .text e.2))),
    ("fallback_order", .list (c.fallbackOrder.map .text)),
    ("dispatch_timeout", match c.dispatchTimeout with | some x => .float x | none => .absent),
    ("interpolation_pattern", c.interpolationPattern), ("yield_interval", .int c.yieldInterval), ("debug", c.debug)]

end Config

end Conductor
