import Conductor.Run.Builtin

/-!
# Requiring modules

What lies outside an expression or a statement (a label of the program, a label of a
script module, the loading of a module) is reached through an `Outer` record, so that
evaluation itself can follow the program's structure. A requirement in a script asks
for the module from the script's directory; one in a module that is being loaded is
a dependency of that module and carries the modules whose loads it is part of.
-/

set_option autoImplicit false

namespace Conductor

structure Outer where
  label : String → Arguments → Play Value
  moduleLabel : Nat → String → Arguments → Play Value
  load : String → Option String → Module.Stack → Play (Table String Entry)
  rounds : Nat

namespace Play

def onLoader (f : Module.Loader → Module.Loader) : Play Unit :=
  modifyWorld fun w => { w with loader := f w.loader }

/-- The template of the registry: the loader's own, or the one that the environment names. -/
def registry : Play (Option String) := do
  let w ← world
  match w.loader.registry with
  | some "" | none => return w.environ.get? "REXA_REGISTRY_URL"
  | some template => return some template

def locate (identifier : String) (base : Option String) : Play Module.Location := do
  let l ← liftC (Module.locate (← world).files (← registry) identifier base)
  if l.origin == .file then
    seek l.text
    if (Path.extension l.text).isEmpty then Module.defaultExtensions.forM fun ext => seek (l.text ++ ext)
  return l

/-- Asks for a module on behalf of another one; the edge is entered before the load begins. -/
def requireDependency (o : Outer) (location dep : String) (base : Option String) (stack : Module.Stack) :
    Play (Table String Entry) := do
  let target ← locate dep base
  onLoader fun l => l.addEdge location target.text
  o.load dep base stack

def requireHere (o : Outer) (identifier : String) : Play (Table String Entry) := do
  let s ← session
  match s.purpose with
  | .script =>
    let working := (← world).files.working
    let base := match s.sourceDir with
      | some "" | none => working
      | some dir => dir
    o.load identifier (some base) []
  | .module location stack =>
    onLoader fun l => l.addDependency location identifier
    requireDependency o location identifier s.sourceDir stack

def requireModule (o : Outer) (identifier : String) (line : Option Nat) : Play Unit := do
  let entries ← inContext (requireHere o identifier) fun c => c.atLine line
  modifySession fun s =>
    { s with resolver := { s.resolver with required := s.resolver.required.addAll entries.values } }

end Play

end Conductor
