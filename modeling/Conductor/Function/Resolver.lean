import Conductor.Address.Dispatcher
import Conductor.Config

/-!
# Resolving names

Functions are found in tiers, and the first tier that holds the name wins: built-in
functions, labels of the program, required libraries, the methods of the current
handler, and then, in an order that can be set, the capabilities of the host and
the remote orchestrator. A name that only an autoloaded module defines is looked for
once more after the module has been required.
-/

set_option autoImplicit false

namespace Conductor

abbrev Registry := Table String Entry

namespace Registry

def add (r : Registry) (e : Entry) : Registry := r.put (Text.upper e.name) e

def find? (r : Registry) (name : String) : Option Entry := r.get? (Text.upper name)

def remove (r : Registry) (name : String) : Registry := r.erase (Text.upper name)

def addAll (r : Registry) (es : List Entry) : Registry := es.foldl add r

def names (r : Registry) : List String := Text.sorted r.keys

def shown (r : Registry) (tier : Tier) : String :=
  "<FunctionRegistry " ++ tier.name ++ " n=" ++ Nat.repr r.length ++ ">"

def builtins : Registry := Builtin.all.map fun b => (b.name, Entry.ofBuiltin b)

end Registry

structure Resolver where
  builtins : Registry := Registry.builtins
  internal : Registry := []
  required : Registry := []
  capabilities : List Registry := []
  hasRemote : Bool := false
  fallbackOrder : List String := ["capability", "remote"]
  autoload : Table String String := []

namespace Resolver

def local? (r : Resolver) (methods : String → Option Entry) (name : String) : Option Entry :=
  (r.builtins.find? name) <|> (r.internal.find? name) <|> (r.required.find? name) <|> methods name

def remoteEntry (name : String) : Entry :=
  Entry.open_ (Text.upper name) .remote (.remote name) "remote"

def fallback? (r : Resolver) (tier name : String) : Option Entry :=
  if tier == "capability" then r.capabilities.findSome? fun c => c.find? name
  else if r.hasRemote then some (remoteEntry name)
  else none

def fallbacks? (r : Resolver) (name : String) : Option Entry :=
  r.fallbackOrder.findSome? fun tier => r.fallback? tier name

end Resolver

end Conductor
