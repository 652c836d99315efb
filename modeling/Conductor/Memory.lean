import Conductor.Store
import Conductor.Text.Case

/-!
# Variables

A scope binds names, in any case, to values; with the store it makes the memory of
a routine. A compound name is a variable and a tail of keys that leads through
stems. Writing along a tail makes the stems that are missing, replacing what stands
in their way, one key after the other: a key that denotes nothing stops it there,
and the stems made so far stay.
-/

set_option autoImplicit false

namespace Conductor

abbrev Scope := Table String Value

structure Memory where
  scope : Scope := []
  store : Store := {}

namespace Memory

/-- Work on a memory; what was done before a problem stays done. -/
abbrev Act := EStateM Problem Memory

def fail {α : Type} (f : Failure) : Act α := throw (.failure f)

def liftE {α : Type} : Except Failure α → Act α
  | .ok a => pure a
  | .error f => fail f

def liftP {α : Type} : Except Problem α → Act α
  | .ok a => pure a
  | .error p => throw p

def withStore {α : Type} (f : Store → Except Failure (α × Store)) : Act α := do
  match f (← get).store with
  | .ok (a, store) =>
    modify fun m => { m with store := store }
    return a
  | .error e => fail e

def tree (v : Value) : Act Tree := do liftE ((← get).store.tree v)

def alloc (s : Stem Value) : Act Value := withStore fun store => .ok (store.alloc s)

def plant (t : Tree) : Act Value := withStore fun store => .ok (Store.plant t store)

def copy (v : Value) : Act Value := withStore (Store.copy v)

def normalize (v : Value) : Act Value := withStore (Store.normalize v)

def stem (a : Address) : Act (Stem Value) := do return (← get).store.get a

def binding (name : String) : Except Failure String :=
  if name.isEmpty then .error (.variableName (Text.quoted name))
  else .ok (Text.upper (String.ofList (Text.dropEndWhile (· == '.') name.toList)))

def keyed (key : Tree) : Act Key := liftE (Key.ofTree key)

def stemGet (a : Address) (key : Key) : Act Value := do
  return ((← stem a).get? (fun n => .ofNat n) key).getD .unbound

def stemSet (a : Address) (key : Key) (v : Value) : Act Unit := do
  let store := (← get).store
  let asCount (v : Value) : Except Problem Nat := do (← (store.tree v).mapError .failure).asCount
  let s ← liftP ((store.get a).set (.text "") asCount key v)
  modify fun m => { m with store := m.store.set a s }

/-- Follows a tail of keys from a value; there is nothing behind what is no stem. -/
def descend : Value → List Tree → Act Value
  | v, [] => return v
  | .stem a, key :: rest => do
    let k ← keyed key
    descend (← stemGet a k) rest
  | _, _ :: _ => return .unbound

def read (name : String) (tail : List Tree) : Act Value := do
  let key ← liftE (binding name)
  descend (((← get).scope.get? key).getD .unbound) tail

def bind (key : String) (v : Value) : Act Unit := modify fun m => { m with scope := m.scope.put key v }

def childStem (a : Address) (key : Tree) : Act Address := do
  let k ← keyed key
  match ← stemGet a k with
  | .stem b => return b
  | _ =>
    match ← alloc {} with
    | .stem b =>
      stemSet a k (.stem b)
      return b
    | _ => return a

def writeBelow (v : Value) : Address → List Tree → Act Unit
  | _, [] => return ()
  | a, [key] => do stemSet a (← keyed key) v
  | a, key :: rest => do writeBelow v (← childStem a key) rest

def write (name : String) (v : Value) (tail : List Tree) : Act Unit := do
  let key ← liftE (binding name)
  if tail.isEmpty then bind key v
  else
    match (← get).scope.get? key with
    | some (.stem a) => writeBelow v a tail
    | _ =>
      match ← alloc {} with
      | .stem a =>
        bind key (.stem a)
        writeBelow v a tail
      | _ => return ()

def deleteBelow : Value → List Tree → Act Unit
  | .stem a, [key] => do
    let k ← keyed key
    modify fun m => { m with store := m.store.set a ((m.store.get a).delete k) }
  | .stem a, key :: rest => do
    let k ← keyed key
    deleteBelow (← stemGet a k) rest
  | _, _ => return ()

def delete (name : String) (tail : List Tree) : Act Unit := do
  let key ← liftE (binding name)
  if tail.isEmpty then modify fun m => { m with scope := m.scope.erase key }
  else deleteBelow (((← get).scope.get? key).getD .unbound) tail

def has (name : String) : Act Bool := do
  let key ← liftE (binding name)
  return (← get).scope.contains key

def seed (bindings : List (String × Value)) : Act Unit := do
  modify fun m => { m with scope := [] }
  bindings.forM fun (name, v) => do write name (← copy v) []

/-- A dotted reference, as it is written inside texts: a name and the keys after it. -/
def readPath (reference : String) : Act Value :=
  match Text.pieces "." reference with
  | [] => read reference []
  | name :: tail => read name (tail.map .text)

end Memory

end Conductor
