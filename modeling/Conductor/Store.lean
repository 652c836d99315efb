import Conductor.Stem

/-!
# The store

Stems live in a store and values refer to them by address, so two variables can
hold one stem. The view of a value is its `Tree`: every address followed. Following
addresses stops with a failure where a stem contains itself. Data from outside is
planted into the store; copies are deep and share nothing with what they copy.
-/

set_option autoImplicit false

namespace Conductor

def Stem.addresses (s : Stem Value) : List Address := Value.addressesAll (s.items ++ s.named.values)

/-- Besides the stems it is noted whether a stem was ever made to hold what leads back to it. No program reads this. -/
structure Store where
  stems : Array (Stem Value) := #[]
  knotted : Prop := False

namespace Store

def get (store : Store) (a : Address) : Stem Value := store.stems.getD a {}

def Leads (store : Store) (a b : Address) : Prop := b ∈ (store.get a).addresses

def Knots (store : Store) (a : Address) (s : Stem Value) : Prop :=
  ∃ b ∈ s.addresses, b = a ∨ Relation.TransGen store.Leads b a

def set (store : Store) (a : Address) (s : Stem Value) : Store :=
  ⟨store.stems.setIfInBounds a s, store.knotted ∨ a < store.stems.size ∧ store.Knots a s⟩

def alloc (store : Store) (s : Stem Value) : Value × Store :=
  (.stem store.stems.size, ⟨store.stems.push s, store.knotted ∨ store.Knots store.stems.size s⟩)

def pushed (store : Store) (a : Address) (vs : List Value) : Store :=
  store.set a (vs.foldl (fun s v => s.append v) (store.get a))

/-! ## The view -/

mutual
def treeWith (follow : Address → Except Failure Tree) : Value → Except Failure Tree
  | .scalar s => .ok (.scalar s)
  | .stem a => follow a
  | .list items => do return .list (← treesWith follow items)
  | .dict entries => do return .dict (← entriesWith follow entries)

def treesWith (follow : Address → Except Failure Tree) : List Value → Except Failure (List Tree)
  | [] => .ok []
  | v :: rest => do
    let first ← treeWith follow v
    return first :: (← treesWith follow rest)

def entriesWith (follow : Address → Except Failure Tree) :
    List (Value × Value) → Except Failure (List (Tree × Tree))
  | [] => .ok []
  | (k, v) :: rest => do
    let key ← treeWith follow k
    let value ← treeWith follow v
    return (key, value) :: (← entriesWith follow rest)
end

def namedWith (follow : Address → Except Failure Tree) (named : List (String × Value)) :
    Except Failure (List (String × Tree)) :=
  traverse (fun e => (treeWith follow e.2).map fun t => (e.1, t)) named

def follow (store : Store) : Nat → Address → Except Failure Tree
  | 0, _ => .error .nesting
  | depth + 1, a => do
    let s := store.get a
    let items ← treesWith (follow store depth) s.items
    let named ← namedWith (follow store depth) s.named
    return .stem items named

/-- The tree of a value. A chain of stems longer than the store has stems runs in a circle. -/
def tree (store : Store) (v : Value) : Except Failure Tree := treeWith (store.follow (store.stems.size + 1)) v

/-! ## Planting -/

mutual
def plant : Tree → Store → Value × Store
  | .scalar s, store => (.scalar s, store)
  | .stem items named, store =>
    let (items, store) := plantAll items store
    let (named, store) := plantNamed named store
    store.alloc ⟨items, named⟩
  | .list items, store =>
    let (items, store) := plantAll items store
    (.list items, store)
  | .dict entries, store =>
    let (entries, store) := plantEntries entries store
    (.dict entries, store)

def plantAll : List Tree → Store → List Value × Store
  | [], store => ([], store)
  | t :: rest, store =>
    let (v, store) := plant t store
    let (vs, store) := plantAll rest store
    (v :: vs, store)

def plantNamed : List (String × Tree) → Store → List (String × Value) × Store
  | [], store => ([], store)
  | (k, t) :: rest, store =>
    let (v, store) := plant t store
    let (vs, store) := plantNamed rest store
    ((k, v) :: vs, store)

def plantEntries : List (Tree × Tree) → Store → List (Value × Value) × Store
  | [], store => ([], store)
  | (k, t) :: rest, store =>
    let (key, store) := plant k store
    let (v, store) := plant t store
    let (vs, store) := plantEntries rest store
    ((key, v) :: vs, store)
end

/-! ## Bringing data into the language -/

mutual
/-- Lists and dictionaries become new stems; a stem stays the one it is. -/
def normalize : Value → Store → Except Failure (Value × Store)
  | .scalar s, store => .ok (.scalar s.normalize, store)
  | .stem a, store => .ok (.stem a, store)
  | .list items, store => do
    let (items, store) ← normalizeAll items store
    return store.alloc ⟨items, []⟩
  | .dict entries, store => do
    let (named, store) ← normalizeEntries entries store
    return store.alloc ⟨[], Table.ofEntries named⟩

def normalizeAll : List Value → Store → Except Failure (List Value × Store)
  | [], store => .ok ([], store)
  | v :: rest, store => do
    let (v, store) ← normalize v store
    let (vs, store) ← normalizeAll rest store
    return (v :: vs, store)

def normalizeEntries : List (Value × Value) → Store → Except Failure (List (String × Value) × Store)
  | [], store => .ok ([], store)
  | (k, v) :: rest, store => do
    let name ← (← store.tree k).asName
    let (v, store) ← normalize v store
    let (vs, store) ← normalizeEntries rest store
    return ((name, v) :: vs, store)
end

/-! ## Taking data out -/

def mixed (items : List Value) (named : List (String × Value)) : List (Value × Value) :=
  (Table.putAll ((Tree.positionNames items.length).zip items) named).map fun e => (.text e.1, e.2)

/-- A stem as a list or a dictionary, its stems too; other values stay as they are. -/
def unstem (store : Store) : Nat → Value → Except Failure Value
  | 0, .stem _ => .error .nesting
  | depth + 1, .stem a => do
    let s := store.get a
    let items ← traverse (unstem store depth) s.items
    let named ← traverse (fun e => (unstem store depth e.2).map fun v => (e.1, v)) s.named
    return if named.isEmpty then .list items
      else if items.isEmpty then .dict (named.map fun e => (.text e.1, e.2))
      else .dict (mixed items named)
  | _, v => .ok v

def plain (store : Store) (v : Value) : Except Failure Value := unstem store (store.stems.size + 1) v

/-! ## Copies -/

/-- Copies a value of a store: stems and the stems in their rows and entries get new addresses. -/
def copyTo (source : Store) : Nat → Value → Store → Except Failure (Value × Store)
  | 0, .stem _, _ => .error .nesting
  | depth + 1, .stem a, store => do
    let s := source.get a
    let (items, store) ← each (copyTo source depth) s.items store
    let (named, store) ← eachNamed (copyTo source depth) s.named store
    return store.alloc ⟨items, named⟩
  | _, v, store => .ok (v, store)
where
  each (f : Value → Store → Except Failure (Value × Store)) :
      List Value → Store → Except Failure (List Value × Store)
    | [], store => .ok ([], store)
    | v :: rest, store => do
      let (v, store) ← f v store
      let (vs, store) ← each f rest store
      return (v :: vs, store)
  eachNamed (f : Value → Store → Except Failure (Value × Store)) :
      List (String × Value) → Store → Except Failure (List (String × Value) × Store)
    | [], store => .ok ([], store)
    | (k, v) :: rest, store => do
      let (v, store) ← f v store
      let (vs, store) ← eachNamed f rest store
      return ((k, v) :: vs, store)

def copy (v : Value) (store : Store) : Except Failure (Value × Store) := copyTo store (store.stems.size + 1) v store

end Store

end Conductor
