import Conductor.Tree.Same

/-!
# Stems

A stem is a row of items, counted from one, with entries under names beside them.
Index zero stands for the number of items: reading it counts them, writing it cuts
the row or fills it up with empty texts. Writing past the end fills the gap, so the
row never has holes. The operations are those of any row of values; what a value
counts for as a number of items is a parameter.
-/

set_option autoImplicit false

namespace Conductor

/-- What a key denotes: a place in the row, zero being the count, or a name. -/
inductive Key
  | index (n : Nat)
  | name (s : String)
  deriving DecidableEq, Repr

namespace Key

/-- A text of digits is an index, any other text a name. A digit without a decimal value makes a key
that denotes nothing. -/
def ofText (s : String) : Except Failure Key :=
  if !s.isEmpty && s.toList.all Text.isDigit then
    (integerOfNumeral s s.toList).map fun n => .index n.toNat
  else .ok (.name s)

def ofTree : Tree → Except Failure Key
  | .text s => ofText s
  | .int n => if n ≥ 0 then .ok (.index n.toNat) else (integerText n).map .name
  | .float x =>
    match Decimal.parts? x with
    | some p => if p.isWhole && x ≥ 0.0 then .ok (.index p.truncated.toNat) else .ok (.name (Decimal.exactText x))
    | none => .ok (.name (Decimal.exactText x))
  | t => t.asName.map .name

end Key

structure Stem (α : Type) where
  items : List α := []
  named : Table String α := []

namespace Stem

variable {α : Type}

def count (s : Stem α) : Nat := s.items.length

def get? (counted : Nat → α) (s : Stem α) : Key → Option α
  | .name k => s.named.get? k
  | .index 0 => some (counted s.count)
  | .index (i + 1) => s.items[i]?

/-- Rows longer than an index can say, and rows longer than memory, are refused. -/
def checkGrowth (gap : Nat) : Except Failure Unit :=
  if gap ≥ Nat.pow 2 63 then .error .indexTooLarge
  else if gap ≥ Nat.pow 2 32 then .error .memory
  else .ok ()

def resize (blank : α) (n : Nat) (s : Stem α) : Except Failure (Stem α) :=
  if n < s.count then .ok { s with items := s.items.take n }
  else do
    checkGrowth (n - s.count)
    return { s with items := s.items ++ List.replicate (n - s.count) blank }

def place (blank : α) (i : Nat) (v : α) (s : Stem α) : Except Failure (Stem α) :=
  if i < s.count then .ok { s with items := s.items.set i v }
  else do
    checkGrowth (i - s.count)
    return { s with items := s.items ++ List.replicate (i - s.count) blank ++ [v] }

/-- Writes a value at a key; `asCount` is the number of items that a value asks for. -/
def set (blank : α) (asCount : α → Except Problem Nat) (key : Key) (v : α) (s : Stem α) :
    Except Problem (Stem α) :=
  match key with
  | .name k => .ok { s with named := s.named.put k v }
  | .index 0 => do (resize blank (← asCount v) s).mapError .failure
  | .index (i + 1) => (place blank i v s).mapError .failure

def delete (key : Key) (s : Stem α) : Stem α :=
  match key with
  | .name k => { s with named := s.named.erase k }
  | .index 0 => { s with items := [] }
  | .index (i + 1) => { s with items := s.items.eraseIdx i }

def append (v : α) (s : Stem α) : Stem α := { s with items := s.items ++ [v] }

def keys (s : Stem α) : List Key := (List.range s.count).map (fun i => .index (i + 1)) ++ s.named.keys.map .name

theorem count_append (v : α) (s : Stem α) : (s.append v).count = s.count + 1 := by
  simp [append, count]

theorem get?_zero (counted : Nat → α) (s : Stem α) : s.get? counted (.index 0) = some (counted s.count) := rfl

end Stem

namespace Tree

def asCount (t : Tree) : Except Problem Nat := do
  let n ← (← t.number).truncate.mapError .failure
  if n < 0 then .error (.ofCause (.negativeCount (← (integerText n).mapError .failure))) else .ok n.toNat

def ofStem (s : Stem Tree) : Tree := .stem s.items s.named

/-- Outside data as a stem: a dictionary gives names, everything that can be run through gives items. -/
def toStem : Tree → Except Failure (Stem Tree)
  | .stem items named => .ok ⟨items, named⟩
  | .dict entries => do return ⟨[], Table.ofEntries (← normalizeEntries entries)⟩
  | .list items => do return ⟨← normalizeAll items, []⟩
  | .text s => .ok ⟨s.toList.map fun c => .text (String.singleton c), []⟩
  | .scalar (.bytes data) => .ok ⟨data.map fun b => .int b.toNat, []⟩
  | .scalar s => .error (.wrongType ("'" ++ s.kindName ++ "' object is not iterable"))

end Tree

end Conductor
