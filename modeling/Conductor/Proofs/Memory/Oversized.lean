import Conductor.Proofs.Memory.Traversal
import Conductor.Tree.Shown

/-!
# Values without a text

An integer with more digits than the limit has no text. A tree has one, as a message shows
it, as it is laid out for people or as the name of an entry, exactly if each of the integers
in it has.
-/

set_option autoImplicit false

namespace Conductor

def Scalar.Oversized : Scalar → Prop
  | .int n => Nat.pow 10 digitLimit ≤ n.natAbs
  | _ => False

namespace Tree

mutual
/-- A tree with such an integer anywhere in it. -/
def Oversized : Tree → Prop
  | .scalar s => s.Oversized
  | .stem items named => anyOversized items ∨ namedOversized named
  | .list items => anyOversized items
  | .dict entries => entriesOversized entries

def anyOversized : List Tree → Prop
  | [] => False
  | t :: rest => Oversized t ∨ anyOversized rest

def namedOversized : List (String × Tree) → Prop
  | [] => False
  | (_, t) :: rest => Oversized t ∨ namedOversized rest

def entriesOversized : List (Tree × Tree) → Prop
  | [] => False
  | (k, t) :: rest => Oversized k ∨ Oversized t ∨ entriesOversized rest
end

end Tree

theorem integerText_fails (n : Int) : Fails (integerText n) ↔ Nat.pow 10 digitLimit ≤ n.natAbs := by
  have hsmall : Nat.pow 2 63 ≤ Nat.pow 10 digitLimit := by
    have hlimit : 63 ≤ digitLimit := by decide
    generalize digitLimit = limit at hlimit
    calc
      2 ^ 63 ≤ 10 ^ 63 := Nat.pow_le_pow_left (by omega) 63
      _ ≤ 10 ^ limit := Nat.pow_le_pow_right (by omega) hlimit
  unfold integerText
  split
  · next h => exact iff_of_false (Fails.not_ok _) (Nat.not_le.mpr (Nat.lt_of_lt_of_le h hsmall))
  · split
    · next h => exact iff_of_true (Fails.error _) h
    · next h => exact iff_of_false (Fails.not_ok _) h

theorem integerText_error {n : Int} {f : Failure} (h : integerText n = .error f) : f = .digitsBeyondLimit := by
  unfold integerText at h
  split at h
  · cases h
  · split at h <;> cases h
    rfl

namespace Scalar

theorem quoted_fails (s : Scalar) : Fails s.quoted ↔ s.Oversized := by
  cases s <;> simp [quoted, Oversized, integerText_fails]

theorem asName_fails (s : Scalar) : Fails s.asName ↔ s.Oversized := by
  cases s <;> simp [asName, quoted, Oversized, integerText_fails]

end Scalar

theorem Printer.scalar_fails (s : Scalar) : Fails (Printer.scalar s) ↔ s.Oversized := by
  cases s <;> simp [Printer.scalar, Scalar.quoted, Scalar.Oversized, integerText_fails]

namespace Tree

mutual
theorem quoted_fails (t : Tree) : Fails t.quoted ↔ t.Oversized := by
  match t with
  | .scalar s => rw [quoted, Oversized, Scalar.quoted_fails]
  | .stem items named =>
    rw [quoted, Oversized, ← printedItems_fails {} 1 1 items, ← printedNamed_fails {} 1 named]
    exact Fails.bind_iff fun _ => Fails.then_pure _
  | .list items =>
    rw [quoted, Oversized, ← quotedAll_fails items]
    exact Fails.then_pure _
  | .dict entries =>
    rw [quoted, Oversized, ← quotedEntries_fails entries]
    exact Fails.then_pure _

theorem quotedAll_fails (items : List Tree) : Fails (quotedAll items) ↔ anyOversized items := by
  match items with
  | [] => simp [quotedAll, anyOversized]
  | t :: rest =>
    rw [quotedAll, anyOversized, ← quoted_fails t, ← quotedAll_fails rest]
    exact Fails.bind_iff fun _ => Fails.then_pure _

theorem quotedEntries_fails (entries : List (Tree × Tree)) : Fails (quotedEntries entries) ↔ entriesOversized entries := by
  match entries with
  | [] => simp [quotedEntries, entriesOversized]
  | (k, t) :: rest =>
    rw [quotedEntries, entriesOversized, ← quoted_fails k, ← quoted_fails t, ← quotedEntries_fails rest]
    exact Fails.bind_iff fun _ => Fails.bind_iff fun _ => Fails.then_pure _

/-- A tree has a printed form exactly if each of its integers has a text. -/
theorem printed_fails (config : Printer.Config) (level : Nat) (t : Tree) : Fails (t.printed config level) ↔ t.Oversized := by
  match t with
  | .scalar s => rw [printed, Oversized, Printer.scalar_fails]
  | .stem items named =>
    rw [printed, Oversized, ← printedItems_fails config (level + 1) 1 items, ← printedNamed_fails config (level + 1) named]
    exact Fails.bind_iff fun _ => Fails.then_pure _
  | .list items =>
    rw [printed, Oversized, ← printedItems_fails config (level + 1) 1 items]
    exact Fails.then_pure _
  | .dict entries =>
    rw [printed, Oversized, ← printedEntries_fails config (level + 1) entries]
    exact Fails.then_pure _

theorem printedItems_fails (config : Printer.Config) (level position : Nat) (items : List Tree) :
    Fails (printedItems config level position items) ↔ anyOversized items := by
  match items with
  | [] => simp [printedItems, anyOversized]
  | t :: rest =>
    rw [printedItems, anyOversized, ← printed_fails config level t, ← printedItems_fails config level (position + 1) rest]
    exact Fails.bind_iff fun _ => Fails.then_pure _

theorem printedNamed_fails (config : Printer.Config) (level : Nat) (named : List (String × Tree)) :
    Fails (printedNamed config level named) ↔ namedOversized named := by
  match named with
  | [] => simp [printedNamed, namedOversized]
  | (k, t) :: rest =>
    rw [printedNamed, namedOversized, ← printed_fails config level t, ← printedNamed_fails config level rest]
    exact Fails.bind_iff fun _ => Fails.then_pure _

theorem printedEntries_fails (config : Printer.Config) (level : Nat) (entries : List (Tree × Tree)) :
    Fails (printedEntries config level entries) ↔ entriesOversized entries := by
  match entries with
  | [] => simp [printedEntries, entriesOversized]
  | (.scalar s, t) :: rest =>
    rw [printedEntries, entriesOversized, Oversized, ← s.asName_fails, ← printed_fails config level t,
      ← printedEntries_fails config level rest]
    exact Fails.bind_iff fun _ => Fails.bind_iff fun _ => Fails.then_pure _
  | (.stem items named, t) :: rest | (.list items, t) :: rest | (.dict es, t) :: rest =>
    rw [printedEntries, entriesOversized, ← quoted_fails, ← printed_fails config level t,
      ← printedEntries_fails config level rest]
    · exact Fails.bind_iff fun _ => Fails.bind_iff fun _ => Fails.then_pure _
    · simp
end

theorem asName_fails (t : Tree) : Fails t.asName ↔ t.Oversized := by
  cases t with
  | scalar s => rw [asName, Oversized, s.asName_fails]
  | stem _ _ | list _ | dict _ => exact quoted_fails _

end Tree

end Conductor
