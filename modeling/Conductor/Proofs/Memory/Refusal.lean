import Conductor.Function.Binding
import Conductor.Proofs.Memory.Conversion

/-!
# Conditions over values

Most of what can go wrong with values is a failure from below the language. The language itself
refuses little: a value that is to be a number and is none, a value that is to be a number of
items and is negative, a divisor of zero, and the arguments of a call that do not fit. None of
these refusals says where in the program it was made, because values know nothing of programs;
to read variables and to write a simple one is never refused.

As with failures, the shape of a computation tells what its conditions are.
-/

set_option autoImplicit false

namespace Conductor

class Telling (ε : Type) where
  condition? : ε → Option Condition

instance : Telling Failure := ⟨fun _ => none⟩

instance : Telling Condition := ⟨some⟩

instance : Telling Problem where
  condition?
    | .condition c => some c
    | .failure _ => none

/-- A computation all of whose conditions have a property. -/
class Raises (P : Condition → Prop) {ε α : Type} [Telling ε] (x : Except ε α) : Prop where
  holds : ∀ e, x = .error e → ∀ c, Telling.condition? e = some c → P c

namespace Raises

variable {P Q : Condition → Prop} {ε α β : Type} [Telling ε]

instance (a : α) : Raises P (.ok a : Except ε α) := ⟨fun _ h => nomatch h⟩

instance (a : α) : Raises P (pure a : Except ε α) := ⟨fun _ h => nomatch h⟩

instance (f : Failure) : Raises P (.error (.failure f) : Except Problem α) := by
  refine ⟨fun e he c hc => ?_⟩
  cases he
  cases hc

instance (x : Except Failure α) : Raises P x := ⟨fun _ _ _ h => nomatch h⟩

theorem error {c : Condition} (h : P c) : Raises P (.error (.condition c) : Except Problem α) := by
  refine ⟨fun e he c' hc => ?_⟩
  cases he
  cases hc
  exact h

theorem refused {c : Condition} (h : P c) : Raises P (.error c : Except Condition α) := by
  refine ⟨fun e he c' hc => ?_⟩
  cases he
  cases hc
  exact h

instance (x : Except ε α) (k : α → Except ε β) [hx : Raises P x] [hk : ∀ a, Raises P (k a)] : Raises P (x >>= k) := by
  cases x with
  | error e => exact ⟨fun e' he => hx.holds e' (by cases he; rfl)⟩
  | ok a => exact hk a

theorem andThen {x : Except ε α} {k : α → Except ε β} [Raises P x] (hk : ∀ a, Raises P (k a)) : Raises P (x >>= k) :=
  inferInstance

theorem mono {x : Except ε α} (hx : Raises P x) (h : ∀ c, P c → Q c) : Raises Q x :=
  ⟨fun e he c hc => h c (hx.holds e he c hc)⟩

instance (x : Except Failure α) : Raises P (x.mapError Problem.failure) := by
  cases x with
  | ok a => exact inferInstanceAs (Raises P (.ok a))
  | error f => exact inferInstanceAs (Raises P (.error (.failure f) : Except Problem α))

instance (c : Prop) [Decidable c] (x y : Except ε α) [Raises P x] [Raises P y] : Raises P (if c then x else y) := by
  split <;> infer_instance

end Raises

inductive Condition.OverValue : Condition → Prop
  | number (shown : String) : OverValue { cause := .notANumber shown }
  | count (shown : String) : OverValue { cause := .negativeCount shown }

def Condition.Unplaced (c : Condition) : Prop := c.line = none

theorem Condition.OverValue.unplaced {c : Condition} (h : c.OverValue) : c.Unplaced := by
  cases h <;> rfl

/-! ## Numbers and operators -/

namespace Tree

instance number_raises (t : Tree) : Raises Condition.OverValue t.number := by
  unfold number
  extract_lets refuse
  have hrefuse : Raises Condition.OverValue refuse := by
    unfold refuse
    split
    · exact .error (.number _)
    · split
      · exact .error (.number _)
      · infer_instance
  clear_value refuse
  split
  · split
    · infer_instance
    · exact hrefuse
  · exact hrefuse

instance (t : Tree) : Raises Condition.Unplaced t.number := t.number_raises.mono fun _ h => h.unplaced

instance (t : Tree) : Raises Condition.OverValue t.asCount := by
  have hnegative (n : Int) : Raises Condition.OverValue
      (do .error (.ofCause (.negativeCount (← (integerText n).mapError .failure))) : Except Problem Nat) :=
    .andThen fun shown => .error (.count shown)
  unfold asCount
  infer_instance

instance (a b : Tree) : Raises Condition.Unplaced (a.looseOrder b) := by
  unfold looseOrder shownText
  infer_instance

end Tree

namespace Operator

instance (op : Syntax.BinaryOp) (a b : Tree) : Raises Condition.Unplaced (binary op a b) := by
  have hzero : Raises Condition.Unplaced (.error (.ofCause .divisionByZero) : Except Problem PUnit) := .error rfl
  have harithmetic (f : Number → Number → Except Failure Number) : Raises Condition.Unplaced (arithmetic f a b) := by
    unfold arithmetic
    infer_instance
  have hdividing (f : Number → Number → Except Failure Number) : Raises Condition.Unplaced (dividing f a b) := by
    unfold dividing
    infer_instance
  have hconcat : Raises Condition.Unplaced (concat a b) := by
    unfold concat Tree.shownText
    infer_instance
  have hpower : Raises Condition.Unplaced (power a b) := by
    unfold power
    infer_instance
  have hsame : Raises Condition.Unplaced (sameText a b) := by
    unfold sameText Tree.shownText
    infer_instance
  have hcomparing (test : Ordering → Bool) : Raises Condition.Unplaced (comparing test a b) := by
    unfold comparing
    infer_instance
  unfold binary
  split <;> infer_instance

instance (op : Syntax.UnaryOp) (a : Tree) : Raises Condition.Unplaced (unary op a) := by
  unfold unary
  split <;> infer_instance

end Operator

/-! ## Arguments -/

namespace Entry

variable (e : Entry)

instance {α : Type} (cause : Cause) : Raises Condition.Unplaced (e.refuse cause : Except Condition α) := .refused rfl

instance (placed : List Value) (piped : Option Value) (asStatement : Bool) :
    Raises Condition.Unplaced (e.checkStyle placed piped asStatement) := by
  unfold checkStyle
  infer_instance

instance bindNamed_raises (supplied : List Supplied) (bound extra : Table String Value) :
    Raises Condition.Unplaced (e.bindNamed supplied bound extra) := by
  fun_induction bindNamed e supplied bound extra <;> infer_instance

instance (piped : Option Value) (places : List String) (placed : List Value) (bound : Table String Value) :
    Raises Condition.Unplaced (e.bindPiped piped places placed bound) := by
  unfold bindPiped
  split
  · infer_instance
  · split
    · infer_instance
    · split <;> infer_instance

instance (supplied : List Supplied) (piped : Option Value) (asStatement : Bool) :
    Raises Condition.Unplaced (e.bind supplied piped asStatement) := by
  unfold bind
  extract_lets placed
  refine .andThen fun _ => .andThen fun named => ?_
  dsimp only
  refine .andThen fun filled => ?_
  split
  · refine .andThen fun _ => ?_
    split <;> infer_instance
  · split <;> infer_instance

end Entry

/-! ## Variables -/

namespace Memory

variable {P : Condition → Prop} {α β : Type}

/-- Work on a memory all of whose conditions have a property. -/
class Raises (P : Condition → Prop) (act : Act α) : Prop where
  holds : ∀ mem c mem', act mem = .error (.condition c) mem' → P c

namespace Raises

instance (a : α) : Raises P (pure a : Act α) := ⟨fun _ _ _ h => nomatch h⟩

instance (x : Act α) (k : α → Act β) [hx : Raises P x] [hk : ∀ a, Raises P (k a)] : Raises P (x >>= k) := by
  refine ⟨fun mem c mem' h => ?_⟩
  change EStateM.bind x k mem = _ at h
  unfold EStateM.bind at h
  split at h
  · next a mem₁ _ => exact (hk a).holds mem₁ c mem' h
  · next p mem₁ hp =>
    cases h
    exact hx.holds mem c mem' hp

theorem mono {Q : Condition → Prop} {act : Act α} (h : Raises P act) (hPQ : ∀ c, P c → Q c) : Raises Q act :=
  ⟨fun mem c mem' heq => hPQ c (h.holds mem c mem' heq)⟩

theorem andThen {x : Act α} {k : α → Act β} [Raises P x] (hk : ∀ a, Raises P (k a)) : Raises P (x >>= k) :=
  inferInstance

instance (f : α → β) (x : Act α) [Raises P x] : Raises P (f <$> x) := by
  rw [map_eq_pure_bind]
  infer_instance

instance (c : Prop) [Decidable c] (x y : Act α) [Raises P x] [Raises P y] : Raises P (if c then x else y) := by
  split <;> infer_instance

instance : Raises P (get : Act Memory) := ⟨fun _ _ _ h => nomatch h⟩

instance (f : Memory → Memory) : Raises P (modify f : Act PUnit) := ⟨fun _ _ _ h => nomatch h⟩

instance (f : Failure) : Raises P (fail f : Act α) := ⟨fun _ _ _ h => nomatch h⟩

instance mapM (f : α → Act β) (l : List α) [hf : ∀ a, Raises P (f a)] : Raises P (l.mapM f) := by
  induction l with
  | nil => rw [List.mapM_nil]; infer_instance
  | cons a l ih => rw [List.mapM_cons]; infer_instance

instance forM (f : α → Act PUnit) (l : List α) [hf : ∀ a, Raises P (f a)] : Raises P (l.forM f) := by
  induction l with
  | nil => exact inferInstanceAs (Raises P (pure PUnit.unit))
  | cons a l ih => exact inferInstanceAs (Raises P (f a >>= fun _ => l.forM f))

end Raises

instance (x : Except Failure α) : Raises P (liftE x) := by
  cases x with
  | ok a => exact inferInstanceAs (Raises P (pure a))
  | error f => exact inferInstanceAs (Raises P (fail f))

instance (x : Except Problem α) [hx : Conductor.Raises P x] : Raises P (liftP x) := by
  cases x with
  | ok a => exact inferInstanceAs (Raises P (pure a))
  | error p => exact ⟨fun _ c _ h => hx.holds p rfl c (by cases h; rfl)⟩

instance (f : Store → Except Failure (α × Store)) : Raises P (withStore f) := by
  unfold withStore
  refine .andThen fun mem => ?_
  split <;> infer_instance

instance (v : Value) : Raises P (tree v) := by unfold tree; infer_instance

instance (s : Stem Value) : Raises P (alloc s) := by unfold alloc; infer_instance

instance (t : Tree) : Raises P (plant t) := by unfold plant; infer_instance

instance (v : Value) : Raises P (copy v) := by unfold copy; infer_instance

instance (v : Value) : Raises P (normalize v) := by unfold normalize; infer_instance

instance (key : Tree) : Raises P (keyed key) := by unfold keyed; infer_instance

instance (a : Address) (key : Key) : Raises P (stemGet a key) := by unfold stemGet stem; infer_instance

instance descend_raises (v : Value) (tail : List Tree) : Raises P (descend v tail) := by
  fun_induction descend v tail <;> infer_instance

instance (name : String) (tail : List Tree) : Raises P (read name tail) := by unfold read; infer_instance

instance (key : String) (v : Value) : Raises P (bind key v) := by unfold bind; infer_instance

instance (name : String) : Raises P (has name) := by unfold has; infer_instance

instance (name : String) (v : Value) : Raises P (write name v []) := by
  unfold write
  refine .andThen fun key => ?_
  exact inferInstanceAs (Raises P (bind key v))

instance (bindings : List (String × Value)) : Raises P (seed bindings) := by unfold seed; infer_instance

instance (reference : String) : Raises P (readPath reference) := by
  unfold readPath
  split <;> infer_instance

instance (a : Address) (key : Key) (v : Value) : Raises Condition.OverValue (stemSet a key v) := by
  have hset (store : Store) : Conductor.Raises Condition.OverValue ((store.get a).set (.text "")
      (fun v => do (← (store.tree v).mapError .failure).asCount) key v) := by
    unfold Stem.set
    split <;> infer_instance
  unfold stemSet
  infer_instance

instance (a : Address) (key : Tree) : Raises Condition.OverValue (childStem a key) := by
  unfold childStem
  refine .andThen fun k => .andThen fun v => ?_
  split
  · infer_instance
  · refine .andThen fun w => ?_
    split <;> infer_instance

instance writeBelow_raises (v : Value) (a : Address) (tail : List Tree) :
    Raises Condition.OverValue (writeBelow v a tail) := by
  fun_induction writeBelow v a tail <;> infer_instance

theorem write_raises (name : String) (v : Value) (tail : List Tree) :
    Raises Condition.OverValue (write name v tail) := by
  unfold write
  refine .andThen fun key => ?_
  split
  · infer_instance
  · refine .andThen fun mem => ?_
    split
    · infer_instance
    · refine .andThen fun w => ?_
      split <;> infer_instance

end Memory

instance {P : Condition → Prop} (p : Interpolation.Pattern) (part : Interpolation.Part) :
    Memory.Raises P (part.filled p Memory.readPath) := by
  unfold Interpolation.Part.filled
  split
  · infer_instance
  · split <;> infer_instance

instance {P : Condition → Prop} (p : Interpolation.Pattern) (text : String) :
    Memory.Raises P (Interpolation.apply p text) := by
  unfold Interpolation.apply Interpolation.fill
  infer_instance

end Conductor
