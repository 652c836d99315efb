import Conductor.Interpolation
import Conductor.Operator

/-!
# Failures over values

Not every value has a text, a number, a truth value or a key, and to ask for one that is
not there is a failure from below the language. So is a row that is too long and a chain
of stems that runs in a circle. These are all the failures that working with values, stems
and variables can end in, and an operator can besides fail in arithmetic; the failures of
files, modules, handlers and functions are others.

As with guards, the shape of a computation tells that it fails over values only. To make a text of a tree is less than
that: it fails for an integer with too many digits, or for data that has no form in the format.
-/

set_option autoImplicit false

namespace Conductor

def Failure.isOverValue : Failure → Bool
  | digitsBeyondLimit | numeralBeyondLimit _ | notAnInteger _ | notADecimal _ => true
  | infinityToInteger | notANumberToInteger | integerTooLargeForFloat => true
  | indexTooLarge | memory | nesting => true
  | notSerializable _ | wrongType _ | variableName _ => true
  | _ => false

class Bare (ε : Type) where
  failure? : ε → Option Failure

instance : Bare Failure := ⟨some⟩

instance : Bare Problem where
  failure?
    | .condition _ => none
    | .failure f => some f

/-- A computation that fails below the language only with failures that have a property. -/
class Only (P : Failure → Prop) {ε α : Type} [Bare ε] (x : Except ε α) : Prop where
  holds : ∀ e, x = .error e → ∀ f, Bare.failure? e = some f → P f

namespace Only

variable {P : Failure → Prop} {ε α β : Type} [Bare ε]

instance (a : α) : Only P (.ok a : Except ε α) := ⟨fun _ h => nomatch h⟩

instance (a : α) : Only P (pure a : Except ε α) := ⟨fun _ h => nomatch h⟩

theorem error {f : Failure} (h : P f) : Only P (.error f : Except Failure α) := by
  refine ⟨fun e he f' hf => ?_⟩
  cases he
  cases hf
  exact h

instance (c : Condition) : Only P (.error (.condition c) : Except Problem α) := by
  refine ⟨fun e he f hf => ?_⟩
  cases he
  cases hf

instance (c : Cause) : Only P (.error (.ofCause c) : Except Problem α) :=
  inferInstanceAs (Only P (.error (Problem.condition _)))

instance (x : Except ε α) (k : α → Except ε β) [hx : Only P x] [hk : ∀ a, Only P (k a)] : Only P (x >>= k) := by
  cases x with
  | error e => exact ⟨fun e' he => hx.holds e' (by cases he; rfl)⟩
  | ok a => exact hk a

theorem andThen {x : Except ε α} {k : α → Except ε β} [Only P x] (hk : ∀ a, Only P (k a)) : Only P (x >>= k) :=
  inferInstance

instance (f : α → β) (x : Except ε α) [hx : Only P x] : Only P (x.map f) := by
  cases x with
  | error e => exact ⟨fun e' he => hx.holds e' (by cases he; rfl)⟩
  | ok a => exact inferInstanceAs (Only P (.ok (f a)))

theorem ofError {x : Except Failure α} [hx : Only P x] {f : Failure} (h : x = .error f) :
    Only P (.error (.failure f) : Except Problem β) := by
  refine ⟨fun e he f' hf => ?_⟩
  cases he
  cases hf
  exact hx.holds f h f rfl

instance (x : Except Failure α) [Only P x] : Only P (x.mapError Problem.failure) := by
  cases hx : x with
  | error f => exact .ofError hx
  | ok a => exact inferInstanceAs (Only P (.ok a))

instance (c : Prop) [Decidable c] (x y : Except ε α) [Only P x] [Only P y] : Only P (if c then x else y) := by
  split <;> infer_instance

instance (f : α → Except ε β) (l : List α) [hf : ∀ a, Only P (f a)] : Only P (traverse f l) := by
  induction l with
  | nil => exact inferInstanceAs (Only P (.ok []))
  | cons a l ih =>
    rw [traverse]
    split
    · next e he => exact ⟨fun e' he' => (hf a).holds e' (by cases he'; exact he)⟩
    · split
      · next e he => exact ⟨fun e' he' => ih.holds e' (by cases he'; exact he)⟩
      · infer_instance

end Only

abbrev Converts {ε α : Type} [Bare ε] (x : Except ε α) : Prop := Only (fun f => f.isOverValue = true) x

abbrev Computes {ε α : Type} [Bare ε] (x : Except ε α) : Prop :=
  Only (fun f => f.isOverValue = true ∨ f.isArithmetic = true) x

instance {ε α : Type} [Bare ε] (x : Except ε α) [hx : Converts x] : Computes x :=
  ⟨fun e he f hf => .inl (hx.holds e he f hf)⟩

/-- A property of all the failures that come up where a tree has no text. -/
class OfTexts (P : Failure → Prop) : Prop where
  digits : P .digitsBeyondLimit
  kind : ∀ name, P (.notSerializable name)
  key : ∀ message, P (.wrongType message)

instance : OfTexts fun f => f.isOverValue = true := ⟨rfl, fun _ => rfl, fun _ => rfl⟩

/-- For lack of a text: an integer has too many digits, something foreign has none, or a key is no key of a text. -/
inductive Failure.OfText : Failure → Prop
  | digits : OfText .digitsBeyondLimit
  | kind (name : String) : OfText (.notSerializable name)
  | key (message : String) : OfText (.wrongType message)

instance : OfTexts Failure.OfText := ⟨.digits, .kind, .key⟩

/-! ## Numbers -/

instance {P : Failure → Prop} [hP : OfTexts P] (n : Int) : Only P (integerText n) := by
  unfold integerText
  split
  · infer_instance
  · split
    · exact .error hP.digits
    · infer_instance

instance (shown : String) (cs : List Char) : Converts (integerOfNumeral shown cs) := by
  unfold integerOfNumeral
  split
  split
  · exact .error rfl
  · split
    · infer_instance
    · exact .error rfl

instance (cs : List Char) : Converts (numberOfNumeral cs) := by
  unfold numberOfNumeral
  extract_lets shown
  split
  · split
    · infer_instance
    · exact .error rfl
  · infer_instance

namespace Number

instance (n : Number) : Converts n.toFloat := by
  unfold toFloat
  split
  · split
    · infer_instance
    · exact .error rfl
  · infer_instance

instance (n : Number) : Converts n.truncate := by
  unfold truncate
  split
  · infer_instance
  · split
    · infer_instance
    · split <;> exact .error rfl

instance (n : Number) : Converts n.text := by
  unfold text
  split <;> infer_instance

instance (f : Float → Float → Float) (a b : Number) : Converts (floats f a b) := by unfold floats; infer_instance

instance (a b : Number) : Converts (a.add b) := by unfold add; split <;> infer_instance

instance (a b : Number) : Converts (a.sub b) := by unfold sub; split <;> infer_instance

instance (a b : Number) : Converts (a.mul b) := by unfold mul; split <;> infer_instance

instance (a b : Number) : Converts (a.modulo b) := by unfold modulo; split <;> infer_instance

instance (a b : Int) : Computes (quotient a b) := by
  unfold quotient
  extract_lets bits
  split
  · exact .error (.inr rfl)
  · infer_instance

instance (a b : Number) : Computes (a.divide b) := by unfold divide; split <;> infer_instance

instance (x y : Float) : Computes (floatPower x y) := by
  have hzero : Computes (.error .zeroToNegativePower : Except Failure Power) := .error (.inr rfl)
  have hrange : Computes (.error .powerOutOfRange : Except Failure Power) := .error (.inr rfl)
  have hcomplex : Computes (.error .complexOutOfRange : Except Failure Power) := .error (.inr rfl)
  unfold floatPower
  infer_instance

instance (a b : Number) : Computes (a.power b) := by
  unfold power
  split <;> infer_instance

end Number

/-! ## Texts, truth values and keys -/

namespace Scalar

section

variable {P : Failure → Prop} [OfTexts P] (s : Scalar)

instance : Only P s.quoted := by unfold quoted; split <;> infer_instance

instance : Only P s.asName := by unfold asName; split <;> infer_instance

instance : Only P s.shown := by unfold shown; split <;> infer_instance

end

theorem number?_converts {s : Scalar} {n : Except Failure Number} (h : s.number? = some n) : Converts n := by
  unfold number? at h
  split at h
  · cases h; infer_instance
  · cases h; infer_instance
  · cases h; infer_instance
  · split at h
    · cases h; infer_instance
    · cases h
  · cases h

end Scalar

instance {P : Failure → Prop} [OfTexts P] (s : Scalar) : Only P (Printer.scalar s) := by unfold Printer.scalar; split <;> infer_instance

namespace Json

instance {P : Failure → Prop} [hP : OfTexts P] (s : Scalar) : Only P (scalar s) := by
  unfold scalar
  split
  case h_6 => exact .error (hP.kind _)
  all_goals infer_instance

instance {P : Failure → Prop} [hP : OfTexts P] (t : Tree) : Only P (key t) := by
  have hbad (kind : String) : Only P (.error (key.badKey kind) : Except Failure String) := .error (hP.key _)
  unfold key
  split <;> infer_instance

mutual
theorem write_converts (P : Failure → Prop) [hP : OfTexts P] (style : Style) (t : Tree) : Only P (write style t) := by
  match t with
  | .scalar s => rw [write]; infer_instance
  | .stem .. => rw [write]; exact .error (hP.kind _)
  | .list items =>
    have hitems := writeAll_converts P style.deeper items
    rw [write]
    infer_instance
  | .dict entries =>
    have hentries := writeEntries_converts P style.deeper entries
    rw [write]
    infer_instance

theorem writeAll_converts (P : Failure → Prop) [OfTexts P] (style : Style) (items : List Tree) :
    Only P (writeAll style items) := by
  match items with
  | [] => rw [writeAll]; infer_instance
  | t :: rest =>
    have hfirst := write_converts P style t
    have hrest := writeAll_converts P style rest
    rw [writeAll]
    infer_instance

theorem writeEntries_converts (P : Failure → Prop) [OfTexts P] (style : Style) (entries : List (Tree × Tree)) :
    Only P (writeEntries style entries) := by
  match entries with
  | [] => rw [writeEntries]; infer_instance
  | (k, t) :: rest =>
    have hvalue := write_converts P style t
    have hrest := writeEntries_converts P style rest
    rw [writeEntries]
    infer_instance
end

attribute [instance] write_converts

end Json

namespace Tree

mutual
theorem quoted_converts (P : Failure → Prop) [OfTexts P] (t : Tree) : Only P t.quoted := by
  match t with
  | .scalar s => rw [quoted]; infer_instance
  | .stem items named =>
    have hitems := printedItems_converts P {} 1 1 items
    have hnamed := printedNamed_converts P {} 1 named
    rw [quoted]
    infer_instance
  | .list items =>
    have hitems := quotedAll_converts P items
    rw [quoted]
    infer_instance
  | .dict entries =>
    have hentries := quotedEntries_converts P entries
    rw [quoted]
    infer_instance

theorem quotedAll_converts (P : Failure → Prop) [OfTexts P] (items : List Tree) : Only P (quotedAll items) := by
  match items with
  | [] => rw [quotedAll]; infer_instance
  | t :: rest =>
    have hfirst := quoted_converts P t
    have hrest := quotedAll_converts P rest
    rw [quotedAll]
    infer_instance

theorem quotedEntries_converts (P : Failure → Prop) [OfTexts P] (entries : List (Tree × Tree)) :
    Only P (quotedEntries entries) := by
  match entries with
  | [] => rw [quotedEntries]; infer_instance
  | (k, t) :: rest =>
    have hname := quoted_converts P k
    have hvalue := quoted_converts P t
    have hrest := quotedEntries_converts P rest
    rw [quotedEntries]
    infer_instance

theorem printed_converts (P : Failure → Prop) [OfTexts P] (config : Printer.Config) (level : Nat) (t : Tree) :
    Only P (t.printed config level) := by
  match t with
  | .scalar s => rw [printed]; infer_instance
  | .stem items named =>
    have hitems := printedItems_converts P config (level + 1) 1 items
    have hnamed := printedNamed_converts P config (level + 1) named
    rw [printed]
    infer_instance
  | .list items =>
    have hitems := printedItems_converts P config (level + 1) 1 items
    rw [printed]
    infer_instance
  | .dict entries =>
    have hentries := printedEntries_converts P config (level + 1) entries
    rw [printed]
    infer_instance

theorem printedItems_converts (P : Failure → Prop) [OfTexts P] (config : Printer.Config) (level position : Nat)
    (items : List Tree) : Only P (printedItems config level position items) := by
  match items with
  | [] => rw [printedItems]; infer_instance
  | t :: rest =>
    have hfirst := printed_converts P config level t
    have hrest := printedItems_converts P config level (position + 1) rest
    rw [printedItems]
    infer_instance

theorem printedNamed_converts (P : Failure → Prop) [OfTexts P] (config : Printer.Config) (level : Nat)
    (named : List (String × Tree)) : Only P (printedNamed config level named) := by
  match named with
  | [] => rw [printedNamed]; infer_instance
  | (k, t) :: rest =>
    have hfirst := printed_converts P config level t
    have hrest := printedNamed_converts P config level rest
    rw [printedNamed]
    infer_instance

theorem printedEntries_converts (P : Failure → Prop) [OfTexts P] (config : Printer.Config) (level : Nat)
    (entries : List (Tree × Tree)) : Only P (printedEntries config level entries) := by
  match entries with
  | [] => rw [printedEntries]; infer_instance
  | (k, t) :: rest =>
    have hname := quoted_converts P k
    have hvalue := printed_converts P config level t
    have hrest := printedEntries_converts P config level rest
    cases k with
    | scalar s =>
      rw [printedEntries]
      infer_instance
    | stem _ _ | list _ | dict _ =>
      rw [printedEntries]
      · infer_instance
      · simp
end

attribute [instance] quoted_converts

instance {P : Failure → Prop} [OfTexts P] (t : Tree) : Only P t.asName := by unfold asName; split <;> infer_instance

instance {P : Failure → Prop} [OfTexts P] (t : Tree) : Only P t.shown := by unfold shown; split <;> infer_instance

instance (t : Tree) : Converts t.truthy := by
  unfold truthy
  split
  case h_4 s _ _ =>
    split
    · next n hn =>
      have := Scalar.number?_converts hn
      infer_instance
    · infer_instance
  all_goals infer_instance

instance (t : Tree) : Converts t.number := by
  unfold number
  extract_lets refuse
  have hrefuse : Converts refuse := by
    unfold refuse
    split
    · infer_instance
    · split
      · infer_instance
      · next f hf => exact .ofError hf
  clear_value refuse
  split
  · split
    · next n hn =>
      have := Scalar.number?_converts hn
      infer_instance
    · exact hrefuse
  · exact hrefuse

instance (t : Tree) : Converts t.asCount := by
  unfold asCount
  infer_instance

instance (t : Tree) : Converts t.shownText := by unfold shownText; infer_instance

instance (a b : Tree) : Converts (a.looseOrder b) := by unfold looseOrder; infer_instance

end Tree

namespace Key

instance (s : String) : Converts (ofText s) := by unfold ofText; infer_instance

instance (t : Tree) : Converts (ofTree t) := by
  unfold ofTree
  split
  case h_3 => split <;> infer_instance
  all_goals infer_instance

end Key

/-! ## Operators -/

namespace Operator

instance (op : Syntax.BinaryOp) (a b : Tree) : Computes (binary op a b) := by
  have harithmetic (f : Number → Number → Except Failure Number) [∀ x y, Computes (f x y)] :
      Computes (arithmetic f a b) := by
    unfold arithmetic
    infer_instance
  have hdividing (f : Number → Number → Except Failure Number) [∀ x y, Computes (f x y)] :
      Computes (dividing f a b) := by
    unfold dividing
    infer_instance
  have hdivide (x y : Number) : Computes (divide x y) := by
    unfold divide
    split <;> infer_instance
  have hconcat : Computes (concat a b) := by
    unfold concat
    infer_instance
  have hpower : Computes (power a b) := by
    unfold power
    infer_instance
  have hsame : Computes (sameText a b) := by
    unfold sameText
    infer_instance
  have hcomparing (test : Ordering → Bool) : Computes (comparing test a b) := by
    unfold comparing
    infer_instance
  unfold binary
  split <;> infer_instance

instance (op : Syntax.UnaryOp) (a : Tree) : Converts (unary op a) := by
  unfold unary
  split <;> infer_instance

end Operator

/-! ## Stems and the store -/

namespace Stem

variable {α : Type}

instance (gap : Nat) : Converts (checkGrowth gap) := by
  unfold checkGrowth
  split
  · exact .error rfl
  · split
    · exact .error rfl
    · infer_instance

instance (blank : α) (asCount : α → Except Problem Nat) (key : Key) (v : α) (s : Stem α)
    [hcount : ∀ v, Converts (asCount v)] : Converts (s.set blank asCount key v) := by
  have hresize (n : Nat) : Converts (s.resize blank n) := by
    unfold resize
    infer_instance
  have hplace (i : Nat) : Converts (s.place blank i v) := by
    unfold place
    infer_instance
  unfold set
  split <;> infer_instance

end Stem

namespace Store

mutual
theorem treeWith_converts (follow : Address → Except Failure Tree) [hfollow : ∀ a, Converts (follow a)] (v : Value) :
    Converts (treeWith follow v) := by
  match v with
  | .scalar s => rw [treeWith]; infer_instance
  | .stem a => rw [treeWith]; exact hfollow a
  | .list items =>
    have hitems := treesWith_converts follow items
    rw [treeWith]
    infer_instance
  | .dict entries =>
    have hentries := entriesWith_converts follow entries
    rw [treeWith]
    infer_instance

theorem treesWith_converts (follow : Address → Except Failure Tree) [∀ a, Converts (follow a)] (vs : List Value) :
    Converts (treesWith follow vs) := by
  match vs with
  | [] => rw [treesWith]; infer_instance
  | v :: rest =>
    have hfirst := treeWith_converts follow v
    have hrest := treesWith_converts follow rest
    rw [treesWith]
    infer_instance

theorem entriesWith_converts (follow : Address → Except Failure Tree) [∀ a, Converts (follow a)]
    (entries : List (Value × Value)) : Converts (entriesWith follow entries) := by
  match entries with
  | [] => rw [entriesWith]; infer_instance
  | (k, v) :: rest =>
    have hkey := treeWith_converts follow k
    have hvalue := treeWith_converts follow v
    have hrest := entriesWith_converts follow rest
    rw [entriesWith]
    infer_instance
end

attribute [instance] treeWith_converts treesWith_converts

variable (store : Store)

instance follow_converts (depth : Nat) (a : Address) : Converts (store.follow depth a) := by
  induction depth generalizing a with
  | zero => rw [follow]; exact .error rfl
  | succ depth ih =>
    rw [follow]
    unfold namedWith
    infer_instance

instance (v : Value) : Converts (store.tree v) := by unfold tree; infer_instance

mutual
theorem normalize_converts (v : Value) (store : Store) : Converts (normalize v store) := by
  match v with
  | .scalar s => rw [normalize]; infer_instance
  | .stem a => rw [normalize]; infer_instance
  | .list items =>
    have hitems := normalizeAll_converts items store
    rw [normalize]
    infer_instance
  | .dict entries =>
    have hentries := normalizeEntries_converts entries store
    rw [normalize]
    infer_instance

theorem normalizeAll_converts (vs : List Value) (store : Store) : Converts (normalizeAll vs store) := by
  match vs with
  | [] => rw [normalizeAll]; infer_instance
  | v :: rest =>
    have hfirst := normalize_converts v store
    have hrest (store : Store) := normalizeAll_converts rest store
    rw [normalizeAll]
    infer_instance

theorem normalizeEntries_converts (entries : List (Value × Value)) (store : Store) :
    Converts (normalizeEntries entries store) := by
  match entries with
  | [] => rw [normalizeEntries]; infer_instance
  | (k, v) :: rest =>
    have hvalue := normalize_converts v store
    have hrest (store : Store) := normalizeEntries_converts rest store
    rw [normalizeEntries]
    infer_instance
end

attribute [instance] normalize_converts

theorem unstem_converts (depth : Nat) (v : Value) : Converts (store.unstem depth v) := by
  induction depth generalizing v with
  | zero =>
    cases v with
    | stem a => exact .error rfl
    | scalar _ | list _ | dict _ => exact inferInstanceAs (Converts (.ok _))
  | succ depth ih =>
    cases v with
    | stem a => rw [unstem]; infer_instance
    | scalar _ | list _ | dict _ => exact inferInstanceAs (Converts (.ok _))

instance (v : Value) : Converts (store.plain v) := store.unstem_converts _ v

end Store

/-! ## Variables -/

namespace Memory

variable {α β : Type}

/-- Work on a memory that fails below the language over values only. -/
class Converts (act : Act α) : Prop where
  holds : ∀ mem f mem', act mem = .error (.failure f) mem' → f.isOverValue = true

namespace Converts

instance (a : α) : Converts (pure a : Act α) := ⟨fun _ _ _ h => nomatch h⟩

instance (x : Act α) (k : α → Act β) [hx : Converts x] [hk : ∀ a, Converts (k a)] : Converts (x >>= k) := by
  refine ⟨fun mem f mem' h => ?_⟩
  change EStateM.bind x k mem = _ at h
  unfold EStateM.bind at h
  split at h
  · next a mem₁ _ => exact (hk a).holds mem₁ f mem' h
  · next p mem₁ hp =>
    cases h
    exact hx.holds mem f mem' hp

theorem andThen {x : Act α} {k : α → Act β} [Converts x] (hk : ∀ a, Converts (k a)) : Converts (x >>= k) :=
  inferInstance

instance (f : α → β) (x : Act α) [Converts x] : Converts (f <$> x) := by
  rw [map_eq_pure_bind]
  infer_instance

instance (c : Prop) [Decidable c] (x y : Act α) [Converts x] [Converts y] : Converts (if c then x else y) := by
  split <;> infer_instance

instance : Converts (get : Act Memory) := ⟨fun _ _ _ h => nomatch h⟩

instance (f : Memory → Memory) : Converts (modify f : Act PUnit) := ⟨fun _ _ _ h => nomatch h⟩

instance mapM (f : α → Act β) (l : List α) [hf : ∀ a, Converts (f a)] : Converts (l.mapM f) := by
  induction l with
  | nil => rw [List.mapM_nil]; infer_instance
  | cons a l ih => rw [List.mapM_cons]; infer_instance

end Converts

instance (x : Except Failure α) [hx : Conductor.Converts x] : Converts (liftE x) := by
  cases x with
  | ok a => exact inferInstanceAs (Converts (pure a))
  | error f => exact ⟨fun _ f' _ h => hx.holds f rfl f' (by cases h; rfl)⟩

instance (x : Except Problem α) [hx : Conductor.Converts x] : Converts (liftP x) := by
  cases x with
  | ok a => exact inferInstanceAs (Converts (pure a))
  | error p => exact ⟨fun _ f _ h => hx.holds p rfl f (by cases h; rfl)⟩

instance (f : Store → Except Failure (α × Store)) [hf : ∀ store, Conductor.Converts (f store)] :
    Converts (withStore f) := by
  unfold withStore
  refine .andThen fun mem => ?_
  split
  · infer_instance
  · next e he => exact ⟨fun _ f' _ h => (hf mem.store).holds e he f' (by cases h; rfl)⟩

instance (v : Value) : Converts (tree v) := by unfold tree; infer_instance

instance (s : Stem Value) : Converts (alloc s) := by unfold alloc; infer_instance

instance (t : Tree) : Converts (plant t) := by unfold plant; infer_instance

instance (v : Value) : Converts (normalize v) := by unfold normalize; infer_instance

instance (a : Address) : Converts (stem a) := by unfold stem; infer_instance

instance (name : String) : Conductor.Converts (binding name) := by
  unfold binding
  split
  · exact .error rfl
  · infer_instance

instance (key : Tree) : Converts (keyed key) := by unfold keyed; infer_instance

instance (a : Address) (key : Key) : Converts (stemGet a key) := by unfold stemGet; infer_instance

instance (a : Address) (key : Key) (v : Value) : Converts (stemSet a key v) := by unfold stemSet; infer_instance

instance descend_converts (v : Value) (tail : List Tree) : Converts (descend v tail) := by
  fun_induction descend v tail <;> infer_instance

instance (name : String) (tail : List Tree) : Converts (read name tail) := by unfold read; infer_instance

instance (key : String) (v : Value) : Converts (bind key v) := by unfold bind; infer_instance

instance (a : Address) (key : Tree) : Converts (childStem a key) := by
  unfold childStem
  refine .andThen fun k => .andThen fun v => ?_
  split
  · infer_instance
  · refine .andThen fun w => ?_
    split <;> infer_instance

instance writeBelow_converts (v : Value) (a : Address) (tail : List Tree) : Converts (writeBelow v a tail) := by
  fun_induction writeBelow v a tail <;> infer_instance

instance (name : String) (v : Value) (tail : List Tree) : Converts (write name v tail) := by
  unfold write
  refine .andThen fun key => ?_
  split
  · infer_instance
  · refine .andThen fun mem => ?_
    split
    · infer_instance
    · refine .andThen fun w => ?_
      split <;> infer_instance

instance (name : String) : Converts (has name) := by unfold has; infer_instance

instance (reference : String) : Converts (readPath reference) := by
  unfold readPath
  split <;> infer_instance

end Memory

instance (p : Interpolation.Pattern) (part : Interpolation.Part) : Memory.Converts (part.filled p Memory.readPath) := by
  unfold Interpolation.Part.filled
  split
  · infer_instance
  · split <;> infer_instance

instance (p : Interpolation.Pattern) (text : String) : Memory.Converts (Interpolation.apply p text) := by
  unfold Interpolation.apply Interpolation.fill
  infer_instance

end Conductor
