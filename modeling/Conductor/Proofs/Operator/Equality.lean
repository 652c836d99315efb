import Conductor.Proofs.Memory.Decoding
import Conductor.Proofs.Run.Builtins
import Conductor.Proofs.Text.Integers
import Mathlib.Data.Char

/-!
# Loose equality

Two values are equal if both denote one integer, or if neither denotes a number and their texts agree but for the
blanks around them. Which of the two comparisons is made depends on both sides, so this is an equivalence only because a
side alone decides whether it is a number: an integer is one, a text is one with or without the blanks around it,
and the text of a stem begins with a bracket and never is.
-/

set_option autoImplicit false

namespace Conductor

/-! ## The order of texts -/

namespace Text

theorem compareChars_eq_iff (cs ds : List Char) : compareChars cs ds = .eq ↔ cs = ds := by
  induction cs generalizing ds with
  | nil => cases ds <;> simp [compareChars]
  | cons c cs ih =>
    cases ds with
    | nil => simp [compareChars]
    | cons d ds =>
      rw [compareChars, List.cons.injEq, ← ih]
      rcases lt_trichotomy c d with h | rfl | h
      · simp [h, h.ne]
      · simp
      · simp [h, h.not_gt, h.ne']

theorem compare_eq_iff (s t : String) : compare s t = .eq ↔ s = t := by
  rw [compare, compareChars_eq_iff, String.toList_inj]

theorem not_isNumeral_of_mem {s : String} {c : Char} (hc : c ∈ s.toList)
    (hforeign : isBlank c = false ∧ Syntax.isDecimalMark c = false ∧ isDecimal c = false) : isNumeral s = false := by
  obtain ⟨hblank, hmark, hdecimal⟩ := hforeign
  rw [Bool.eq_false_iff]
  intro hnumeral
  rcases Syntax.mem_decimal hnumeral (mem_stripWhile hc hblank) with h | h
  · exact Bool.false_ne_true (hmark.symm.trans h)
  · exact Bool.false_ne_true (hdecimal.symm.trans h)

end Text

/-! ## Plain data in the interchange format -/

namespace Tree

/-- Lists, and dictionaries with texts as keys, of texts and of integers that have a text. -/
inductive Portable : Tree → Prop
  | int {n : Int} (h : n.natAbs < Nat.pow 10 digitLimit) : Portable (.int n)
  | text (s : String) : Portable (.text s)
  | list {items : List Tree} (h : ∀ t ∈ items, Portable t) : Portable (.list items)
  | dict {named : List (String × Tree)} (h : ∀ e ∈ named, Portable e.2) : Portable (.dict (textKeys named))

end Tree

namespace Json

theorem writeAll_ok {style : Style} {items : List Tree} (h : ∀ t ∈ items, ∃ s, write style t = .ok s) :
    ∃ texts, writeAll style items = .ok texts := by
  induction items with
  | nil => exact ⟨[], by rw [writeAll]⟩
  | cons t rest ih =>
    obtain ⟨s, hs⟩ := h t List.mem_cons_self
    obtain ⟨texts, htexts⟩ := ih fun t ht => h t (List.mem_cons_of_mem _ ht)
    exact ⟨s :: texts, by rw [writeAll, hs, htexts]; rfl⟩

theorem writeEntries_ok {style : Style} {named : List (String × Tree)} (h : ∀ e ∈ named, ∃ s, write style e.2 = .ok s) :
    ∃ texts, writeEntries style (Tree.textKeys named) = .ok texts := by
  induction named with
  | nil => exact ⟨[], by rw [Tree.textKeys, List.map_nil, writeEntries]⟩
  | cons e rest ih =>
    obtain ⟨s, hs⟩ := h e List.mem_cons_self
    obtain ⟨texts, htexts⟩ := ih fun e he => h e (List.mem_cons_of_mem _ he)
    rw [Tree.textKeys] at htexts
    refine ⟨(text e.1 ++ style.colon ++ s) :: texts, ?_⟩
    rw [Tree.textKeys, List.map_cons, writeEntries, key, hs, htexts]
    rfl

theorem enclose_begins (style : Style) (left right : String) (entries : List String) :
    ∃ rest, style.enclose left right entries = left ++ rest := by
  unfold Style.enclose
  split
  · exact ⟨right, rfl⟩
  · cases style <;> simp only [String.append_assoc] <;> exact ⟨_, rfl⟩

end Json

namespace Tree

theorem Portable.write_ok {t : Tree} (h : t.Portable) (style : Json.Style) : ∃ s, Json.write style t = .ok s := by
  induction h generalizing style with
  | @int n h => exact ⟨toString n, by rw [Json.write, Json.scalar, Text.integerText_eq h]⟩
  | text s => exact ⟨Json.text s, by rw [Json.write, Json.scalar]⟩
  | list _ ih =>
    obtain ⟨texts, htexts⟩ := Json.writeAll_ok fun t ht => ih t ht style.deeper
    exact ⟨style.enclose "[" "]" texts, by rw [Json.write, htexts]; rfl⟩
  | dict _ ih =>
    obtain ⟨texts, htexts⟩ := Json.writeEntries_ok fun e he => ih e he style.deeper
    exact ⟨style.enclose "\x7b" "\x7d" texts, by rw [Json.write, htexts]; rfl⟩

inductive Compound : Tree → Prop
  | list (items : List Tree) : Compound (.list items)
  | dict (entries : List (Tree × Tree)) : Compound (.dict entries)

theorem Compound.not_isNumeral {t : Tree} (h : t.Compound) {style : Json.Style} {s : String}
    (hs : Json.write style t = .ok s) : isNumeral s = false := by
  cases h with
  | list items =>
    rw [Json.write] at hs
    obtain ⟨texts, -, hs⟩ := bind_eq_ok_iff.mp hs
    obtain ⟨rest, hrest⟩ := Json.enclose_begins style "[" "]" texts
    obtain rfl : "[" ++ rest = s := hrest ▸ Except.ok.inj hs
    exact Text.not_isNumeral_of_mem (show '[' ∈ _ by simp) ⟨rfl, rfl, rfl⟩
  | dict entries =>
    rw [Json.write] at hs
    obtain ⟨texts, -, hs⟩ := bind_eq_ok_iff.mp hs
    obtain ⟨rest, hrest⟩ := Json.enclose_begins style "\x7b" "\x7d" texts
    obtain rfl : "\x7b" ++ rest = s := hrest ▸ Except.ok.inj hs
    exact Text.not_isNumeral_of_mem (show '\x7b' ∈ _ by simp) ⟨rfl, rfl, rfl⟩

theorem plainStem_compound (items : List Tree) (named : List (String × Tree)) : (plainStem items named).Compound := by
  unfold plainStem
  split
  · exact .list items
  · split <;> exact .dict _

theorem plainStem_portable {items : List Tree} {named : List (String × Tree)} (hitems : ∀ t ∈ items, t.Portable)
    (hnamed : ∀ e ∈ named, e.2.Portable) : (plainStem items named).Portable := by
  unfold plainStem
  split
  · exact .list hitems
  · split
    · exact .dict hnamed
    · exact .dict (Table.forall_putAll (fun e he => hitems e.2 (List.of_mem_zip he).2) hnamed)

/-! ## Values of integers and texts -/

/-- An integer that has a text, a text, or a stem of such values. A text in the shape of a number is an integer numeral. -/
inductive Integral : Tree → Prop
  | int {n : Int} (h : n.natAbs < Nat.pow 10 digitLimit) : Integral (.int n)
  | text {s : String} (h : isNumeral s = true → ∃ n, Text.Denotes s n) : Integral (.text s)
  | stem {items : List Tree} {named : List (String × Tree)} (hitems : ∀ t ∈ items, Integral t)
      (hnamed : ∀ e ∈ named, Integral e.2) : Integral (.stem items named)

/-- The integer that a value is, or that a text is a numeral of. -/
inductive Denotes : Tree → Int → Prop
  | int (n : Int) : Denotes (.int n) n
  | text {s : String} {n : Int} (h : Text.Denotes s n) : Denotes (.text s) n

def Denoting (t : Tree) : Prop := ∃ n, t.Denotes n

/-- Both denote one integer, or neither denotes any and the texts agree but for the blanks around them. -/
def Alike (a b : Tree) : Prop :=
  (∃ n, a.Denotes n ∧ b.Denotes n) ∨
    ¬ a.Denoting ∧ ¬ b.Denoting ∧ ∃ s t, a.shown = .ok s ∧ b.shown = .ok t ∧ Text.strip s = Text.strip t

theorem Denotes.unique {t : Tree} {n k : Int} (h : t.Denotes n) (h' : t.Denotes k) : n = k := by
  cases h with
  | int => cases h'; rfl
  | text h =>
    cases h' with
    | text h' => exact h.unique h'

theorem Denotes.number {t : Tree} {n : Int} (h : t.Denotes n) : t.number = .ok (.int n) := by
  cases h with
  | int => rfl
  | text h =>
    obtain ⟨hnumeral, hread⟩ := h.reads
    simp only [Tree.number, Scalar.number?, hnumeral, if_true, hread]
    rfl

namespace Integral

variable {a b : Tree}

theorem unstem_portable (h : a.Integral) : (unstem a).Portable := by
  induction h with
  | int h => exact .int h
  | text => exact .text _
  | stem _ _ ihitems ihnamed =>
    rw [unstem, unstemAll_eq, unstemNamed_eq]
    exact plainStem_portable (List.forall_mem_map.mpr ihitems) (List.forall_mem_map.mpr ihnamed)

theorem isNumeric_iff (h : a.Integral) : a.isNumeric = true ↔ a.Denoting := by
  cases h with
  | @int n => exact iff_of_true rfl ⟨n, .int n⟩
  | text h => exact ⟨fun hnumeral => (h hnumeral).imp fun n => .text, fun ⟨n, .text h⟩ => h.reads.1⟩
  | stem => exact iff_of_false (by simp [isNumeric]) nofun

theorem shown_ok (h : a.Integral) : ∃ s, a.shown = .ok s ∧ isNumeral s = a.isNumeric := by
  cases h with
  | @int n h =>
    exact ⟨toString n, by rw [shown, Scalar.shown, Text.integerText_eq h], (Text.denotes_toString h).reads.1⟩
  | @text s => exact ⟨s, rfl, rfl⟩
  | @stem items named hitems hnamed =>
    obtain ⟨s, hs⟩ := (unstem_portable (.stem hitems hnamed)).write_ok .flat
    refine ⟨s, by rw [shown, hs], ?_⟩
    rw [unstem] at hs
    exact (plainStem_compound _ _).not_isNumeral hs

/-! ## The comparison -/

/-- The order of two such values is that of equals exactly if they are alike. -/
theorem looseOrder_ok (ha : a.Integral) (hb : b.Integral) : ∃ o, a.looseOrder b = .ok o ∧ (o = .eq ↔ a.Alike b) := by
  obtain ⟨s, hs, hsnumeral⟩ := ha.shown_ok
  obtain ⟨t, ht, htnumeral⟩ := hb.shown_ok
  by_cases hboth : a.Denoting ∧ b.Denoting
  · -- two numbers
    have hnumeric : (a.isNumeric && b.isNumeric) = true := by
      rw [ha.isNumeric_iff.mpr hboth.1, hb.isNumeric_iff.mpr hboth.2]
      rfl
    obtain ⟨⟨n, hn⟩, k, hk⟩ := hboth
    refine ⟨Ord.compare n k, by rw [looseOrder, if_pos hnumeric, hn.number, hk.number]; rfl, ?_⟩
    rw [compare_eq_iff_eq]
    constructor
    · rintro rfl
      exact .inl ⟨n, hn, hk⟩
    · rintro (⟨j, hj, hj'⟩ | ⟨hnone, -⟩)
      · rw [hn.unique hj, hk.unique hj']
      · exact absurd ⟨n, hn⟩ hnone
  · -- texts, of which one may be a numeral, but then the other is none
    have hnumeric : ¬ (a.isNumeric && b.isNumeric) = true := by
      rw [Bool.and_eq_true, ha.isNumeric_iff, hb.isNumeric_iff]
      exact hboth
    have horder : a.looseOrder b = .ok (Text.compare (Text.strip s) (Text.strip t)) := by
      rw [looseOrder, if_neg hnumeric, shownText, hs, shownText, ht]
      rfl
    refine ⟨_, horder, ?_⟩
    rw [Text.compare_eq_iff]
    constructor
    · intro hsame
      have hkind : a.isNumeric = b.isNumeric := by rw [← hsnumeral, ← htnumeral, Text.isNumeral_of_strip hsame]
      have hkind : a.Denoting ↔ b.Denoting := by rw [← ha.isNumeric_iff, ← hb.isNumeric_iff, hkind]
      exact .inr ⟨fun h => hboth ⟨h, hkind.mp h⟩, fun h => hboth ⟨hkind.mpr h, h⟩, s, t, hs, ht, hsame⟩
    · rintro (⟨n, hn, hn'⟩ | ⟨-, -, s', t', hs', ht', hsame⟩)
      · exact absurd ⟨⟨n, hn⟩, n, hn'⟩ hboth
      · obtain rfl : s = s' := Except.ok.inj (hs.symm.trans hs')
        obtain rfl : t = t' := Except.ok.inj (ht.symm.trans ht')
        exact hsame

theorem alike_self (h : a.Integral) : a.Alike a := by
  by_cases hdenotes : a.Denoting
  · obtain ⟨n, hn⟩ := hdenotes
    exact .inl ⟨n, hn, hn⟩
  · obtain ⟨s, hs, -⟩ := h.shown_ok
    exact .inr ⟨hdenotes, hdenotes, s, s, hs, hs, rfl⟩

end Integral

namespace Alike

variable {a b c : Tree}

theorem symm (h : a.Alike b) : b.Alike a := by
  rcases h with ⟨n, ha, hb⟩ | ⟨ha, hb, s, t, hs, ht, hsame⟩
  · exact .inl ⟨n, hb, ha⟩
  · exact .inr ⟨hb, ha, t, s, ht, hs, hsame.symm⟩

theorem trans (h : a.Alike b) (h' : b.Alike c) : a.Alike c := by
  rcases h with ⟨n, ha, hb⟩ | ⟨ha, hb, s, t, hs, ht, hsame⟩ <;>
    rcases h' with ⟨k, hb', hc⟩ | ⟨hb', hc, t', u, ht', hu, hsame'⟩
  · exact .inl ⟨n, ha, hb.unique hb' ▸ hc⟩
  · exact absurd ⟨n, hb⟩ hb'
  · exact absurd ⟨k, hb'⟩ hb
  · obtain rfl : t = t' := Except.ok.inj (ht.symm.trans ht')
    exact .inr ⟨ha, hc, s, u, hs, hu, hsame.trans hsame'⟩

theorem denoting_iff (h : a.Alike b) : a.Denoting ↔ b.Denoting := by
  rcases h with ⟨n, ha, hb⟩ | ⟨ha, hb, -⟩
  · exact iff_of_true ⟨n, ha⟩ ⟨n, hb⟩
  · exact iff_of_false ha hb

end Alike

end Tree

/-! ## The operator -/

namespace Play

/-- The operator answers for every two such values, and says whether they are alike. -/
theorem binary_eq_apply {m : Machine} {v w : Value} {a b : Tree} (hv : m.world.store.tree v = .ok a)
    (hw : m.world.store.tree w = .ok b) (ha : a.Integral) (hb : b.Integral) (line : Nat) :
    ∃ r : Bool, binary .eq line v w m = .done (.ofBool r) m ∧ (r = true ↔ a.Alike b) := by
  obtain ⟨o, horder, halike⟩ := ha.looseOrder_ok hb
  refine ⟨o.isEq, ?_, by rw [← halike, Ordering.isEq_iff_eq_eq]⟩
  simp only [binary, Run.bind_apply, tree_apply hv, tree_apply hw, Step.bind, Operator.binary, Operator.comparing, horder]
  rfl

/-- Loose equality of integers with at most as many digits as have a text, of texts that are numerals of such integers or
no numbers, and of stems of such values. It always has an answer. Two values are equal exactly if both are numbers and
denote one integer, or neither is a number and their texts agree but for the blanks around them; a number is never
equal to what is none. So it is an equivalence. -/
theorem loose_equality (line : Nat) (m : Machine) :
    (∀ (v w : Value) (a b : Tree),
      m.world.store.tree v = .ok a → m.world.store.tree w = .ok b → a.Integral → b.Integral →
      (a.isNumeric = true ↔ a.Denoting) ∧
      ∃ r : Bool, binary .eq line v w m = .done (.ofBool r) m ∧ (r = true ↔ a.Alike b) ∧
        (a.isNumeric ≠ b.isNumeric → r = false)) ∧
    Equivalence fun v w : {v : Value // ∃ t, m.world.store.tree v = .ok t ∧ t.Integral} =>
      binary .eq line v.1 w.1 m = .done (.ofBool true) m := by
  -- two values are equal exactly if what they look like is alike
  have hequal {v w : Value} {a b : Tree} (hv : m.world.store.tree v = .ok a) (hw : m.world.store.tree w = .ok b)
      (ha : a.Integral) (hb : b.Integral) : binary .eq line v w m = .done (.ofBool true) m ↔ a.Alike b := by
    obtain ⟨r, hr, halike⟩ := binary_eq_apply hv hw ha hb line
    rw [hr, ← halike]
    cases r <;> simp [Value.ofBool]
  refine ⟨fun v w a b hv hw ha hb => ⟨ha.isNumeric_iff, ?_⟩, ⟨?_, ?_, ?_⟩⟩
  · obtain ⟨r, hr, halike⟩ := binary_eq_apply hv hw ha hb line
    refine ⟨r, hr, halike, fun hkinds => ?_⟩
    rw [Bool.eq_false_iff]
    intro htrue
    refine hkinds (Bool.eq_iff_iff.mpr ?_)
    rw [ha.isNumeric_iff, hb.isNumeric_iff]
    exact (halike.mp htrue).denoting_iff
  · rintro ⟨v, a, hv, ha⟩
    exact (hequal hv hv ha ha).mpr ha.alike_self
  · rintro ⟨v, a, hv, ha⟩ ⟨w, b, hw, hb⟩ h
    exact (hequal hw hv hb ha).mpr ((hequal hv hw ha hb).mp h).symm
  · rintro ⟨v, a, hv, ha⟩ ⟨w, b, hw, hb⟩ ⟨x, c, hx, hc⟩ h h'
    exact (hequal hv hx ha hc).mpr (((hequal hv hw ha hb).mp h).trans ((hequal hw hx hb hc).mp h'))

def mixedHolding : Machine := { world := { store := { stems := #[⟨[.text "seven", .int 7], []⟩] } } }

theorem denotes_padded_seven : Text.Denotes " +007 " 7 := by
  have hblank : ∀ c ∈ [' '], Text.isBlank c = true := List.forall_mem_singleton.mpr rfl
  have hvalues : Text.DigitsOf ['0', '0', '7'] [0, 0, 7] := .cons rfl (.cons rfl (.cons rfl .nil))
  exact @Text.Denotes.intro [' '] ['+'] ['0', '0', '7'] [' '] 1 [0, 0, 7] hblank hblank .plus (List.cons_ne_nil _ _)
    hvalues (by decide)

theorem seven_integral : (Tree.int 7).Integral := by
  refine .int ?_
  have hlimit : 1 ≤ digitLimit := by decide
  generalize digitLimit = limit at hlimit
  calc
    7 < 10 ^ 1 := by decide
    _ ≤ 10 ^ limit := Nat.pow_le_pow_right (by decide) hlimit

/-- A numeral with a sign, zeros and blanks equals its integer, and it does not equal the stem. -/
theorem loose_equality_padded :
    binary .eq 1 (.text " +007 ") (.int 7) mixedHolding = .done (.int 1) mixedHolding ∧
      binary .eq 1 (.stem 0) (.text " +007 ") mixedHolding = .done (.int 0) mixedHolding := by
  obtain ⟨hvalues, -⟩ := loose_equality 1 mixedHolding
  have hpadded : (Tree.text " +007 ").Integral := .text fun _ => ⟨7, denotes_padded_seven⟩
  have hseven : (Tree.text "seven").Integral := .text fun h => absurd h (by decide)
  have hstem : (Tree.stem [.text "seven", .int 7] []).Integral :=
    .stem (by simpa using ⟨hseven, seven_integral⟩) (by simp)
  obtain ⟨-, r, hr, halike, -⟩ := hvalues (.text " +007 ") (.int 7) _ _ rfl rfl hpadded seven_integral
  obtain ⟨-, r', hr', -, hapart⟩ := hvalues (.stem 0) (.text " +007 ") _ _ rfl rfl hstem hpadded
  obtain rfl : r = true := halike.mpr (.inl ⟨7, .text denotes_padded_seven, .int 7⟩)
  obtain rfl : r' = false := hapart (by decide)
  exact ⟨hr, hr'⟩

end Play

end Conductor
