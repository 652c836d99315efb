import Conductor.Proofs.Syntax.Lexeme
import Mathlib.Data.List.TakeWhile
import Mathlib.Tactic.Common

/-!
# Numerals

The shape of a numeral: digits, a fraction, an exponent. The tokenizer takes any digit for
one, the grammar and the conversions only decimal ones; where a conversion succeeds the
three agree, and a numeral of the tokenizer's that is not converted has a digit that is not
decimal, or is whole and too long.
-/

set_option autoImplicit false

namespace Conductor

namespace Text

theorem isDigit_of_isDecimal {c : Char} (h : isDecimal c = true) : isDigit c = true := by
  by_contra hc
  rw [isDecimal_of_isDigit (Bool.eq_false_iff.mpr hc)] at h
  cases h

theorem decimalValue_lt {c : Char} {d : Nat} (h : decimalValue? c = some d) : d < 10 := by
  unfold decimalValue? at h
  split at h
  · split at h
    · next hascii =>
      obtain rfl := Option.some.inj h
      have hle : 48 ≤ c.toNat ∧ c.toNat ≤ 57 := Char.isDigit_iff_toNat.mp hascii
      omega
    · cases h
  · obtain ⟨r, -, rfl⟩ := Option.map_eq_some_iff.mp h
    exact Nat.mod_lt _ (by decide)

theorem isSome_decimalValue (c : Char) : (decimalValue? c).isSome = isDecimal c := by
  unfold decimalValue? isDecimal
  split
  · split <;> simp_all
  · rw [Option.isSome_map, inRanges, Bool.eq_iff_iff, List.find?_isSome, List.any_eq_true]

theorem digits_apart : ascending 0 blankRanges = true ∧ apart 1000 decimalRanges blankRanges = true ∧
    apart 1000 digitRanges blankRanges = true := by
  decide +kernel

theorem isBlank_of_isDigit {c : Char} (h : isDigit c = true) : isBlank c = false := by
  unfold isDigit at h
  unfold isBlank
  split at h
  · next hascii =>
    have hle : 48 ≤ c.toNat ∧ c.toNat ≤ 57 := Char.isDigit_iff_toNat.mp h
    rw [if_pos hascii]
    simp only [Bool.or_eq_false_iff, Bool.and_eq_false_iff, beq_eq_false_iff_ne, decide_eq_false_iff_not]
    omega
  · next hascii =>
    obtain ⟨hblanks, hdecimal, hdigit⟩ := digits_apart
    obtain ⟨-, hdecimals, hdigits, -, -⟩ := letters_apart
    rw [if_neg hascii]
    rcases (Bool.or_eq_true _ _).mp h with h | h
    · exact inRanges_of_apart hdecimals hblanks hdecimal h
    · exact inRanges_of_apart hdigits hblanks hdigit h

theorem alphanumerics_apart : ascending 0 numericRanges = true ∧ apart 1000 letterRanges blankRanges = true ∧
    apart 1000 numericRanges blankRanges = true := by
  decide +kernel

theorem isBlank_of_isWordChar {c : Char} (h : isWordChar c = true) : isBlank c = false := by
  rcases (Bool.or_eq_true _ _).mp h with h | h
  · unfold isAlphanumeric at h
    split at h
    · next hascii =>
      rcases Bool.or_eq_true_iff.mp h with hletter | hdigit
      · have hletter := toNat_of_isAlpha hletter
        unfold isBlank
        rw [if_pos hascii]
        simp only [Bool.or_eq_false_iff, Bool.and_eq_false_iff, beq_eq_false_iff_ne, decide_eq_false_iff_not]
        omega
      · exact isBlank_of_isDigit (isDigit_ascii hdigit).1
    · next hascii =>
      obtain ⟨hblanks, -, -⟩ := digits_apart
      obtain ⟨hletters, -, -, -, -⟩ := letters_apart
      obtain ⟨hnumerics, hletter, hnumeric⟩ := alphanumerics_apart
      rcases (Bool.or_eq_true _ _).mp h with h | h
      · rcases (Bool.or_eq_true _ _).mp h with h | h
        · rw [isLetter, if_neg hascii] at h
          rw [isBlank, if_neg hascii]
          exact inRanges_of_apart hletters hblanks hletter h
        · exact isBlank_of_isDigit h
      · rw [isBlank, if_neg hascii]
        exact inRanges_of_apart hnumerics hblanks hnumeric h
  · rw [eq_of_beq h]
    rfl

theorem isBlank_of_isLineBreak {c : Char} (h : isLineBreak c = true) : isBlank c = true := by
  simp only [isLineBreak, Bool.or_eq_true, Bool.and_eq_true, decide_eq_true_eq, beq_iff_eq] at h
  unfold isBlank
  split
  · simp only [Bool.or_eq_true, Bool.and_eq_true, decide_eq_true_eq, beq_iff_eq]
    omega
  · have hn : c.toNat = 0x85 ∨ c.toNat = 0x2028 ∨ c.toNat = 0x2029 := by omega
    rcases hn with hn | hn | hn <;> rw [hn] <;> rfl

end Text

namespace Decimal

theorem isSome_naturalFrom (n : Nat) (cs : List Char) : (naturalFrom n cs).isSome = cs.all Text.isDecimal := by
  induction cs generalizing n with
  | nil => rfl
  | cons c rest ih =>
    rw [naturalFrom, List.all_cons, ← Text.isSome_decimalValue]
    cases Text.decimalValue? c with
    | none => rfl
    | some d => exact ih _

theorem isSome_natural (cs : List Char) : (natural? cs).isSome = (!cs.isEmpty && cs.all Text.isDecimal) := by
  unfold natural?
  cases cs with
  | nil => rfl
  | cons c rest => simpa using isSome_naturalFrom 0 (c :: rest)

theorem naturalFrom_lt {n m k : Nat} {cs : List Char} (hn : n < Nat.pow 10 k) (h : naturalFrom n cs = some m) :
    m < Nat.pow 10 (k + cs.length) := by
  induction cs generalizing n k with
  | nil =>
    cases h
    exact hn
  | cons c rest ih =>
    rw [naturalFrom] at h
    split at h
    · next d hd =>
      have hdigit : d < 10 := Text.decimalValue_lt hd
      have hstep : Nat.pow 10 (k + 1) = Nat.pow 10 k * 10 := rfl
      have hbound := ih (k := k + 1) (by omega) h
      rwa [List.length_cons, Nat.add_comm rest.length 1, ← Nat.add_assoc]
    · cases h

theorem natural_lt {n : Nat} {cs : List Char} (h : natural? cs = some n) : n < Nat.pow 10 cs.length := by
  unfold natural? at h
  split at h
  · cases h
  · simpa using naturalFrom_lt (k := 0) (by decide) h

end Decimal

/-- What is converted is no longer than the limit. -/
theorem integerOfNumeral_lt {shown : String} {cs : List Char} {n : Int} (h : integerOfNumeral shown cs = .ok n) :
    n.natAbs < Nat.pow 10 digitLimit := by
  unfold integerOfNumeral at h
  generalize Decimal.takeSign cs = signed at h
  obtain ⟨negative, ds⟩ := signed
  dsimp only at h
  split at h
  · cases h
  next hlimit =>
  split at h
  · next k hk =>
    have hlength : ds.length ≤ digitLimit := by
      have hdecimal := Decimal.isSome_natural ds
      rw [hk, Option.isSome_some, eq_comm, Bool.and_eq_true] at hdecimal
      simpa [hdecimal.2] using hlimit
    have habs : n.natAbs = k := by
      cases negative <;> cases h <;> simp
    rw [habs]
    have hle (limit : Nat) (h : ds.length ≤ limit) : Nat.pow 10 ds.length ≤ Nat.pow 10 limit := Nat.pow_le_pow_right (by decide) h
    exact Nat.lt_of_lt_of_le (Decimal.natural_lt hk) (hle digitLimit hlength)
  · cases h

namespace Syntax

def Halts (p : Char → Bool) (rest : List Char) : Prop := ∀ c ∈ rest.head?, p c = false

theorem halts_nil (p : Char → Bool) : Halts p [] := fun _ h => nomatch h

theorem halts_cons {p : Char → Bool} {c : Char} (h : p c = false) (rest : List Char) : Halts p (c :: rest) :=
  fun _ hd => Option.some.inj hd ▸ h

theorem Halts.take {p : Char → Bool} {rest : List Char} (h : Halts p rest) (m : Nat) : Halts p (rest.take m) := by
  intro c hc
  cases m with
  | zero => cases hc
  | succ m => cases rest with
    | nil => cases hc
    | cons d rest => exact h c hc

theorem takeWhile_halts {p : Char → Bool} {w rest : List Char} (hw : ∀ c ∈ w, p c = true) (hrest : Halts p rest) :
    (w ++ rest).takeWhile p = w := by
  rw [List.takeWhile_append_of_pos hw]
  cases rest with
  | nil => simp
  | cons c rest => simp [hrest c rfl]

theorem dropWhile_halts {p : Char → Bool} {w rest : List Char} (hw : ∀ c ∈ w, p c = true) (hrest : Halts p rest) :
    (w ++ rest).dropWhile p = rest := by
  rw [List.dropWhile_append_of_pos hw]
  cases rest with
  | nil => rfl
  | cons c rest => simp [hrest c rfl]

theorem halts_dropWhile (p : Char → Bool) (cs : List Char) : Halts p (cs.dropWhile p) := by
  intro c hc
  have := List.head?_dropWhile_not p cs
  rw [Option.mem_def.mp hc] at this
  simpa using this

/-! ## Shapes -/

inductive Fraction : List Char → Prop
  | none : Fraction []
  | some {ds : List Char} (hne : ds ≠ []) (hds : ∀ c ∈ ds, Text.isDigit c = true) : Fraction ('.' :: ds)

inductive Exponent : List Char → Prop
  | none : Exponent []
  | some {e : Char} {sign ds : List Char} (he : e = 'e' ∨ e = 'E') (hsign : sign = [] ∨ sign = ['+'] ∨ sign = ['-'])
      (hne : ds ≠ []) (hds : ∀ c ∈ ds, Text.isDigit c = true) : Exponent (e :: (sign ++ ds))

/-- Digits on at least one side of the point, and an exponent. -/
inductive Numeral : List Char → Prop
  | intro {whole fraction exponent : List Char} (hwhole : ∀ c ∈ whole, Text.isDigit c = true)
      (hfraction : Fraction fraction) (hexponent : Exponent exponent) (hne : whole ≠ [] ∨ fraction ≠ []) :
      Numeral (whole ++ (fraction ++ exponent))

theorem Numeral.first {w : List Char} (h : Numeral w) :
    ∃ c rest, w = c :: rest ∧ (Text.isDigit c = true ∨ c = '.') := by
  obtain @⟨whole, fraction, exponent, hwhole, hfraction, hexponent, hne⟩ := h
  cases whole with
  | cons d whole => exact ⟨d, _, rfl, .inl (hwhole d List.mem_cons_self)⟩
  | nil => cases hfraction with
    | none => simp at hne
    | some => exact ⟨'.', _, rfl, .inr rfl⟩

/-- What may follow a numeral. -/
structure Ended (after : List Char) : Prop where
  digit : Halts Text.isDigit after
  word : Halts isWordStart after
  point : Halts (· == '.') after

theorem Ended.take {after : List Char} (h : Ended after) (m : Nat) : Ended (after.take m) :=
  ⟨h.digit.take m, h.word.take m, h.point.take m⟩

theorem halts_exponent {exponent after : List Char} (h : Exponent exponent) {p : Char → Bool} (he : p 'e' = false)
    (hE : p 'E' = false) (hafter : Halts p after) : Halts p (exponent ++ after) := by
  cases h with
  | none => exact hafter
  | some hletter => rcases hletter with rfl | rfl <;> exact halts_cons (by assumption) _

theorem halts_fraction {fraction rest : List Char} (h : Fraction fraction) {p : Char → Bool} (hpoint : p '.' = false)
    (hrest : Halts p rest) : Halts p (fraction ++ rest) := by
  cases h with
  | none => exact hrest
  | some => exact halts_cons hpoint _

def signExtent : List Char → Nat
  | s :: _ => if s == '+' || s == '-' then 1 else 0
  | [] => 0

theorem signExtent_spec (cs : List Char) : ∃ sign tail, cs = sign ++ tail ∧
    (sign = [] ∨ sign = ['+'] ∨ sign = ['-']) ∧ signExtent cs = sign.length := by
  cases cs with
  | nil => exact ⟨[], [], rfl, .inl rfl, rfl⟩
  | cons s more =>
    by_cases hs : s = '+' ∨ s = '-'
    · refine ⟨[s], more, rfl, ?_, ?_⟩
      · rcases hs with rfl | rfl <;> simp
      · rcases hs with rfl | rfl <;> rfl
    · refine ⟨[], s :: more, rfl, .inl rfl, ?_⟩
      simp only [not_or] at hs
      simp [signExtent, hs.1, hs.2]

theorem exponentExtent_cons (e : Char) (rest : List Char) :
    exponentExtent (e :: rest) =
      if e == 'e' || e == 'E' then
        if ((rest.drop (signExtent rest)).takeWhile Text.isDigit).isEmpty then 0
        else 1 + signExtent rest + ((rest.drop (signExtent rest)).takeWhile Text.isDigit).length
      else 0 := by
  cases rest <;> rfl

theorem exponentExtent_spec (cs : List Char) : ∃ exponent after, cs = exponent ++ after ∧ Exponent exponent ∧
    exponentExtent cs = exponent.length ∧ (exponent ≠ [] → Halts Text.isDigit after) := by
  cases cs with
  | nil => exact ⟨[], [], rfl, .none, rfl, nofun⟩
  | cons e rest =>
    rw [exponentExtent_cons]
    by_cases he : (e == 'e' || e == 'E') = true
    · obtain ⟨sign, tail, rfl, hsign, hlength⟩ := signExtent_spec rest
      rw [if_pos he, hlength, List.drop_left]
      by_cases hds : (tail.takeWhile Text.isDigit).isEmpty = true
      · rw [if_pos hds]
        exact ⟨[], e :: (sign ++ tail), rfl, .none, rfl, fun h => absurd rfl h⟩
      · rw [if_neg hds]
        refine ⟨e :: (sign ++ tail.takeWhile Text.isDigit), tail.dropWhile Text.isDigit, ?_, ?_, ?_,
          fun _ => halts_dropWhile _ _⟩
        · rw [List.cons_append, List.append_assoc, List.takeWhile_append_dropWhile]
        · exact .some (by simpa using he) hsign (by simpa using hds) fun c hc => List.mem_takeWhile_imp hc
        · rw [List.length_cons, List.length_append]
          omega
    · rw [if_neg he]
      exact ⟨[], e :: rest, rfl, .none, rfl, fun h => absurd rfl h⟩

def fractionExtent : List Char → Nat
  | '.' :: rest => if startsDigit rest then 1 + (rest.takeWhile Text.isDigit).length else 0
  | _ => 0

theorem fractionExtent_spec {cs : List Char} (h : Halts Text.isDigit cs) : ∃ fraction rest, cs = fraction ++ rest ∧
    Fraction fraction ∧ fractionExtent cs = fraction.length ∧ Halts Text.isDigit rest := by
  unfold fractionExtent
  split
  · next more =>
    cases more with
    | nil => exact ⟨[], ['.'], rfl, .none, rfl, h⟩
    | cons d more =>
      by_cases hd : Text.isDigit d = true
      · refine ⟨'.' :: (d :: more).takeWhile Text.isDigit, (d :: more).dropWhile Text.isDigit, ?_, ?_, ?_,
          halts_dropWhile _ _⟩
        · rw [List.cons_append, List.takeWhile_append_dropWhile]
        · exact .some (by simp [hd]) fun c hc => List.mem_takeWhile_imp hc
        · rw [if_pos (show startsDigit (d :: more) = true from hd), List.length_cons, Nat.add_comm]
      · refine ⟨[], '.' :: d :: more, rfl, .none, ?_, h⟩
        rw [if_neg (show ¬ startsDigit (d :: more) = true from hd), List.length_nil]
  · exact ⟨[], cs, rfl, .none, rfl, h⟩

theorem drop_takeWhile (p : Char → Bool) (cs : List Char) : cs.drop (cs.takeWhile p).length = cs.dropWhile p := by
  have hdrop : (cs.takeWhile p ++ cs.dropWhile p).drop (cs.takeWhile p).length = cs.dropWhile p := List.drop_left
  rwa [List.takeWhile_append_dropWhile] at hdrop

theorem numeralExtent_eq (cs : List Char) :
    numeralExtent cs = (cs.takeWhile Text.isDigit).length + fractionExtent (cs.dropWhile Text.isDigit) +
      exponentExtent ((cs.dropWhile Text.isDigit).drop (fractionExtent (cs.dropWhile Text.isDigit))) := by
  rw [← drop_takeWhile, List.drop_drop]
  rfl

/-- What the tokenizer takes for a numeral. -/
theorem numeralExtent_spec {cs : List Char} (h : startsNumeral cs = true) :
    ∃ w after, cs = w ++ after ∧ Numeral w ∧ numeralExtent cs = w.length ∧ Halts Text.isDigit after := by
  obtain ⟨fraction, rest, hrest, hfraction, hextent, hhalts⟩ := fractionExtent_spec (halts_dropWhile Text.isDigit cs)
  obtain ⟨exponent, after, hafter, hexponent, hlength, hend⟩ := exponentExtent_spec rest
  have hcs : cs = cs.takeWhile Text.isDigit ++ (fraction ++ (exponent ++ after)) := by
    rw [← hafter, ← hrest, List.takeWhile_append_dropWhile]
  refine ⟨cs.takeWhile Text.isDigit ++ (fraction ++ exponent), after, ?_, ?_, ?_, ?_⟩
  · rw [List.append_assoc, List.append_assoc, ← hcs]
  · refine .intro (fun c hc => List.mem_takeWhile_imp hc) hfraction hexponent ?_
    unfold startsNumeral at h
    split at h
    · next more =>
      -- digits follow the point that starts the text
      right
      have hpoint : ('.' :: more).dropWhile Text.isDigit = '.' :: more := rfl
      rw [hpoint, fractionExtent, if_pos h] at hextent
      intro hnone
      rw [hnone, List.length_nil] at hextent
      omega
    · left
      cases cs with
      | nil => cases h
      | cons d more => simp [show Text.isDigit d = true from h]
  · rw [numeralExtent_eq, hextent, hrest, List.drop_left, hlength, List.length_append, List.length_append]
    omega
  · by_cases hnone : exponent = []
    · rw [hafter, hnone] at hhalts
      exact hhalts
    · exact hend hnone

/-! ## What the grammar takes for a numeral -/

/-- Every digit of the text is a decimal one. -/
def Plain (w : List Char) : Prop := ∀ c ∈ w, Text.isDigit c = true → Text.isDecimal c = true

theorem Ended.decimal {after : List Char} (h : Ended after) : Halts Text.isDecimal after :=
  fun c hc => Text.isDecimal_of_isDigit (h.digit c hc)

theorem Exponent.decimal {exponent after : List Char} (h : Exponent exponent) (hafter : Ended after) :
    Halts Text.isDecimal (exponent ++ after) := halts_exponent h rfl rfl hafter.decimal

def decimalExponent : List Char → Nat
  | e :: rest =>
    if e == 'e' || e == 'E' then
      let ds := ((rest.drop (signExtent rest)).takeWhile Text.isDecimal).length
      if ds == 0 then 0 else 1 + signExtent rest + ds
    else 0
  | [] => 0

def decimalFraction : List Char → Nat
  | '.' :: rest => if (rest.takeWhile Text.isDecimal).length == 0 then 0 else 1 + (rest.takeWhile Text.isDecimal).length
  | _ => 0

theorem numberExtent_eq (cs : List Char) :
    Grammar.numberExtent cs =
      if (cs.takeWhile Text.isDecimal).length + decimalFraction (cs.dropWhile Text.isDecimal) == 0 then none
      else some ((cs.takeWhile Text.isDecimal).length + decimalFraction (cs.dropWhile Text.isDecimal) +
        decimalExponent ((cs.dropWhile Text.isDecimal).drop (decimalFraction (cs.dropWhile Text.isDecimal)))) := by
  rw [← drop_takeWhile, List.drop_drop]
  rfl

theorem decimalExponent_exponent {exponent after : List Char} (h : Exponent exponent) (hplain : Plain exponent)
    (hafter : Ended after) : decimalExponent (exponent ++ after) = exponent.length := by
  cases h with
  | none =>
    unfold decimalExponent
    split
    · next e rest hcons =>
      have hword := hafter.word e (by rw [show after = e :: rest from hcons]; rfl)
      rw [if_neg]
      · rfl
      · intro he
        simp only [Bool.or_eq_true, beq_iff_eq] at he
        rcases he with rfl | rfl <;> cases hword
    · rfl
  | @some e sign ds he hsign hne hds =>
    have hextent : signExtent (sign ++ (ds ++ after)) = sign.length := by
      rcases hsign with rfl | rfl | rfl
      · obtain ⟨d, more, rfl⟩ := List.exists_cons_of_ne_nil hne
        have hd := hds d List.mem_cons_self
        have hsigned : (d == '+' || d == '-') = false := by
          simp only [Bool.or_eq_false_iff, beq_eq_false_iff_ne]
          constructor <;> rintro rfl <;> exact absurd hd (by decide)
        simp [signExtent, hsigned]
      · rfl
      · rfl
    have hdecimal : ∀ c ∈ ds, Text.isDecimal c = true := fun c hc => hplain c (by simp [hc]) (hds c hc)
    have hletter : (e == 'e' || e == 'E') = true := by simpa using he
    rw [List.cons_append, List.append_assoc]
    simp only [decimalExponent, hletter, if_true, hextent, List.drop_left, takeWhile_halts hdecimal hafter.decimal]
    rw [if_neg (by simpa using hne)]
    simp only [List.length_cons, List.length_append]
    omega

theorem decimalFraction_fraction {fraction rest : List Char} (h : Fraction fraction) (hplain : Plain fraction)
    (hpoint : Halts (· == '.') rest) (hrest : Halts Text.isDecimal rest) :
    decimalFraction (fraction ++ rest) = fraction.length := by
  cases h with
  | none =>
    unfold decimalFraction
    split
    · next more hmore => exact absurd (hpoint '.' (by rw [show rest = '.' :: more from hmore]; rfl)) (by decide)
    · rfl
  | @some ds hne hds =>
    have hdecimal : ∀ c ∈ ds, Text.isDecimal c = true := fun c hc => hplain c (by simp [hc]) (hds c hc)
    rw [List.cons_append]
    simp only [decimalFraction, takeWhile_halts hdecimal hrest]
    rw [if_neg (by simpa using hne), List.length_cons, Nat.add_comm]

theorem numberExtent_numeral {w after : List Char} (h : Numeral w) (hplain : Plain w) (hafter : Ended after) :
    Grammar.numberExtent (w ++ after) = some w.length := by
  obtain @⟨whole, fraction, exponent, hwhole, hfraction, hexponent, hne⟩ := h
  have hdecimal : ∀ c ∈ whole, Text.isDecimal c = true := fun c hc => hplain c (by simp [hc]) (hwhole c hc)
  have hexp := hexponent.decimal hafter
  have hfrac : Halts Text.isDecimal (fraction ++ (exponent ++ after)) := halts_fraction hfraction rfl hexp
  have hpoint : Halts (· == '.') (exponent ++ after) := halts_exponent hexponent rfl rfl hafter.point
  rw [List.append_assoc, List.append_assoc, numberExtent_eq, takeWhile_halts hdecimal hfrac,
    dropWhile_halts hdecimal hfrac,
    decimalFraction_fraction hfraction (fun c hc => hplain c (by simp [hc])) hpoint hexp, List.drop_left,
    decimalExponent_exponent hexponent (fun c hc => hplain c (by simp [hc])) hafter, if_neg]
  · simp only [List.length_append]
    congr 1
    omega
  · simp only [beq_iff_eq]
    rcases hne with hne | hne <;> have := List.length_pos_iff.mpr hne <;> omega

/-! ## Conversion -/

def isDecimalMark (c : Char) : Bool := c == '+' || c == '-' || c == '.' || c == 'e' || c == 'E'

theorem mem_takeSign {c : Char} {cs : List Char} (h : c ∈ cs) :
    isDecimalMark c = true ∨ c ∈ (Decimal.takeSign cs).2 := by
  unfold Decimal.takeSign
  split
  all_goals first | exact .inr h | (rcases List.mem_cons.mp h with rfl | h <;> [exact .inl rfl; exact .inr h])

theorem mem_takeExponent {cs : List Char} (h : (Decimal.takeExponent cs).2 = []) {c : Char} (hc : c ∈ cs) :
    isDecimalMark c = true ∨ Text.isDecimal c = true := by
  cases cs with
  | nil => cases hc
  | cons e rest =>
    simp only [Decimal.takeExponent, Decimal.spanDigits] at h
    split at h
    · next he =>
      split at h
      · rcases List.mem_cons.mp hc with rfl | hc
        · simp only [Bool.or_eq_true, beq_iff_eq] at he
          rcases he with rfl | rfl <;> exact .inl rfl
        · rcases mem_takeSign hc with hmark | hc
          · exact .inl hmark
          · exact .inr (List.dropWhile_eq_nil_iff.mp h c hc)
      · cases h
    · cases h

def fractionSpan (cs : List Char) : List Char × List Char :=
  match cs with
  | '.' :: after => Decimal.spanDigits Text.isDecimal after
  | _ => ([], cs)

theorem mem_fractionSpan {cs : List Char} {c : Char} (hc : c ∈ cs) :
    isDecimalMark c = true ∨ Text.isDecimal c = true ∨ c ∈ (fractionSpan cs).2 := by
  unfold fractionSpan
  split
  · next after =>
    rcases List.mem_cons.mp hc with rfl | hc
    · exact .inl rfl
    · rw [← List.takeWhile_append_dropWhile (p := Text.isDecimal) (l := after)] at hc
      rcases List.mem_append.mp hc with hc | hc
      · exact .inr (.inl (List.mem_takeWhile_imp hc))
      · exact .inr (.inr hc)
  · exact .inr (.inr hc)

theorem isDecimal_fractionSpan {cs : List Char} {c : Char} (hc : c ∈ (fractionSpan cs).1) :
    Text.isDecimal c = true := by
  unfold fractionSpan at hc
  split at hc
  · exact List.mem_takeWhile_imp hc
  · cases hc

theorem decimal_eq (cs : List Char) :
    Decimal.decimal? cs =
      let ds := (Decimal.takeSign cs).2
      let fraction := fractionSpan (ds.dropWhile Text.isDecimal)
      if (ds.takeWhile Text.isDecimal).isEmpty && fraction.1.isEmpty then none
      else match (Decimal.takeExponent fraction.2).2, Decimal.natural? (ds.takeWhile Text.isDecimal ++ fraction.1) with
        | [], some m => some ⟨(Decimal.takeSign cs).1, m, (Decimal.takeExponent fraction.2).1 - fraction.1.length⟩
        | _, _ => none := rfl

theorem isSome_decimal (cs : List Char) :
    (Decimal.decimal? cs).isSome = true ↔
      let ds := (Decimal.takeSign cs).2
      let fraction := fractionSpan (ds.dropWhile Text.isDecimal)
      (ds.takeWhile Text.isDecimal ++ fraction.1 ≠ [] ∧ (Decimal.takeExponent fraction.2).2 = []) := by
  have hdecimal : ∀ c ∈ (Decimal.takeSign cs).2.takeWhile Text.isDecimal ++
      (fractionSpan ((Decimal.takeSign cs).2.dropWhile Text.isDecimal)).1, Text.isDecimal c = true := by
    rw [List.forall_mem_append]
    exact ⟨fun c hc => List.mem_takeWhile_imp hc, fun c hc => isDecimal_fractionSpan hc⟩
  rw [decimal_eq]
  dsimp only
  generalize fractionSpan ((Decimal.takeSign cs).2.dropWhile Text.isDecimal) = fraction at hdecimal ⊢
  generalize (Decimal.takeSign cs).2.takeWhile Text.isDecimal = whole at hdecimal ⊢
  by_cases hne : whole ++ fraction.1 = []
  · obtain ⟨hwhole, hfraction⟩ := List.append_eq_nil_iff.mp hne
    simp [hwhole, hfraction]
  · obtain ⟨m, hm⟩ := Option.isSome_iff_exists.mp (show (Decimal.natural? (whole ++ fraction.1)).isSome = true by
      rw [Decimal.isSome_natural, Bool.and_eq_true]
      exact ⟨by simpa using hne, List.all_eq_true.mpr hdecimal⟩)
    have hsome : ¬ (whole.isEmpty && fraction.1.isEmpty) = true := by simpa using hne
    rw [if_neg hsome, hm]
    cases (Decimal.takeExponent fraction.2).2 <;> simp [hne]

theorem mem_decimal {cs : List Char} (h : (Decimal.decimal? cs).isSome = true) {c : Char} (hc : c ∈ cs) :
    isDecimalMark c = true ∨ Text.isDecimal c = true := by
  obtain ⟨-, hend⟩ := (isSome_decimal cs).mp h
  rcases mem_takeSign hc with hmark | hc
  · exact .inl hmark
  rw [← List.takeWhile_append_dropWhile (p := Text.isDecimal) (l := (Decimal.takeSign cs).2)] at hc
  rcases List.mem_append.mp hc with hc | hc
  · exact .inr (List.mem_takeWhile_imp hc)
  rcases mem_fractionSpan hc with hmark | hdecimal | hc
  · exact .inl hmark
  · exact .inr hdecimal
  · exact mem_takeExponent hend hc

theorem not_isDigit_of_isDecimalMark {c : Char} (h : isDecimalMark c = true) : Text.isDigit c = false := by
  simp only [isDecimalMark, Bool.or_eq_true, beq_iff_eq] at h
  rcases h with (((rfl | rfl) | rfl) | rfl) | rfl <;> rfl

theorem takeSign_unsigned {cs : List Char} (h : ∀ c ∈ cs.head?, c ≠ '+' ∧ c ≠ '-') :
    Decimal.takeSign cs = (false, cs) := by
  unfold Decimal.takeSign
  split
  · exact absurd rfl (h '-' rfl).2
  · exact absurd rfl (h '+' rfl).1
  · rfl

theorem ne_sign_of_isDigit {c : Char} (h : Text.isDigit c = true) : c ≠ '+' ∧ c ≠ '-' := by
  constructor <;> rintro rfl <;> cases h

theorem Numeral.unsigned {w : List Char} (h : Numeral w) : Decimal.takeSign w = (false, w) := by
  obtain ⟨c, rest, rfl, hc⟩ := h.first
  apply takeSign_unsigned
  intro d hd
  rw [← Option.some.inj hd]
  rcases hc with hc | rfl
  · exact ne_sign_of_isDigit hc
  · decide

theorem takeExponent_exponent {exponent : List Char} (h : Exponent exponent) (hplain : Plain exponent) :
    (Decimal.takeExponent exponent).2 = [] := by
  cases h with
  | none => rfl
  | @some e sign ds he hsign hne hds =>
    have hdecimal : ∀ c ∈ ds, Text.isDecimal c = true := fun c hc => hplain c (by simp [hc]) (hds c hc)
    have htail : (Decimal.takeSign (sign ++ ds)).2 = ds := by
      rcases hsign with rfl | rfl | rfl
      · rw [List.nil_append, takeSign_unsigned]
        obtain ⟨d, more, rfl⟩ := List.exists_cons_of_ne_nil hne
        exact fun c hc => Option.some.inj hc ▸ ne_sign_of_isDigit (hds d List.mem_cons_self)
      · rfl
      · rfl
    have hletter : (e == 'e' || e == 'E') = true := by simpa using he
    have hwhole : ds.takeWhile Text.isDecimal = ds := List.takeWhile_eq_self_iff.mpr hdecimal
    obtain ⟨m, hm⟩ := Option.isSome_iff_exists.mp (show (Decimal.natural? ds).isSome = true by
      rw [Decimal.isSome_natural, Bool.and_eq_true]
      exact ⟨by simpa using hne, List.all_eq_true.mpr hdecimal⟩)
    simp only [Decimal.takeExponent, Decimal.spanDigits, hletter, if_true, htail, hwhole, hm]
    exact List.dropWhile_eq_nil_iff.mpr hdecimal

theorem isSome_decimal_numeral {w : List Char} (h : Numeral w) (hplain : Plain w) :
    (Decimal.decimal? w).isSome = true := by
  rw [isSome_decimal, h.unsigned]
  dsimp only
  obtain @⟨whole, fraction, exponent, hwhole, hfraction, hexponent, hne⟩ := h
  have hdecimal : ∀ c ∈ whole, Text.isDecimal c = true := fun c hc => hplain c (by simp [hc]) (hwhole c hc)
  have hexp : Halts Text.isDecimal exponent := by
    rw [← List.append_nil exponent]
    exact halts_exponent hexponent rfl rfl (halts_nil _)
  have hfrac : Halts Text.isDecimal (fraction ++ exponent) := halts_fraction hfraction rfl hexp
  have hend := takeExponent_exponent hexponent fun c hc => hplain c (by simp [hc])
  rw [takeWhile_halts hdecimal hfrac, dropWhile_halts hdecimal hfrac]
  cases hfraction with
  | none =>
    have hspan : fractionSpan ([] ++ exponent) = ([], exponent) := by
      cases hexponent with
      | none => rfl
      | some he => rcases he with rfl | rfl <;> rfl
    rw [hspan]
    exact ⟨by simpa using hne, hend⟩
  | @some ds hnonempty hds =>
    have hds' : ∀ c ∈ ds, Text.isDecimal c = true := fun c hc => hplain c (by simp [hc]) (hds c hc)
    have hspan : fractionSpan ('.' :: ds ++ exponent) = (ds, exponent) := by
      simp only [fractionSpan, List.cons_append, Decimal.spanDigits, takeWhile_halts hds' hexp,
        dropWhile_halts hds' hexp]
    rw [hspan]
    exact ⟨by simp [hnonempty], hend⟩

def Whole (w : List Char) : Prop := ∀ c ∈ w, Text.isDigit c = true

theorem any_mark_iff {w : List Char} (h : Numeral w) :
    (w.any fun c => c == '.' || c == 'e' || c == 'E') = false ↔ Whole w := by
  simp only [List.any_eq_false, Whole]
  constructor
  · intro hnone
    obtain @⟨whole, fraction, exponent, hwhole, hfraction, hexponent, -⟩ := h
    cases hfraction with
    | some => exact absurd (hnone '.' (by simp)) (by decide)
    | none => cases hexponent with
      | none => simpa using hwhole
      | @some e _ _ he =>
        have hletter := hnone e (by simp)
        rcases he with rfl | rfl <;> exact absurd rfl hletter
  · intro hwhole c hc hmark
    have hdigit := hwhole c hc
    simp only [Bool.or_eq_true, beq_iff_eq] at hmark
    rcases hmark with (rfl | rfl) | rfl <;> cases hdigit

/-- What of a numeral cannot be converted: digits that are not decimal, and too many digits without point and
exponent. -/
theorem numberOfNumeral_error_iff {w : List Char} (h : Numeral w) :
    (∃ f, numberOfNumeral w = .error f) ↔ ¬ Plain w ∨ (Whole w ∧ digitLimit < w.length) := by
  by_cases hwhole : Whole w
  · have hmark := (any_mark_iff h).mpr hwhole
    have hall : w.all Text.isDecimal = true ↔ Plain w := by
      rw [List.all_eq_true]
      exact ⟨fun hall c hc _ => hall c hc, fun hplain c hc => hplain c hc (hwhole c hc)⟩
    have hne : w ≠ [] := by
      obtain ⟨c, rest, rfl, -⟩ := h.first
      exact List.cons_ne_nil c rest
    have hnatural := Decimal.isSome_natural w
    simp only [numberOfNumeral, hmark, Bool.false_eq_true, if_false, integerOfNumeral, h.unsigned]
    by_cases hplain : Plain w
    · have hdecimal := hall.mpr hplain
      obtain ⟨m, hm⟩ := Option.isSome_iff_exists.mp (show (Decimal.natural? w).isSome = true by
        rw [hnatural, hdecimal]
        simpa using hne)
      by_cases hlong : digitLimit < w.length
      · simp [hlong, hdecimal, hwhole, Except.map]
      · simp [hlong, hm, hplain, Except.map]
    · have hdecimal : w.all Text.isDecimal = false := Bool.eq_false_iff.mpr fun hd => hplain (hall.mp hd)
      rw [hdecimal, Bool.and_false, Option.isSome_eq_false_iff, Option.isNone_iff_eq_none] at hnatural
      simp [hdecimal, hnatural, hplain, Except.map]
  · have hmark : (w.any fun c => c == '.' || c == 'e' || c == 'E') = true := by
      rw [← Bool.not_eq_false]
      exact fun hnone => hwhole ((any_mark_iff h).mp hnone)
    simp only [numberOfNumeral, hmark, if_true, hwhole, false_and, or_false]
    by_cases hplain : Plain w
    · obtain ⟨d, hd⟩ := Option.isSome_iff_exists.mp (isSome_decimal_numeral h hplain)
      simp [hd, hplain]
    · have hnone : Decimal.decimal? w = none := by
        rw [← Option.not_isSome_iff_eq_none]
        intro hsome
        refine hplain fun c hc hdigit => (mem_decimal hsome hc).resolve_left fun hmark => ?_
        rw [not_isDigit_of_isDecimalMark hmark] at hdigit
        cases hdigit
      simp [hnone, hplain]

theorem kind_of_numberOfNumeral {w : List Char} {f : Failure} (h : numberOfNumeral w = .error f) :
    f.kind = "ValueError" := by
  unfold numberOfNumeral integerOfNumeral at h
  dsimp only at h
  split at h
  · split at h
    · cases h
    · cases h
      rfl
  split at h
  · cases h
    rfl
  · split at h
    · cases h
    · cases h
      rfl

theorem plain_of_numberOfNumeral {w : List Char} (h : Numeral w) {k : Number} (hk : numberOfNumeral w = .ok k) :
    Plain w := by
  by_contra hplain
  obtain ⟨f, hf⟩ := (numberOfNumeral_error_iff h).mpr (.inl hplain)
  rw [hk] at hf
  cases hf

end Syntax

end Conductor
