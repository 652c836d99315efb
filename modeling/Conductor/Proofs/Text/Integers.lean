import Conductor.Proofs.Memory.Oversized
import Conductor.Proofs.Syntax.Numeral
import Conductor.Proofs.Text.Blanks
import Mathlib.Data.Nat.Digits.Defs

/-!
# Integer numerals

An integer numeral is digits behind a sign or none, with blanks around them, and it is read as the integer that its digits
make. The text of an integer is a numeral of that integer. Whether a text is a numeral at all is seen without the blanks
around it.
-/

set_option autoImplicit false

namespace Conductor

namespace Text

inductive SignOf : List Char → Int → Prop
  | none : SignOf [] 1
  | plus : SignOf ['+'] 1
  | minus : SignOf ['-'] (-1)

def DigitsOf (ds : List Char) (values : List Nat) : Prop := List.Forall₂ (fun c d => decimalValue? c = some d) ds values

/-- An integer numeral of no more digits than are converted, and the integer that it denotes. -/
inductive Denotes : String → Int → Prop
  | intro {lead sign ds trail : List Char} {factor : Int} {values : List Nat} (hlead : ∀ c ∈ lead, isBlank c = true)
      (htrail : ∀ c ∈ trail, isBlank c = true) (hsign : SignOf sign factor) (hne : ds ≠ []) (hvalues : DigitsOf ds values)
      (hlimit : ds.length ≤ digitLimit) :
      Denotes (String.ofList (lead ++ (sign ++ ds ++ trail))) (factor * (Nat.ofDigits 10 values.reverse : Nat))

theorem DigitsOf.isDecimal {ds : List Char} {values : List Nat} (h : DigitsOf ds values) :
    ∀ c ∈ ds, Text.isDecimal c = true := by
  intro c hc
  obtain ⟨d, -, hd⟩ := forall₂_mem_right h.flip hc
  rw [← isSome_decimalValue, hd]
  rfl

theorem naturalFrom_eq_some_iff {m n : Nat} {ds : List Char} :
    Decimal.naturalFrom m ds = some n ↔
      ∃ values, DigitsOf ds values ∧ n = 10 ^ ds.length * m + Nat.ofDigits 10 values.reverse := by
  induction ds generalizing m with
  | nil => simp [Decimal.naturalFrom, DigitsOf, List.forall₂_nil_left_iff, eq_comm]
  | cons c rest ih =>
    have hplace (d : Nat) (values : List Nat) (h : values.length = rest.length) :
        10 ^ rest.length * (m * 10 + d) + Nat.ofDigits 10 values.reverse =
          10 ^ (rest.length + 1) * m + Nat.ofDigits 10 (d :: values).reverse := by
      rw [List.reverse_cons, Nat.ofDigits_append, List.length_reverse, h, Nat.ofDigits_singleton]
      ring
    rw [Decimal.naturalFrom]
    cases hc : decimalValue? c with
    | none => simp [DigitsOf, List.forall₂_cons_left_iff, hc]
    | some d =>
      rw [ih]
      constructor
      · rintro ⟨values, hvalues, rfl⟩
        exact ⟨d :: values, .cons hc hvalues, hplace d values hvalues.length_eq.symm⟩
      · rintro ⟨_, hvalues, rfl⟩
        obtain ⟨e, values, he, hrest, rfl⟩ := List.forall₂_cons_left_iff.mp hvalues
        obtain rfl : d = e := Option.some.inj (hc.symm.trans he)
        exact ⟨values, hrest, (hplace d values hrest.length_eq.symm).symm⟩

theorem natural_of_digits {ds : List Char} {values : List Nat} (hne : ds ≠ []) (h : DigitsOf ds values) :
    Decimal.natural? ds = some (Nat.ofDigits 10 values.reverse) := by
  rw [Decimal.natural?, if_neg (by simpa using hne)]
  exact naturalFrom_eq_some_iff.mpr ⟨values, h, by simp⟩

/-! ## Reading -/

theorem takeSign_signed {sign ds : List Char} {factor : Int} (hsign : SignOf sign factor) (hne : ds ≠ [])
    (hds : ∀ c ∈ ds, isDecimal c = true) :
    ∃ negative : Bool, Decimal.takeSign (sign ++ ds) = (negative, ds) ∧ factor = if negative then -1 else 1 := by
  cases hsign with
  | none =>
    refine ⟨false, Syntax.takeSign_unsigned ?_, rfl⟩
    obtain ⟨c, rest, rfl⟩ := List.exists_cons_of_ne_nil hne
    intro d hd
    obtain rfl : c = d := Option.some.inj hd
    exact Syntax.ne_sign_of_isDigit (isDigit_of_isDecimal (hds c List.mem_cons_self))
  | plus => exact ⟨false, rfl, rfl⟩
  | minus => exact ⟨true, rfl, rfl⟩

theorem isDecimal_or_sign {sign ds : List Char} {factor : Int} (hsign : SignOf sign factor)
    (hds : ∀ c ∈ ds, isDecimal c = true) : ∀ c ∈ sign ++ ds, c = '+' ∨ c = '-' ∨ isDecimal c = true := by
  intro c hc
  rcases List.mem_append.mp hc with hc | hc
  · cases hsign with
    | none => cases hc
    | plus => exact .inl (List.mem_singleton.mp hc)
    | minus => exact .inr (.inl (List.mem_singleton.mp hc))
  · exact .inr (.inr (hds c hc))

section

variable {sign ds : List Char} {factor : Int} {values : List Nat} (hsign : SignOf sign factor) (hne : ds ≠ [])
  (hvalues : DigitsOf ds values)

include hsign hne hvalues

theorem decimal_signed : (Decimal.decimal? (sign ++ ds)).isSome = true := by
  obtain ⟨negative, htake, -⟩ := takeSign_signed hsign hne hvalues.isDecimal
  rw [Syntax.isSome_decimal, htake]
  dsimp only
  rw [List.dropWhile_eq_nil_iff.mpr hvalues.isDecimal, List.takeWhile_eq_self_iff.mpr hvalues.isDecimal]
  exact ⟨by simp [hne], rfl⟩

theorem numberOfNumeral_signed (hlimit : ds.length ≤ digitLimit) :
    numberOfNumeral (sign ++ ds) = .ok (.int (factor * (Nat.ofDigits 10 values.reverse : Nat))) := by
  obtain ⟨negative, htake, hfactor⟩ := takeSign_signed hsign hne hvalues.isDecimal
  have hmark : ((sign ++ ds).any fun c => c == '.' || c == 'e' || c == 'E') = false := by
    rw [List.any_eq_false]
    intro c hc hmark
    simp only [Bool.or_eq_true, beq_iff_eq] at hmark
    rcases isDecimal_or_sign hsign hvalues.isDecimal c hc with rfl | rfl | hdecimal
    · simp at hmark
    · simp at hmark
    · rcases hmark with (rfl | rfl) | rfl <;> cases hdecimal
  have hshort : ¬ digitLimit < ds.length := Nat.not_lt.mpr hlimit
  simp only [numberOfNumeral, hmark, Bool.false_eq_true, if_false, integerOfNumeral, htake, hshort, decide_false,
    Bool.false_and, natural_of_digits hne hvalues, hfactor]
  cases negative <;> simp [Except.map]

omit hne in
theorem ends_signed : (∀ c ∈ (sign ++ ds).head?, isBlank c = false) ∧ ∀ c ∈ (sign ++ ds).getLast?, isBlank c = false := by
  have hblank : ∀ c ∈ sign ++ ds, isBlank c = false := by
    intro c hc
    rcases isDecimal_or_sign hsign hvalues.isDecimal c hc with rfl | rfl | hdecimal
    · rfl
    · rfl
    · exact isBlank_of_isDigit (isDigit_of_isDecimal hdecimal)
  exact ⟨fun c hc => hblank c (List.mem_of_mem_head? hc), fun c hc => hblank c (List.mem_of_mem_getLast? hc)⟩

end

/-- An integer numeral is a numeral, and it is read as its integer. -/
theorem Denotes.reads {s : String} {n : Int} (h : Denotes s n) :
    isNumeral s = true ∧ numberOfNumeral (stripWhile isBlank s.toList) = .ok (.int n) := by
  obtain @⟨lead, sign, ds, trail, factor, values, hlead, htrail, hsign, hne, hvalues, hlimit⟩ := h
  obtain ⟨hfirst, hlast⟩ := ends_signed hsign hvalues
  have hstrip : stripWhile isBlank (String.ofList (lead ++ (sign ++ ds ++ trail))).toList = sign ++ ds := by
    rw [String.toList_ofList]
    exact stripWhile_between hlead htrail (by simp [hne]) hfirst hlast
  rw [isNumeral, hstrip]
  exact ⟨decimal_signed hsign hne hvalues, numberOfNumeral_signed hsign hne hvalues hlimit⟩

theorem Denotes.unique {s : String} {n k : Int} (h : Denotes s n) (h' : Denotes s k) : n = k := by
  have heq := h.reads.2.symm.trans h'.reads.2
  injection heq with heq
  injection heq

theorem isNumeral_of_strip {s t : String} (h : strip s = strip t) : isNumeral s = isNumeral t := by
  have hlists : stripWhile isBlank s.toList = stripWhile isBlank t.toList := String.ofList_injective h
  rw [isNumeral, isNumeral, hlists]

/-! ## The texts of integers -/

theorem integerText_eq {n : Int} (h : n.natAbs < Nat.pow 10 digitLimit) : integerText n = .ok (toString n) := by
  unfold integerText
  split
  · rfl
  · rw [if_neg (Nat.not_le.mpr h)]

theorem denotes_digits {sign : List Char} {factor : Int} (hsign : SignOf sign factor) {n : Nat}
    (h : n < Nat.pow 10 digitLimit) : Denotes (String.ofList (sign ++ Nat.toDigits 10 n)) (factor * n) := by
  have hread : Decimal.naturalFrom 0 (Nat.toDigits 10 n) = some n := by
    rw [Syntax.naturalFrom_digits _ Syntax.digits_ascii, Nat.ofDigitChars_toDigits (by decide) (by decide)]
  obtain ⟨values, hvalues, hn⟩ := naturalFrom_eq_some_iff.mp hread
  have hdenotes := Denotes.intro (List.forall_mem_nil _) (List.forall_mem_nil _) hsign Nat.toDigits_ne_nil hvalues
    (Syntax.length_digits (by decide) h)
  rwa [List.nil_append, List.append_nil, show Nat.ofDigits 10 values.reverse = n by omega] at hdenotes

theorem denotes_toString {n : Int} (h : n.natAbs < Nat.pow 10 digitLimit) : Denotes (toString n) n := by
  cases n with
  | ofNat k =>
    have hdenotes := denotes_digits .none h
    have htext : toString (Int.ofNat k) = String.ofList ([] ++ Nat.toDigits 10 k) := by
      rw [← String.toList_inj, String.toList_ofList]
      exact Nat.toList_repr
    rwa [htext, show Int.ofNat k = 1 * (k : Int) by simp]
  | negSucc k =>
    have hdenotes := denotes_digits .minus (show k + 1 < Nat.pow 10 digitLimit from h)
    have htext : toString (Int.negSucc k) = String.ofList (['-'] ++ Nat.toDigits 10 (k + 1)) := by
      rw [← String.toList_inj, String.toList_ofList]
      change ("-" ++ Nat.repr (k + 1)).toList = _
      rw [String.toList_append, Nat.toList_repr]
      rfl
    rwa [htext, show Int.negSucc k = -1 * ((k + 1 : Nat) : Int) by omega]

end Text

end Conductor
