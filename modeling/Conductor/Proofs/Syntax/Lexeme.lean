import Conductor.Proofs.Syntax.Written
import Conductor.Proofs.Text.Pieces

/-!
# Lexemes

What the tokenizer and the terminals of the grammar find at the start of a text that begins
with a lexeme of an expression and goes on with a space or not at all: the whole lexeme.
-/

set_option autoImplicit false

namespace Conductor

/-! ## Classes of characters -/

namespace Text

def ascending (low : Nat) : List (Nat × Nat) → Bool
  | [] => true
  | r :: rest => Nat.ble low r.1 && Nat.ble r.1 r.2 && ascending r.2 rest

theorem inRanges_cons {r : Nat × Nat} {t : List (Nat × Nat)} {n : Nat} :
    inRanges (r :: t) n = true ↔ (r.1 ≤ n ∧ n ≤ r.2) ∨ inRanges t n = true := by
  simp [inRanges]

theorem ascending_tail {low : Nat} {r : Nat × Nat} {t : List (Nat × Nat)} (h : ascending low (r :: t) = true) :
    ascending r.2 t = true := ((Bool.and_eq_true _ _).mp h).2

theorem le_of_ascending {low n : Nat} {t : List (Nat × Nat)} (h : ascending low t = true) (hn : inRanges t n = true) :
    low ≤ n := by
  induction t generalizing low with
  | nil => cases hn
  | cons r t ih =>
    simp only [ascending, Bool.and_eq_true, Nat.ble_eq] at h
    rcases inRanges_cons.mp hn with hr | ht
    · omega
    · have := ih h.2 ht
      omega

theorem first_le_of_ascending {low n : Nat} {r : Nat × Nat} {t : List (Nat × Nat)}
    (h : ascending low (r :: t) = true) (hn : inRanges (r :: t) n = true) : r.1 ≤ n := by
  refine le_of_ascending (t := r :: t) ?_ hn
  simp only [ascending, Bool.and_eq_true, Nat.ble_eq] at h ⊢
  exact ⟨⟨Nat.le_refl _, h.1.2⟩, h.2⟩

def apart : Nat → List (Nat × Nat) → List (Nat × Nat) → Bool
  | _, [], _ => true
  | _, _, [] => true
  | 0, _, _ => false
  | n + 1, r :: t, s :: u =>
    if Nat.blt r.2 s.1 then apart n t (s :: u) else if Nat.blt s.2 r.1 then apart n (r :: t) u else false

theorem inRanges_of_apart {k low low' n : Nat} {t u : List (Nat × Nat)} (ht : ascending low t = true)
    (hu : ascending low' u = true) (h : apart k t u = true) (hn : inRanges t n = true) : inRanges u n = false := by
  rw [Bool.eq_false_iff]
  intro hn'
  fun_induction apart k t u generalizing low low' with
  | case1 => cases hn
  | case2 => cases hn'
  | case3 => cases h
  | case4 k r t s u hlt ih =>
    have hs := first_le_of_ascending hu hn'
    rcases inRanges_cons.mp hn with hr | htail
    · have := Nat.blt_eq.mp hlt
      omega
    · exact ih (ascending_tail ht) hu h htail hn'
  | case5 k r t s u _ hlt ih =>
    have hr := first_le_of_ascending ht hn
    rcases inRanges_cons.mp hn' with hs | htail
    · have := Nat.blt_eq.mp hlt
      omega
    · exact ih ht (ascending_tail hu) h hn htail
  | case6 => cases h

theorem letters_apart : ascending 0 letterRanges = true ∧ ascending 0 decimalRanges = true ∧
    ascending 0 digitRanges = true ∧ apart 1000 letterRanges decimalRanges = true ∧
    apart 1000 letterRanges digitRanges = true := by
  decide +kernel

theorem toNat_of_isAlpha {c : Char} (h : c.isAlpha = true) :
    (65 ≤ c.toNat ∧ c.toNat ≤ 90) ∨ (97 ≤ c.toNat ∧ c.toNat ≤ 122) := by
  rcases Bool.or_eq_true_iff.mp h with hupper | hlower
  · exact .inl (of_decide_eq_true hupper)
  · obtain ⟨hfrom, hto⟩ := Bool.and_eq_true_iff.mp hlower
    exact .inr ⟨of_decide_eq_true hfrom, of_decide_eq_true hto⟩

theorem isDigit_of_isLetter {c : Char} (h : isLetter c = true) : isDigit c = false := by
  unfold isLetter at h
  unfold isDigit
  split at h
  · next hascii =>
    rw [if_pos hascii]
    have hletter := toNat_of_isAlpha h
    rw [Bool.eq_false_iff, ne_eq, Char.isDigit_iff_toNat]
    rintro ⟨hfrom, hto⟩
    simp only [Char.reduceToNat] at hfrom hto
    omega
  · next hascii =>
    obtain ⟨hletters, hdecimals, hdigits, hdecimal, hdigit⟩ := letters_apart
    rw [if_neg hascii, inRanges_of_apart hletters hdecimals hdecimal h, inRanges_of_apart hletters hdigits hdigit h]
    rfl

theorem isAlphanumeric_of_isLetter {c : Char} (h : isLetter c = true) : isAlphanumeric c = true := by
  have h' := h
  unfold isLetter at h'
  unfold isAlphanumeric
  split at h'
  · next hascii => rw [if_pos hascii, Char.isAlphanum, h', Bool.true_or]
  · next hascii => rw [if_neg hascii, h, Bool.true_or, Bool.true_or]

theorem isDecimal_of_isDigit {c : Char} (h : isDigit c = false) : isDecimal c = false := by
  unfold isDigit at h
  unfold isDecimal
  split at h
  · next hascii => rw [if_pos hascii, h]
  · next hascii => rw [if_neg hascii, (Bool.or_eq_false_iff.mp h).1]

theorem isDigit_ascii {c : Char} (h : c.isDigit = true) :
    isDigit c = true ∧ isDecimal c = true ∧ decimalValue? c = some (c.toNat - '0'.toNat) := by
  have hascii : c.toNat < 128 := by
    simp only [Char.isDigit, Bool.and_eq_true, decide_eq_true_eq, ge_iff_le, UInt32.le_iff_toNat_le] at h
    have h57 : c.val.toNat ≤ 57 := h.2
    exact Nat.lt_of_le_of_lt h57 (by decide)
  simp [isDigit, isDecimal, decimalValue?, hascii, h]

end Text

namespace Syntax

theorem isDigit_of_isWordStart {c : Char} (h : isWordStart c = true) : Text.isDigit c = false := by
  simp only [isWordStart, Bool.or_eq_true, beq_iff_eq] at h
  rcases h with (((h | rfl) | rfl) | rfl) | rfl
  · exact Text.isDigit_of_isLetter h
  all_goals rfl

theorem isIdentifierStart_of_isWordStart {c : Char} (h : isWordStart c = true) :
    Grammar.isIdentifierStart c = true := by
  have hdecimal := Text.isDecimal_of_isDigit (isDigit_of_isWordStart h)
  simp only [isWordStart, Bool.or_eq_true, beq_iff_eq] at h
  rcases h with (((h | rfl) | rfl) | rfl) | rfl
  · simp [Grammar.isIdentifierStart, Text.isWordChar, Text.isAlphanumeric_of_isLetter h, hdecimal]
  all_goals rfl

theorem isIdentifierPart_eq : Grammar.isIdentifierPart = isWordPart := rfl

/-! ## What follows a lexeme -/

def Apart (rest : List Char) : Prop := ∀ c ∈ rest.head?, c = ' '

theorem Apart.cases {rest : List Char} (h : Apart rest) : rest = [] ∨ ∃ more, rest = ' ' :: more := by
  cases rest with
  | nil => exact .inl rfl
  | cons c more => exact .inr ⟨more, by rw [h c rfl]⟩

theorem apart_nil : Apart [] := fun _ h => nomatch h

theorem apart_cons (rest : List Char) : Apart (' ' :: rest) := fun _ h => (Option.some.inj h).symm

theorem takeWhile_apart {p : Char → Bool} (hp : p ' ' = false) {w rest : List Char} (hw : ∀ c ∈ w, p c = true)
    (hrest : Apart rest) : (w ++ rest).takeWhile p = w := by
  rw [List.takeWhile_append_of_pos hw]
  obtain rfl | ⟨more, rfl⟩ := hrest.cases <;> simp [hp]

/-! ## Numerals -/

section

variable {n : Nat} {rest : List Char}

theorem digits_ascii : ∀ c ∈ Nat.toDigits 10 n, c.isDigit = true := fun _ h =>
  Nat.isDigit_of_mem_toDigits (by decide) (by decide) h

theorem naturalFrom_digits (ds : List Char) (h : ∀ c ∈ ds, c.isDigit = true) (m : Nat) :
    Decimal.naturalFrom m ds = some (Nat.ofDigitChars 10 ds m) := by
  induction ds generalizing m with
  | nil => rfl
  | cons c rest ih =>
    obtain ⟨hc, hrest⟩ := List.forall_mem_cons.mp h
    rw [Decimal.naturalFrom, (Text.isDigit_ascii hc).2.2, Nat.ofDigitChars_cons, Nat.mul_comm]
    exact ih hrest _

theorem digits_cons (n : Nat) : ∃ d ds, Nat.toDigits 10 n = d :: ds ∧ d.isDigit = true := by
  cases hds : Nat.toDigits 10 n with
  | nil => exact absurd hds Nat.toDigits_ne_nil
  | cons d ds => exact ⟨d, ds, rfl, digits_ascii d (hds ▸ List.mem_cons_self)⟩

theorem takeSign_digit {d : Char} (hd : d.isDigit = true) (ds : List Char) :
    Decimal.takeSign (d :: ds) = (false, d :: ds) := by
  unfold Decimal.takeSign
  split
  · next h => exact absurd hd (by rw [(List.cons.inj h).1]; decide)
  · next h => exact absurd hd (by rw [(List.cons.inj h).1]; decide)
  · rfl

theorem length_digits {k : Nat} (hk : 0 < k) (hn : n < Nat.pow 10 k) : (Nat.toDigits 10 n).length ≤ k :=
  (Nat.length_toDigits_le_iff (by decide) hk).mpr hn

theorem numberOfNumeral_digits (hn : n < Nat.pow 10 digitLimit) :
    numberOfNumeral (Nat.toDigits 10 n) = .ok (.int n) := by
  have hplain : ((Nat.toDigits 10 n).any fun c => c == '.' || c == 'e' || c == 'E') = false := by
    rw [List.any_eq_false]
    intro c hc h
    have hdigit := digits_ascii c hc
    simp only [Bool.or_eq_true, beq_iff_eq] at h
    rcases h with (rfl | rfl) | rfl <;> exact absurd hdigit (by decide)
  have hsign : Decimal.takeSign (Nat.toDigits 10 n) = (false, Nat.toDigits 10 n) := by
    obtain ⟨d, ds, hds, hd⟩ := digits_cons n
    rw [hds, takeSign_digit hd]
  have hlength : ¬ digitLimit < (Nat.toDigits 10 n).length := Nat.not_lt.mpr (length_digits (by decide) hn)
  have hvalue : Decimal.natural? (Nat.toDigits 10 n) = some n := by
    rw [Decimal.natural?, if_neg (by simp [Nat.toDigits_ne_nil]), naturalFrom_digits _ digits_ascii,
      Nat.ofDigitChars_toDigits (by decide) (by decide)]
  simp [numberOfNumeral, hplain, integerOfNumeral, hsign, hlength, hvalue, Except.map]

theorem numeralExtent_digits (hrest : Apart rest) :
    numeralExtent (Nat.toDigits 10 n ++ rest) = (Nat.toDigits 10 n).length := by
  have hwhole : (Nat.toDigits 10 n ++ rest).takeWhile Text.isDigit = Nat.toDigits 10 n :=
    takeWhile_apart rfl (fun c hc => (Text.isDigit_ascii (digits_ascii c hc)).1) hrest
  simp only [numeralExtent, hwhole, List.drop_left]
  obtain rfl | ⟨more, rfl⟩ := hrest.cases <;> simp [exponentExtent]

theorem lexeme_digits (hn : n < Nat.pow 10 digitLimit) (hrest : Apart rest) :
    lexeme (Nat.toDigits 10 n ++ rest) = .ok (.number (.int n), (Nat.toDigits 10 n).length) := by
  obtain ⟨d, ds, hds, hd⟩ := digits_cons n
  have hquote : (d == '\'' || d == '"') = false := by
    simp only [Bool.or_eq_false_iff, beq_eq_false_iff_ne]
    constructor <;> rintro rfl <;> exact absurd hd (by decide)
  have hstarts : startsNumeral (d :: (ds ++ rest)) = true := by
    unfold startsNumeral
    split
    · next h => exact absurd hd (by rw [(List.cons.inj h).1]; decide)
    · exact (Text.isDigit_ascii hd).1
  have hextent := numeralExtent_digits (n := n) hrest
  have hnumber := numberOfNumeral_digits hn
  have htail : lexeme.number (d :: (ds ++ rest)) (d :: ds).length = .ok (.number (.int n), (d :: ds).length) := by
    rw [lexeme.number, ← List.cons_append, List.take_left, ← hds, hnumber]
  rw [hds] at hextent ⊢
  rw [List.cons_append] at hextent ⊢
  simp only [lexeme, hquote, hstarts, hextent, if_false, if_true, Bool.false_eq_true]
  have hdrop : (d :: (ds ++ rest)).drop (d :: ds).length = rest := by rw [← List.cons_append, List.drop_left]
  rw [hdrop]
  obtain rfl | ⟨more, rfl⟩ := hrest.cases
  · exact htail
  · exact htail

theorem writable_int {n : Int} (h : (Literal.number (.int n)).writable = true) :
    ∃ k : Nat, n = k ∧ k < Nat.pow 10 digitLimit := by
  simp only [Literal.writable, Bool.and_eq_true, decide_eq_true_eq] at h
  obtain ⟨k, rfl⟩ := Int.eq_ofNat_of_zero_le h.1
  exact ⟨k, rfl, Int.ofNat_lt.mp h.2⟩

theorem toList_natural (n : Nat) : (Literal.number (.int n)).lexeme.toList = Nat.toDigits 10 n := Nat.toList_repr

theorem numberExtent_digits (hrest : Apart rest) :
    Grammar.numberExtent (Nat.toDigits 10 n ++ rest) = some (Nat.toDigits 10 n).length := by
  have hwhole : (Nat.toDigits 10 n ++ rest).takeWhile Text.isDecimal = Nat.toDigits 10 n :=
    takeWhile_apart rfl (fun c hc => (Text.isDigit_ascii (digits_ascii c hc)).2.1) hrest
  simp only [Grammar.numberExtent, hwhole, List.drop_left]
  obtain rfl | ⟨more, rfl⟩ := hrest.cases <;> simp [Nat.toDigits_ne_nil]

end

/-! ## Strings -/

theorem stringBody_other {quote c : Char} (hc : c ≠ quote) (n : Nat) (out rest : List Char) :
    stringBody quote n out (c :: rest) = stringBody quote (n + 1) (c :: out) rest := by
  cases rest <;> simp [stringBody, hc]

theorem stringBody_doubled (quote : Char) (s : List Char) {rest : List Char} (hquote : quote ≠ ' ')
    (hrest : Apart rest) (n : Nat) (out : List Char) :
    stringBody quote n out (doubled quote s ++ quote :: rest) =
      some (out.reverse ++ s, n + (doubled quote s).length + 1) := by
  induction s generalizing n out with
  | nil =>
    obtain rfl | ⟨more, rfl⟩ := hrest.cases
    · simp [doubled, stringBody]
    · simp [doubled, stringBody, Ne.symm hquote]
  | cons c s ih =>
    have hcons : doubled quote (c :: s) = (if c == quote then [quote, quote] else [c]) ++ doubled quote s := rfl
    by_cases hc : c = quote
    · subst hc
      simp only [hcons, beq_self_eq_true, if_true, List.cons_append, List.nil_append, stringBody, ih]
      simp only [List.reverse_cons, List.append_assoc, List.cons_append, List.nil_append, List.length_cons,
        Option.some.injEq, Prod.mk.injEq, true_and]
      omega
    · have hne : (c == quote) = false := beq_eq_false_iff_ne.mpr hc
      simp only [hcons, hne, if_false, Bool.false_eq_true, List.cons_append, List.nil_append, stringBody_other hc, ih]
      simp only [List.reverse_cons, List.append_assoc, List.cons_append, List.nil_append, List.length_cons,
        Option.some.injEq, Prod.mk.injEq, true_and]
      omega

theorem lexeme_enquoted {quote : Char} (hquote : quote = '\'' ∨ quote = '"') (s : String) {rest : List Char}
    (hrest : Apart rest) :
    lexeme ((enquoted quote s).toList ++ rest) = .ok (.string s quote, (enquoted quote s).toList.length) := by
  have hbody := stringBody_doubled quote s.toList (by rcases hquote with rfl | rfl <;> decide) hrest 1 []
  have hopen : (quote == '\'' || quote == '"') = true := by rcases hquote with rfl | rfl <;> rfl
  simp only [enquoted, String.toList_ofList, List.cons_append, List.append_assoc, List.nil_append, lexeme, hopen,
    if_true, hbody, List.reverse_nil, String.ofList_toList]
  simp only [List.length_cons, List.length_append, List.length_nil]
  congr 2
  omega

def Shut (quote : Char) (rest : List Char) : Prop := ∀ c ∈ rest.head?, c ≠ quote

theorem Apart.shut {quote : Char} (hquote : quote ≠ ' ') {rest : List Char} (h : Apart rest) : Shut quote rest := by
  intro c hc
  rw [h c hc]
  exact hquote.symm

theorem closingExtent_other {quote c : Char} (hc : c ≠ quote) (rest : List Char) :
    Grammar.closingExtent quote (c :: rest) = (Grammar.closingExtent quote rest).map (· + 1) := by
  cases rest <;> simp [Grammar.closingExtent, hc]

theorem closingExtent_doubled (quote : Char) (s : List Char) {rest : List Char} (hrest : Shut quote rest) :
    Grammar.closingExtent quote (doubled quote s ++ quote :: rest) = some ((doubled quote s).length + 1) := by
  induction s with
  | nil =>
    cases rest with
    | nil => simp [doubled, Grammar.closingExtent]
    | cons d more =>
      have hd : d ≠ quote := hrest d rfl
      simp [doubled, Grammar.closingExtent, hd]
  | cons c s ih =>
    by_cases hc : c = quote
    · have hcons : doubled quote (c :: s) = quote :: quote :: doubled quote s := by simp [doubled, hc]
      rw [hcons, List.cons_append, List.cons_append, Grammar.closingExtent, ih]
      simp
    · have hcons : doubled quote (c :: s) = c :: doubled quote s := by simp [doubled, hc]
      rw [hcons, List.cons_append, closingExtent_other hc, ih]
      simp

theorem stringExtent_enquoted {quote : Char} (hquote : quote = '\'' ∨ quote = '"') (s : String) {rest : List Char}
    (hrest : Apart rest) :
    Grammar.stringExtent quote ((enquoted quote s).toList ++ rest) = some (enquoted quote s).toList.length := by
  have hspace : quote ≠ ' ' := by rcases hquote with rfl | rfl <;> decide
  have hclose := closingExtent_doubled quote s.toList (hrest.shut hspace)
  simp [enquoted, Grammar.stringExtent, hclose]

theorem piecesFrom_doubled (quote : Char) (s piece : List Char) :
    [quote].intercalate (Text.piecesFrom [quote, quote] 0 piece (doubled quote s)) = piece.reverse ++ s := by
  induction s generalizing piece with
  | nil => simp [doubled, Text.piecesFrom]
  | cons c s ih =>
    by_cases hc : c = quote
    · have hcons : doubled quote (c :: s) = quote :: quote :: doubled quote s := by simp [doubled, hc]
      have hrest := ih []
      rw [hcons, Text.piecesFrom, if_pos (by simp [List.isPrefixOf]), hc]
      obtain ⟨first, more, hmore⟩ := List.exists_cons_of_ne_nil
        (Text.piecesFrom_ne_nil [quote, quote] 0 [] (doubled quote s))
      simp only [List.length_cons, List.length_nil, Nat.add_one_sub_one, Text.piecesFrom]
      rw [hmore] at hrest ⊢
      rw [List.intercalate_cons_cons, hrest]
      simp
    · have hcons : doubled quote (c :: s) = c :: doubled quote s := by simp [doubled, hc]
      rw [hcons, Text.piecesFrom, if_neg (by simp [List.isPrefixOf, Ne.symm hc]), ih]
      simp

theorem unquote_doubled (quote : Char) (s : List Char) :
    Grammar.unquote (quote :: (doubled quote s ++ [quote])) = String.ofList s := by
  have hjoined := piecesFrom_doubled quote s []
  rw [← String.toList_inj]
  simp only [Grammar.unquote, Text.replaceAll, Text.pieces, String.toList_intercalate, List.dropLast_concat,
    String.toList_ofList, List.map_map]
  have hmap : (String.toList ∘ String.ofList) = id := funext fun cs => String.toList_ofList
  rw [hmap, List.map_id, String.toList_singleton, hjoined]
  simp

theorem unquote_enquoted (quote : Char) (s : String) : Grammar.unquote (enquoted quote s).toList = s := by
  rw [enquoted, String.toList_ofList, unquote_doubled, String.ofList_toList]

/-! ## Words -/

theorem isWord_cons {s : String} (h : isWord s = true) :
    ∃ c cs, s.toList = c :: cs ∧ isWordStart c = true ∧ ∀ d ∈ cs, isWordPart d = true := by
  unfold isWord at h
  split at h
  · next c cs hs =>
    rw [Bool.and_eq_true, List.all_eq_true] at h
    exact ⟨c, cs, hs, h.1, h.2⟩
  · cases h

theorem lexeme_word {s : String} (h : isWord s = true) {rest : List Char} (hrest : Apart rest) :
    lexeme (s.toList ++ rest) = .ok (.word s, s.toList.length) := by
  obtain ⟨c, cs, hs, hc, hcs⟩ := isWord_cons h
  have hdigit := isDigit_of_isWordStart hc
  have hquote : (c == '\'' || c == '"') = false := by
    simp only [Bool.or_eq_false_iff, beq_eq_false_iff_ne]
    constructor <;> rintro rfl <;> exact absurd hc (by decide)
  have hstarts : startsNumeral (c :: (cs ++ rest)) = false := by
    unfold startsNumeral
    split
    · next h => exact absurd hc (by rw [(List.cons.inj h).1]; decide)
    · exact hdigit
  have htail : (cs ++ rest).takeWhile isWordPart = cs := takeWhile_apart rfl hcs hrest
  have hsame : String.ofList (c :: cs) = s := by rw [← hs, String.ofList_toList]
  rw [hs, List.cons_append]
  simp only [lexeme, hquote, hstarts, hc, htail, hsame, if_true, if_false, Bool.false_eq_true, List.length_cons,
    Nat.add_comm]

theorem identifierExtent_word {s : String} (h : isWord s = true) {rest : List Char} (hrest : Apart rest) :
    Grammar.identifierExtent (s.toList ++ rest) = some s.toList.length := by
  obtain ⟨c, cs, hs, hc, hcs⟩ := isWord_cons h
  have htail : (cs ++ rest).takeWhile Grammar.isIdentifierPart = cs := takeWhile_apart rfl hcs hrest
  rw [hs, List.cons_append]
  simp only [Grammar.identifierExtent, isIdentifierStart_of_isWordStart hc, if_true, htail, List.length_cons,
    Nat.add_comm]

theorem segment_parts {s : String} (h : isSegment s = true) : ∀ c ∈ s.toList, isWordPart c = true ∧ c ≠ '.' := by
  simp only [isSegment, Bool.and_eq_true, List.all_eq_true, bne_iff_ne] at h
  exact h.2

theorem isWord_symbol {r : Ref} (h : r.writable = true) : isWord r.symbol = true := by
  simp only [Ref.writable, Bool.and_eq_true, List.all_eq_true] at h
  obtain ⟨c, cs, hname, hc, hcs⟩ := isWord_cons h.1.1
  unfold isWord
  rw [r.toList_symbol, hname, List.cons_append]
  simp only [hc, Bool.true_and, List.all_eq_true, List.mem_append, List.mem_flatMap]
  rintro d (hd | ⟨s, hs, hd⟩)
  · exact hcs d hd
  · rcases List.mem_cons.mp hd with rfl | hd
    · rfl
    · exact (segment_parts (h.2 s hs) d hd).1

theorem piecesFrom_segment {w : List Char} (hw : ∀ c ∈ w, c ≠ '.') (acc rest : List Char) :
    Text.piecesFrom ['.'] 0 acc (w ++ rest) = Text.piecesFrom ['.'] 0 (w.reverse ++ acc) rest := by
  induction w generalizing acc with
  | nil => rfl
  | cons c w ih =>
    obtain ⟨hc, hw⟩ := List.forall_mem_cons.mp hw
    have hpoint : (['.'].isPrefixOf (c :: (w ++ rest))) = false := by simp [List.isPrefixOf, hc.symm]
    rw [List.cons_append, Text.piecesFrom, if_neg (by simp [hpoint]), ih hw]
    simp

theorem piecesFrom_segments {tail : List String} (h : ∀ s ∈ tail, ∀ c ∈ s.toList, c ≠ '.') (acc : List Char) :
    Text.piecesFrom ['.'] 0 acc (tail.flatMap fun s => '.' :: s.toList) = acc.reverse :: tail.map String.toList := by
  induction tail generalizing acc with
  | nil => rfl
  | cons s tail ih =>
    obtain ⟨hs, htail⟩ := List.forall_mem_cons.mp h
    rw [List.flatMap_cons, List.cons_append, Text.piecesFrom, if_pos (by simp [List.isPrefixOf]),
      List.length_singleton, piecesFrom_segment hs, ih htail]
    simp

theorem ofText_symbol {r : Ref} (h : r.writable = true) (pos : Pos) : Ref.ofText r.symbol pos = { r with pos := pos } := by
  simp only [Ref.writable, Bool.and_eq_true, List.all_eq_true, Bool.not_eq_true', List.contains_eq_mem,
    decide_eq_false_iff_not] at h
  have hpieces : Text.pieces "." r.symbol = r.name :: r.tail := by
    rw [Text.pieces, r.toList_symbol, show ".".toList = ['.'] from rfl,
      piecesFrom_segment fun c hc hpoint => h.1.2 (hpoint ▸ hc),
      piecesFrom_segments fun s hs c hc => (segment_parts (h.2 s hs) c hc).2]
    simp [Function.comp_def]
  have htail : r.tail.filter (fun s => !s.isEmpty) = r.tail := by
    rw [List.filter_eq_self]
    intro s hs
    exact ((Bool.and_eq_true _ _).mp (h.2 s hs)).1
  simp only [Ref.ofText, hpieces, htail]

/-! ## Lexemes of expressions -/

def IsLexeme (t : String) : Prop :=
  ∀ rest, Apart rest → ∃ v, lexeme (t.toList ++ rest) = .ok (v, t.toList.length) ∧ v ≠ .eof

/-- No lexeme starts with a blank. -/
theorem IsLexeme.solid {t : String} (h : IsLexeme t) : ∃ c cs, t.toList = c :: cs ∧ isTokenBlank c = false := by
  obtain ⟨v, hv, hne⟩ := h [] apart_nil
  rw [List.append_nil] at hv
  cases ht : t.toList with
  | nil =>
    rw [ht] at hv
    exact absurd (congrArg Prod.fst (Except.ok.inj hv)).symm hne
  | cons c cs =>
    refine ⟨c, cs, rfl, Bool.eq_false_iff.mpr fun hblank => ?_⟩
    simp only [isTokenBlank, Bool.or_eq_true, beq_iff_eq] at hblank
    rw [ht] at hv
    obtain (rfl | rfl) | rfl := hblank <;> cases hv

theorem IsLexeme.length_pos {t : String} (h : IsLexeme t) : 0 < t.toList.length := by
  obtain ⟨c, cs, hc, -⟩ := h.solid
  simp [hc]

theorem isLexeme_binary (op : BinaryOp) : IsLexeme op.symbol := by
  refine fun rest hrest => ⟨.op op.symbol, ?_, nofun⟩
  obtain rfl | ⟨more, rfl⟩ := hrest.cases <;> cases op <;> rfl

theorem isLexeme_unary (op : UnaryOp) : IsLexeme op.symbol := by
  refine fun rest hrest => ⟨.op op.symbol, ?_, nofun⟩
  obtain rfl | ⟨more, rfl⟩ := hrest.cases <;> cases op <;> rfl

theorem isLexeme_mark {t : String} (ht : t ∈ ["(", ")", ",", "=", "|>"]) : IsLexeme t := by
  refine fun rest hrest => ⟨.op t, ?_, nofun⟩
  simp only [List.mem_cons, List.not_mem_nil, or_false] at ht
  obtain rfl | ⟨more, rfl⟩ := hrest.cases <;> rcases ht with rfl | rfl | rfl | rfl | rfl <;> rfl

theorem isLexeme_word {s : String} (h : isWord s = true) : IsLexeme s :=
  fun _ hrest => ⟨_, lexeme_word h hrest, nofun⟩

theorem isLexeme_literal {l : Literal} (h : l.writable = true) : IsLexeme l.lexeme := by
  match l with
  | .number (.int n) =>
    obtain ⟨k, hk, hsmall⟩ := writable_int h
    subst hk
    intro rest hrest
    rw [toList_natural]
    exact ⟨_, lexeme_digits hsmall hrest, nofun⟩
  | .number (.float _) => cases h
  | .text s false => exact fun _ hrest => ⟨_, lexeme_enquoted (.inl rfl) s hrest, nofun⟩
  | .text s true => exact fun _ hrest => ⟨_, lexeme_enquoted (.inr rfl) s hrest, nofun⟩

theorem forall_enclosed {loose : Bool} {ts : List String} (h : ∀ t ∈ ts, IsLexeme t) :
    ∀ t ∈ enclosed loose ts, IsLexeme t := by
  unfold enclosed
  split
  · rw [List.forall_mem_cons, List.forall_mem_append, List.forall_mem_singleton]
    exact ⟨isLexeme_mark (by simp), h, isLexeme_mark (by simp)⟩
  · exact h

theorem forall_inCall {args : List (List String)} (h : ∀ ts ∈ args, ∀ t ∈ ts, IsLexeme t) :
    ∀ t ∈ inCall args, IsLexeme t := by
  have hargs : ∀ t ∈ List.intercalate [","] args, IsLexeme t := by
    cases args with
    | nil => exact fun _ h => nomatch h
    | cons first more =>
      obtain ⟨hfirst, hmore⟩ := List.forall_mem_cons.mp h
      rw [intercalate_cons, List.forall_mem_append]
      refine ⟨hfirst, fun t ht => ?_⟩
      obtain ⟨ts, hts, ht⟩ := List.mem_flatMap.mp ht
      rcases List.mem_cons.mp ht with rfl | ht
      · exact isLexeme_mark (by simp)
      · exact hmore ts hts t ht
  rw [inCall, List.forall_mem_cons, List.forall_mem_append, List.forall_mem_singleton]
  exact ⟨isLexeme_mark (by simp), hargs, isLexeme_mark (by simp)⟩

mutual
theorem isLexeme_of_mem (bare : Bool) {e : Expr} (he : e.writable = true) : ∀ t ∈ e.lexemes bare, IsLexeme t := by
  match e with
  | .literal l pos =>
    simp only [Expr.lexemes, List.forall_mem_singleton]
    exact isLexeme_literal he
  | .ref r =>
    simp only [Expr.lexemes, List.forall_mem_singleton]
    exact isLexeme_word (isWord_symbol he)
  | .unary op operand pos =>
    simp only [Expr.lexemes, List.forall_mem_cons]
    exact ⟨isLexeme_unary op, forall_enclosed (isLexeme_of_mem bare he)⟩
  | .binary op left right pos =>
    obtain ⟨hleft, hright⟩ := (Bool.and_eq_true _ _).mp he
    simp only [Expr.lexemes, List.forall_mem_append, List.forall_mem_cons]
    exact ⟨forall_enclosed (isLexeme_of_mem bare hleft), isLexeme_binary op,
      forall_enclosed (isLexeme_of_mem bare hright)⟩
  | .call name args pos =>
    obtain ⟨hname, hargs⟩ := (Bool.and_eq_true _ _).mp he
    simp only [Expr.lexemes, List.forall_mem_cons]
    exact ⟨isLexeme_word hname, forall_inCall (isLexeme_of_mem_arguments bare hargs)⟩
  | .pipe left name args callPos pos =>
    simp only [Expr.writable, Bool.and_eq_true] at he
    obtain ⟨⟨hleft, hname⟩, hargs⟩ := he
    simp only [Expr.lexemes, List.forall_mem_append, List.forall_mem_cons]
    refine ⟨isLexeme_of_mem bare hleft, isLexeme_mark (by simp), isLexeme_word hname, ?_⟩
    split
    · exact fun _ h => nomatch h
    · exact forall_inCall (isLexeme_of_mem_arguments bare hargs)

theorem isLexeme_of_mem_arguments (bare : Bool) {args : List (Option String × Expr)}
    (h : argumentsWritable args = true) : ∀ ts ∈ argumentLexemes bare args, ∀ t ∈ ts, IsLexeme t := by
  match args with
  | [] => exact fun _ h => nomatch h
  | (some name, value) :: rest =>
    simp only [argumentsWritable, Option.all_some, Bool.and_eq_true] at h
    simp only [argumentLexemes, List.forall_mem_cons]
    exact ⟨⟨isLexeme_word h.1.1, isLexeme_mark (by simp), isLexeme_of_mem bare h.1.2⟩,
      isLexeme_of_mem_arguments bare h.2⟩
  | (none, value) :: rest =>
    simp only [argumentsWritable, Bool.and_eq_true] at h
    simp only [argumentLexemes, List.forall_mem_cons]
    exact ⟨forall_enclosed (isLexeme_of_mem bare h.1.2), isLexeme_of_mem_arguments bare h.2⟩
end

/-! ## Spaced lexemes -/

def spaced (ts : List String) (rest : List Char) : List Char := ts.foldr (fun t cs => ' ' :: (t.toList ++ cs)) rest

@[simp] theorem spaced_nil (rest : List Char) : spaced [] rest = rest := rfl

@[simp] theorem spaced_cons (t : String) (ts : List String) (rest : List Char) :
    spaced (t :: ts) rest = ' ' :: (t.toList ++ spaced ts rest) := rfl

@[simp] theorem spaced_append (ts us : List String) (rest : List Char) :
    spaced (ts ++ us) rest = spaced ts (spaced us rest) := List.foldr_append

theorem apart_spaced (ts : List String) {rest : List Char} (h : Apart rest) : Apart (spaced ts rest) := by
  cases ts with
  | nil => exact h
  | cons t ts => exact apart_cons _

theorem toList_intercalate_space (t : String) (ts : List String) :
    (String.intercalate " " (t :: ts)).toList = t.toList ++ spaced ts [] := by
  rw [String.toList_intercalate, List.map_cons, intercalate_cons, List.flatMap_map]
  congr 1
  induction ts with
  | nil => rfl
  | cons u us ih => rw [List.flatMap_cons, ih, spaced_cons]; rfl

/-- The first token of a text that starts with a lexeme. -/
theorem tokensFrom_lexeme (line offset : Nat) {t : String} (ht : IsLexeme t) {rest : List Char} (hrest : Apart rest)
    (fuel p : Nat) : ∃ first : Token, first.isEof = false ∧ first.start = p ∧ first.stop = p + t.toList.length ∧
      ∀ ts, tokensFrom line offset fuel (p + t.toList.length) rest = .ok ts →
        tokensFrom line offset (fuel + 1) p (t.toList ++ rest) = .ok (first :: ts) := by
  obtain ⟨v, hv, hne⟩ := ht rest hrest
  obtain ⟨c, cs, hc, hsolid⟩ := ht.solid
  refine ⟨⟨v, line, offset + p + 1, p, p + t.toList.length⟩, ?_, rfl, rfl, fun ts hts => ?_⟩
  · unfold Token.isEof
    split
    · next h => exact absurd h hne
    · rfl
  · have hdrop : (t.toList ++ rest).drop t.toList.length = rest := List.drop_left
    rw [hc, List.cons_append] at hv hdrop ⊢
    rw [hc] at hts
    simp only [tokensFrom, hsolid, hv, hdrop, hts, Bool.false_eq_true, if_false]

/-- The tokens of a text of spaced lexemes cover it from its start to its end. -/
theorem tokensFrom_spaced (line offset : Nat) {t : String} {ts : List String} (ht : IsLexeme t)
    (hts : ∀ t ∈ ts, IsLexeme t) {fuel : Nat} (p : Nat) (hfuel : (t.toList ++ spaced ts []).length < fuel) :
    ∃ first more last eof, tokensFrom line offset fuel p (t.toList ++ spaced ts []) = .ok (first :: more ++ [eof]) ∧
      (first :: more).getLast? = some last ∧ first.start = p ∧ last.stop = p + (t.toList ++ spaced ts []).length ∧
      (∀ t ∈ first :: more, t.isEof = false) ∧ eof.isEof = true := by
  induction ts generalizing t p fuel with
  | nil =>
    have hpos := ht.length_pos
    obtain ⟨fuel, rfl⟩ : ∃ k, fuel = k + 2 := ⟨fuel - 2, by simp at hfuel; omega⟩
    obtain ⟨first, heof, hstart, hstop, hfirst⟩ := tokensFrom_lexeme line offset ht apart_nil (fuel + 1) p
    refine ⟨first, [], first, ⟨.eof, line, offset + (p + t.toList.length) + 1, p + t.toList.length, p + t.toList.length⟩,
      hfirst _ rfl, rfl, hstart, ?_, by simpa using heof, rfl⟩
    rw [hstop, spaced_nil, List.append_nil]
  | cons u us ih =>
    obtain ⟨hu, hus⟩ := List.forall_mem_cons.mp hts
    have hpos := ht.length_pos
    simp only [spaced_cons, List.length_append, List.length_cons] at hfuel
    obtain ⟨fuel, rfl⟩ : ∃ k, fuel = k + 2 := ⟨fuel - 2, by omega⟩
    obtain ⟨first, heof, hstart, hstop, hfirst⟩ :=
      tokensFrom_lexeme line offset ht (apart_spaced (u :: us) apart_nil) (fuel + 1) p
    obtain ⟨second, more, last, eof, htokens, hlast, -, hlaststop, hmore, heof'⟩ :=
      ih hu hus (p + t.toList.length + 1) (show _ < fuel by simp only [List.length_append]; omega)
    refine ⟨first, second :: more, last, eof, hfirst _ htokens, ?_, hstart, ?_, ?_, heof'⟩
    · rw [List.getLast?_cons_cons, hlast]
    · rw [hlaststop]
      simp only [spaced_cons, List.length_append, List.length_cons]
      omega
    · exact List.forall_mem_cons.mpr ⟨heof, hmore⟩

end Syntax

end Conductor
