import Conductor.Proofs.Syntax.Joining

/-!
# Lines that echo each other

A line is read as the same statement wherever it stands in a program, and also with a blank more at its end. This is
said of the readers of one line, for two lines of which one echoes the other.
-/

set_option autoImplicit false

namespace Conductor.Syntax

/-! ## Texts -/

def Trails (cs cs' : List Char) : Prop := cs = cs' ∨ cs = cs' ++ [' ']

def letTarget (lead : Nat) (body : List Char) : Option (String × Nat × Nat) :=
  match body with
  | l :: e :: t :: rest =>
    if l.toUpper == 'L' && e.toUpper == 'E' && t.toUpper == 'T' then
      let gap := (rest.takeWhile Text.isBlank).length
      if gap == 0 then none else targetAt (lead + 3 + gap) (rest.drop gap)
    else none
  | _ => none

theorem assignment?_eq (code : String) :
    assignment? code = match letTarget (code.toList.takeWhile Text.isBlank).length (code.toList.dropWhile Text.isBlank) with
      | some found => some found
      | none => targetAt (code.toList.takeWhile Text.isBlank).length (code.toList.dropWhile Text.isBlank) := by
  rw [← drop_takeWhile]
  rfl

namespace Trails

variable {cs cs' : List Char}

theorem drop (h : Trails cs cs') (n : Nat) : Trails (cs.drop n) (cs'.drop n) := by
  rcases h with rfl | rfl
  · exact .inl rfl
  · rw [List.drop_append]
    cases n - cs'.length with
    | zero => exact .inr rfl
    | succ k => exact .inl (by simp)

theorem dropWhile_blank (h : Trails cs cs') : Trails (cs.dropWhile Text.isBlank) (cs'.dropWhile Text.isBlank) := by
  rcases h with rfl | rfl
  · exact .inl rfl
  · rw [List.dropWhile_append]
    split
    · next hempty =>
      rw [List.isEmpty_iff] at hempty
      exact .inl (by rw [hempty]; rfl)
    · exact .inr rfl

theorem dropWhile (h : Trails cs cs') {p : Char → Bool} (hp : p ' ' = false) : Trails (cs.dropWhile p) (cs'.dropWhile p) := by
  rcases h with rfl | rfl
  · exact .inl rfl
  · exact .inr (dropWhile_append_blank hp cs' [])

theorem takeWhile (h : Trails cs cs') {p : Char → Bool} (hp : p ' ' = false) : cs.takeWhile p = cs'.takeWhile p := by
  rcases h with rfl | rfl
  · rfl
  · exact takeWhile_append_blank hp cs' []

theorem all_blank (h : Trails cs cs') : cs.all Text.isBlank = cs'.all Text.isBlank := by
  rcases h with rfl | rfl
  · rfl
  · simp [List.all_append, show Text.isBlank ' ' = true from rfl]

theorem cases (h : Trails cs cs') : (∃ c rest rest', cs = c :: rest ∧ cs' = c :: rest' ∧ Trails rest rest') ∨
    (cs = [] ∧ cs' = []) ∨ cs = [' '] ∧ cs' = [] := by
  cases cs' with
  | nil => exact .inr (h.imp (⟨·, rfl⟩) (⟨·, rfl⟩))
  | cons c rest' =>
    rcases h with rfl | rfl
    · exact .inl ⟨c, rest', rest', rfl, rfl, .inl rfl⟩
    · exact .inl ⟨c, rest' ++ [' '], rest', rfl, rfl, .inr rfl⟩

theorem strip (h : Trails cs cs') : Text.stripWhile Text.isBlank cs = Text.stripWhile Text.isBlank cs' := by
  unfold Text.stripWhile Text.dropEndWhile
  rcases h.dropWhile_blank with h | h
  · rw [h]
  · rw [h, List.reverse_append, List.reverse_singleton, List.singleton_append, List.dropWhile_cons_of_pos rfl]

theorem takeWhile_blank (h : Trails cs cs') (hne : cs'.dropWhile Text.isBlank ≠ []) :
    cs.takeWhile Text.isBlank = cs'.takeWhile Text.isBlank := by
  rcases h with rfl | rfl
  · rfl
  · rw [List.takeWhile_append]
    split
    · next hlength =>
      refine absurd ?_ hne
      rw [← drop_takeWhile, hlength, List.drop_length]
    · rfl

theorem takeName (h : Trails cs cs') : (Syntax.takeName cs = none ∧ Syntax.takeName cs' = none) ∨
    ∃ name after after', Syntax.takeName cs = some (name, after) ∧ Syntax.takeName cs' = some (name, after') ∧
      Trails after after' := by
  unfold Syntax.takeName
  rcases h.dropWhile_blank.cases with ⟨c, rest, rest', hcs, hcs', hrest⟩ | ⟨hcs, hcs'⟩ | ⟨hcs, hcs'⟩
  · rw [hcs, hcs']
    dsimp only
    split
    · exact .inr ⟨_, _, _, by rw [hrest.takeWhile rfl], rfl, hrest.dropWhile rfl⟩
    · exact .inl ⟨rfl, rfl⟩
  · rw [hcs, hcs']
    exact .inl ⟨rfl, rfl⟩
  · rw [hcs, hcs']
    exact .inl ⟨rfl, rfl⟩

theorem head_equals (h : Trails cs cs') : (cs.head? == some '=') = (cs'.head? == some '=') := by
  rcases h.cases with ⟨c, rest, rest', rfl, rfl, -⟩ | ⟨rfl, rfl⟩ | ⟨rfl, rfl⟩ <;> rfl

theorem targetAt (h : Trails cs cs') (p : Nat) : Syntax.targetAt p cs = Syntax.targetAt p cs' := by
  rcases h.cases with ⟨c, rest, rest', rfl, rfl, hrest⟩ | ⟨rfl, rfl⟩ | ⟨rfl, rfl⟩
  · have hafter := hrest.dropWhile (p := isTargetPart) rfl
    simp only [Syntax.targetAt, drop_takeWhile]
    rw [hrest.takeWhile (p := isTargetPart) rfl]
    generalize rest.dropWhile isTargetPart = after at hafter ⊢
    generalize rest'.dropWhile isTargetPart = after' at hafter ⊢
    rcases hafter.dropWhile_blank.cases with ⟨d, more, more', hd, hd', hmore⟩ | ⟨hd, hd'⟩ | ⟨hd, hd'⟩
    · rw [hafter.takeWhile_blank (by rw [hd']; exact List.cons_ne_nil _ _), hd, hd']
      by_cases hequals : d = '='
      · subst hequals
        simp only [hmore.head_equals]
      · simp [hequals]
    · rw [hd, hd']
    · rw [hd, hd']
      rfl
  · rfl
  · rfl

theorem targetAt_behind (h : Trails cs cs') (k : Nat) :
    Syntax.targetAt (k + (cs.takeWhile Text.isBlank).length) (cs.dropWhile Text.isBlank) =
      Syntax.targetAt (k + (cs'.takeWhile Text.isBlank).length) (cs'.dropWhile Text.isBlank) := by
  by_cases hne : cs'.dropWhile Text.isBlank = []
  · rw [hne]
    rcases hne ▸ h.dropWhile_blank with hnil | hnil <;> rw [hnil] <;> rfl
  · rw [h.takeWhile_blank hne, h.dropWhile_blank.targetAt]

theorem letTarget (h : Trails cs cs') (lead : Nat) : Syntax.letTarget lead cs = Syntax.letTarget lead cs' := by
  rcases h.cases with ⟨l, rest₁, rest₁', rfl, rfl, h₁⟩ | ⟨rfl, rfl⟩ | ⟨rfl, rfl⟩
  · rcases h₁.cases with ⟨e, rest₂, rest₂', rfl, rfl, h₂⟩ | ⟨rfl, rfl⟩ | ⟨rfl, rfl⟩
    · rcases h₂.cases with ⟨t, rest, rest', rfl, rfl, h₃⟩ | ⟨rfl, rfl⟩ | ⟨rfl, rfl⟩
      · have htarget := h₃.targetAt_behind (lead + 3)
        simp only [Syntax.letTarget, drop_takeWhile]
        by_cases hne : rest'.dropWhile Text.isBlank = []
        · have hnone (p : Nat) : Syntax.targetAt p (rest.dropWhile Text.isBlank) = none := by
            rw [h₃.dropWhile_blank.targetAt, hne]
            rfl
          have hnone' (p : Nat) : Syntax.targetAt p (rest'.dropWhile Text.isBlank) = none := by
            rw [hne]
            rfl
          simp only [hnone, hnone', ite_self]
        · rw [htarget, h₃.takeWhile_blank hne]
      · rfl
      · simp [Syntax.letTarget, show (' ' : Char).toUpper = ' ' from rfl]
    · rfl
    · rfl
  · rfl
  · rfl

theorem assignment? {code code' : String} (h : Trails code.toList code'.toList) :
    Syntax.assignment? code = Syntax.assignment? code' := by
  have hplain := h.targetAt_behind 0
  rw [Nat.zero_add, Nat.zero_add] at hplain
  rw [assignment?_eq, assignment?_eq, hplain]
  by_cases hne : code'.toList.dropWhile Text.isBlank = []
  · have hlet (lead : Nat) : Syntax.letTarget lead (code.toList.dropWhile Text.isBlank) = none := by
      rw [h.dropWhile_blank.letTarget, hne]
      rfl
    rw [hlet, hne]
    rfl
  · rw [h.takeWhile_blank hne, h.dropWhile_blank.letTarget]

theorem label? {code code' : String} (h : Trails code.toList code'.toList) : Syntax.label? code = Syntax.label? code' := by
  unfold Syntax.label?
  rcases h.takeName with ⟨hnone, hnone'⟩ | ⟨name, after, after', hname, hname', hafter⟩
  · rw [hnone, hnone']
  · rw [hname, hname']
    dsimp only
    rcases hafter.dropWhile_blank.cases with ⟨d, rest, rest', hd, hd', hrest⟩ | ⟨hd, hd'⟩ | ⟨hd, hd'⟩
    · rw [hd, hd']
      by_cases hcolon : d = ':'
      · subst hcolon
        simp only [hrest.all_blank]
      · simp [hcolon]
    · rw [hd, hd']
    · rw [hd, hd']
      rfl

end Trails

/-! ## Computations -/

def Both {α γ : Type} (f : α → γ) (x y : Except Problem α) : Prop := ∀ a b, x = .ok a → y = .ok b → f a = f b

theorem Alike.both {α γ : Type} {f : α → γ} {x y : Except Problem α} (h : Alike f x y) : Both f x y := by
  rintro a b rfl rfl
  cases h with
  | ok h => exact h

namespace Both

variable {α β γ δ : Type} {f : α → γ} {g : β → δ}

theorem ok {a b : α} (h : f a = f b) : Both f (.ok a) (.ok b) := by
  intro _ _ ha hb
  cases ha
  cases hb
  exact h

theorem error (e : Problem) (y : Except Problem α) : Both f (.error e) y := nofun

theorem bind {x y : Except Problem α} {k k' : α → Except Problem β} (h : Both f x y)
    (hk : ∀ a b, f a = f b → Both g (k a) (k' b)) : Both g (x >>= k) (y >>= k') := by
  intro a b ha hb
  obtain ⟨a', ha', ha⟩ := bind_eq_ok_iff.mp ha
  obtain ⟨b', hb', hb⟩ := bind_eq_ok_iff.mp hb
  exact hk a' b' (h a' b' ha' hb') a b ha hb

theorem throws {x : Except Problem α} (k : α → Problem) (y : Except Problem β) : Both g (x >>= fun a => .error (k a)) y := by
  intro a b ha
  obtain ⟨_, -, ha⟩ := bind_eq_ok_iff.mp ha
  cases ha

end Both

/-! ## Lines -/

/-- A line that is another one in another place, or has a blank more at its end. -/
structure Echo (l l' : SourceLine) : Prop where
  text : l.code.toList = l'.code.toList ∨ l.code.toList = l'.code.toList ++ [' '] ∧ ∃ ts, lineTokens l' = .ok ts
  block : l.block = none
  block' : l'.block = none

/-- The tokens of texts that trail one another. -/
theorem echoes_of_trails {line offset line' offset' : Nat} {cs cs' : List Char} {ts ts' : List Token} (h : Trails cs cs')
    (hts : tokensAt line offset 0 cs = .ok ts) (hts' : tokensAt line' offset' 0 cs' = .ok ts') : Echoes cs cs' ts ts' := by
  have hunplaced : ∀ us, tokensAt line' offset' 0 cs = .ok us → ts.map Token.unplaced = us.map Token.unplaced := by
    intro us hus
    have halike := tokensAt_unplaced line offset line' offset' 0 cs
    rw [hts, hus] at halike
    cases halike with
    | ok h => exact h
  rcases h with rfl | rfl
  · exact ⟨hunplaced ts' hts', ⟨offset, tokensAt_col hts⟩, ⟨offset', tokensAt_col hts'⟩, fun _ _ _ => rfl⟩
  · obtain ⟨body, rfl, hbody, hmore⟩ := tokensAt_append hts'
    have hsame : ts.map Token.unplaced = (body ++ [endAt line' offset' (0 + cs'.length)]).map Token.unplaced := by
      rw [hunplaced _ ((hmore []).trans rfl), List.map_append, List.map_append]
      rfl
    refine ⟨hsame, ⟨offset, tokensAt_col hts⟩, ⟨offset', tokensAt_col hts'⟩, fun t ht hsolid => ?_⟩
    obtain ⟨b, hb, hunplaced⟩ := List.mem_map.mp (hsame ▸ List.mem_map_of_mem ht)
    have hsolid' : b.isEof = false := by rw [← Token.isEof_unplaced, hunplaced, Token.isEof_unplaced, hsolid]
    have hstop : t.stop = b.stop := by
      rw [← (Token.span_unplaced hsolid).2, ← hunplaced, (Token.span_unplaced hsolid').2]
    have hle : b.stop ≤ cs'.length := by
      rcases List.mem_append.mp hb with hb | hb
      · exact Nat.zero_add cs'.length ▸ (hbody b hb).2
      · rw [List.mem_singleton.mp hb] at hsolid'
        cases hsolid'
    rw [hstop, List.take_append_of_le_length hle]

namespace Echo

variable {l l' : SourceLine} {α γ : Type} {g : α → γ} {k k' : List Token → Except Problem α}

theorem trails (h : Echo l l') : Trails l.code.toList l'.code.toList := h.text.imp id And.left

theorem place (h : Echo l l') : (Syntax.place l).unplaced = (Syntax.place l').unplaced := by
  simp only [Place.unplaced, Syntax.place, Text.strip, h.trails.strip]

theorem word (h : Echo l l') : l.word = l'.word := by
  unfold SourceLine.word
  rcases h.trails.takeName with ⟨hnone, hnone'⟩ | ⟨name, after, after', hname, hname', -⟩
  · rw [hnone, hnone']
  · rw [hname, hname']

theorem afterWord (h : Echo l l') : Trails l.afterWord.1.toList l'.afterWord.1.toList := by
  unfold SourceLine.afterWord
  rcases h.trails.takeName with ⟨hnone, hnone'⟩ | ⟨name, after, after', hname, hname', hafter⟩
  · rw [hnone, hnone']
    exact h.trails
  · rw [hname, hname']
    simpa using hafter

theorem lineTokens (h : Echo l l') : (∃ ts ts', Syntax.lineTokens l = .ok ts ∧ Syntax.lineTokens l' = .ok ts' ∧
      Echoes l.code.toList l'.code.toList ts ts') ∨
    (∃ c d, Syntax.lineTokens l = .error (.condition c) ∧ Syntax.lineTokens l' = .error (.condition d) ∧ fault c = fault d) ∨
    ∃ e, Syntax.lineTokens l = .error (.failure e) ∧ Syntax.lineTokens l' = .error (.failure e) := by
  have htokens (m : SourceLine) : Syntax.lineTokens m = tokensAt m.line m.offset 0 m.code.toList := tokenize_eq _ _ _
  have hboth {ts ts' : List Token} (hts : Syntax.lineTokens l = .ok ts) (hts' : Syntax.lineTokens l' = .ok ts') :=
    echoes_of_trails h.trails ((htokens l).symm.trans hts) ((htokens l').symm.trans hts')
  rcases h.text with htext | ⟨htext, ts', hts'⟩
  · have halike := tokensAt_unplaced l.line l.offset l'.line l'.offset 0 l.code.toList
    rw [← htokens l, htext, ← htokens l'] at halike
    generalize hx : Syntax.lineTokens l = x at halike
    generalize hy : Syntax.lineTokens l' = y at halike
    cases halike with
    | ok _ => exact .inl ⟨_, _, rfl, rfl, hboth hx hy⟩
    | fault hfault => exact .inr (.inl ⟨_, _, rfl, rfl, hfault⟩)
    | failure e => exact .inr (.inr ⟨e, rfl, rfl⟩)
  · left
    obtain ⟨body, rfl, -, hmore⟩ := tokensAt_append ((htokens l').symm.trans hts')
    have htrailing : tokensAt l'.line l'.offset 0 (l'.code.toList ++ [' ']) =
        .ok (body ++ [endAt l'.line l'.offset (0 + l'.code.toList.length + 1)]) := (hmore []).trans rfl
    have halike := tokensAt_unplaced l.line l.offset l'.line l'.offset 0 l.code.toList
    rw [← htokens l, htext, htrailing] at halike
    generalize hx : Syntax.lineTokens l = x at halike
    cases halike with
    | ok _ => exact ⟨_, _, rfl, hts', hboth hx hts'⟩

theorem ofLine (h : Echo l l') (hk : ∀ ts ts', Echoes l.code.toList l'.code.toList ts ts' → Both g (k ts) (k' ts')) :
    Both g (Syntax.lineTokens l >>= k) (Syntax.lineTokens l' >>= k') := by
  intro a b ha hb
  obtain ⟨ts, hts, ha⟩ := bind_eq_ok_iff.mp ha
  obtain ⟨ts', hts', hb⟩ := bind_eq_ok_iff.mp hb
  exact hk ts ts' (echoes_of_trails h.trails hts hts') a b ha hb

end Echo

/-! ## Tokens that are asked for -/

section

variable {t t' : Token} (h : t.value = t'.value)

include h

theorem isEof_congr : t.isEof = t'.isEof := by
  unfold Token.isEof
  rw [h]

theorem isOp_congr (s : String) : t.isOp s = t'.isOp s := by
  unfold Token.isOp
  rw [h]

theorem isOneOf_congr (words : List String) : t.isOneOf words = t'.isOneOf words := by
  unfold Token.isOneOf
  rw [h]

theorem word?_congr : t.word? = t'.word? := by
  unfold Token.word?
  rw [h]

theorem string?_congr : t.string? = t'.string? := by
  unfold Token.string?
  rw [h]

theorem isWord_congr : t.isWord = t'.isWord := by
  unfold Token.isWord
  rw [word?_congr h]

end

/-! ## Statements of one line -/

theorem traverse_both {α γ : Type} {f : α → γ} {k k' : Token → Except Problem α} {ts ts' : List Token}
    (hk : ∀ t t', t.unplaced = t'.unplaced → Both f (k t) (k' t')) (h : ts.map Token.unplaced = ts'.map Token.unplaced) :
    Both (List.map f) (traverse k ts) (traverse k' ts') := by
  induction ts generalizing ts' with
  | nil =>
    cases ts' with
    | nil => exact .ok rfl
    | cons t' ts' => cases h
  | cons t ts ih =>
    cases ts' with
    | nil => cases h
    | cons t' ts' =>
      obtain ⟨ht, hts⟩ := List.cons.inj h
      have hcons (k : Token → Except Problem α) (t : Token) (ts : List Token) : traverse k (t :: ts) = (do
          let a ← k t
          let as ← traverse k ts
          return a :: as) := by
        rw [traverse]
        cases k t with
        | error e => rfl
        | ok a => cases traverse k ts <;> rfl
      rw [hcons, hcons]
      exact (hk t t' ht).bind fun a a' ha => (ih hts).bind fun as as' has =>
        .ok (by rw [List.map_cons, List.map_cons, ha, has])

theorem readExpression_alike {source source' : List Char} {ts ts' : List Token} (h : Echoes source source' ts ts') :
    Alike Expr.unplaced (readExpression source ts) (readExpression source' ts') :=
  h.readTokens fun o o' fuel => (Grammar.anyPlace o o' fuel).expression

theorem readCommand_alike {source source' : List Char} {ts ts' : List Token} (h : Echoes source source' ts ts') :
    Alike CommandForm.unplaced (readCommand source ts) (readCommand source' ts') :=
  h.readTokens Grammar.command_alike

theorem readArguments_alike {source source' : List Char} {ts ts' : List Token} (h : Echoes source source' ts ts') :
    Alike unplacedArguments (readArguments source ts) (readArguments source' ts') :=
  h.readTokens Grammar.callTail_alike

namespace Echo

variable {l l' : SourceLine}

theorem readOptional (h : Echo l l') : Both (Option.map Expr.unplaced) (Syntax.readOptional l) (Syntax.readOptional l') := by
  intro a b ha hb
  obtain ⟨ts, hts, ha⟩ := bind_eq_ok_iff.mp ha
  obtain ⟨ts', hts', hb⟩ := bind_eq_ok_iff.mp hb
  have hechoes := echoes_of_trails h.afterWord hts hts'
  have heof := isEof_congr (hechoes.value 0)
  refine (?_ : Both (Option.map Expr.unplaced) _ _) a b ha hb
  rw [heof]
  cases (tokenAt ts' 0).isEof
  · exact (readExpression_alike hechoes).both.bind fun e e' he => .ok (congrArg some he)
  · exact .ok rfl

theorem readSay (h : Echo l l') : Both Statement.unplaced (Syntax.readSay l) (Syntax.readSay l') := by
  refine h.readOptional.bind fun value value' hvalue => ?_
  cases value <;> cases value'
  · exact .ok (congrArg (Statement.say _) h.place)
  · cases hvalue
  · cases hvalue
  · exact .ok (congrArg₂ Statement.say (Option.some.inj hvalue) h.place)

theorem readRequire (h : Echo l l') : Both Statement.unplaced (Syntax.readRequire l) (Syntax.readRequire l') := by
  refine h.readOptional.bind fun value value' hvalue => ?_
  cases value <;> cases value'
  · exact .error _ _
  · cases hvalue
  · cases hvalue
  · exact .ok (congrArg₂ Statement.require (Option.some.inj hvalue) h.place)

theorem readCall (h : Echo l l') : Both Statement.unplaced (Syntax.readCall l) (Syntax.readCall l') := by
  refine h.ofLine fun ts ts' hts => ?_
  rw [word?_congr (hts.value 1), isEof_congr (hts.value 2)]
  cases (tokenAt ts' 1).word? with
  | none => exact .error _ _
  | some name =>
    cases (tokenAt ts' 2).isEof
    · exact (readArguments_alike (hts.drop 2)).both.bind fun args args' hargs =>
        .ok (congrArg₂ (Statement.call name) hargs h.place)
    · exact .ok (congrArg (Statement.call name []) h.place)

theorem readArg (h : Echo l l') : Both Statement.unplaced (Syntax.readArg l) (Syntax.readArg l') := by
  refine h.ofLine fun ts ts' hts => .bind (traverse_both (f := id) ?_ (hts.drop 1).same) fun names names' hnames => ?_
  · intro t t' hsame
    have hvalue : t.value = t'.value := by rw [← t.value_unplaced, hsame, t'.value_unplaced]
    rw [isEof_congr hvalue, isOp_congr hvalue, word?_congr hvalue]
    cases t'.isEof || t'.isOp ","
    · cases t'.word? with
      | none => exact .throws _ _
      | some w => exact .ok rfl
    · exact .ok rfl
  · rw [List.map_id, List.map_id] at hnames
    exact .ok (congrArg₂ Statement.arg (congrArg _ hnames) h.place)

theorem readAddress (h : Echo l l') : Both Statement.unplaced (Syntax.readAddress l) (Syntax.readAddress l') := by
  refine h.ofLine fun ts ts' hts => ?_
  have hplace := h.place
  have hread (n : Nat) : Both Expr.unplaced (readExpression l.code.toList (ts.drop n))
      (readExpression l'.code.toList (ts'.drop n)) := (readExpression_alike (hts.drop n)).both
  have hsend (domain : String) : Both Statement.unplaced
      (do return Statement.address (.send domain (← readExpression l.code.toList (ts.drop 2))) (Syntax.place l))
      (do return Statement.address (.send domain (← readExpression l'.code.toList (ts'.drop 2))) (Syntax.place l')) :=
    (hread 2).bind fun e e' he => .ok (congrArg₂ Statement.address (congrArg (AddressAction.send domain) he) hplace)
  dsimp only
  rw [isEof_congr (hts.value 1), word?_congr (hts.value 1), string?_congr (hts.value 1), isEof_congr (hts.value 2),
    word?_congr (hts.value 2), isEof_congr (hts.value 3)]
  cases (tokenAt ts' 1).isEof
  · cases (tokenAt ts' 1).word? <|> (tokenAt ts' 1).string? with
    | none => exact .error _ _
    | some domain =>
      cases (tokenAt ts' 2).isEof
      · cases (tokenAt ts' 2).word? with
        | none => exact hsend domain
        | some word =>
          dsimp only
          cases Mode.ofWord? word with
          | none =>
            cases (tokenAt ts' 3).isEof
            · exact hsend domain
            · exact .error _ _
          | some mode =>
            cases (tokenAt ts' 3).isEof
            · cases hmode : mode != .pattern
              · simp only [hmode]
                exact (hread 3).bind fun e e' he =>
                  .ok (congrArg₂ Statement.address (congrArg (AddressAction.switch domain (some mode) <| some ·) he) hplace)
              · simp only [hmode]
                exact .error _ _
            · exact .ok (congrArg (Statement.address _) hplace)
      · exact .ok (congrArg (Statement.address _) hplace)
  · exact .ok (congrArg (Statement.address _) hplace)

theorem trapOf?_congr {t t' : Token} (h : t.value = t'.value) : trapOf? t = trapOf? t' := by
  unfold trapOf?
  rw [isOneOf_congr h, isOneOf_congr h]

theorem readSignal (h : Echo l l') : Both Statement.unplaced (Syntax.readSignal l) (Syntax.readSignal l') := by
  refine h.ofLine fun ts ts' hts => ?_
  have hdone (action : SignalAction) : Both Statement.unplaced
      (.ok (Statement.signal action (Syntax.place l))) (.ok (Statement.signal action (Syntax.place l'))) :=
    .ok (congrArg (Statement.signal action) h.place)
  have hend (on : Bool) (trap : Trap) (label : String) (i : Nat) : Both Statement.unplaced
      (if !(tokenAt ts i).isEof then do
          throw (parseFault (.unexpectedToken (← shownOf (tokenAt ts i))) (tokenAt ts i).line (tokenAt ts i).col)
        else if on then .ok (Statement.signal (.on trap label) (Syntax.place l))
        else .ok (Statement.signal (.off trap) (Syntax.place l)))
      (if !(tokenAt ts' i).isEof then do
          throw (parseFault (.unexpectedToken (← shownOf (tokenAt ts' i))) (tokenAt ts' i).line (tokenAt ts' i).col)
        else if on then .ok (Statement.signal (.on trap label) (Syntax.place l'))
        else .ok (Statement.signal (.off trap) (Syntax.place l'))) := by
    rw [isEof_congr (hts.value i)]
    cases (tokenAt ts' i).isEof
    · exact .throws _ _
    · cases on
      · exact hdone _
      · exact hdone _
  dsimp only
  rw [isEof_congr (hts.value 1), isOneOf_congr (hts.value 1), isOneOf_congr (hts.value 1), trapOf?_congr (hts.value 2),
    isOneOf_congr (hts.value 3), word?_congr (hts.value 4), word?_congr (hts.value 1), isEof_congr (hts.value 2)]
  cases (tokenAt ts' 1).isEof
  · cases (tokenAt ts' 1).isOneOf ["ON", "OFF"]
    · cases (tokenAt ts' 1).word? with
      | none => exact .error _ _
      | some word =>
        cases (tokenAt ts' 2).isEof
        · exact .error _ _
        · exact hdone _
    · cases trapOf? (tokenAt ts' 2) with
      | none => exact .throws _ _
      | some trap =>
        cases (tokenAt ts' 1).isOneOf ["ON"] && (tokenAt ts' 3).isOneOf ["NAME"]
        · exact hend _ trap trap.name 3
        · cases (tokenAt ts' 4).word? with
          | none => exact .error _ _
          | some word => exact hend _ trap (Text.upper word) 5
  · exact .error _ _

theorem readInterpolation (h : Echo l l') :
    Both Statement.unplaced (Syntax.readInterpolation l) (Syntax.readInterpolation l') := by
  refine h.ofLine fun ts ts' hts => ?_
  have hdone (action : InterpolationAction) : Both Statement.unplaced
      (.ok (Statement.interpolation action (Syntax.place l))) (.ok (Statement.interpolation action (Syntax.place l'))) :=
    .ok (congrArg (Statement.interpolation action) h.place)
  dsimp only
  rw [isOneOf_congr (hts.value 1), word?_congr (hts.value 2), string?_congr (hts.value 2), string?_congr (hts.value 3),
    string?_congr (hts.value 4), isEof_congr (hts.value 5), isEof_congr (hts.value 2), string?_congr (hts.value 1),
    isWord_congr (hts.value 1), word?_congr (hts.value 1)]
  cases (tokenAt ts' 1).isOneOf ["REGISTER"]
  · cases (tokenAt ts' 2).isEof && (tokenAt ts' 1).string?.isSome
    · cases (tokenAt ts' 2).isEof && (tokenAt ts' 1).isWord
      · exact .error _ _
      · exact hdone _
    · exact hdone _
  · rcases (tokenAt ts' 2).word? <|> (tokenAt ts' 2).string? with - | n <;>
      rcases (tokenAt ts' 3).string? with - | start <;> rcases (tokenAt ts' 4).string? with - | stop
    case some.some.some =>
      cases (tokenAt ts' 5).isEof
      · exact .error _ _
      · exact hdone _
    all_goals exact .error _ _

theorem readAssignment (h : Echo l l') (target : String) (start stop : Nat) :
    Both Statement.unplaced (Syntax.readAssignment l target start stop) (Syntax.readAssignment l' target start stop) := by
  intro a b ha hb
  obtain ⟨ts, hts, ha⟩ := bind_eq_ok_iff.mp ha
  obtain ⟨ts', hts', hb⟩ := bind_eq_ok_iff.mp hb
  have htrails := h.trails.drop stop
  rw [tokenize_eq, String.toList_ofList] at hts hts'
  have hechoes := echoes_of_trails htrails hts hts'
  have hexpression := readExpression_alike hechoes
  have hcommand := readCommand_alike hechoes
  have htext : Text.strip (String.ofList (l.code.toList.drop stop)) = Text.strip (String.ofList (l'.code.toList.drop stop)) := by
    simp only [Text.strip, String.toList_ofList, htrails.strip]
  have hdone {source source' : Source} (hsource : source.unplaced = source'.unplaced) : Both Statement.unplaced
      (.ok (.assign (Ref.ofText target ⟨l.line, l.offset + start + 1⟩) source
        (Text.strip (String.ofList (l.code.toList.drop stop))) (Syntax.place l)))
      (.ok (.assign (Ref.ofText target ⟨l'.line, l'.offset + start + 1⟩) source'
        (Text.strip (String.ofList (l'.code.toList.drop stop))) (Syntax.place l'))) :=
    .ok (by
      show Statement.assign (Ref.unplaced _) _ _ _ = Statement.assign (Ref.unplaced _) _ _ _
      rw [unplaced_ofText, unplaced_ofText, hsource, htext, h.place])
  refine (?_ : Both Statement.unplaced _ _) a b ha hb
  rw [isEof_congr (hechoes.value 0)]
  cases (tokenAt ts' 0).isEof
  · dsimp only
    generalize readExpression (l.code.toList.drop stop) ts = x at hexpression
    generalize readExpression (l'.code.toList.drop stop) ts' = y at hexpression
    generalize readCommand (l.code.toList.drop stop) ts = u at hcommand
    generalize readCommand (l'.code.toList.drop stop) ts' = v at hcommand
    cases hexpression with
    | ok he => exact hdone (congrArg Source.expr he)
    | failure e => exact .error _ _
    | fault _ =>
      cases hcommand with
      | ok hc => exact hdone (congrArg Source.command hc)
      | failure e => exact .error _ _
      | fault _ => exact .error _ _
  · exact .error _ _

theorem asCommand {ts ts' : List Token} (hts : Echoes l.code.toList l'.code.toList ts ts') {asked asked' : Bool}
    (hasked : asked = asked') : Both (Option.map CommandForm.unplaced)
      (if asked then
        match readCommand l.code.toList ts with
        | .ok c => .ok (some c)
        | .error (.failure f) => .error (.failure f)
        | .error (.condition _) => .ok none
      else .ok none)
      (if asked' then
        match readCommand l'.code.toList ts' with
        | .ok c => .ok (some c)
        | .error (.failure f) => .error (.failure f)
        | .error (.condition _) => .ok none
      else .ok none) := by
  have hcommand := readCommand_alike hts
  generalize readCommand l.code.toList ts = x at hcommand
  generalize readCommand l'.code.toList ts' = y at hcommand
  subst hasked
  cases asked
  · exact .ok rfl
  · cases hcommand with
    | ok hc => exact .ok (congrArg some hc)
    | failure e => exact .error _ _
    | fault _ => exact .ok rfl

theorem bare_congr {e e' : Option Expr} : e.map Expr.unplaced = e'.map Expr.unplaced →
    (match e with
      | none => true
      | some (.ref r) => r.tail.isEmpty
      | some _ => false) = match e' with
      | none => true
      | some (.ref r) => r.tail.isEmpty
      | some _ => false := by
  have hbare (e : Option Expr) : (match e.map Expr.unplaced with
      | none => true
      | some (.ref r) => r.tail.isEmpty
      | some _ => false) = match e with
      | none => true
      | some (.ref r) => r.tail.isEmpty
      | some _ => false := by
    rcases e with - | e
    · rfl
    · cases e <;> simp only [Option.map_some, Expr.unplaced]
  intro h
  rw [← hbare, h, hbare]

theorem readClause (h : Echo l l') : Both Statement.unplaced (Syntax.readClause l) (Syntax.readClause l') := by
  have hdone {e e' : Option Expr} {c c' : Option CommandForm} {f f' : Option Condition}
      (he : e.map Expr.unplaced = e'.map Expr.unplaced) (hc : c.map CommandForm.unplaced = c'.map CommandForm.unplaced)
      (hf : f.map fault = f'.map fault) : Both Statement.unplaced (.ok (.clause e c f (Syntax.place l)))
        (.ok (.clause e' c' f' (Syntax.place l'))) :=
    .ok (by
      show Statement.clause _ _ _ _ = Statement.clause _ _ _ _
      rw [he, hc, hf, h.place])
  unfold Syntax.readClause
  rcases h.lineTokens with ⟨ts, ts', hts, hts', hechoes⟩ | ⟨c, d, hc, hd, hfault⟩ | ⟨e, he, he'⟩
  · rw [hts, hts']
    have hexpression := readExpression_alike hechoes
    dsimp only
    rw [isWord_congr (hechoes.value 0)]
    generalize (tokenAt ts' 0).isWord = word
    generalize readExpression l.code.toList ts = x at hexpression
    generalize readExpression l'.code.toList ts' = y at hexpression
    cases hexpression with
    | @ok e e' he =>
      have hsame : (Except.ok e : Except Problem Expr).toOption.map Expr.unplaced =
          (Except.ok e' : Except Problem Expr).toOption.map Expr.unplaced := congrArg some he
      intro a b ha hb
      dsimp only at ha hb
      generalize (Except.ok e : Except Problem Expr).toOption = expr at hsame ha
      generalize (Except.ok e' : Except Problem Expr).toOption = expr' at hsame hb
      split at ha
      · cases ha
      · next c hc =>
        split at hb
        · cases hb
        · next c' hc' =>
          exact hdone hsame (asCommand hechoes (congrArg (word && ·) (bare_congr hsame)) c c' hc hc') rfl a b ha hb
    | failure e => exact .error _ _
    | fault hfault =>
      intro a b ha hb
      dsimp only at ha hb
      split at ha
      · cases ha
      · next c hc =>
        split at hb
        · cases hb
        · next c' hc' =>
          have hsame := asCommand hechoes rfl c c' hc hc'
          refine hdone rfl hsame ?_ a b ha hb
          cases c <;> cases c'
          · exact congrArg some hfault
          · cases hsame
          · cases hsame
          · rfl
  · rw [hc, hd]
    exact hdone rfl rfl (congrArg some hfault)
  · rw [he]
    exact .error _ _

theorem readSimple (h : Echo l l') (word : String) :
    Both Statement.unplaced (Syntax.readSimple l word) (Syntax.readSimple l' word) := by
  have hplace := h.place
  have hreturn (exit : Bool) : Both Statement.unplaced (do return .ret (← Syntax.readOptional l) exit (Syntax.place l))
      (do return .ret (← Syntax.readOptional l') exit (Syntax.place l')) :=
    h.readOptional.bind fun value value' hvalue => .ok (congrArg₂ (Statement.ret · exit) hvalue hplace)
  unfold Syntax.readSimple
  split
  · exact .error _ _
  · exact .ok (congrArg Statement.nop hplace)
  · exact h.readSay
  · exact .ok (congrArg Statement.leave hplace)
  · exact .ok (congrArg Statement.iterate hplace)
  · exact hreturn false
  · exact hreturn true
  · exact h.readRequire
  · exact h.readArg
  · exact h.readCall
  · exact h.readAddress
  · exact h.readSignal
  · exact h.readInterpolation
  · exact h.readClause

theorem form (h : Echo l l') :
    (∃ read read', Syntax.form false l = .simple read ∧ Syntax.form false l' = .simple read' ∧
      Both Statement.unplaced read read') ∨
    (Syntax.form false l = .cond ∧ Syntax.form false l' = .cond) ∨
    ∃ head head', Syntax.form false l = .loop head ∧ Syntax.form false l' = .loop head' := by
  unfold Syntax.form
  rw [h.block, h.block', h.word, h.trails.label?, h.trails.assignment?]
  dsimp only
  cases label? l'.code with
  | some name => exact .inl ⟨_, _, rfl, rfl, .error _ _⟩
  | none =>
    cases assignment? l'.code with
    | some found => exact .inl ⟨_, _, rfl, rfl, h.readAssignment _ _ _⟩
    | none =>
      cases l'.word == "IF"
      · cases l'.word == "DO"
        · exact .inl ⟨_, _, rfl, rfl, h.readSimple _⟩
        · exact .inr (.inr ⟨_, _, rfl, rfl⟩)
      · exact .inr (.inl ⟨rfl, rfl⟩)

end Echo

end Conductor.Syntax
