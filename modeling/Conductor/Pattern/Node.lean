import Conductor.Text.Case

/-!
# Patterns

A pattern as a tree, and matching by backtracking from a position of a text. The
first way to match wins: alternatives from the left, repetitions as often as
possible first unless they are lazy. An iteration that consumes nothing ends its
repetition, so matching always ends.
-/

set_option autoImplicit false

namespace Conductor.Pattern

inductive CharClass
  | digit
  | blank
  | word
  deriving DecidableEq, Repr

inductive Item
  | one (c : Char)
  | range (low high : Nat)
  | kind (k : CharClass) (negated : Bool)
  deriving DecidableEq, Repr

inductive Anchor
  | textStart
  | textEnd
  | lineStart
  | lineEnd
  | finalLineEnd
  | boundary
  | noBoundary
  deriving DecidableEq, Repr

inductive Greed
  | greedy
  | lazy
  | possessive
  deriving DecidableEq, Repr

inductive Node
  | empty
  | char (c : Char) (fold : Bool)
  | any (newlines : Bool)
  | set (negated fold ascii : Bool) (items : List Item)
  | anchor (a : Anchor) (ascii : Bool)
  | seq (first second : Node)
  | alt (first second : Node)
  | group (index : Nat) (body : Node)
  | repeated (least : Nat) (most : Option Nat) (greed : Greed) (body : Node)
  | backref (index : Nat) (fold : Bool)
  | ahead (negated : Bool) (body : Node)
  | behind (width : Nat) (negated : Bool) (body : Node)
  | atomic (body : Node)
  | given (index : Nat) (yes no : Node)
  deriving Repr

/-! ## Characters -/

def CharClass.holds (ascii : Bool) : CharClass → Char → Bool
  | digit, c => if ascii then c.isDigit else Text.isDecimal c
  | blank, c => if ascii then c == ' ' || ('\t' ≤ c && c ≤ '\r') else Text.isBlank c
  | word, c => if ascii then c.isAlphanum || c == '_' else Text.isWordChar c

def folded (c : Char) : List Char := Text.lowerChar c

def sameChar (fold : Bool) (a b : Char) : Bool := a == b || (fold && folded a == folded b)

def Item.holds (ascii : Bool) (c : Char) : Item → Bool
  | one d => c == d
  | range low high => low ≤ c.toNat && c.toNat ≤ high
  | kind k negated => k.holds ascii c != negated

def variants (fold : Bool) (c : Char) : List Char :=
  if fold then c :: (Text.lowerChar c ++ Text.upperChar c) else [c]

def inSet (negated fold ascii : Bool) (items : List Item) (c : Char) : Bool :=
  (variants fold c).any (fun d => items.any fun i => i.holds ascii d) != negated

/-! ## Widths -/

/-- The least and the greatest number of characters that a node matches; none is without bound. -/
def Node.width : Node → Nat × Option Nat
  | empty | anchor .. | ahead .. | behind .. => (0, some 0)
  | char .. | any _ | set .. => (1, some 1)
  | seq a b => (a.width.1 + b.width.1, do return (← a.width.2) + (← b.width.2))
  | alt a b => (min a.width.1 b.width.1, do return max (← a.width.2) (← b.width.2))
  | group _ body => body.width
  | atomic body => body.width
  | repeated least most _ body => (least * body.width.1, do return (← most) * (← body.width.2))
  | backref .. => (0, none)
  | given _ yes no => (min yes.width.1 no.width.1, do return max (← yes.width.2) (← no.width.2))

/-! ## Matching -/

/-- Where a match stands: the position and the spans of the groups, the latest first. -/
structure Spot where
  position : Nat
  spans : List (Nat × Nat × Nat) := []

abbrev Next := Spot → Option Spot

def span? (index : Nat) (s : Spot) : Option (Nat × Nat) := (s.spans.find? fun e => e.1 == index).map Prod.snd

def wordAt (ascii : Bool) (text : Array Char) (i : Nat) : Bool :=
  match text[i]? with
  | some c => CharClass.word.holds ascii c
  | none => false

def atBoundary (ascii : Bool) (text : Array Char) (i : Nat) : Bool :=
  wordAt ascii text i != (i != 0 && wordAt ascii text (i - 1))

def Anchor.holds (ascii : Bool) (text : Array Char) (i : Nat) : Anchor → Bool
  | textStart => i == 0
  | textEnd => i == text.size
  | lineStart => i == 0 || text[i - 1]? == some '\n'
  | lineEnd => i == text.size || text[i]? == some '\n'
  | finalLineEnd => i == text.size || (i + 1 == text.size && text[i]? == some '\n')
  | boundary => text.size != 0 && atBoundary ascii text i
  | noBoundary => text.size != 0 && !atBoundary ascii text i

def single (text : Array Char) (test : Char → Bool) (s : Spot) (next : Next) : Option Spot :=
  match text[s.position]? with
  | some c => if test c then next { s with position := s.position + 1 } else none
  | none => none

def again (fold : Bool) (text : Array Char) (start stop position : Nat) : Option Nat :=
  let old := (text.toList.take stop).drop start
  let new := (text.toList.drop position).take old.length
  if old.length == new.length && (old.zip new).all fun e => sameChar fold e.1 e.2 then
    some (position + old.length) else none

def exactly (step : Spot → Next → Option Spot) : Nat → Spot → Next → Option Spot
  | 0, s, next => next s
  | n + 1, s, next => step s fun s' => exactly step n s' next

def upTo (step : Spot → Next → Option Spot) (shy : Bool) : Nat → Spot → Next → Option Spot
  | 0, s, next => next s
  | n + 1, s, next =>
    let more : Unit → Option Spot := fun _ => step s fun s' =>
      if s'.position == s.position then next s' else upTo step shy n s' next
    if shy then
      match next s with
      | some found => some found
      | none => more ()
    else
      match more () with
      | some found => some found
      | none => next s

def times (text : Array Char) (step : Spot → Next → Option Spot) (least : Nat) (most : Option Nat) (shy : Bool)
    (s : Spot) (next : Next) : Option Spot :=
  let room := text.size + 1
  let optional := match most with
    | some m => min (m - least) room
    | none => room
  exactly step least s fun s' => upTo step shy optional s' next

def Node.run (text : Array Char) : Node → Spot → Next → Option Spot
  | empty, s, next => next s
  | char c fold, s, next => single text (sameChar fold c) s next
  | any newlines, s, next => single text (fun c => newlines || c != '\n') s next
  | set negated fold ascii items, s, next => single text (inSet negated fold ascii items) s next
  | anchor a ascii, s, next => if a.holds ascii text s.position then next s else none
  | seq a b, s, next => a.run text s fun s' => b.run text s' next
  | alt a b, s, next =>
    match a.run text s next with
    | some found => some found
    | none => b.run text s next
  | group index body, s, next =>
    body.run text s fun s' => next { s' with spans := (index, s.position, s'.position) :: s'.spans }
  | repeated least most .greedy body, s, next => times text (body.run text) least most false s next
  | repeated least most .lazy body, s, next => times text (body.run text) least most true s next
  | repeated least most .possessive body, s, next =>
    match times text (body.run text) least most false s some with
    | some s' => next s'
    | none => none
  | backref index fold, s, next =>
    match span? index s with
    | none => none
    | some (start, stop) =>
      match again fold text start stop s.position with
      | some p => next { s with position := p }
      | none => none
  | ahead negated body, s, next =>
    match body.run text s some with
    | some s' => if negated then none else next { s' with position := s.position }
    | none => if negated then next s else none
  | behind width negated body, s, next =>
    let found := if width ≤ s.position then
        body.run text { s with position := s.position - width } fun s' =>
          if s'.position == s.position then some s' else none
      else none
    match found with
    | some s' => if negated then none else next { s' with position := s.position }
    | none => if negated then next s else none
  | atomic body, s, next =>
    match body.run text s some with
    | some s' => next s'
    | none => none
  | given index yes no, s, next =>
    if (span? index s).isSome then yes.run text s next else no.run text s next

end Conductor.Pattern
