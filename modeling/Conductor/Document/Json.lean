import Conductor.Tree.Shown

/-!
# Reading the interchange format

A reader of structured texts in the interchange format, with the words for the
numbers that are not finite. It stops at the first fault and reports where: the
line, the column and the position of the fault in characters. Of two entries with
one key the last is kept, at the place of the first. An escape for half of a surrogate
pair that stands alone is a fault, because no character comes of it.
-/

set_option autoImplicit false

namespace Conductor.Json

inductive Fault
  | value
  | propertyName
  | colon
  | comma
  | extraData
  | unterminated
  | escape
  | hexEscape
  | loneSurrogate
  | control
  | byteOrderMark
  deriving DecidableEq, Repr

def Fault.message : Fault → String
  | value => "Expecting value"
  | propertyName => "Expecting property name enclosed in double quotes"
  | colon => "Expecting ':' delimiter"
  | comma => "Expecting ',' delimiter"
  | extraData => "Extra data"
  | unterminated => "Unterminated string starting at"
  | escape => "Invalid \\escape"
  | hexEscape => "Invalid \\uXXXX escape"
  | loneSurrogate => "Lone surrogate"
  | control => "Invalid control character at"
  | byteOrderMark => "Unexpected UTF-8 BOM (decode using utf-8-sig)"

inductive Stop
  | fault (f : Fault) (position : Nat)
  | numeral (digits : Nat)

structure Cursor where
  position : Nat
  rest : List Char

abbrev Reader (α : Type) := Except Stop (α × Cursor)

def isSpace (c : Char) : Bool := c == ' ' || c == '\t' || c == '\n' || c == '\r'

def skipSpaces : Nat → List Char → Cursor
  | p, c :: rest => if isSpace c then skipSpaces (p + 1) rest else ⟨p, c :: rest⟩
  | p, [] => ⟨p, []⟩

def Cursor.skip (c : Cursor) : Cursor := skipSpaces c.position c.rest

def hexValue? (c : Char) : Option Nat :=
  if '0' ≤ c ∧ c ≤ '9' then some (c.toNat - 48)
  else if 'a' ≤ c ∧ c ≤ 'f' then some (c.toNat - 87)
  else if 'A' ≤ c ∧ c ≤ 'F' then some (c.toNat - 55)
  else none

def hexFour? : List Char → Option (Nat × List Char)
  | a :: b :: c :: d :: rest => do
    let n := ((← hexValue? a) * 16 + (← hexValue? b)) * 256 + (← hexValue? c) * 16 + (← hexValue? d)
    return (n, rest)
  | _ => none

def simpleEscape? : Char → Option Char
  | '"' => some '"'
  | '\\' => some '\\'
  | '/' => some '/'
  | 'b' => some (Char.ofNat 8)
  | 'f' => some (Char.ofNat 12)
  | 'n' => some '\n'
  | 'r' => some '\r'
  | 't' => some '\t'
  | _ => none

def isSurrogate (n : Nat) : Bool := 0xD800 ≤ n && n ≤ 0xDFFF

def pairChar (high low : Nat) : Char := Char.ofNat (0x10000 + (high - 0xD800) * 0x400 + (low - 0xDC00))

/-- The rest of a text whose opening quote is at `opening`; `out` is held in reverse. -/
def stringFrom (opening : Nat) : Nat → Nat → List Char → List Char → Reader String
  | 0, _, _, _ => .error (.fault .unterminated opening)
  | _ + 1, _, _, [] => .error (.fault .unterminated opening)
  | fuel + 1, p, out, c :: rest =>
    if c == '"' then .ok (String.ofList out.reverse, ⟨p + 1, rest⟩)
    else if c.toNat < 32 then .error (.fault .control p)
    else if c == '\\' then
      match rest with
      | [] => .error (.fault .unterminated opening)
      | 'u' :: digits =>
        if digits.length ≤ 4 then .error (.fault .hexEscape (p + 1)) else
          match hexFour? digits with
          | none => .error (.fault .hexEscape (p + 1))
          | some (high, after) =>
            if !isSurrogate high then stringFrom opening fuel (p + 6) (Char.ofNat high :: out) after
            else match after, decide (high ≤ 0xDBFF) with
              | '\\' :: 'u' :: digits', true =>
                if digits'.length ≤ 4 then .error (.fault .loneSurrogate p) else
                  match hexFour? digits' with
                  | none => .error (.fault .hexEscape (p + 7))
                  | some (low, after') =>
                    if 0xDC00 ≤ low ∧ low ≤ 0xDFFF then
                      stringFrom opening fuel (p + 12) (pairChar high low :: out) after'
                    else .error (.fault .loneSurrogate p)
              | _, _ => .error (.fault .loneSurrogate p)
      | e :: after =>
        match simpleEscape? e with
        | some c' => stringFrom opening fuel (p + 2) (c' :: out) after
        | none => .error (.fault .escape p)
    else stringFrom opening fuel (p + 1) (c :: out) rest

def string (c : Cursor) : Reader String := stringFrom (c.position - 1) (c.rest.length + 1) c.position [] c.rest

def isAsciiDigit (c : Char) : Bool := '0' ≤ c && c ≤ '9'

/-- The extent of a numeral: its sign and digits, its fraction and its exponent. -/
def numeral? (cs : List Char) : Option (List Char × List Char × List Char × List Char) :=
  let (sign, body) := match cs with
    | '-' :: rest => (['-'], rest)
    | _ => ([], cs)
  let whole := match body with
    | '0' :: _ => ['0']
    | _ => body.takeWhile isAsciiDigit
  if whole.isEmpty then none else
    let rest := body.drop whole.length
    let fraction := match rest with
      | '.' :: after => let ds := after.takeWhile isAsciiDigit; if ds.isEmpty then [] else '.' :: ds
      | _ => []
    let rest := rest.drop fraction.length
    let exponent := match rest with
      | e :: after =>
        if e == 'e' || e == 'E' then
          let mark := match after with
            | '+' :: _ => ['+']
            | '-' :: _ => ['-']
            | _ => []
          let ds := (after.drop mark.length).takeWhile isAsciiDigit
          if ds.isEmpty then [] else e :: mark ++ ds
        else []
      | [] => []
    some (sign ++ whole, fraction, exponent, rest.drop exponent.length)

def word? (cs : List Char) : Option (Tree × Nat) :=
  let words : List (String × Tree) :=
    [("null", .absent), ("true", .bool true), ("false", .bool false), ("NaN", .float (0.0 / 0.0)),
      ("Infinity", .float (1.0 / 0.0)), ("-Infinity", .float (-1.0 / 0.0))]
  (words.find? fun w => w.1.toList.isPrefixOf cs).map fun w => (w.2, w.1.length)

def number (c : Cursor) : Reader Tree :=
  match numeral? c.rest with
  | none => .error (.fault .value c.position)
  | some (whole, fraction, exponent, rest) =>
    let size := whole.length + fraction.length + exponent.length
    let next : Cursor := ⟨c.position + size, rest⟩
    if fraction.isEmpty && exponent.isEmpty then
      match integerOfNumeral (String.ofList whole) whole with
      | .ok n => .ok (.int n, next)
      | .error _ => .error (.numeral (Decimal.takeSign whole).2.length)
    else match Decimal.decimal? (whole ++ fraction ++ exponent) with
      | some d => .ok (.float d.toFloat, next)
      | none => .error (.fault .value c.position)

mutual
def value : Nat → Cursor → Reader Tree
  | 0, c => .error (.fault .value c.position)
  | fuel + 1, c =>
    match c.rest with
    | [] => .error (.fault .value c.position)
    | '"' :: rest =>
      match string ⟨c.position + 1, rest⟩ with
      | .ok (s, next) => .ok (.text s, next)
      | .error e => .error e
    | '\x7b' :: rest =>
      let next := (⟨c.position + 1, rest⟩ : Cursor).skip
      match next.rest with
      | '\x7d' :: rest => .ok (.dict [], ⟨next.position + 1, rest⟩)
      | _ => entries fuel [] next
    | '[' :: rest =>
      let next := (⟨c.position + 1, rest⟩ : Cursor).skip
      match next.rest with
      | ']' :: rest => .ok (.list [], ⟨next.position + 1, rest⟩)
      | _ => items fuel [] next
    | _ =>
      match word? c.rest with
      | some (t, size) => .ok (t, ⟨c.position + size, c.rest.drop size⟩)
      | none => number c

/-- The entries of a dictionary from the cursor on; `done` holds those read, in reverse. -/
def entries : Nat → List (String × Tree) → Cursor → Reader Tree
  | 0, _, c => .error (.fault .value c.position)
  | fuel + 1, done, c =>
    match c.rest with
    | '"' :: rest =>
      match string ⟨c.position + 1, rest⟩ with
      | .error e => .error e
      | .ok (name, next) =>
        let next := next.skip
        match next.rest with
        | ':' :: rest =>
          match value fuel (⟨next.position + 1, rest⟩ : Cursor).skip with
          | .error e => .error e
          | .ok (t, next) =>
            let done := (name, t) :: done
            let next := next.skip
            match next.rest with
            | '\x7d' :: rest =>
              let table := Table.ofEntries done.reverse
              .ok (.dict (table.map fun e => (.text e.1, e.2)), ⟨next.position + 1, rest⟩)
            | ',' :: rest => entries fuel done (⟨next.position + 1, rest⟩ : Cursor).skip
            | _ => .error (.fault .comma next.position)
        | _ => .error (.fault .colon next.position)
    | _ => .error (.fault .propertyName c.position)

/-- The items of a list from the cursor on; `done` holds those read, in reverse. -/
def items : Nat → List Tree → Cursor → Reader Tree
  | 0, _, c => .error (.fault .value c.position)
  | fuel + 1, done, c =>
    match value fuel c with
    | .error e => .error e
    | .ok (t, next) =>
      let next := next.skip
      match next.rest with
      | ']' :: rest => .ok (.list (t :: done).reverse, ⟨next.position + 1, rest⟩)
      | ',' :: rest => items fuel (t :: done) (⟨next.position + 1, rest⟩ : Cursor).skip
      | _ => .error (.fault .comma next.position)
end

def lineColumn (cs : List Char) (position : Nat) : Nat × Nat :=
  let before := cs.take position
  let line := before.count '\n' + 1
  let column := (before.reverse.takeWhile (· != '\n')).length + 1
  (line, column)

def Stop.failure (cs : List Char) : Stop → Failure
  | fault f position =>
    let (line, column) := lineColumn cs position
    .malformedJson f.message line column position
  | numeral digits => .numeralBeyondLimit digits

def parse (s : String) : Except Failure Tree :=
  let cs := s.toList
  let outcome : Except Stop Tree :=
    if cs.head? == some (Char.ofNat 0xFEFF) then .error (.fault .byteOrderMark 0) else
      match value (2 * cs.length + 2) (skipSpaces 0 cs) with
      | .error e => .error e
      | .ok (t, next) =>
        let next := next.skip
        if next.rest.isEmpty then .ok t else .error (.fault .extraData next.position)
  outcome.mapError (Stop.failure cs)

end Conductor.Json
