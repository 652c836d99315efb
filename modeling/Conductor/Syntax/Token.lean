import Conductor.Number
import Conductor.Text.Case

/-!
# Tokens

One logical line as a list of tokens that remember the span they cover. A quote
written twice inside a string stands for one; digits that run straight into a word
are no number; of the operators the longest fits first. The list always ends in one
end token, which stands just past the text.
-/

set_option autoImplicit false

namespace Conductor.Syntax

inductive TokenValue
  | number (n : Number)
  | string (s : String) (quote : Char)
  | word (s : String)
  | op (s : String)
  | eof

/-- A token with its line and column and its span in the text. -/
structure Token where
  value : TokenValue
  line : Nat
  col : Nat
  start : Nat
  stop : Nat

namespace Token

def isOp (t : Token) (s : String) : Bool :=
  match t.value with
  | .op o => o == s
  | _ => false

def word? (t : Token) : Option String :=
  match t.value with
  | .word w => some w
  | _ => none

def isWord (t : Token) : Bool := t.word?.isSome

def isOneOf (t : Token) (words : List String) : Bool :=
  match t.value with
  | .word w => words.contains (Text.upper w)
  | _ => false

def isEof (t : Token) : Bool :=
  match t.value with
  | .eof => true
  | _ => false

def string? (t : Token) : Option String :=
  match t.value with
  | .string s _ => some s
  | _ => none

def shown (t : Token) : Except Failure String :=
  match t.value with
  | .number (.int n) => integerText n
  | .number (.float x) => .ok (Decimal.exactText x)
  | .string s _ | .word s | .op s => .ok (Text.quoted s)
  | .eof => .ok "None"

end Token

/-! ## Lexical classes -/

def isWordStart (c : Char) : Bool := Text.isLetter c || c == '_' || c == '$' || c == '@' || c == '#'

def isWordPart (c : Char) : Bool :=
  Text.isAlphanumeric c || c == '_' || c == '$' || c == '@' || c == '#' || c == '.' || c == '?'

def isTokenBlank (c : Char) : Bool := c == ' ' || c == '\t' || c == '\r'

def longOperators : List String :=
  ["\\==", "**", "||", "|>", "==", "!=", "\\=", "<>", "<=", ">=", "&&"]

def shortOperators : List Char :=
  ['+', '-', '*', '/', '%', '=', '<', '>', '&', '|', '!', '\\', '(', ')', ',']

def operator? (cs : List Char) : Option String :=
  match longOperators.find? fun o => o.toList.isPrefixOf cs with
  | some o => some o
  | none => match cs with
    | c :: _ => if shortOperators.contains c then some (String.singleton c) else none
    | [] => none

/-- The contents of a string and its extent, from after the opening quote; none when it does not end.
`out` is held in reverse. -/
def stringBody (quote : Char) : Nat → List Char → List Char → Option (List Char × Nat)
  | _, _, [] => none
  | n, out, c :: rest =>
    if c == quote then
      match rest with
      | d :: rest' => if d == quote then stringBody quote (n + 2) (quote :: out) rest' else some (out.reverse, n + 1)
      | [] => some (out.reverse, n + 1)
    else stringBody quote (n + 1) (c :: out) rest

def startsDigit : List Char → Bool
  | c :: _ => Text.isDigit c
  | [] => false

/-- The extent of the exponent at the start of a text; zero when there is none. -/
def exponentExtent : List Char → Nat
  | e :: rest =>
    if e == 'e' || e == 'E' then
      let sign := match rest with
        | s :: _ => if s == '+' || s == '-' then 1 else 0
        | [] => 0
      let ds := (rest.drop sign).takeWhile Text.isDigit
      if ds.isEmpty then 0 else 1 + sign + ds.length
    else 0
  | [] => 0

def numeralExtent (cs : List Char) : Nat :=
  let whole := (cs.takeWhile Text.isDigit).length
  let fraction := match cs.drop whole with
    | '.' :: rest => if startsDigit rest then 1 + (rest.takeWhile Text.isDigit).length else 0
    | _ => 0
  whole + fraction + exponentExtent (cs.drop (whole + fraction))

def startsNumeral : List Char → Bool
  | '.' :: rest => startsDigit rest
  | cs => startsDigit cs

/-- One lexeme: its value and its extent. The text is not empty and does not start with a blank. -/
def lexeme (cs : List Char) : Except (Cause ⊕ Failure) (TokenValue × Nat) :=
  match cs with
  | [] => .ok (.eof, 0)
  | c :: rest =>
    if c == '\'' || c == '"' then
      match stringBody c 1 [] rest with
      | some (body, n) => .ok (.string (String.ofList body) c, n)
      | none => .error (.inl .unterminatedString)
    else if startsNumeral cs then
      let n := numeralExtent cs
      match cs.drop n with
      | d :: _ =>
        if isWordStart d || d == '.' then .error (.inl (.badNumber (String.ofList (cs.take (n + 1)))))
        else number n
      | [] => number n
    else if isWordStart c then
      let tail := rest.takeWhile isWordPart
      .ok (.word (String.ofList (c :: tail)), 1 + tail.length)
    else match operator? cs with
      | some o => .ok (.op o, o.length)
      | none => .error (.inl (.badCharacter c))
where
  number (n : Nat) : Except (Cause ⊕ Failure) (TokenValue × Nat) :=
    match numberOfNumeral (cs.take n) with
    | .ok v => .ok (.number v, n)
    | .error f => .error (.inr f)

/-- The tokens of a text from a position on. The first argument bounds their number. -/
def tokensFrom (line offset : Nat) : Nat → Nat → List Char → Except Problem (List Token)
  | 0, _, _ => .ok []
  | fuel + 1, p, cs =>
    match cs with
    | [] => .ok [⟨.eof, line, offset + p + 1, p, p⟩]
    | c :: rest =>
      if isTokenBlank c then tokensFrom line offset fuel (p + 1) rest else
        match lexeme cs with
        | .error (.inl cause) =>
          .error (.condition { cause := cause, line := some line, col := some (offset + p + 1) })
        | .error (.inr f) => .error (.failure f)
        | .ok (value, n) =>
          match tokensFrom line offset fuel (p + n) (cs.drop n) with
          | .error e => .error e
          | .ok ts => .ok (⟨value, line, offset + p + 1, p, p + n⟩ :: ts)

/-- The tokens of one line. Columns count from one and are moved by `offset`. -/
def tokenize (text : String) (line offset : Nat) : Except Problem (List Token) :=
  let cs := text.toList
  tokensFrom line offset (cs.length + 1) 0 cs

end Conductor.Syntax
