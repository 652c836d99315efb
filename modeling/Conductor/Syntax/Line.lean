import Conductor.Error
import Conductor.Text.Case
import Conductor.Text.Split

/-!
# Logical lines

A source text as logical lines. Comments are removed outside quotes, in a way that
keeps every column; a semicolon outside quotes ends a statement; and a line that ends
in a block opener takes the raw lines up to its delimiter as its block literal. The
body of a block literal is not looked into.
-/

set_option autoImplicit false

namespace Conductor.Syntax

open Text (isWordChar isBlank)

inductive Format
  | json
  | yaml
  deriving DecidableEq, Repr

def Format.name : Format → String
  | json => "json"
  | yaml => "yaml"

structure BlockLiteral where
  delimiter : String
  content : String
  structured : Option Format
  line : Nat
  col : Nat
  deriving Inhabited

structure SourceLine where
  code : String
  line : Nat
  offset : Nat
  block : Option BlockLiteral
  deriving Inhabited

/-! ## Comments -/

inductive Inside
  | code
  | quote (q : Char)
  | comment
  deriving DecidableEq, Repr

/-- A line without its comments: a block comment leaves blanks, a line comment ends the line. The
result is held in reverse. -/
def stripFrom : Inside → List Char → List Char → List Char × Bool
  | inside, out, [] => (out, inside == .comment)
  | .comment, out, '*' :: '/' :: rest => stripFrom .code (' ' :: ' ' :: out) rest
  | .comment, out, _ :: rest => stripFrom .comment (' ' :: out) rest
  | .quote q, out, c :: rest => stripFrom (if c == q then .code else .quote q) (c :: out) rest
  | .code, out, '/' :: '*' :: rest => stripFrom .comment (' ' :: ' ' :: out) rest
  | .code, out, '-' :: '-' :: _ => (out, false)
  | .code, out, '/' :: '/' :: _ => (out, false)
  | .code, out, c :: rest => stripFrom (if c == '\'' || c == '"' then .quote c else .code) (c :: out) rest

/-- A line without its comments and trailing blanks, and whether a block comment stays open. -/
def stripComments (line : List Char) (inComment : Bool) : List Char × Bool :=
  let (out, opened) := stripFrom (if inComment then .comment else .code) [] line
  ((out.dropWhile isBlank).reverse, opened)

/-! ## Statements on one line -/

/-- The pieces between semicolons outside quotes, each with its start. `piece` is held in reverse. -/
def segmentsFrom : Option Char → Nat → Nat → List Char → List Char → List (List Char × Nat)
  | _, start, _, piece, [] => [(piece.reverse, start)]
  | some q, start, p, piece, c :: rest =>
    segmentsFrom (if c == q then none else some q) start (p + 1) (c :: piece) rest
  | none, start, p, piece, c :: rest =>
    if c == ';' then (piece.reverse, start) :: segmentsFrom none (p + 1) (p + 1) [] rest
    else segmentsFrom (if c == '\'' || c == '"' then some c else none) start (p + 1) (c :: piece) rest

def segments (code : List Char) : List (List Char × Nat) := segmentsFrom none 0 0 [] code

/-! ## Block openers -/

def isNameStart (c : Char) : Bool := c.isAlpha || c == '_'

def takeName (cs : List Char) : Option (List Char × List Char) :=
  match cs.dropWhile isBlank with
  | c :: rest =>
    if isNameStart c then some (c :: rest.takeWhile isWordChar, rest.dropWhile isWordChar) else none
  | [] => none

def opener? (cs : List Char) : Option String :=
  match cs with
  | '<' :: '<' :: rest =>
    match takeName rest with
    | some (name, after) => if after.all isBlank then some (String.ofList name) else none
    | none => none
  | _ => none

/-- The first place from which a segment is a block opener to its end, with the delimiter. -/
def findOpener (p : Nat) : List Char → Option (Nat × String)
  | [] => none
  | c :: rest =>
    match opener? (c :: rest) with
    | some name => some (p, name)
    | none => findOpener (p + 1) rest

def formatOf (delimiter : String) : Option Format :=
  let upper := Text.upper delimiter
  if Text.occursIn "JSON" upper then some .json
  else if Text.occursIn "YAML" upper || Text.occursIn "YML" upper then some .yaml
  else none

def takeBody (delimiter : String) : List String → Option (List String × List String)
  | [] => none
  | l :: rest =>
    if Text.strip l == delimiter then some ([], rest)
    else (takeBody delimiter rest).map fun cut => (l :: cut.1, cut.2)

/-! ## A source text -/

/-- The logical lines of one raw line's segments. The last segment may open a block; the rest of the
raw lines is given back without it. -/
def segmentLines (line : Nat) (rest : List String) :
    List (List Char × Nat) → Except Condition (List SourceLine × List String)
  | [] => .ok ([], rest)
  | [(seg, off)] =>
    if seg.all isBlank then .ok ([], rest) else
      match findOpener 0 seg with
      | none => .ok ([⟨String.ofList seg, line, off, none⟩], rest)
      | some (start, delimiter) =>
        match takeBody delimiter rest with
        | none => .error { cause := .unterminatedBlock delimiter, line := some line, col := some (off + start + 1) }
        | some (body, rest) =>
          let block : BlockLiteral :=
            ⟨delimiter, String.intercalate "\n" body, formatOf delimiter, line, off + start + 1⟩
          .ok ([⟨String.ofList (seg.take start), line, off, some block⟩], rest)
  | (seg, off) :: more =>
    match segmentLines line rest more with
    | .error e => .error e
    | .ok (ls, rest) =>
      if seg.all isBlank then .ok (ls, rest) else .ok (⟨String.ofList seg, line, off, none⟩ :: ls, rest)

/-- The logical lines from a raw line on. The first argument bounds the number of raw lines. -/
def sourceLinesFrom : Nat → Nat → Bool → List String → Except Condition (List SourceLine)
  | 0, _, _, _ => .ok []
  | _ + 1, _, _, [] => .ok []
  | fuel + 1, number, inComment, raw :: rest =>
    let (code, inComment) := stripComments raw.toList inComment
    if code.all isBlank then sourceLinesFrom fuel (number + 1) inComment rest else
      match segmentLines number rest (segments code) with
      | .error e => .error e
      | .ok (ls, after) =>
        match sourceLinesFrom fuel (number + 1 + (rest.length - after.length)) inComment after with
        | .error e => .error e
        | .ok more => .ok (ls ++ more)

def sourceLines (source : String) : Except Condition (List SourceLine) :=
  let raw := Text.lines source
  sourceLinesFrom (raw.length + 1) 1 false raw

namespace SourceLine

def word (l : SourceLine) : String :=
  match takeName l.code.toList with
  | some (name, _) => Text.upper (String.ofList name)
  | none => ""

def afterWord (l : SourceLine) : String × Nat :=
  match takeName l.code.toList with
  | some (_, after) => (String.ofList after, l.offset + (l.code.length - after.length))
  | none => (l.code, l.offset)

end SourceLine

end Conductor.Syntax
