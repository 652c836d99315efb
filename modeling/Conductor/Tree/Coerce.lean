import Conductor.Tree.Same
import Conductor.Text.Case

/-!
# Numbers in settings

Settings come from files, where a number may stand as a text. Here a value is read
as a double or as an integer, with blanks around it and underscores between digits
allowed.
-/

set_option autoImplicit false

namespace Conductor

namespace Text

/-- A numeral without the underscores that stand between two digits; none if one stands elsewhere. -/
def withoutUnderscores? (afterDigit : Bool) : List Char → Option (List Char)
  | [] => some []
  | '_' :: c :: rest =>
    if afterDigit && isDecimal c then (withoutUnderscores? true rest).map (c :: ·) else none
  | ['_'] => none
  | c :: rest => (withoutUnderscores? (isDecimal c) rest).map (c :: ·)

end Text

namespace Decimal

def special? (cs : List Char) : Option Float :=
  let (negative, word) := takeSign cs
  let signed (x : Float) : Float := if negative then -x else x
  match Text.lower (String.ofList word) with
  | "inf" | "infinity" => some (signed (1.0 / 0.0))
  | "nan" => some (signed (0.0 / 0.0))
  | _ => none

def float? (s : String) : Option Float :=
  let cs := Text.stripWhile Text.isBlank s.toList
  match special? cs with
  | some x => some x
  | none => do
    let cs ← Text.withoutUnderscores? false cs
    return (← decimal? cs).toFloat

end Decimal

namespace Tree

def kindName : Tree → String
  | .scalar s => s.kindName
  | .stem .. => "Stem"
  | .list _ => "list"
  | .dict _ => "dict"

def asFloat (t : Tree) : Except Failure Float :=
  match t with
  | .int n => (Number.int n).toFloat
  | .float x => .ok x
  | .bool b => .ok (if b then 1.0 else 0.0)
  | .text s => match Decimal.float? s with
    | some x => .ok x
    | none => .error (.notADecimal (Text.quoted s))
  | t => .error (.wrongType ("float() argument must be a string or a real number, not '" ++ t.kindName ++ "'"))

def asInteger (t : Tree) : Except Failure Int :=
  match t with
  | .int n => .ok n
  | .float x => (Number.float x).truncate
  | .bool b => .ok (if b then 1 else 0)
  | .text s => match Text.withoutUnderscores? false (Text.stripWhile Text.isBlank s.toList) with
    | some cs => integerOfNumeral s cs
    | none => .error (.notAnInteger (Text.quoted s))
  | t => .error (.wrongType
      ("int() argument must be a string, a bytes-like object or a real number, not '" ++ t.kindName ++ "'"))

def field? (t : Tree) (k : String) : Option Tree :=
  match t with
  | .dict entries => lookup? (.text k) entries
  | _ => none

def elements : Tree → Except Failure (List Tree)
  | .list items => .ok items
  | .stem items _ => .ok items
  | .dict entries => .ok (entries.map Prod.fst)
  | .text s => .ok (s.toList.map fun c => .text (String.singleton c))
  | .scalar (.bytes data) => .ok (data.map fun b => .int b.toNat)
  | .scalar s => .error (.wrongType ("'" ++ s.kindName ++ "' object is not iterable"))

/-- The entry that an item of a row of pairs stands for: its two parts. `i` is its place, from zero. -/
def pairAt (i : Nat) (t : Tree) : Except Failure (Tree × Tree) :=
  match t.elements with
  | .ok [k, v] => .ok (k, v)
  | .ok parts => .error (.raised "ValueError" ("dictionary update sequence element #" ++ Nat.repr i ++ " has length " ++
      Nat.repr parts.length ++ "; 2 is required"))
  | .error _ =>
    .error (.wrongType ("cannot convert dictionary update sequence element #" ++ Nat.repr i ++ " to a sequence"))

def pairsFrom (i : Nat) : List Tree → Except Failure (List (Tree × Tree))
  | [] => .ok []
  | t :: rest => do
    let first ← pairAt i t
    return first :: (← pairsFrom (i + 1) rest)

/-- The entries of data that can stand for a dictionary: a stem by its keys, a row by its pairs. -/
def pairs : Tree → Except Failure (List (Tree × Tree))
  | .dict entries => .ok entries
  | .stem items named =>
    .ok (((List.range items.length).map fun i => Tree.int (Int.ofNat (i + 1))).zip items ++ named.map fun e => (.text e.1, e.2))
  | t => do pairsFrom 0 (← t.elements)

end Tree

end Conductor
