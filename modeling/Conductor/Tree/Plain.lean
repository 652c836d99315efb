import Conductor.Table
import Conductor.Number

/-!
# Plain data and the language's values

A stem seen from outside is plain data: a list when it has no names, a dictionary
when it has only names, and otherwise a dictionary whose first keys are the
positions. In the other direction `normalize` brings outside data into the
language: nothing becomes the empty text, truth values become 1 and 0, and lists
and dictionaries become stems.
-/

set_option autoImplicit false

namespace Conductor

def traverse {α β ε : Type} (f : α → Except ε β) : List α → Except ε (List β)
  | [] => .ok []
  | a :: rest =>
    match f a with
    | .error e => .error e
    | .ok b =>
      match traverse f rest with
      | .error e => .error e
      | .ok bs => .ok (b :: bs)

namespace Tree

def positionNames (n : Nat) : List String := (List.range n).map fun i => Nat.repr (i + 1)

def plainStem (items : List Tree) (named : List (String × Tree)) : Tree :=
  if named.isEmpty then .list items
  else if items.isEmpty then .dict (named.map fun e => (.text e.1, e.2))
  else
    let table := Table.putAll ((positionNames items.length).zip items) named
    .dict (table.map fun e => (.text e.1, e.2))

mutual
def unstem : Tree → Tree
  | .stem items named => plainStem (unstemAll items) (unstemNamed named)
  | t => t

def unstemAll : List Tree → List Tree
  | [] => []
  | t :: rest => unstem t :: unstemAll rest

def unstemNamed : List (String × Tree) → List (String × Tree)
  | [] => []
  | (k, t) :: rest => (k, unstem t) :: unstemNamed rest
end

/-- The name that a scalar has as a key of a dictionary, when it is a text already. -/
def key? : Tree → Option String
  | .text s => some s
  | _ => none

/-- Whether outside data counts as something: not empty, not zero and not absent. -/
def holds : Tree → Bool
  | .text s => !s.isEmpty
  | .int n => n != 0
  | .float x => !(x == 0.0)
  | .bool b => b
  | .scalar .absent | .scalar .unbound => false
  | .scalar (.bytes data) => !data.isEmpty
  | .scalar (.foreign ..) => true
  | .stem items _ => !items.isEmpty
  | .list items => !items.isEmpty
  | .dict entries => !entries.isEmpty

end Tree

namespace Scalar

def kindName : Scalar → String
  | text _ => "str"
  | int _ => "int"
  | float _ => "float"
  | bool _ => "bool"
  | absent => "NoneType"
  | unbound => "_Undefined"
  | bytes _ => "bytes"
  | foreign kind .. => kind

def quotedByte (quote : Char) (b : UInt8) : String :=
  let c := Char.ofNat b.toNat
  if c == quote || c == '\\' then String.ofList ['\\', c]
  else if c == '\n' then "\\n"
  else if c == '\r' then "\\r"
  else if c == '\t' then "\\t"
  else if 32 ≤ b.toNat && b.toNat < 127 then String.singleton c
  else "\\x" ++ Text.hexDigits 2 b.toNat

def quotedBytes (data : List UInt8) : String :=
  let quote := if data.contains 39 && !data.contains 34 then '"' else '\''
  "b" ++ String.singleton quote ++ data.foldl (fun out b => out ++ quotedByte quote b) "" ++
    String.singleton quote

def quoted : Scalar → Except Failure String
  | text s => .ok (Text.quoted s)
  | int n => integerText n
  | float x => .ok (Decimal.exactText x)
  | bool b => .ok (if b then "True" else "False")
  | absent => .ok "None"
  | unbound => .ok "UNDEFINED"
  | bytes data => .ok (quotedBytes data)
  | foreign _ _ quoted => .ok quoted

def asName : Scalar → Except Failure String
  | text s => .ok s
  | unbound => .ok ""
  | foreign _ shown _ => .ok shown
  | s => s.quoted

def shown : Scalar → Except Failure String
  | text s => .ok s
  | int n => integerText n
  | float x => .ok (Number.text.floatText x)
  | bool b => .ok (if b then "1" else "0")
  | absent | unbound => .ok ""
  | bytes data => .ok (quotedBytes data)
  | foreign _ shown _ => .ok shown

/-- Scalars of the language's own: what is absent is the empty text, truth values are numbers. -/
def normalize : Scalar → Scalar
  | absent => text ""
  | bool b => int (if b then 1 else 0)
  | s => s

def isNumeric : Scalar → Bool
  | int _ | float _ | bool _ => true
  | text s => isNumeral s
  | _ => false

def number? : Scalar → Option (Except Failure Number)
  | int n => some (.ok (.int n))
  | float x => some (.ok (.float x))
  | bool b => some (.ok (.int (if b then 1 else 0)))
  | text s => if isNumeral s then some (numberOfNumeral (Text.stripWhile Text.isBlank s.toList)) else none
  | _ => none

end Scalar

end Conductor
