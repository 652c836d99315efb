import Conductor.Document.Json
import Conductor.Tree.Coerce

/-!
# Values in exchange documents

The interchange format knows texts, integers, truth values, nothing, lists and
objects. What it lacks is exchanged as an object whose one telling field says what
it is: doubles by their shortest text, stems, lists, dictionaries with any keys, raw
bytes, the unbound value, and integers too long for a numeral. Other things can be
named but not exchanged.
-/

set_option autoImplicit false

namespace Conductor

namespace Exchange

def object (fields : List (String × Tree)) : Tree := .dict (fields.map fun e => (.text e.1, e.2))

def bytesOfHex : List Char → List UInt8
  | a :: b :: rest => UInt8.ofNat ((Json.hexValue? a).getD 0 * 16 + (Json.hexValue? b).getD 0) :: bytesOfHex rest
  | _ => []

def hexOfBytes (data : List UInt8) : String := String.join (data.map fun b => Text.hexDigits 2 b.toNat)

def pairOf : Tree → Tree × Tree
  | .list [k, v] => (k, v)
  | t => (t, .absent)

def itemsOf : Tree → List Tree
  | .list items => items
  | _ => []

def named (t : Tree) : List (String × Tree) :=
  (itemsOf t).map fun e => match pairOf e with
    | (.text k, v) => (k, v)
    | (_, v) => ("", v)

def interpret (o : Tree) : Tree :=
  match o.field? "float", o.field? "stem", o.field? "list", o.field? "dict", o.field? "bytes", o.field? "undefined" with
  | some (.text s), _, _, _, _, _ => .float ((Decimal.float? s).getD 0.0)
  | _, some items, _, _, _, _ => .stem (itemsOf items) (named ((o.field? "named").getD .absent))
  | _, _, some items, _, _, _ => .list (itemsOf items)
  | _, _, _, some entries, _, _ => .dictOf ((itemsOf entries).map pairOf)
  | _, _, _, _, some (.text hex), _ => .scalar (.bytes (bytesOfHex hex.toList))
  | _, _, _, _, _, some _ => .unbound
  | _, _, _, _, _, _ => o

mutual
def decode : Tree → Tree
  | .list items => .list (decodeAll items)
  | .dict entries => interpret (.dict (decodeEntries entries))
  | t => t

def decodeAll : List Tree → List Tree
  | [] => []
  | t :: rest => decode t :: decodeAll rest

def decodeEntries : List (Tree × Tree) → List (Tree × Tree)
  | [] => []
  | (k, t) :: rest => (k, decode t) :: decodeEntries rest
end

def encodeScalar : Scalar → Tree
  | .int n =>
    if n.natAbs ≥ Nat.pow 10 digitLimit then
      object [("hexint", .text ((if n < 0 then "-0x" else "0x") ++ String.ofList (Nat.toDigits 16 n.natAbs)))]
    else .int n
  | .float x => object [("float", .text (Decimal.exactText x))]
  | .unbound => object [("undefined", .bool true)]
  | .bytes data => object [("bytes", .text (hexOfBytes data))]
  | .foreign kind _ _ => object [("other", .text kind)]
  | s => .scalar s

mutual
def encode : Tree → Tree
  | .scalar s => encodeScalar s
  | .stem items named => object [("stem", .list (encodeAll items)), ("named", .list (encodeNamed named))]
  | .list items => object [("list", .list (encodeAll items))]
  | .dict entries => object [("dict", .list (encodeEntries entries))]

def encodeAll : List Tree → List Tree
  | [] => []
  | t :: rest => encode t :: encodeAll rest

def encodeNamed : List (String × Tree) → List Tree
  | [] => []
  | (k, t) :: rest => .list [.text k, encode t] :: encodeNamed rest

def encodeEntries : List (Tree × Tree) → List Tree
  | [] => []
  | (k, t) :: rest => .list [encode k, encode t] :: encodeEntries rest
end

end Exchange

end Conductor
