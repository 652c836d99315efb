import Conductor.Tree.Shown

/-!
# Equality of trees

When two trees count as the same: texts by their characters, numbers and truth
values by their size, dictionaries without regard to order. A stem is the same as
a list of its items if it has no names, and as a dictionary of its names if it has
no items. Keys of a dictionary are told apart by the same rule.
-/

set_option autoImplicit false

namespace Conductor

namespace Scalar

def size? : Scalar → Option Number
  | int n => some (.int n)
  | float x => some (.float x)
  | bool b => some (.int (if b then 1 else 0))
  | _ => none

def same : Scalar → Scalar → Bool
  | text a, text b => a == b
  | absent, absent => true
  | unbound, unbound => true
  | bytes a, bytes b => a == b
  | foreign k a _, foreign l b _ => k == l && a == b
  | a, b =>
    match a.size?, b.size? with
    | some x, some y => x.eq y
    | _, _ => false

end Scalar

namespace Tree

def sameKey : Tree → Tree → Bool
  | .scalar a, .scalar b => a.same b
  | _, _ => false

def putEntry (k v : Tree) : List (Tree × Tree) → List (Tree × Tree)
  | [] => [(k, v)]
  | (k', v') :: rest => if sameKey k' k then (k', v) :: rest else (k', v') :: putEntry k v rest

/-- A dictionary from its entries in order; a later entry replaces the value of an equal key. -/
def dictOf (entries : List (Tree × Tree)) : Tree :=
  .dict (entries.foldl (fun acc e => putEntry e.1 e.2 acc) [])

def textKeys (named : List (String × Tree)) : List (Tree × Tree) := named.map fun e => (.text e.1, e.2)

def lookup? (k : Tree) : List (Tree × Tree) → Option Tree
  | [] => none
  | (k', v) :: rest => if sameKey k' k then some v else lookup? k rest

mutual
def same : Tree → Tree → Bool
  | .scalar a, .scalar b => a.same b
  | .stem items named, .stem items' named' =>
    sameAll items items' && named.length == named'.length && sameNamed named (textKeys named')
  | .stem items named, .list other => named.isEmpty && sameAll items other
  | .list items, .stem other named => named.isEmpty && sameAll items other
  | .stem items named, .dict other =>
    items.isEmpty && named.length == other.length && sameNamed named other
  | .dict entries, .stem items named =>
    items.isEmpty && entries.length == named.length && sameEntries entries (textKeys named)
  | .list items, .list other => sameAll items other
  | .dict entries, .dict other => entries.length == other.length && sameEntries entries other
  | _, _ => false

def sameAll : List Tree → List Tree → Bool
  | [], [] => true
  | a :: as, b :: bs => same a b && sameAll as bs
  | _, _ => false

def sameNamed : List (String × Tree) → List (Tree × Tree) → Bool
  | [], _ => true
  | (k, v) :: rest, other =>
    (match lookup? (.text k) other with
      | some w => same v w
      | none => false) && sameNamed rest other

def sameEntries : List (Tree × Tree) → List (Tree × Tree) → Bool
  | [], _ => true
  | (k, v) :: rest, other =>
    (match lookup? k other with
      | some w => same v w
      | none => false) && sameEntries rest other
end

end Tree

end Conductor
