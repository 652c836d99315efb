/-!
# Values

What a program can hold. Scalars are the same everywhere; aggregates come in two
forms. A `Value` is what a variable holds: it refers to a stem by its address in
the store, so that two variables can share one stem. A `Tree` is what a value
looks like when every address has been followed: it is finite and refers to
nothing. Lists and dictionaries reach a program only from outside; the language
itself makes stems.
-/

set_option autoImplicit false

namespace Conductor

/-- A value without parts. `absent` is the outside world's nothing, `unbound` the answer of a look-up
that found no binding, and `foreign` a thing the language can only show, with its kind and its text. -/
inductive Scalar
  | text (s : String)
  | int (n : Int)
  | float (x : Float)
  | bool (b : Bool)
  | absent
  | unbound
  | bytes (data : List UInt8)
  | foreign (kind shown quoted : String)

abbrev Address := Nat

inductive Value
  | scalar (s : Scalar)
  | stem (at_ : Address)
  | list (items : List Value)
  | dict (entries : List (Value × Value))

inductive Tree
  | scalar (s : Scalar)
  | stem (items : List Tree) (named : List (String × Tree))
  | list (items : List Tree)
  | dict (entries : List (Tree × Tree))

instance : Inhabited Scalar := ⟨.unbound⟩
instance : Inhabited Value := ⟨.scalar .unbound⟩
instance : Inhabited Tree := ⟨.scalar .unbound⟩

namespace Value

@[match_pattern] abbrev text (s : String) : Value := .scalar (.text s)
@[match_pattern] abbrev int (n : Int) : Value := .scalar (.int n)
@[match_pattern] abbrev float (x : Float) : Value := .scalar (.float x)
@[match_pattern] abbrev bool (b : Bool) : Value := .scalar (.bool b)
@[match_pattern] abbrev absent : Value := .scalar .absent
@[match_pattern] abbrev unbound : Value := .scalar .unbound

def isUnbound : Value → Bool
  | .unbound => true
  | _ => false

def isStem : Value → Bool
  | .stem _ => true
  | _ => false

def ofBool (b : Bool) : Value := .int (if b then 1 else 0)

def ofNat (n : Nat) : Value := .int n

mutual
def addresses : Value → List Address
  | .scalar _ => []
  | .stem a => [a]
  | .list items => addressesAll items
  | .dict entries => addressesEntries entries

def addressesAll : List Value → List Address
  | [] => []
  | v :: rest => addresses v ++ addressesAll rest

def addressesEntries : List (Value × Value) → List Address
  | [] => []
  | (k, v) :: rest => addresses k ++ addresses v ++ addressesEntries rest
end

end Value

namespace Tree

@[match_pattern] abbrev text (s : String) : Tree := .scalar (.text s)
@[match_pattern] abbrev int (n : Int) : Tree := .scalar (.int n)
@[match_pattern] abbrev float (x : Float) : Tree := .scalar (.float x)
@[match_pattern] abbrev bool (b : Bool) : Tree := .scalar (.bool b)
@[match_pattern] abbrev absent : Tree := .scalar .absent
@[match_pattern] abbrev unbound : Tree := .scalar .unbound

end Tree

end Conductor
