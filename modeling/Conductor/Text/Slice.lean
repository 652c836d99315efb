import Conductor.Text.Case
import Conductor.Text.Split

/-!
# Parts of a text by position

Slices whose ends may be counted from the back, searches from a position, padding,
and the removal of given characters at the ends.
-/

set_option autoImplicit false

namespace Conductor.Text

def upToPos (n : Int) (cs : List Char) : List Char :=
  if n ≥ 0 then cs.take n.toNat else cs.take (cs.length - n.natAbs)

/-- The last `n` characters; for a negative `n` those after the first so many. -/
def lastChars (n : Int) (cs : List Char) : List Char :=
  if n > 0 then cs.drop (cs.length - n.toNat)
  else if n < 0 then cs.drop n.natAbs
  else []

/-- The position, counted from one, of the first occurrence at or after a position counted from zero,
which may be negative and then counts from the end; zero if there is none. -/
def position (pattern text : List Char) (start : Int) : Nat :=
  let from_ : Nat := if start < 0 then text.length - start.natAbs else start.toNat
  if from_ > text.length then 0
  else match findFrom pattern from_ (text.drop from_) with
    | some i => i + 1
    | none => 0

def fillEnd (n : Int) (pad : Char) (cs : List Char) : List Char := cs ++ List.replicate (n.toNat - cs.length) pad

def fillStart (n : Int) (pad : Char) (cs : List Char) : List Char := List.replicate (n.toNat - cs.length) pad ++ cs

def isTitle (c : Char) : Bool := upperChar c != [c] && lowerChar c != [c]

def allUpper (cs : List Char) : Bool := cs.any isUpper && cs.all fun c => !isLower c && !isTitle c

def allLower (cs : List Char) : Bool := cs.any isLower && cs.all fun c => !isUpper c && !isTitle c

end Conductor.Text
