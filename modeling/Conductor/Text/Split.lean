import Conductor.Text.Property

/-!
# Cutting texts

Occurrences of a pattern, cutting at a separator, words between blanks, lines,
and the removal of characters from either end. All of it is by recursion on the
characters, so positions count characters and never bytes. Comparison of two
texts is by code point.
-/

set_option autoImplicit false

namespace Conductor.Text

/-! ## Ends -/

def dropEndWhile (p : Char → Bool) (cs : List Char) : List Char :=
  (cs.reverse.dropWhile p).reverse

def stripWhile (p : Char → Bool) (cs : List Char) : List Char :=
  dropEndWhile p (cs.dropWhile p)

def strip (s : String) : String := String.ofList (stripWhile isBlank s.toList)

def stripStart (s : String) : String := String.ofList (s.toList.dropWhile isBlank)

def stripEnd (s : String) : String := String.ofList (dropEndWhile isBlank s.toList)

def allBlank (s : String) : Bool := s.toList.all isBlank

/-! ## Occurrences -/

/-- The first occurrence of `pattern` as the text before it and the text after it. -/
def findSplit (pattern : List Char) : List Char → Option (List Char × List Char)
  | [] => if pattern.isEmpty then some ([], []) else none
  | c :: rest =>
    if pattern.isPrefixOf (c :: rest) then some ([], (c :: rest).drop pattern.length)
    else (findSplit pattern rest).map fun cut => (c :: cut.1, cut.2)

def findFrom (pattern : List Char) (base : Nat) : List Char → Option Nat
  | [] => if pattern.isEmpty then some base else none
  | c :: rest => if pattern.isPrefixOf (c :: rest) then some base else findFrom pattern (base + 1) rest

def find? (pattern text : String) : Option Nat := findFrom pattern.toList 0 text.toList

def occursIn (pattern text : String) : Bool := (find? pattern text).isSome

def startsWith (text start : String) : Bool := start.toList.isPrefixOf text.toList

def endsWith (text stop : String) : Bool := stop.toList.isSuffixOf text.toList

/-! ## Pieces -/

/-- The pieces between non-overlapping occurrences of `sep`, found from the left. `skip` counts the
characters of the last occurrence still to be passed over; `piece` is held in reverse. -/
def piecesFrom (sep : List Char) : Nat → List Char → List Char → List (List Char)
  | _, piece, [] => [piece.reverse]
  | skip + 1, piece, _ :: rest => piecesFrom sep skip piece rest
  | 0, piece, c :: rest =>
    if sep.isPrefixOf (c :: rest) then piece.reverse :: piecesFrom sep (sep.length - 1) [] rest
    else piecesFrom sep 0 (c :: piece) rest

/-- The pieces of `text` between the occurrences of a separator that is not empty. -/
def pieces (sep text : String) : List String :=
  (piecesFrom sep.toList 0 [] text.toList).map String.ofList

/-- At most one cut: the text before the first occurrence and the text after it. -/
def cutAt (sep text : String) : String × Option String :=
  match findSplit sep.toList text.toList with
  | some (before, after) => (String.ofList before, some (String.ofList after))
  | none => (text, none)

def replaceAll (pattern replacement text : String) : String :=
  String.intercalate replacement (pieces pattern text)

/-- The words of a text: its maximal runs without a blank. `word` is held in reverse. -/
def wordsFrom (word : List Char) : List Char → List (List Char)
  | [] => if word.isEmpty then [] else [word.reverse]
  | c :: rest =>
    if isBlank c then (if word.isEmpty then wordsFrom [] rest else word.reverse :: wordsFrom [] rest)
    else wordsFrom (c :: word) rest

def words (s : String) : List String := (wordsFrom [] s.toList).map String.ofList

/-! ## Lines -/

/-- The characters that end a line; a carriage return and the line feed after it end one line. -/
def isLineBreak (c : Char) : Bool :=
  let n := c.toNat
  (10 ≤ n && n ≤ 13) || (28 ≤ n && n ≤ 30) || n == 0x85 || n == 0x2028 || n == 0x2029

/-- `open` says that the line has begun, so that a text's last line break opens no further line. -/
def linesFrom : Bool → List Char → List Char → List (List Char)
  | opened, line, [] => if opened then [line.reverse] else []
  | _, line, '\r' :: '\n' :: rest => line.reverse :: linesFrom false [] rest
  | _, line, c :: rest =>
    if isLineBreak c then line.reverse :: linesFrom false [] rest
    else linesFrom true (c :: line) rest

def lines (s : String) : List String := (linesFrom false [] s.toList).map String.ofList

/-! ## Padding and slices -/

def repeated (n : Nat) (c : Char) : String := String.ofList (List.replicate n c)

def padEnd (n : Nat) (pad : Char) (s : String) : String := s ++ repeated (n - s.length) pad

def padStart (n : Nat) (pad : Char) (s : String) : String := repeated (n - s.length) pad ++ s

def takeChars (n : Nat) (s : String) : String := String.ofList (s.toList.take n)

def dropChars (n : Nat) (s : String) : String := String.ofList (s.toList.drop n)

def compareChars : List Char → List Char → Ordering
  | [], [] => .eq
  | [], _ :: _ => .lt
  | _ :: _, [] => .gt
  | a :: as, b :: bs => if a < b then .lt else if b < a then .gt else compareChars as bs

def compare (a b : String) : Ordering := compareChars a.toList b.toList

def sorted (names : List String) : List String :=
  names.mergeSort fun a b => compare a b != .gt

end Conductor.Text
