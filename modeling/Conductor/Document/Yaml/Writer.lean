import Conductor.Document.Yaml.Scalar

/-!
# Writing the outline format

Plain data as an outline text: in block style one entry to a line, in flow style
between brackets. A text stands plain when it cannot be misread, else between single
quotes, and between double quotes with escapes when it holds characters that need
them. Lines are folded at blanks once they pass eighty columns.
-/

set_option autoImplicit false

namespace Conductor.Yaml

structure Out where
  text : String := ""
  column : Nat := 0
  indent : Option Nat := none
  whitespace : Bool := true
  indention : Bool := true
  openEnded : Bool := false

def lineWidth : Nat := 80

namespace Out

def write (s : String) (o : Out) : Out := { o with text := o.text ++ s, column := o.column + s.length }

def lineBreak (o : Out) : Out :=
  { o with text := o.text ++ "\n", column := 0, whitespace := true, indention := true }

def writeIndent (o : Out) : Out :=
  let depth := o.indent.getD 0
  let o := if !o.indention || o.column > depth || (o.column == depth && !o.whitespace) then o.lineBreak else o
  if o.column < depth then { (o.write (Text.repeated (depth - o.column) ' ')) with whitespace := true } else o

def indicator (mark : String) (needSpace whitespace indention : Bool) (o : Out) : Out :=
  let o' := o.write (if o.whitespace || !needSpace then mark else " " ++ mark)
  { o' with whitespace := whitespace, indention := o.indention && indention, openEnded := false }

def deeper (flow indentless : Bool) (o : Out) : Out :=
  { o with indent := match o.indent with
      | none => some (if flow then 2 else 0)
      | some n => some (if indentless then n else n + 2) }

end Out

/-! ## How a text may be written -/

structure Analysis where
  empty : Bool := false
  multiline : Bool := false
  flowPlain : Bool := false
  blockPlain : Bool := true
  singleQuoted : Bool := true

def isSpaceBreakOrEnd : Option Char → Bool
  | none => true
  | some c => c == ' ' || c == '\t' || c == '\n' || c == '\r' || c.toNat == 0x85 || c.toNat == 0x2028 ||
      c.toNat == 0x2029 || c.toNat == 0

def isFoldBreak (c : Char) : Bool := c == '\n' || c.toNat == 0x85 || c.toNat == 0x2028 || c.toNat == 0x2029

structure Seen where
  flowMark : Bool := false
  blockMark : Bool := false
  breaks : Bool := false
  special : Bool := false
  breakSpace : Bool := false
  spaceBreak : Bool := false
  previousSpace : Bool := false
  previousBreak : Bool := false

def isSpecial (c : Char) : Bool :=
  let n := c.toNat
  !(n == 10 || (0x20 ≤ n && n ≤ 0x7E) ||
    ((n == 0x85 || (0xA0 ≤ n && n ≤ 0xD7FF) || (0xE000 ≤ n && n ≤ 0xFFFD) || (0x10000 ≤ n && n < 0x10FFFF)) &&
      n != 0xFEFF))

def lookAt (first : Bool) (preceded : Bool) (c : Char) (next : Option Char) (seen : Seen) : Seen :=
  let followed := isSpaceBreakOrEnd next
  let both (b : Bool) (s : Seen) : Seen := if b then { s with flowMark := true, blockMark := true } else s
  let flowOnly (b : Bool) (s : Seen) : Seen := if b then { s with flowMark := true } else s
  let blockOnly (b : Bool) (s : Seen) : Seen := if b then { s with blockMark := true } else s
  let seen :=
    if first then
      let s := both ("#,[]\x7b\x7d&*!|>'\"%@`".toList.contains c) seen
      let s := flowOnly (c == '?' || c == ':') s
      let s := blockOnly ((c == '?' || c == ':') && followed) s
      both (c == '-' && followed) s
    else
      let s := flowOnly (",?[]\x7b\x7d".toList.contains c || c == ':') seen
      let s := blockOnly (c == ':' && followed) s
      both (c == '#' && preceded) s
  let seen := if isFoldBreak c then { seen with breaks := true } else seen
  let seen := if isSpecial c then { seen with special := true } else seen
  if c == ' ' then
    { seen with breakSpace := seen.breakSpace || seen.previousBreak, previousSpace := true, previousBreak := false }
  else if isFoldBreak c then
    { seen with spaceBreak := seen.spaceBreak || seen.previousSpace, previousSpace := false, previousBreak := true }
  else { seen with previousSpace := false, previousBreak := false }

def lookFrom (first preceded : Bool) (seen : Seen) : List Char → Seen
  | [] => seen
  | c :: rest => lookFrom false (isSpaceBreakOrEnd (some c)) (lookAt first preceded c rest.head? seen) rest

def analyse (s : String) : Analysis :=
  let cs := s.toList
  if cs.isEmpty then { empty := true } else
    let marked := "---".toList.isPrefixOf cs || "...".toList.isPrefixOf cs
    let seen := lookFrom true true { flowMark := marked, blockMark := marked } cs
    let edge (c : Option Char) : Bool := match c with
      | some c => c == ' ' || isFoldBreak c
      | none => false
    let edges := edge cs.head? || edge cs.getLast?
    let plain := !(edges || seen.breakSpace || seen.spaceBreak || seen.special || seen.breaks)
    { multiline := seen.breaks
      flowPlain := plain && !seen.flowMark
      blockPlain := plain && !seen.blockMark
      singleQuoted := !(seen.breakSpace || seen.spaceBreak || seen.special) }

/-! ## The three ways of writing a text -/

namespace Out

/-- A plain text; a single blank past the width becomes a line break if `split` allows it. -/
def plainFrom (split : Bool) : Nat → List Char → Out → Out
  | 0, _, o => o
  | _ + 1, [], o => o
  | fuel + 1, c :: rest, o =>
    if c == ' ' then
      let spaces := (c :: rest).takeWhile (· == ' ')
      let after := (c :: rest).drop spaces.length
      if spaces.length == 1 && o.column > lineWidth && split then
        plainFrom split fuel after { o.writeIndent with whitespace := false, indention := false }
      else plainFrom split fuel after (o.write (String.ofList spaces))
    else
      let word := (c :: rest).takeWhile (· != ' ')
      plainFrom split fuel ((c :: rest).drop word.length) (o.write (String.ofList word))

def plain (root split : Bool) (s : String) (o : Out) : Out :=
  let o := if root then { o with openEnded := true } else o
  if s.isEmpty then o else
    let o := if o.whitespace then o else o.write " "
    plainFrom split (s.length + 1) s.toList { o with whitespace := false, indention := false }

/-- A single-quoted text from after its quote. `start` says that nothing has been written of it. -/
def singleFrom (split : Bool) : Nat → Bool → List Char → Out → Out
  | 0, _, _, o => o
  | _ + 1, _, [], o => o
  | fuel + 1, start, c :: rest, o =>
    if c == ' ' then
      let spaces := (c :: rest).takeWhile (· == ' ')
      let after := (c :: rest).drop spaces.length
      if spaces.length == 1 && o.column > lineWidth && split && !start && !after.isEmpty then
        singleFrom split fuel false after o.writeIndent
      else singleFrom split fuel false after (o.write (String.ofList spaces))
    else if isFoldBreak c then
      let breaks := (c :: rest).takeWhile isFoldBreak
      let o := if c == '\n' then o.lineBreak else o
      let o := breaks.foldl (fun o b =>
        if b == '\n' then o.lineBreak
        else { (o.write (String.singleton b)) with column := 0, whitespace := true, indention := true }) o
      singleFrom split fuel false ((c :: rest).drop breaks.length) o.writeIndent
    else if c == '\'' then singleFrom split fuel false rest (o.write "''")
    else
      let word := (c :: rest).takeWhile fun c => !(c == ' ' || isFoldBreak c || c == '\'')
      singleFrom split fuel false ((c :: rest).drop word.length) (o.write (String.ofList word))

def single (split : Bool) (s : String) (o : Out) : Out :=
  let o := o.indicator "'" true false false
  (singleFrom split (s.length + 1) true s.toList o).indicator "'" false false false

def escapeOf (c : Char) : String :=
  let n := c.toNat
  if n == 0 then "\\0" else if n == 7 then "\\a" else if n == 8 then "\\b" else if n == 9 then "\\t"
  else if n == 10 then "\\n" else if n == 11 then "\\v" else if n == 12 then "\\f" else if n == 13 then "\\r"
  else if n == 27 then "\\e" else if c == '"' then "\\\"" else if c == '\\' then "\\\\"
  else if n == 0x85 then "\\N" else if n == 0xA0 then "\\_" else if n == 0x2028 then "\\L"
  else if n == 0x2029 then "\\P"
  else
    let hex (width : Nat) : String := (Text.hexDigits width n).toUpper
    if n ≤ 0xFF then "\\x" ++ hex 2 else if n ≤ 0xFFFF then "\\u" ++ hex 4 else "\\U" ++ hex 8

def needsEscape (c : Char) : Bool :=
  let n := c.toNat
  c == '"' || c == '\\' || n == 0x85 || n == 0x2028 || n == 0x2029 || n == 0xFEFF ||
    !((0x20 ≤ n && n ≤ 0x7E) || (0xA0 ≤ n && n ≤ 0xD7FF) || (0xE000 ≤ n && n ≤ 0xFFFD))

/-- A double-quoted text. `run` holds, in reverse, the characters not yet written; `position` is the
place of the next character in the text of `size` characters. -/
def doubleFrom (split : Bool) (size : Nat) : Nat → List Char → List Char → Out → Out
  | _, run, [], o => if run.isEmpty then o else o.write (String.ofList run.reverse)
  | position, run, c :: rest, o =>
    let (run, o) :=
      if needsEscape c then
        let o := if run.isEmpty then o else o.write (String.ofList run.reverse)
        ([], o.write (escapeOf c))
      else (run, o)
    let escaped := needsEscape c
    -- after an escape the pending run starts beyond this character
    if 0 < position && position + 1 < size && (c == ' ' || run.isEmpty) &&
        o.column + run.length > lineWidth + (if escaped then 1 else 0) && split then
      let o := o.write (String.ofList run.reverse ++ "\\")
      let o := { o.writeIndent with whitespace := false, indention := false }
      if escaped then
        let o := if rest.head? == some ' ' then o.write "\\" else o
        doubleFrom split size (position + 1) [] rest o
      else
        let o := if c == ' ' then o.write "\\" else o
        doubleFrom split size (position + 1) [c] rest o
    else doubleFrom split size (position + 1) (if escaped then [] else c :: run) rest o

def double (split : Bool) (s : String) (o : Out) : Out :=
  let o := o.indicator "\"" true false false
  (doubleFrom split s.length 0 [] s.toList o).indicator "\"" false false false

end Out

/-! ## Nodes -/

/-- A scalar to be written: its text and whether its plain form reads back as itself. -/
structure Written where
  text : String
  plainReads : Bool
  tagLength : Nat

def floatForm (x : Float) : String :=
  match Decimal.parts? x with
  | none => if x.isNaN then ".nan" else if Decimal.signBit x then "-.inf" else ".inf"
  | some _ =>
    let t := Decimal.exactText x
    if t.toList.contains '.' then t else Text.replaceAll "e" ".0e" t

def writtenScalar : Scalar → Except Failure Written
  | .text s => .ok ⟨s, resolve s == .text, 5⟩
  | .int n => do return ⟨← integerText n, true, 5⟩
  | .float x => .ok ⟨floatForm x, true, 7⟩
  | .bool b => .ok ⟨if b then "true" else "false", true, 6⟩
  | .absent => .ok ⟨"null", true, 6⟩
  | .foreign "date" shown _ => .ok ⟨shown, true, 11⟩
  | .foreign "datetime" shown _ => .ok ⟨shown, true, 11⟩
  | .foreign _ _ quoted => .error (.unrepresentable quoted)
  | .bytes data => .error (.unrepresentable (Scalar.quotedBytes data))
  | .unbound => .error (.unrepresentable "UNDEFINED")

structure Place where
  root : Bool := false
  inFlow : Bool := false
  mappingValue : Bool := false
  simpleKey : Bool := false

def Written.put (place : Place) (w : Written) (o : Out) : Out :=
  let a := analyse w.text
  let saved := o.indent
  let o := o.deeper true false
  let split := !place.simpleKey
  let keyFits := !(place.simpleKey && (a.empty || a.multiline))
  let o :=
    if w.plainReads && keyFits && (if place.inFlow then a.flowPlain else a.blockPlain) then
      o.plain place.root split w.text
    else if a.singleQuoted && !(place.simpleKey && a.multiline) then o.single split w.text
    else o.double split w.text
  { o with indent := saved }

def fitsAsKey (key : Tree) : Except Failure Bool :=
  match key with
  | .scalar s => do
    let w ← writtenScalar s
    let a := analyse w.text
    return w.tagLength + w.text.length < 128 && !a.empty && !a.multiline
  | _ => .ok false

mutual
def put (flow : Bool) (place : Place) (o : Out) : Tree → Except Failure Out
  | .scalar s => do return (← writtenScalar s).put place o
  | .stem .. => .error (.unrepresentable "stem")
  | .list items =>
    if flow || place.inFlow || items.isEmpty then do
      let saved := o.indent
      let o := (o.indicator "[" true true false).deeper true false
      let o ← putFlowItems flow true o items
      return { (o.indicator "]" false false false) with indent := saved }
    else do
      let saved := o.indent
      let o := o.deeper false (place.mappingValue && !o.indention)
      return { (← putBlockItems flow o items) with indent := saved }
  | .dict entries =>
    if flow || place.inFlow || entries.isEmpty then do
      let saved := o.indent
      let o := (o.indicator "\x7b" true true false).deeper true false
      let o ← putFlowEntries flow true o entries
      return { (o.indicator "\x7d" false false false) with indent := saved }
    else do
      let saved := o.indent
      return { (← putBlockEntries flow (o.deeper false false) entries) with indent := saved }

def putFlowItems (flow first : Bool) (o : Out) : List Tree → Except Failure Out
  | [] => .ok o
  | t :: rest => do
    let o := if first then o else o.indicator "," false false false
    let o := if o.column > lineWidth then o.writeIndent else o
    let o ← put flow { inFlow := true } o t
    putFlowItems flow false o rest

def putFlowEntries (flow first : Bool) (o : Out) : List (Tree × Tree) → Except Failure Out
  | [] => .ok o
  | (k, v) :: rest => do
    let o := if first then o else o.indicator "," false false false
    let o := if o.column > lineWidth then o.writeIndent else o
    if ← fitsAsKey k then
      let o ← put flow { inFlow := true, simpleKey := true } o k
      let o := o.indicator ":" false false false
      let o ← put flow { inFlow := true, mappingValue := true } o v
      putFlowEntries flow false o rest
    else
      let o := o.indicator "?" true false false
      let o ← put flow { inFlow := true, mappingValue := true } o k
      let o := if o.column > lineWidth then o.writeIndent else o
      let o := o.indicator ":" true false false
      let o ← put flow { inFlow := true, mappingValue := true } o v
      putFlowEntries flow false o rest

def putBlockItems (flow : Bool) (o : Out) : List Tree → Except Failure Out
  | [] => .ok o
  | t :: rest => do
    let o := o.writeIndent.indicator "-" true false true
    let o ← put flow {} o t
    putBlockItems flow o rest

def putBlockEntries (flow : Bool) (o : Out) : List (Tree × Tree) → Except Failure Out
  | [] => .ok o
  | (k, v) :: rest => do
    let o := o.writeIndent
    if ← fitsAsKey k then
      let o ← put flow { simpleKey := true } o k
      let o := o.indicator ":" false false false
      let o ← put flow { mappingValue := true } o v
      putBlockEntries flow o rest
    else
      let o := o.indicator "?" true false true
      let o ← put flow { mappingValue := true } o k
      let o := o.writeIndent.indicator ":" true false true
      let o ← put flow { mappingValue := true } o v
      putBlockEntries flow o rest
end

/-- A whole document. A plain scalar on its own is closed by a mark, as its end would be open. -/
def write (flow : Bool) (t : Tree) : Except Failure String := do
  let o ← put flow { root := true } {} t
  let ended := o.openEnded
  let o := { o with indent := none }.writeIndent
  return if ended then o.text ++ "...\n" else o.text

end Conductor.Yaml
