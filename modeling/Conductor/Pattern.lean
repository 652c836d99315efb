import Conductor.Pattern.Node
import Conductor.Text.Quoted
import Conductor.Text.Split

/-!
# Reading patterns

The notation of patterns: literals, classes in brackets, escapes, groups with and
without names, alternatives, repetitions, assertions and flags. A notation that is
wrong is refused with what is wrong and the position where it was noticed.
-/

set_option autoImplicit false

namespace Conductor.Pattern

structure Fault where
  what : String
  position : Option Nat

def Fault.message (f : Fault) (source : String) : String :=
  match f.position with
  | none => f.what
  | some p =>
    let before := source.toList.take p
    let line := (before.filter (· == '\n')).length + 1
    let column := (before.reverse.takeWhile (· != '\n')).length + 1
    f.what ++ " at position " ++ Nat.repr p ++
      (if source.toList.contains '\n' then " (line " ++ Nat.repr line ++ ", column " ++ Nat.repr column ++ ")" else "")

structure Flags where
  fold : Bool := false
  multiline : Bool := false
  dotAll : Bool := false
  verbose : Bool := false
  ascii : Bool := false

/-- The notation read so far: what is left, how many groups were opened, their names, the groups
that are open, and the groups asked for by number before they are known. -/
structure Reader where
  rest : List Char
  position : Nat := 0
  groups : Nat := 1
  names : List (String × Nat) := []
  opened : List Nat := []
  asked : List (Nat × Nat) := []

abbrev Read := StateT Reader (Except Fault)

def failAt {α : Type} (what : String) (position : Nat) : Read α := throw ⟨what, some position⟩

def tell : Read Nat := return (← get).position

def failBack {α : Type} (what : String) (offset : Nat) : Read α := do failAt what ((← tell) - offset)

abbrev Token := List Char

def peek : Read (Option Token) := do
  match (← get).rest with
  | [] => return none
  | '\\' :: c :: _ => return some ['\\', c]
  | c :: _ => return some [c]

def checkNext : Read Unit := do
  match (← get).rest with
  | ['\\'] => failAt "bad escape (end of pattern)" (← tell)
  | _ => return ()

def next : Read (Option Token) := do
  match ← peek with
  | none => return none
  | some t =>
    modify fun r => { r with rest := r.rest.drop t.length, position := r.position + t.length }
    checkNext
    return some t

def eat (c : Char) : Read Bool := do
  if (← peek) == some [c] then
    discard next
    return true
  else return false

def takeWhile (test : Char → Bool) : Nat → Read (List Char)
  | 0 => return []
  | n + 1 => do
    match ← peek with
    | some [c] =>
      if test c then
        discard next
        return c :: (← takeWhile test n)
      else return []
    | _ => return []

def takeName (stop : Char) (what : String) : Nat → List Char → Read (List Char)
  | 0, name => return name
  | fuel + 1, name => do
    match ← next with
    | none =>
      if name.isEmpty then failBack ("missing " ++ what) 0
      else failBack ("missing " ++ String.singleton stop ++ ", unterminated name") name.length
    | some [c] =>
      if c == stop then
        if name.isEmpty then failBack ("missing " ++ what) 1 else return name
      else takeName stop what fuel (name ++ [c])
    | some t => takeName stop what fuel (name ++ t)

def isName (name : List Char) : Bool :=
  match name with
  | [] => false
  | c :: rest => (Text.isLetter c || c == '_') && rest.all Text.isWordChar

def checkName (name : List Char) : Read Unit := do
  if !isName name then
    failBack ("bad character in group name " ++ Text.quoted (String.ofList name)) (name.length + 1)

/-! ## Escapes -/

def hex? (c : Char) : Option Nat :=
  if '0' ≤ c ∧ c ≤ '9' then some (c.toNat - 48)
  else if 'a' ≤ c ∧ c ≤ 'f' then some (c.toNat - 87)
  else if 'A' ≤ c ∧ c ≤ 'F' then some (c.toNat - 55)
  else none

def isOctal (c : Char) : Bool := '0' ≤ c && c ≤ '7'

def numeral (base : Nat) (ds : List Char) : Nat := ds.foldl (fun n c => n * base + (hex? c).getD 0) 0

def codeEscape (letter : Char) (digits : Nat) : Read Char := do
  let ds ← takeWhile (fun c => (hex? c).isSome) digits
  if ds.length == digits then return Char.ofNat (numeral 16 ds)
  else failBack ("incomplete escape \\" ++ String.ofList (letter :: ds)) (2 + ds.length)

/-- What an escape stands for: a character, a class of characters, a place or an earlier group. -/
inductive Escape
  | char (c : Char)
  | kind (k : CharClass) (negated : Bool)
  | place (a : Anchor)
  | group (index : Nat)

def classOf? : Char → Option (CharClass × Bool)
  | 'd' => some (.digit, false)
  | 'D' => some (.digit, true)
  | 's' => some (.blank, false)
  | 'S' => some (.blank, true)
  | 'w' => some (.word, false)
  | 'W' => some (.word, true)
  | _ => none

def control? : Char → Option Char
  | 'a' => some (Char.ofNat 7)
  | 'b' => some (Char.ofNat 8)
  | 'f' => some (Char.ofNat 12)
  | 'n' => some '\n'
  | 'r' => some '\r'
  | 't' => some '\t'
  | 'v' => some (Char.ofNat 11)
  | '\\' => some '\\'
  | _ => none

def badEscape {α : Type} (cs : List Char) : Read α :=
  failBack ("bad escape \\" ++ String.ofList cs) (cs.length + 1)

def plainEscape (c : Char) : Read Escape :=
  if c.isAlpha then badEscape [c] else return .char c

def checkOctal (ds : List Char) : Read Char := do
  if numeral 8 ds > 255 then
    failBack ("octal escape value \\" ++ String.ofList ds ++ " outside of range 0-0o377") (ds.length + 1)
  else return Char.ofNat (numeral 8 ds)

def setEscape (c : Char) : Read Escape := do
  match control? c, classOf? c with
  | some d, _ => return .char d
  | none, some (k, negated) => return .kind k negated
  | none, none =>
    if c == 'x' then return .char (← codeEscape c 2)
    else if c == 'u' then return .char (← codeEscape c 4)
    else if c == 'U' then return .char (← codeEscape c 8)
    else if isOctal c then return .char (← checkOctal (c :: (← takeWhile isOctal 2)))
    else if c.isDigit then badEscape [c]
    else plainEscape c

def groupReference (ds : List Char) : Read Escape := do
  let index := numeral 10 ds
  let r ← get
  if index < r.groups then
    if r.opened.contains index then failBack "cannot refer to an open group" (ds.length + 1)
    else return .group index
  else failBack ("invalid group reference " ++ Nat.repr index) ds.length

def escape (c : Char) : Read Escape := do
  match classOf? c with
  | some (k, negated) => return .kind k negated
  | none =>
    match c with
    | 'A' => return .place .textStart
    | 'Z' => return .place .textEnd
    | 'b' => return .place .boundary
    | 'B' => return .place .noBoundary
    | 'x' => return .char (← codeEscape c 2)
    | 'u' => return .char (← codeEscape c 4)
    | 'U' => return .char (← codeEscape c 8)
    | '0' => return .char (Char.ofNat (numeral 8 (← takeWhile isOctal 2)))
    | _ =>
      match control? c with
      | some d => return .char d
      | none =>
        if c.isDigit then
          let second ← takeWhile Char.isDigit 1
          match second with
          | [d] =>
            if isOctal c && isOctal d then
              match ← takeWhile isOctal 1 with
              | [e] => return .char (← checkOctal [c, d, e])
              | _ => groupReference [c, d]
            else groupReference [c, d]
          | _ => groupReference [c]
        else plainEscape c

/-! ## Sets -/

def unterminated {α : Type} (here : Nat) : Read α := failAt "unterminated character set" here

def setMember (t : Token) : Read Escape :=
  match t with
  | ['\\', c] => setEscape c
  | [c] => return .char c
  | _ => return .char '\\'

def Escape.item : Escape → Item
  | .kind k negated => .kind k negated
  | .char c => .one c
  | _ => .one '\\'

/-- The members of a set up to its closing bracket; a bracket that comes first is a member. -/
def setItems (here : Nat) : Nat → List Item → Read (List Item)
  | 0, items => return items
  | fuel + 1, items => do
    match ← next with
    | none => unterminated here
    | some t =>
      if t == [']'] && !items.isEmpty then return items
      else
        let first ← setMember t
        if ← eat '-' then
          match ← next with
          | none => unterminated here
          | some u =>
            if u == [']'] then return items ++ [first.item, .one '-']
            else
              let second ← setMember u
              let bad : Read (List Item) :=
                failBack ("bad character range " ++ String.ofList t ++ "-" ++ String.ofList u) (t.length + 1 + u.length)
              match first, second with
              | .char low, .char high =>
                if high.toNat < low.toNat then bad
                else setItems here fuel (items ++ [.range low.toNat high.toNat])
              | _, _ => bad
        else setItems here fuel (items ++ [first.item])

/-! ## Flags -/

def flag? : Char → Option (Flags → Flags)
  | 'i' => some fun f => { f with fold := true }
  | 'm' => some fun f => { f with multiline := true }
  | 's' => some fun f => { f with dotAll := true }
  | 'x' => some fun f => { f with verbose := true }
  | 'a' => some fun f => { f with ascii := true }
  | 'u' => some fun f => { f with ascii := false }
  | _ => none

def unflag? : Char → Option (Flags → Flags)
  | 'i' => some fun f => { f with fold := false }
  | 'm' => some fun f => { f with multiline := false }
  | 's' => some fun f => { f with dotAll := false }
  | 'x' => some fun f => { f with verbose := false }
  | _ => none

def flagsOff : Nat → List Char → Read (List Char)
  | 0, off => return off
  | fuel + 1, off => do
    match ← next with
    | none => failBack (if off.isEmpty then "missing flag" else "missing :") 0
    | some t =>
      match t with
      | [':'] => if off.isEmpty then failBack "missing flag" 1 else return off
      | [c] =>
        if c == 'a' || c == 'u' || c == 'L' then
          failBack "bad inline flags: cannot turn off flags 'a', 'u' and 'L'" 0
        else if (unflag? c).isSome then flagsOff fuel (off ++ [c])
        else if c.isAlpha then failBack "unknown flag" 1
        else failBack (if off.isEmpty then "missing flag" else "missing :") 1
      | t => failBack (if off.isEmpty then "missing flag" else "missing :") t.length

/-- Flags after the question mark of a group: those turned on, those turned off, and whether they are
for the whole pattern. -/
def flagsOn : Nat → List Char → Char → Read (List Char × List Char × Bool)
  | 0, on, _ => return (on, [], false)
  | fuel + 1, on, c => do
    if c == 'L' then failBack "bad inline flags: cannot use 'L' flag with a str pattern" 0
    let on := on ++ [c]
    if on.contains 'a' && on.contains 'u' then
      failBack "bad inline flags: flags 'a', 'u' and 'L' are incompatible" 0
    match ← next with
    | none => failBack "missing -, : or )" 0
    | some [')'] => return (on, [], true)
    | some [':'] => return (on, [], false)
    | some ['-'] => return (on, ← flagsOff fuel [], false)
    | some [d] =>
      if (flag? d).isSome || d == 'L' then flagsOn fuel on d
      else failBack (if Text.isLetter d then "unknown flag" else "missing -, : or )") 1
    | some t => failBack "missing -, : or )" t.length

def setFlags (on off : List Char) (f : Flags) : Flags :=
  let f := on.foldl (fun f c => ((flag? c).getD id) f) f
  off.foldl (fun f c => ((unflag? c).getD id) f) f

/-! ## Groups and alternatives -/

inductive Piece
  | place (n : Node)
  | counted (n : Node)
  | plain (n : Node)

def Piece.node : Piece → Node
  | place n | counted n | plain n => n

def sequence : List Piece → Node
  | [] => .empty
  | [p] => p.node
  | p :: rest => .seq p.node (sequence rest)

def ofEscape (f : Flags) : Escape → Piece
  | .char c => .plain (.char c f.fold)
  | .kind k negated => .plain (.set false false f.ascii [.kind k negated])
  | .place a => .place (.anchor a f.ascii)
  | .group index => .plain (.backref index f.fold)

def digits : Read (List Char) := do takeWhile Char.isDigit ((← get).rest.length)

/-- The bounds of a repetition, or none when the sign turns out to be a literal brace. -/
def bounds (sign : Char) (here : Nat) : Read (Option (Nat × Option Nat)) := do
  match sign with
  | '?' => return some (0, some 1)
  | '*' => return some (0, none)
  | '+' => return some (1, none)
  | _ =>
    if (← peek) == some ['\x7d'] then return none
    let saved ← get
    let low ← digits
    let high ← if ← eat ',' then digits else pure low
    if !(← eat '\x7d') then
      set saved
      return none
    let least := numeral 10 low
    if high.isEmpty then return some (least, none)
    let most := numeral 10 high
    if most < least then failAt "min repeat greater than max repeat" here
    return some (least, some most)

def greed : Read Greed := do
  if ← eat '?' then return .lazy
  if ← eat '+' then return .possessive
  return .greedy

def repeatLast (here : Nat) (pieces : List Piece) (least : Nat) (most : Option Nat) : Read (List Piece) := do
  match pieces.getLast? with
  | none | some (.place _) => failAt "nothing to repeat" (here - 1)
  | some (.counted _) => failAt "multiple repeat" (here - 1)
  | some (.plain n) =>
    return pieces.dropLast ++ [.counted (.repeated least most (← greed) n)]

def skipLine : Nat → Read Unit
  | 0 => return ()
  | fuel + 1 => do
    match ← next with
    | none | some ['\n'] => return ()
    | some _ => skipLine fuel

def skipComment (start : Nat) : Nat → Read Unit
  | 0 => return ()
  | fuel + 1 => do
    if (← peek).isNone then failAt "missing ), unterminated comment" start
    if (← next) == some [')'] then return () else skipComment start fuel

def openGroup (name : Option (List Char)) : Read Nat := do
  let r ← get
  let index := r.groups
  match name with
  | none => set { r with groups := index + 1, opened := index :: r.opened }
  | some cs =>
    let name := String.ofList cs
    match r.names.lookup name with
    | some old =>
      failBack ("redefinition of group name " ++ Text.quoted name ++ " as group " ++ Nat.repr index ++
        "; was group " ++ Nat.repr old) (cs.length + 1)
    | none => set { r with groups := index + 1, opened := index :: r.opened, names := r.names ++ [(name, index)] }
  return index

def closeGroup (index : Nat) : Read Unit := modify fun r => { r with opened := r.opened.erase index }

def closeParen (start : Nat) : Read Unit := do
  if !(← eat ')') then failAt "missing ), unterminated subpattern" start

def askedGroup (name : List Char) : Read Nat := do
  let r ← get
  if isName name then
    match r.names.lookup (String.ofList name) with
    | some index => return index
    | none => failBack ("unknown group name " ++ Text.quoted (String.ofList name)) (name.length + 1)
  else if name.all Char.isDigit then
    let index := numeral 10 name
    if index == 0 then failBack "bad group number" (name.length + 1)
    if !(r.asked.any fun e => e.1 == index) then
      set { r with asked := r.asked ++ [(index, r.position - name.length - 1)] }
    return index
  else failBack ("bad character in group name " ++ Text.quoted (String.ofList name)) (name.length + 1)

def behindNode (negated : Bool) (body : Node) : Read Node :=
  match body.width with
  | (low, some high) =>
    if low == high then return .behind low negated body
    else throw ⟨"look-behind requires fixed-width pattern", none⟩
  | _ => throw ⟨"look-behind requires fixed-width pattern", none⟩

mutual
def alternatives : Nat → Bool → Flags → Read Node
  | 0, _, _ => return .empty
  | fuel + 1, top, f => do
    let (first, f') ← pieces fuel top top f []
    let f := if top then f' else f
    if ← eat '|' then
      let rest ← more fuel top f
      return .alt first rest
    else return first

def more : Nat → Bool → Flags → Read Node
  | 0, _, _ => return .empty
  | fuel + 1, top, f => do
    let (first, _) ← pieces fuel top false f []
    if ← eat '|' then
      let rest ← more fuel top f
      return .alt first rest
    else return first

def pieces : Nat → Bool → Bool → Flags → List Piece → Read (Node × Flags)
  | 0, _, _, f, done => return (sequence done, f)
  | fuel + 1, top, first, f, done => do
    match ← peek with
    | none | some ['|'] | some [')'] => return (sequence done, f)
    | some t =>
      discard next
      let again (p : Piece) : Read (Node × Flags) := pieces fuel top first f (done ++ [p])
      match t with
      | ['\\', c] => do again (ofEscape f (← escape c))
      | ['.'] => again (.plain (.any f.dotAll))
      | ['^'] => again (.place (.anchor (if f.multiline then .lineStart else .textStart) f.ascii))
      | ['$'] => again (.place (.anchor (if f.multiline then .lineEnd else .finalLineEnd) f.ascii))
      | ['['] => do
        let here := (← tell) - 1
        let negated ← eat '^'
        let items ← setItems here ((← get).rest.length + 1) []
        again (.plain (.set negated f.fold f.ascii items))
      | ['('] => do
        let start := (← tell) - 1
        match ← group fuel start (first && done.isEmpty) f with
        | (some p, _) => pieces fuel top first f (done ++ [p])
        | (none, f) => pieces fuel top first f done
      | [c] =>
        if f.verbose && (c == ' ' || ('\t' ≤ c && c ≤ '\r')) then pieces fuel top first f done
        else if f.verbose && c == '#' then do
          skipLine ((← get).rest.length + 1)
          pieces fuel top first f done
        else if c == '*' || c == '+' || c == '?' || c == '\x7b' then do
          let here ← tell
          match ← bounds c here with
          | none => again (.plain (.char c f.fold))
          | some (least, most) =>
            let done ← repeatLast here done least most
            pieces fuel top first f done
        else again (.plain (.char c f.fold))
      | _ => pieces fuel top first f done

def group : Nat → Nat → Bool → Flags → Read (Option Piece × Flags)
  | 0, _, _, f => return (none, f)
  | fuel + 1, start, first, f => do
    let body (inner : Flags) (wrap : Node → Node) : Read (Option Piece × Flags) := do
      let n ← alternatives fuel false inner
      closeParen start
      return (some (.plain (wrap n)), f)
    let captured (name : Option (List Char)) : Read (Option Piece × Flags) := do
      let index ← openGroup name
      let n ← alternatives fuel false f
      closeParen start
      closeGroup index
      return (some (.plain (.group index n)), f)
    if !(← eat '?') then captured none
    else
      let room := (← get).rest.length + 1
      match ← next with
      | none => failBack "unexpected end of pattern" 0
      | some ['P'] =>
        if ← eat '<' then
          let name ← takeName '>' "group name" room []
          checkName name
          captured (some name)
        else if ← eat '=' then
          let name ← takeName ')' "group name" room []
          checkName name
          let r ← get
          match r.names.lookup (String.ofList name) with
          | none => failBack ("unknown group name " ++ Text.quoted (String.ofList name)) (name.length + 1)
          | some index =>
            if r.opened.contains index then failBack "cannot refer to an open group" (name.length + 1)
            return (some (.plain (.backref index f.fold)), f)
        else
          match ← next with
          | none => failBack "unexpected end of pattern" 0
          | some t => failBack ("unknown extension ?P" ++ String.ofList t) (t.length + 2)
      | some [':'] => body f id
      | some ['#'] =>
        skipComment start room
        return (none, f)
      | some ['='] => body f (.ahead false)
      | some ['!'] => body f (.ahead true)
      | some ['>'] => body f .atomic
      | some ['('] =>
        let index ← askedGroup (← takeName ')' "group name" room [])
        let (yes, _) ← pieces fuel false false f []
        if ← eat '|' then
          let (no, _) ← pieces fuel false false f []
          if (← peek) == some ['|'] then failBack "conditional backref with more than two branches" 0
          closeParen start
          return (some (.plain (.given index yes no)), f)
        else
          closeParen start
          return (some (.plain (.given index yes .empty)), f)
      | some ['<'] =>
        match ← next with
        | none => failBack "unexpected end of pattern" 0
        | some t =>
          if t == ['='] || t == ['!'] then
            let n ← alternatives fuel false f
            closeParen start
            return (some (.plain (← behindNode (t == ['!']) n)), f)
          else failBack ("unknown extension ?<" ++ String.ofList t) (t.length + 2)
      | some [c] =>
        if (flag? c).isSome || c == 'L' then
          let (on, off, whole) ← flagsOn room [] c
          if whole then
            if !first then failAt "global flags not at the start of the expression" start
            return (none, setFlags on [] f)
          if on.any off.contains then failBack "bad inline flags: flag turned on and off" 1
          body (setFlags on off f) id
        else if c == '-' then
          let off ← flagsOff room []
          body (setFlags [] off f) id
        else failBack ("unknown extension ?" ++ String.singleton c) 2
      | some t => failBack ("unknown extension ?" ++ String.ofList t) (t.length + 1)
end

/-- A pattern that can be matched: its tree, the number of its groups and their names. -/
structure Matcher where
  node : Node
  groups : Nat
  names : List (String × Nat)

def read : Read Node := do
  checkNext
  let n ← alternatives (4 * (← get).rest.length + 8) true {}
  if (← peek).isSome then failBack "unbalanced parenthesis" 0
  let r ← get
  match r.asked.find? fun e => e.1 ≥ r.groups with
  | some (index, position) => failAt ("invalid group reference " ++ Nat.repr index) position
  | none => return n

def compile (source : String) : Except Fault Matcher := do
  let (node, r) ← read.run { rest := source.toList }
  return { node := node, groups := r.groups - 1, names := r.names }

/-- What a match found: the text of each group and the groups with names. -/
structure Match where
  groups : List (Option String)
  named : List (String × Option String)

def Matcher.match? (m : Matcher) (text : String) : Option Match :=
  let cs := text.toList.toArray
  (m.node.run cs { position := 0 } some).map fun s =>
    let group (i : Nat) : Option String := (span? i s).map fun (start, stop) =>
      String.ofList ((text.toList.take stop).drop start)
    { groups := (List.range m.groups).map fun i => group (i + 1)
      named := m.names.map fun e => (e.1, group e.2) }

end Conductor.Pattern
