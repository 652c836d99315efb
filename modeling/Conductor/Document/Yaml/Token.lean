import Conductor.Error

/-!
# Tokens of an outline text

The lexical level of the outline format (version 1.1): indentation becomes
explicit starts and ends of blocks, and a key that is recognised only by the colon
after it gets its mark put before it in the token list. What is covered: block and
flow collections, plain, quoted, literal and folded scalars, comments, anchors,
aliases, tags and document marks.
-/

set_option autoImplicit false

namespace Conductor.Yaml

inductive Token
  | directive
  | documentStart
  | documentEnd
  | blockSequenceStart
  | blockMappingStart
  | blockEnd
  | flowSequenceStart
  | flowSequenceEnd
  | flowMappingStart
  | flowMappingEnd
  | blockEntry
  | flowEntry
  | key
  | value
  | anchor (name : String)
  | alias_ (name : String)
  | tag (name : String)
  | scalar (text : String) (plain : Bool)
  | streamEnd
  deriving DecidableEq, Repr

structure KeyPlace where
  token : Nat
  required : Bool
  index : Nat
  line : Nat
  column : Nat

structure Scan where
  rest : List Char
  index : Nat := 0
  line : Nat := 0
  column : Nat := 0
  flow : Nat := 0
  indent : Int := -1
  indents : List Int := []
  allowKey : Bool := true
  keys : List (Nat × KeyPlace) := []
  tokens : Array Token := #[]

abbrev Step := Scan → Except String Scan

def isBreak (c : Char) : Bool :=
  c == '\n' || c == '\r' || c.toNat == 0x85 || c.toNat == 0x2028 || c.toNat == 0x2029

def endsWord : List Char → Bool
  | [] => true
  | c :: _ => c == ' ' || c == '\t' || isBreak c

def endsLine : List Char → Bool
  | [] => true
  | c :: _ => isBreak c

namespace Scan

def forward1 (s : Scan) : Scan :=
  match s.rest with
  | [] => s
  | c :: rest =>
    let newline := (isBreak c && c != '\r') || (c == '\r' && rest.head? != some '\n')
    if newline then { s with rest := rest, index := s.index + 1, line := s.line + 1, column := 0 }
    else { s with rest := rest, index := s.index + 1,
                  column := if c.toNat == 0xFEFF then s.column else s.column + 1 }

def forward : Nat → Scan → Scan
  | 0, s => s
  | n + 1, s => forward n s.forward1

def push (t : Token) (s : Scan) : Scan := { s with tokens := s.tokens.push t }

def lineBreak (s : Scan) : String × Scan :=
  match s.rest with
  | '\r' :: '\n' :: _ => ("\n", s.forward 2)
  | c :: _ =>
    if c == '\n' || c == '\r' || c.toNat == 0x85 then ("\n", s.forward1)
    else if isBreak c then (String.singleton c, s.forward1)
    else ("", s)
  | [] => ("", s)

def skipWhile (p : Char → Bool) (s : Scan) : Scan := s.forward (s.rest.takeWhile p).length

def peekIs (c : Char) (s : Scan) : Bool := s.rest.head? == some c

def atMark (mark : String) (s : Scan) : Bool :=
  mark.toList.isPrefixOf s.rest && endsWord (s.rest.drop 3)

def atDocumentMark (s : Scan) : Bool := s.atMark "---" || s.atMark "..."

/-! ## Keys and indentation -/

def dropKey : Step := fun s =>
  match s.keys.lookup s.flow with
  | some k =>
    if k.required then .error "could not find expected ':'"
    else .ok { s with keys := s.keys.filter fun e => e.1 != s.flow }
  | none => .ok s

def saveKey : Step := fun s =>
  if s.allowKey then do
    let s ← dropKey s
    let place : KeyPlace :=
      ⟨s.tokens.size, s.flow == 0 && s.indent == s.column, s.index, s.line, s.column⟩
    return { s with keys := (s.flow, place) :: s.keys }
  else .ok s

def isStale (s : Scan) (k : KeyPlace) : Bool := k.line != s.line || s.index - k.index > 1024

def dropStaleKeys : Step := fun s =>
  if s.keys.any fun e => isStale s e.2 && e.2.required then .error "could not find expected ':'"
  else .ok { s with keys := s.keys.filter fun e => !isStale s e.2 }

def unwindFrom (column : Int) : List Int → Scan → Scan
  | [], s => { s with indents := [] }
  | i :: rest, s =>
    if s.indent > column then unwindFrom column rest { (s.push .blockEnd) with indent := i }
    else { s with indents := i :: rest }

def unwind (column : Int) (s : Scan) : Scan :=
  if s.flow > 0 then s else unwindFrom column s.indents s

def addIndent (column : Nat) (s : Scan) : Bool × Scan :=
  if s.indent < column then (true, { s with indent := column, indents := s.indent :: s.indents })
  else (false, s)

/-! ## Blanks and comments -/

def toNextToken : Nat → Scan → Scan
  | 0, s => s
  | fuel + 1, s =>
    let s := if s.index == 0 && (s.rest.head?.map Char.toNat) == some 0xFEFF then s.forward1 else s
    let s := s.skipWhile (· == ' ')
    let s := if s.peekIs '#' then s.skipWhile (fun c => !isBreak c) else s
    match s.lineBreak with
    | ("", s) => s
    | (_, s) => toNextToken fuel (if s.flow == 0 then { s with allowKey := true } else s)

/-! ## Scalars -/

def joinChunks (chunks : List String) : String := String.join chunks.reverse

def hexValue? (c : Char) : Option Nat :=
  if '0' ≤ c ∧ c ≤ '9' then some (c.toNat - 48)
  else if 'a' ≤ c ∧ c ≤ 'f' then some (c.toNat - 87)
  else if 'A' ≤ c ∧ c ≤ 'F' then some (c.toNat - 55)
  else none

def hexNumber? (cs : List Char) : Option Nat :=
  cs.foldl (fun acc c => do return (← acc) * 16 + (← hexValue? c)) (some 0)

def escape? : Char → Option Nat
  | '0' => some 0
  | 'a' => some 7
  | 'b' => some 8
  | 't' | '\t' => some 9
  | 'n' => some 10
  | 'v' => some 11
  | 'f' => some 12
  | 'r' => some 13
  | 'e' => some 27
  | ' ' => some 32
  | '"' => some 34
  | '\\' => some 92
  | '/' => some 47
  | 'N' => some 0x85
  | '_' => some 0xA0
  | 'L' => some 0x2028
  | 'P' => some 0x2029
  | _ => none

def escapeLength? : Char → Option Nat
  | 'x' => some 2
  | 'u' => some 4
  | 'U' => some 8
  | _ => none

def quotedBreaks : Nat → List String → Scan → Except String (List String × Scan)
  | 0, chunks, s => .ok (chunks, s)
  | fuel + 1, chunks, s =>
    if s.atDocumentMark then .error "found unexpected document separator" else
      let s := s.skipWhile fun c => c == ' ' || c == '\t'
      match s.lineBreak with
      | ("", s) => .ok (chunks, s)
      | (b, s) => quotedBreaks fuel (b :: chunks) s

/-- A quoted scalar from after its opening quote; `chunks` is held in reverse. -/
def quotedFrom (double : Bool) : Nat → List String → Scan → Except String (String × Scan)
  | 0, _, _ => .error "found unexpected end of stream"
  | fuel + 1, chunks, s =>
    match s.rest with
    | [] => .error "found unexpected end of stream"
    | c :: rest =>
      if c == (if double then '"' else '\'') then
        if !double && rest.head? == some '\'' then quotedFrom double fuel ("'" :: chunks) (s.forward 2)
        else .ok (joinChunks chunks, s.forward1)
      else if double && c == '\\' then
        match rest with
        | [] => .error "found unexpected end of stream"
        | e :: after =>
          match escape? e with
          | some n => quotedFrom double fuel (String.singleton (Char.ofNat n) :: chunks) (s.forward 2)
          | none =>
            match escapeLength? e with
            | some size =>
              match hexNumber? (after.take size) with
              | some n =>
                if (after.take size).length < size then .error "expected escape sequence"
                else if !decide n.isValidChar then .error "expected escape sequence of a character"
                else
                  quotedFrom double fuel (String.singleton (Char.ofNat n) :: chunks) (s.forward (2 + size))
              | none => .error "expected escape sequence of hexadecimal numbers"
            | none =>
              if isBreak e then do
                let (_, s) := s.forward1.lineBreak
                let (chunks, s) ← quotedBreaks (s.rest.length + 1) chunks s
                quotedFrom double fuel chunks s
              else .error "found unknown escape character"
      else if c == ' ' || c == '\t' || isBreak c then
        let blanks := s.rest.takeWhile fun c => c == ' ' || c == '\t'
        let s := s.forward blanks.length
        match s.rest with
        | [] => .error "found unexpected end of stream"
        | c :: _ =>
          if isBreak c then do
            let (b, s) := s.lineBreak
            let (breaks, s) ← quotedBreaks (s.rest.length + 1) [] s
            let chunks := if b != "\n" then b :: chunks else if breaks.isEmpty then " " :: chunks else chunks
            quotedFrom double fuel (breaks ++ chunks) s
          else quotedFrom double fuel (String.ofList blanks :: chunks) s
      else
        let run := s.rest.takeWhile fun c =>
          !(c == '\'' || c == '"' || c == '\\' || c == ' ' || c == '\t' || isBreak c)
        if run.isEmpty then quotedFrom double fuel (String.singleton c :: chunks) s.forward1
        else quotedFrom double fuel (String.ofList run :: chunks) (s.forward run.length)

def plainRun (flow : Bool) : Nat → List Char → Nat
  | n, [] => n
  | n, c :: rest =>
    let flowMark (c : Char) : Bool := c == ',' || c == '[' || c == ']' || c == '\x7b' || c == '\x7d'
    if c == ' ' || c == '\t' || isBreak c then n
    else if c == ':' && (endsWord rest || (flow && (rest.head?.map flowMark).getD false)) then n
    else if flow && (flowMark c || c == '?') then n
    else plainRun flow (n + 1) rest

def plainBreaks : Nat → List String → Scan → Option (List String × Scan) × Scan
  | 0, breaks, s => (some (breaks, s), s)
  | fuel + 1, breaks, s =>
    if s.peekIs ' ' then plainBreaks fuel breaks s.forward1
    else match s.lineBreak with
      | ("", s) => (some (breaks, s), s)
      | (b, s) => if s.atDocumentMark then (none, s) else plainBreaks fuel (b :: breaks) s

/-- The blanks after a run of a plain scalar: the text they fold to, in reverse, or nothing. -/
def plainSpaces (s : Scan) : List String × Scan :=
  let blanks := s.rest.takeWhile (· == ' ')
  let s := s.forward blanks.length
  match s.lineBreak with
  | ("", s) => (if blanks.isEmpty then [] else [String.ofList blanks], s)
  | (b, s) =>
    let s := { s with allowKey := true }
    if s.atDocumentMark then ([], s) else
      match plainBreaks (s.rest.length + 1) [] s with
      | (none, s) => ([], s)
      | (some (breaks, s), _) =>
        (breaks ++ (if b != "\n" then [b] else if breaks.isEmpty then [" "] else []), s)

def plainFrom : Nat → List String → List String → Scan → String × Scan
  | 0, chunks, _, s => (joinChunks chunks, s)
  | fuel + 1, chunks, spaces, s =>
    if s.peekIs '#' then (joinChunks chunks, s) else
      let n := plainRun (s.flow > 0) 0 s.rest
      if n == 0 then (joinChunks chunks, s) else
        let chunks := String.ofList (s.rest.take n) :: spaces ++ chunks
        let (spaces, s) := plainSpaces ({ s with allowKey := false }.forward n)
        if spaces.isEmpty || s.peekIs '#' || (s.flow == 0 && (s.column : Int) < s.indent + 1) then
          (joinChunks chunks, s)
        else plainFrom fuel chunks spaces s

/-! ## Block scalars -/

def blockBreaks (indent : Nat) : Nat → List String → Scan → List String × Scan
  | 0, chunks, s => (chunks, s)
  | fuel + 1, chunks, s =>
    let spaces := (s.rest.takeWhile (· == ' ')).length
    let s := s.forward (min spaces (indent - s.column))
    match s.lineBreak with
    | ("", s) => (chunks, s)
    | (b, s) => blockBreaks indent fuel (b :: chunks) s

/-- The blank lines before the first line of a block scalar and the deepest column seen there. -/
def blockIndentation : Nat → List String → Nat → Scan → List String × Nat × Scan
  | 0, chunks, deepest, s => (chunks, deepest, s)
  | fuel + 1, chunks, deepest, s =>
    if s.peekIs ' ' then
      let s := s.forward1
      blockIndentation fuel chunks (max deepest s.column) s
    else match s.lineBreak with
      | ("", s) => (chunks, deepest, s)
      | (b, s) => blockIndentation fuel (b :: chunks) deepest s

structure BlockText where
  chunks : List String
  lastBreak : String
  trailing : List String
  scan : Scan

def blockLines (folded : Bool) (indent : Nat) : Nat → List String → List String → String → Scan → BlockText
  | 0, chunks, breaks, last, s => ⟨chunks, last, breaks, s⟩
  | fuel + 1, chunks, breaks, last, s =>
    if s.column == indent && !s.rest.isEmpty then
      let chunks := breaks ++ chunks
      let leadingText := !(s.peekIs ' ' || s.peekIs '\t')
      let line := s.rest.takeWhile fun c => !isBreak c
      let chunks := String.ofList line :: chunks
      let (last, s) := (s.forward line.length).lineBreak
      let (breaks, s) := blockBreaks indent (s.rest.length + 1) [] s
      if s.column == indent && !s.rest.isEmpty then
        let chunks :=
          if folded && last == "\n" && leadingText && !(s.peekIs ' ' || s.peekIs '\t') then
            (if breaks.isEmpty then " " :: chunks else chunks)
          else last :: chunks
        blockLines folded indent fuel chunks breaks last s
      else ⟨chunks, last, breaks, s⟩
    else ⟨chunks, last, breaks, s⟩

/-- The marks after `|` or `>`: what to do with the last line breaks, and a depth of indentation. -/
def blockMarks (s : Scan) : Except String (Option Bool × Option Nat × Scan) := do
  let chomp (s : Scan) : Option Bool × Scan :=
    if s.peekIs '+' then (some true, s.forward1)
    else if s.peekIs '-' then (some false, s.forward1)
    else (none, s)
  let depth (s : Scan) : Except String (Option Nat × Scan) :=
    match s.rest with
    | c :: _ =>
      if c.isDigit then (if c == '0' then .error "expected indentation indicator in the range 1-9"
        else .ok (some (c.toNat - 48), s.forward1))
      else .ok (none, s)
    | [] => .ok (none, s)
  let (first, s) := chomp s
  let (increment, s) ← depth s
  let (second, s) := if first.isNone && increment.isSome then chomp s else (none, s)
  if (match s.rest with | [] => true | c :: _ => c == ' ' || isBreak c) then
    return (first <|> second, increment, s)
  else .error "expected chomping or indentation indicators"

def blockScalar (folded : Bool) : Step := fun s => do
  let (chomping, increment, s) ← blockMarks s.forward1
  let s := s.skipWhile (· == ' ')
  let s := if s.peekIs '#' then s.skipWhile (fun c => !isBreak c) else s
  if !endsLine s.rest then .error "expected a comment or a line break" else do
    let (_, s) := s.lineBreak
    let least := (max (s.indent + 1) 1).toNat
    let (breaks, indent, s) := match increment with
      | none =>
        let (breaks, deepest, s) := blockIndentation (s.rest.length + 1) [] 0 s
        (breaks, max least deepest, s)
      | some k =>
        let indent := least + k - 1
        let (breaks, s) := blockBreaks indent (s.rest.length + 1) [] s
        (breaks, indent, s)
    let text := blockLines folded indent (s.rest.length + 1) [] breaks "" s
    let chunks := if chomping == some false then text.chunks else text.lastBreak :: text.chunks
    let chunks := if chomping == some true then text.trailing ++ chunks else chunks
    return text.scan.push (.scalar (joinChunks chunks) false)

/-! ## Anchors, tags and directives -/

def isNameChar (c : Char) : Bool := c.isAlphanum || c == '-' || c == '_'

def anchorName (make : String → Token) : Step := fun s => do
  let s ← saveKey s
  let s := { s with allowKey := false }.forward1
  let name := s.rest.takeWhile isNameChar
  if name.isEmpty then .error "expected alphabetic or numeric character" else
    let s := s.forward name.length
    let fine := endsWord s.rest || (s.rest.head?.map fun c => "?:,]\x7d%@`".toList.contains c).getD false
    if fine then .ok (s.push (make (String.ofList name)))
    else .error "expected alphabetic or numeric character"

def tagName : Step := fun s => do
  let s ← saveKey s
  let s := { s with allowKey := false }
  let text := s.rest.takeWhile fun c => !(c == ' ' || isBreak c)
  match text with
  | '!' :: '<' :: inner =>
    if inner.getLast? == some '>' then .ok ((s.forward text.length).push (.tag (String.ofList inner.dropLast)))
    else .error "expected '>'"
  | '!' :: '!' :: suffix =>
    if suffix.isEmpty then .error "expected URI"
    else .ok ((s.forward text.length).push (.tag ("tag:yaml.org,2002:" ++ String.ofList suffix)))
  | _ => .ok ((s.forward text.length).push (.tag (String.ofList text)))

/-! ## One token -/

def flowStart (t : Token) : Step := fun s => do
  let s ← saveKey s
  return { (s.push t).forward1 with flow := s.flow + 1, allowKey := true }

def flowEnd (t : Token) : Step := fun s => do
  let s ← dropKey s
  if s.flow == 0 then .error "unexpected end of a flow collection"
  else return { (s.push t).forward1 with flow := s.flow - 1, allowKey := false }

def documentMark (t : Token) : Step := fun s => do
  let s ← dropKey (s.unwind (-1))
  return ({ s with allowKey := false }.forward 3).push t

def startBlock (t : Token) (s : Scan) : Scan :=
  if s.flow > 0 then s else
    match s.addIndent s.column with
    | (true, s) => s.push t
    | (false, s) => s

def blockEntry : Step := fun s =>
  if s.flow == 0 && !s.allowKey then .error "sequence entries are not allowed here" else do
    let s ← dropKey { (startBlock .blockSequenceStart s) with allowKey := true }
    return s.forward1.push .blockEntry

def explicitKey : Step := fun s =>
  if s.flow == 0 && !s.allowKey then .error "mapping keys are not allowed here" else do
    let s ← dropKey { (startBlock .blockMappingStart s) with allowKey := s.flow == 0 }
    return s.forward1.push .key

def insertAt (i : Nat) (ts : List Token) (s : Scan) : Scan :=
  { s with tokens := s.tokens.extract 0 i ++ ts.toArray ++ s.tokens.extract i s.tokens.size }

def valueMark : Step := fun s =>
  match s.keys.lookup s.flow with
  | some k =>
    let s := { s with keys := s.keys.filter fun e => e.1 != s.flow }
    let s := if s.flow > 0 then s.insertAt k.token [.key] else
      match s.addIndent k.column with
      | (true, s) => s.insertAt k.token [.blockMappingStart, .key]
      | (false, s) => s.insertAt k.token [.key]
    .ok ({ s with allowKey := false }.forward1.push .value)
  | none =>
    if s.flow == 0 && !s.allowKey then .error "mapping values are not allowed here" else do
      let s ← dropKey { (startBlock .blockMappingStart s) with allowKey := s.flow == 0 }
      return s.forward1.push .value

def quotedScalar (double : Bool) : Step := fun s => do
  let s ← saveKey s
  let s := { s with allowKey := false }.forward1
  let (text, s) ← quotedFrom double (s.rest.length + 1) [] s
  return s.push (.scalar text false)

def plainScalar : Step := fun s => do
  let s ← saveKey s
  let (text, s) := plainFrom (s.rest.length + 1) [] [] { s with allowKey := false }
  return s.push (.scalar text true)

def startsPlain (flow : Bool) (c : Char) (rest : List Char) : Bool :=
  !(c == ' ' || c == '\t' || isBreak c || "-?:,[]\x7b\x7d#&*!|>'\"%@`".toList.contains c) ||
    (!endsWord rest && (c == '-' || (!flow && (c == '?' || c == ':'))))

def next (s : Scan) : Except String (Bool × Scan) := do
  let s := toNextToken (s.rest.length + 1) s
  let s ← dropStaleKeys s
  let s := s.unwind s.column
  let flow := s.flow > 0
  let go (step : Step) : Except String (Bool × Scan) := do return (true, ← step s)
  match s.rest with
  | [] =>
    let s ← dropKey (s.unwind (-1))
    return (false, s.push .streamEnd)
  | c :: rest =>
    if c == '%' && s.column == 0 then do
      let s ← dropKey (s.unwind (-1))
      return (true, ({ s with allowKey := false }.skipWhile (fun c => !isBreak c)).push .directive)
    else if s.column == 0 && s.atMark "---" then go (documentMark .documentStart)
    else if s.column == 0 && s.atMark "..." then go (documentMark .documentEnd)
    else if c == '[' then go (flowStart .flowSequenceStart)
    else if c == '\x7b' then go (flowStart .flowMappingStart)
    else if c == ']' then go (flowEnd .flowSequenceEnd)
    else if c == '\x7d' then go (flowEnd .flowMappingEnd)
    else if c == ',' then go fun s => do return (← dropKey { s with allowKey := true }).forward1.push .flowEntry
    else if c == '-' && endsWord rest then go blockEntry
    else if c == '?' && (flow || endsWord rest) then go explicitKey
    else if c == ':' && (flow || endsWord rest) then go valueMark
    else if c == '*' then go (anchorName .alias_)
    else if c == '&' then go (anchorName .anchor)
    else if c == '!' then go tagName
    else if c == '|' && !flow then go fun s => do blockScalar false (← dropKey { s with allowKey := true })
    else if c == '>' && !flow then go fun s => do blockScalar true (← dropKey { s with allowKey := true })
    else if c == '\'' then go (quotedScalar false)
    else if c == '"' then go (quotedScalar true)
    else if startsPlain flow c rest then go plainScalar
    else .error "found character that cannot start any token"

def all : Nat → Scan → Except String (Array Token)
  | 0, _ => .error "text too long"
  | fuel + 1, s => do
    let (more, s) ← s.next
    if more then all fuel s else return s.tokens

end Scan

def isAllowed (c : Char) : Bool :=
  let n := c.toNat
  n == 9 || n == 10 || n == 13 || (0x20 ≤ n && n ≤ 0x7E) || n == 0x85 || (0xA0 ≤ n && n ≤ 0xFFFD) || n ≥ 0x10000

def tokens (text : String) : Except String (List Token) :=
  let cs := text.toList
  if cs.all isAllowed then do
    let ts ← Scan.all (cs.length + 2) { rest := cs }
    return ts.toList
  else .error "special characters are not allowed"

end Conductor.Yaml
