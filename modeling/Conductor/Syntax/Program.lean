import Conductor.Syntax.Grammar
import Conductor.Syntax.Statement
import Conductor.Tree.Plain

/-!
# Reading programs

Statements are recognised by their first word; anything else is an assignment or a
clause. Blocks end at their own words, and what opens a block says which. A clause that
cannot be read is kept with its fault, since it may never be executed as one; every
other fault ends the reading.
-/

set_option autoImplicit false

namespace Conductor.Syntax

open Text (isWordChar isBlank)

/-! ## Expressions from tokens -/

def parseFault (cause : Cause) (line col : Nat) : Problem :=
  .condition { cause := cause, line := some line, col := some col }

def furthestFault (text : List Char) (span : List Token) (first last : Token) (far : Nat) : Problem :=
  let column := ((text.take far).reverse.takeWhile (· != '\n')).length
  let failedAt := first.col + column
  match span.find? fun t => t.col ≥ failedAt with
  | some t =>
    match t.shown with
    | .ok shown => parseFault (.unexpectedToken shown) t.line t.col
    | .error f => .failure f
  | none => parseFault .endOfExpression last.line (last.col + (last.stop - last.start))

def readTokens {α : Type} (rule : Grammar.Origin → Nat → Grammar.Rule α) (source : List Char)
    (tokens : List Token) : Except Problem α :=
  let span := tokens.filter fun t => !t.isEof
  match span, span.getLast? with
  | first :: _, some last =>
    let text := (source.take last.stop).drop first.start
    let origin : Grammar.Origin := ⟨text, first.line, first.col⟩
    match Grammar.run (Grammar.whole (rule origin (Grammar.depthFor text))) text with
    | .ok (a, _) => .ok a
    | .error far => .error (furthestFault text span first last far)
  | _, _ =>
    match tokens with
    | t :: _ => .error (parseFault .endOfExpression t.line t.col)
    | [] => .error (parseFault .endOfExpression 0 0)

def readExpression (source : List Char) (tokens : List Token) : Except Problem Expr :=
  readTokens Grammar.expression source tokens

def readCommand (source : List Char) (tokens : List Token) : Except Problem CommandForm :=
  readTokens Grammar.command source tokens

def readArguments (source : List Char) (tokens : List Token) : Except Problem (List Arg) :=
  readTokens Grammar.callTail source tokens

def parseExpression (text : String) (line offset : Nat) : Except Problem Expr := do
  readExpression text.toList (← tokenize text line offset)

/-! ## Shapes of lines -/

/-- The letters that a case-blind match of the Latin letters takes beside them. -/
def isLatin (c : Char) : Bool :=
  c.isAlpha || c.toNat == 0x130 || c.toNat == 0x131 || c.toNat == 0x17F || c.toNat == 0x212A

def isTargetStart (c : Char) : Bool := isLatin c || c == '_' || c == '$' || c == '@' || c == '#'

def isTargetPart (c : Char) : Bool :=
  isWordChar c || c == '.' || c == '$' || c == '@' || c == '#' || c == '?'

/-- A target and its equals sign, from a place on: the target, its start and where the sign ends. -/
def targetAt (p : Nat) (cs : List Char) : Option (String × Nat × Nat) :=
  match cs with
  | c :: rest =>
    if isTargetStart c then
      let tail := rest.takeWhile isTargetPart
      let after := rest.drop tail.length
      let gap := (after.takeWhile isBlank).length
      match after.drop gap with
      | '=' :: more =>
        if more.head? == some '=' then none
        else some (String.ofList (c :: tail), p, p + 1 + tail.length + gap + 1)
      | _ => none
    else none
  | [] => none

/-- The target of an assignment, its start in the line and where the value starts. -/
def assignment? (code : String) : Option (String × Nat × Nat) :=
  let cs := code.toList
  let lead := (cs.takeWhile isBlank).length
  let body := cs.drop lead
  let withLet : Option (String × Nat × Nat) :=
    match body with
    | l :: e :: t :: rest =>
      if l.toUpper == 'L' && e.toUpper == 'E' && t.toUpper == 'T' then
        let gap := (rest.takeWhile isBlank).length
        if gap == 0 then none else targetAt (lead + 3 + gap) (rest.drop gap)
      else none
    | _ => none
  match withLet with
  | some found => some found
  | none => targetAt lead body

def label? (code : String) : Option String :=
  match takeName code.toList with
  | some (name, after) =>
    match after.dropWhile isBlank with
    | ':' :: rest => if rest.all isBlank then some (String.ofList name) else none
    | _ => none
  | none => none

/-- The first of some words outside parentheses, from a place in the token list on. -/
def findWordFrom (words : List String) : Nat → Int → List Token → Option Nat
  | _, _, [] => none
  | i, depth, t :: rest =>
    if t.isOp "(" then findWordFrom words (i + 1) (depth + 1) rest
    else if t.isOp ")" then findWordFrom words (i + 1) (depth - 1) rest
    else if depth == 0 && t.isOneOf words then some i
    else findWordFrom words (i + 1) depth rest

def findWord (tokens : List Token) (word : String) (start : Nat) : Option Nat :=
  findWordFrom [word] start 0 (tokens.drop start)

def keywords : List String :=
  ["LET", "NOP", "SAY", "LEAVE", "ITERATE", "RETURN", "EXIT", "REQUIRE", "ARG", "CALL",
    "ADDRESS", "SIGNAL", "INTERPOLATION", "IF", "DO"]

def eofToken : Token := ⟨.eof, 0, 0, 0, 0⟩

def tokenAt (tokens : List Token) (i : Nat) : Token :=
  match tokens[i]? with
  | some t => t
  | none => tokens.getLastD eofToken

def place (l : SourceLine) : Place := ⟨l.line, Text.strip l.code⟩

def lineTokens (l : SourceLine) : Except Problem (List Token) := tokenize l.code l.line l.offset

def shownOf (t : Token) : Except Problem String := t.shown.mapError .failure

/-! ## Statements of one line -/

def readAssignment (l : SourceLine) (target : String) (start stop : Nat) : Except Problem Statement := do
  let ref := Ref.ofText target ⟨l.line, l.offset + start + 1⟩
  let rhs := l.code.toList.drop stop
  let offset := l.offset + stop
  let tokens ← tokenize (String.ofList rhs) l.line offset
  if (tokenAt tokens 0).isEof then throw (parseFault .missingValue l.line (offset + 1)) else
    let text := Text.strip (String.ofList rhs)
    match readExpression rhs tokens with
    | .ok e => return .assign ref (.expr e) text (place l)
    | .error (.failure f) => throw (.failure f)
    | .error fault =>
      match readCommand rhs tokens with
      | .ok c => return .assign ref (.command c) text (place l)
      | .error (.failure f) => throw (.failure f)
      | .error (.condition _) => throw fault

def readClause (l : SourceLine) : Except Problem Statement :=
  match lineTokens l with
  | .error (.failure f) => .error (.failure f)
  | .error (.condition c) => .ok (.clause none none (some c) (place l))
  | .ok tokens =>
    let source := l.code.toList
    match readExpression source tokens with
    | .error (.failure f) => .error (.failure f)
    | outcome =>
      let expr := outcome.toOption
      let bare := match expr with
        | none => true
        | some (.ref r) => r.tail.isEmpty
        | some _ => false
      let command? : Except Problem (Option CommandForm) :=
        if (tokenAt tokens 0).isWord && bare then
          match readCommand source tokens with
          | .ok c => .ok (some c)
          | .error (.failure f) => .error (.failure f)
          | .error (.condition _) => .ok none
        else .ok none
      match command? with
      | .error e => .error e
      | .ok command =>
        let fault := match outcome with
          | .error (.condition c) => if command.isNone then some c else none
          | _ => none
        .ok (.clause expr command fault (place l))

def readBlockLine (l : SourceLine) (literal : BlockLiteral) : Except Problem Statement :=
  if Text.allBlank l.code then .ok (.block literal ⟨l.line, "<<" ++ literal.delimiter⟩) else
    match assignment? l.code with
    | some (target, _, stop) =>
      if (l.code.toList.drop stop).all isBlank then
        .ok (.assign (Ref.ofText target ⟨l.line, l.offset + 1⟩) (.block literal) ("<<" ++ literal.delimiter) (place l))
      else .error (parseFault .blockLiteralPlace l.line literal.col)
    | none => .error (parseFault .blockLiteralPlace l.line literal.col)

def readOptional (l : SourceLine) : Except Problem (Option Expr) := do
  let (rest, offset) := l.afterWord
  let tokens ← tokenize rest l.line offset
  if (tokenAt tokens 0).isEof then return none
  else return some (← readExpression rest.toList tokens)

def readSay (l : SourceLine) : Except Problem Statement := do
  match ← readOptional l with
  | some e => return .say e (place l)
  | none => return .say (.literal (.text "" false) ⟨0, 0⟩) (place l)

def readRequire (l : SourceLine) : Except Problem Statement := do
  match ← readOptional l with
  | some e => return .require e (place l)
  | none => throw (parseFault .requireForm l.line (l.afterWord.2 + 1))

def readArg (l : SourceLine) : Except Problem Statement := do
  let tokens ← lineTokens l
  let names ← traverse (fun t =>
    if t.isEof || t.isOp "," then (.ok none : Except Problem (Option String)) else
      match t.word? with
      | some w => .ok (some w)
      | none => do throw (parseFault (.argForm (← shownOf t)) t.line t.col)) (tokens.drop 1)
  return .arg (names.filterMap id) (place l)

def readCall (l : SourceLine) : Except Problem Statement := do
  let tokens ← lineTokens l
  match (tokenAt tokens 1).word? with
  | none => throw (parseFault .callForm l.line (tokenAt tokens 1).col)
  | some name =>
    if (tokenAt tokens 2).isEof then return .call name [] (place l)
    else return .call name (← readArguments l.code.toList (tokens.drop 2)) (place l)

def readAddress (l : SourceLine) : Except Problem Statement := do
  let tokens ← lineTokens l
  let source := l.code.toList
  let t := tokenAt tokens 1
  let next := tokenAt tokens 2
  if t.isEof then return .address .reset (place l) else
    match t.word? <|> t.string? with
    | none => throw (parseFault .addressForm t.line t.col)
    | some domain =>
      if next.isEof then return .address (.switch domain none none) (place l) else
        match next.word? with
        | some word =>
          let after := tokenAt tokens 3
          match Mode.ofWord? word with
          | some mode =>
            if after.isEof then return .address (.switch domain (some mode) none) (place l)
            else if mode != .pattern then
              throw (parseFault (.addressRule (Text.upper word)) after.line after.col)
            else return .address (.switch domain (some mode) (some (← readExpression source (tokens.drop 3)))) (place l)
          | none =>
            if after.isEof then throw (parseFault (.addressMode (Text.quoted word)) next.line next.col)
            else return .address (.send domain (← readExpression source (tokens.drop 2))) (place l)
        | none => return .address (.send domain (← readExpression source (tokens.drop 2))) (place l)

def trapOf? (t : Token) : Option Trap :=
  if t.isOneOf ["ERROR"] then some .error else if t.isOneOf ["HALT"] then some .halt else none

def readSignal (l : SourceLine) : Except Problem Statement := do
  let tokens ← lineTokens l
  let t := tokenAt tokens 1
  if t.isEof then throw (parseFault .signalForm t.line t.col)
  else if t.isOneOf ["ON", "OFF"] then
    let on := t.isOneOf ["ON"]
    let cond := tokenAt tokens 2
    match trapOf? cond with
    | none => throw (parseFault (.signalCondition (← shownOf cond)) cond.line cond.col)
    | some trap =>
      let (label, tail) ←
        if on && (tokenAt tokens 3).isOneOf ["NAME"] then
          match (tokenAt tokens 4).word? with
          | none => throw (parseFault .signalName (tokenAt tokens 4).line (tokenAt tokens 4).col)
          | some w => pure (Text.upper w, tokenAt tokens 5)
        else pure (trap.name, tokenAt tokens 3)
      if !tail.isEof then throw (parseFault (.unexpectedToken (← shownOf tail)) tail.line tail.col)
      else if on then return .signal (.on trap label) (place l)
      else return .signal (.off trap) (place l)
  else match t.word? with
    | some w =>
      if (tokenAt tokens 2).isEof then return .signal (.goto (Text.upper w)) (place l)
      else throw (parseFault .signalForm t.line t.col)
    | none => throw (parseFault .signalForm t.line t.col)

def readInterpolation (l : SourceLine) : Except Problem Statement := do
  let tokens ← lineTokens l
  let t := tokenAt tokens 1
  if t.isOneOf ["REGISTER"] then
    let name := tokenAt tokens 2
    match name.word? <|> name.string?, (tokenAt tokens 3).string?, (tokenAt tokens 4).string? with
    | some n, some start, some stop =>
      if (tokenAt tokens 5).isEof then return .interpolation (.register n start stop) (place l)
      else throw (parseFault .registerForm t.line t.col)
    | _, _, _ => throw (parseFault .registerForm t.line t.col)
  else if (tokenAt tokens 2).isEof && t.string?.isSome then
    return .interpolation (.sample (t.string?.getD "")) (place l)
  else if (tokenAt tokens 2).isEof && t.isWord then
    return .interpolation (.activate (t.word?.getD "")) (place l)
  else throw (parseFault .interpolationForm t.line t.col)

def readSimple (l : SourceLine) (word : String) : Except Problem Statement :=
  match word with
  | "LET" => .error (parseFault .letForm l.line (l.offset + 1))
  | "NOP" => .ok (.nop (place l))
  | "SAY" => readSay l
  | "LEAVE" => .ok (.leave (place l))
  | "ITERATE" => .ok (.iterate (place l))
  | "RETURN" => do return .ret (← readOptional l) false (place l)
  | "EXIT" => do return .ret (← readOptional l) true (place l)
  | "REQUIRE" => readRequire l
  | "ARG" => readArg l
  | "CALL" => readCall l
  | "ADDRESS" => readAddress l
  | "SIGNAL" => readSignal l
  | "INTERPOLATION" => readInterpolation l
  | _ => readClause l

def inlineLine (l : SourceLine) (text : List Char) (offset : Nat) (last : Bool) : SourceLine :=
  ⟨String.ofList text, l.line, offset, if last then l.block else none⟩

def readLoopHead (source : List Char) (tokens : List Token) : Except Problem LoopHead := do
  let head := tokenAt tokens 0
  let second := tokenAt tokens 1
  let read (i j : Nat) : Except Problem Expr := readExpression source ((tokens.take j).drop i)
  let all := tokens.length
  if head.isEof then return .block
  else if head.isOneOf ["FOREVER"] && second.isEof then return .forever
  else if head.isOneOf ["WHILE"] then return .while (← read 1 all)
  else if head.isOneOf ["UNTIL"] then return .until (← read 1 all)
  else match head.word? with
    | some var =>
      let ref := Ref.ofText var ⟨head.line, head.col⟩
      if second.isOp "=" then
        let stop := all - 1
        let toAt := findWord tokens "TO" 2
        let byAt := findWord tokens "BY" 2
        let startEnd := min (toAt.getD stop) (min (byAt.getD stop) stop)
        let start ← read 2 startEnd
        let limit ← match toAt with
          | some t => do
            let stopAt := match byAt with
              | some b => if b > t then b else stop
              | none => stop
            pure (some (← read (t + 1) stopAt))
          | none => pure none
        let step ← match byAt with
          | some b => do
            let stopAt := match toAt with
              | some t => if t > b then t else stop
              | none => stop
            pure (some (← read (b + 1) stopAt))
          | none => pure none
        return .range ref start limit step
      else if second.isOneOf ["OVER"] then return .over ref (← read 2 all)
      else return .count (← read 0 all)
    | none => return .count (← read 0 all)

/-! ## Blocks -/

abbrev Lines := List SourceLine

def isWordLine (l : SourceLine) (words : List String) : Bool :=
  words.contains l.word && (assignment? l.code).isNone

mutual
/-- Statements up to a line that ends the block; that line is given with the lines after it. At the
top level no word ends the block. -/
def readBlock : Nat → List String → Bool → Option SourceLine → Lines →
    Except Problem (List Statement × Option SourceLine × Lines)
  | 0, _, _, _, _ => .error (.failure .nesting)
  | fuel + 1, terminators, top, opener, lines =>
    match lines with
    | [] =>
      if terminators.isEmpty then .ok ([], none, [])
      else
        let line := opener.map SourceLine.line
        .error (.condition { cause := .missingTerminator terminators line, line := line, col := some 1 })
    | l :: rest =>
      if isWordLine l terminators && l.block.isNone then .ok ([], some l, rest)
      else if isWordLine l ["ELSE", "ENDIF", "END"] then
        .error (parseFault (.unexpectedWord l.word) l.line (l.offset + 1))
      else do
        let (s, rest) ← readStatement fuel top l rest
        let (more, stop, rest) ← readBlock fuel terminators top opener rest
        return (s :: more, stop, rest)

def readStatement : Nat → Bool → SourceLine → Lines → Except Problem (Statement × Lines)
  | 0, _, _, _ => .error (.failure .nesting)
  | fuel + 1, top, l, rest =>
    let word := l.word
    match l.block, word == "IF" with
    | some literal, false => do return (← readBlockLine l literal, rest)
    | _, _ =>
      match label? l.code with
      | some name =>
        if top then .ok (.label (Text.upper name) (place l), rest)
        else .error (parseFault (.nestedLabel name) l.line (l.offset + 1))
      | none =>
        match assignment? l.code with
        | some (target, start, stop) => do return (← readAssignment l target start stop, rest)
        | none =>
          if word == "IF" then readIf fuel l rest
          else if word == "DO" then do
            let tokens ← lineTokens l
            let head ← readLoopHead l.code.toList (tokens.drop 1)
            let (body, _, rest) ← readBlock fuel ["END"] false (some l) rest
            return (.loop head body (place l), rest)
          else do return (← readSimple l word, rest)

def readIf : Nat → SourceLine → Lines → Except Problem (Statement × Lines)
  | 0, _, _ => .error (.failure .nesting)
  | fuel + 1, l, rest => do
    let tokens ← lineTokens l
    let source := l.code.toList
    match findWord tokens "THEN" 1 with
    | none => throw (parseFault .ifWithoutThen l.line (l.offset + 1))
    | some thenAt =>
      let condition ← readExpression source ((tokens.take thenAt).drop 1)
      let thenToken := tokenAt tokens thenAt
      let after := source.drop thenToken.stop
      if after.all isBlank then
        let (thenBody, stop, rest) ← readBlock fuel ["ELSE", "ENDIF"] false (some l) rest
        match stop with
        | some term =>
          if term.word == "ELSE" then
            let (elseBody, rest) ← readElse fuel term true rest
            return (.cond condition thenBody elseBody (place l), rest)
          else return (.cond condition thenBody [] (place l), rest)
        | none => return (.cond condition thenBody [] (place l), rest)
      else match findWord tokens "ELSE" (thenAt + 1) with
        | some elseAt =>
          let elseToken := tokenAt tokens elseAt
          let thenText := (source.take elseToken.start).drop thenToken.stop
          let (thenStatement, rest) ← readStatement fuel false
            (inlineLine l thenText (l.offset + thenToken.stop) false) rest
          let (elseStatement, rest) ← readStatement fuel false
            (inlineLine l (source.drop elseToken.stop) (l.offset + elseToken.stop) true) rest
          return (.cond condition [thenStatement] [elseStatement] (place l), rest)
        | none =>
          let (thenStatement, rest) ← readStatement fuel false
            (inlineLine l after (l.offset + thenToken.stop) true) rest
          match rest with
          | term :: rest' =>
            if term.word == "ELSE" then
              let (elseBody, rest) ← readElse fuel term false rest'
              return (.cond condition [thenStatement] elseBody (place l), rest)
            else return (.cond condition [thenStatement] [] (place l), rest)
          | [] => return (.cond condition [thenStatement] [] (place l), rest)

def readElse : Nat → SourceLine → Bool → Lines → Except Problem (List Statement × Lines)
  | 0, _, _, _ => .error (.failure .nesting)
  | fuel + 1, term, needEnd, lines => do
    let (rest, offset) := term.afterWord
    if Text.allBlank rest then
      let (body, _, lines) ← readBlock fuel ["ENDIF"] false (some term) lines
      return (body, lines)
    else
      let inner := inlineLine term rest.toList offset true
      let (s, lines) ← readStatement fuel false inner lines
      if inner.word == "IF" || !needEnd then return ([s], lines)
      else
        let (body, _, lines) ← readBlock fuel ["ENDIF"] false (some term) lines
        return (s :: body, lines)
end

def parse (source : String) : Except Problem Program := do
  let lines ← (sourceLines source).mapError .condition
  let depth := lines.foldl (fun n l => n + 3 * l.code.length + 10) 10
  let (body, _, _) ← readBlock depth [] true none lines
  return body

/-- Whether a text fails to be a program only because something in it is still open. -/
def needsMore (source : String) : Except Failure Bool :=
  match parse source with
  | .ok _ => .ok false
  | .error (.failure f) => .error f
  | .error (.condition c) =>
    .ok (c.kind == .parse &&
      (Text.startsWith c.message "Missing " || Text.startsWith c.message "Unterminated block literal"))

end Conductor.Syntax
