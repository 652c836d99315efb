import Conductor.Tree.Plain

/-!
# Texts of trees

Three texts of a value. `json` writes plain data in the interchange format, with
or without indentation. `printed` is the layout for people: braces, one line when
it fits a width, strings bare unless that would be ambiguous. `quoted` is the form
inside messages. `shown` is the language's own text of a value, the one that
output and concatenation use. A tree can fail to have a text: an integer may have
too many digits, and a foreign thing has no interchange form.
-/

set_option autoImplicit false

namespace Conductor

/-! ## The interchange format -/

namespace Json

def escaped (c : Char) : String :=
  if c == '"' then "\\\""
  else if c == '\\' then "\\\\"
  else if c == '\n' then "\\n"
  else if c == '\r' then "\\r"
  else if c == '\t' then "\\t"
  else if c.toNat == 8 then "\\b"
  else if c.toNat == 12 then "\\f"
  else if c.toNat < 32 then "\\u" ++ Text.hexDigits 4 c.toNat
  else String.singleton c

def text (s : String) : String := "\"" ++ s.toList.foldl (fun out c => out ++ escaped c) "" ++ "\""

def float (x : Float) : String :=
  match Decimal.parts? x with
  | some _ => Decimal.exactText x
  | none => if x.isNaN then "NaN" else if Decimal.signBit x then "-Infinity" else "Infinity"

def scalar : Scalar → Except Failure String
  | .text s => .ok (text s)
  | .int n => integerText n
  | .float x => .ok (float x)
  | .bool b => .ok (if b then "true" else "false")
  | .absent => .ok "null"
  | s => .error (.notSerializable s.kindName)

/-- A key: only scalars of the format are keys, and they are written as texts. -/
def key : Tree → Except Failure String
  | .scalar (.text s) => .ok (text s)
  | .scalar (.int n) => (integerText n).map text
  | .scalar (.float x) => .ok (text (float x))
  | .scalar (.bool b) => .ok (if b then "\"true\"" else "\"false\"")
  | .scalar .absent => .ok "\"null\""
  | .scalar s => .error (badKey s.kindName)
  | .stem .. => .error (badKey "Stem")
  | .list _ => .error (badKey "list")
  | .dict _ => .error (badKey "dict")
where
  badKey (kind : String) : Failure :=
    .wrongType ("keys must be str, int, float, bool or None, not " ++ kind)

/-- How entries are laid out: on one line, or each on a line of its own at a depth. -/
inductive Style
  | compact
  | flat
  | indented (depth : Nat)
  deriving DecidableEq

def Style.deeper : Style → Style
  | indented d => indented (d + 1)
  | s => s

def newline (depth : Nat) : String := "\n" ++ Text.repeated (2 * depth) ' '

def Style.enclose (style : Style) (left right : String) (entries : List String) : String :=
  if entries.isEmpty then left ++ right else
    match style with
    | compact => left ++ String.intercalate "," entries ++ right
    | flat => left ++ String.intercalate ", " entries ++ right
    | indented d => left ++ newline (d + 1) ++ String.intercalate ("," ++ newline (d + 1)) entries ++ newline d ++ right

def Style.colon : Style → String
  | compact => ":"
  | _ => ": "

mutual
def write (style : Style) : Tree → Except Failure String
  | .scalar s => scalar s
  | .stem .. => .error (.notSerializable "Stem")
  | .list items => do return style.enclose "[" "]" (← writeAll style.deeper items)
  | .dict entries => do return style.enclose "\x7b" "\x7d" (← writeEntries style.deeper entries)

def writeAll (style : Style) : List Tree → Except Failure (List String)
  | [] => .ok []
  | t :: rest => do
    let first ← write style t
    return first :: (← writeAll style rest)

def writeEntries (style : Style) : List (Tree × Tree) → Except Failure (List String)
  | [] => .ok []
  | (k, t) :: rest => do
    let name ← key k
    let value ← write style t
    return (name ++ style.colon ++ value) :: (← writeEntries style rest)
end

end Json

/-! ## The layout for people -/

namespace Printer

structure Config where
  indent : Nat := 2
  width : Nat := 72

def pairs (config : Config) (level : Nat) (parts : List String) : String :=
  if parts.isEmpty then "\x7b\x7d" else
    let flat := "\x7b" ++ String.intercalate ", " parts ++ "\x7d"
    if flat.length + config.indent * level ≤ config.width && !flat.toList.contains '\n' then flat
    else
      let inner := Text.repeated (config.indent * (level + 1)) ' '
      let outer := Text.repeated (config.indent * level) ' '
      "\x7b\n" ++ String.intercalate ",\n" (parts.map (inner ++ ·)) ++ "\n" ++ outer ++ "\x7d"

/-- A text stands bare unless it is empty, has blanks at an end or holds a character of the layout. -/
def bare (s : String) : Bool :=
  !(s.isEmpty || s != Text.strip s || s.toList.any fun c => c == ',' || c == ':' || c == '\x7b' || c == '\x7d' || c == '\n')

def scalar : Scalar → Except Failure String
  | .text s => .ok (if bare s then s else Text.quoted s)
  | .absent => .ok "''"
  | .unbound => .ok "<undefined>"
  | .int n => integerText n
  | .float x => .ok (Number.text.floatText x)
  | .bool b => .ok (if b then "1" else "0")
  | s => s.quoted

end Printer

namespace Tree

mutual
def quoted : Tree → Except Failure String
  | .scalar s => s.quoted
  | .stem items named => do
    let texts ← printedItems {} 1 1 items
    let more ← printedNamed {} 1 named
    return "Stem(" ++ Printer.pairs {} 0 (texts ++ more) ++ ")"
  | .list items => do return "[" ++ String.intercalate ", " (← quotedAll items) ++ "]"
  | .dict entries => do return "\x7b" ++ String.intercalate ", " (← quotedEntries entries) ++ "\x7d"

def quotedAll : List Tree → Except Failure (List String)
  | [] => .ok []
  | t :: rest => do
    let first ← quoted t
    return first :: (← quotedAll rest)

def quotedEntries : List (Tree × Tree) → Except Failure (List String)
  | [] => .ok []
  | (k, t) :: rest => do
    let name ← quoted k
    let value ← quoted t
    return (name ++ ": " ++ value) :: (← quotedEntries rest)

def printed (config : Printer.Config) (level : Nat) : Tree → Except Failure String
  | .scalar s => Printer.scalar s
  | .stem items named => do
    let texts ← printedItems config (level + 1) 1 items
    let more ← printedNamed config (level + 1) named
    return Printer.pairs config level (texts ++ more)
  | .list items => do return Printer.pairs config level (← printedItems config (level + 1) 1 items)
  | .dict entries => do return Printer.pairs config level (← printedEntries config (level + 1) entries)

def printedItems (config : Printer.Config) (level position : Nat) : List Tree → Except Failure (List String)
  | [] => .ok []
  | t :: rest => do
    let first ← printed config level t
    return (Nat.repr position ++ ": " ++ first) :: (← printedItems config level (position + 1) rest)

def printedNamed (config : Printer.Config) (level : Nat) : List (String × Tree) → Except Failure (List String)
  | [] => .ok []
  | (k, t) :: rest => do
    let first ← printed config level t
    return (k ++ ": " ++ first) :: (← printedNamed config level rest)

def printedEntries (config : Printer.Config) (level : Nat) : List (Tree × Tree) → Except Failure (List String)
  | [] => .ok []
  | (k, t) :: rest => do
    let name ← match k with
      | .scalar s => s.asName
      | k => quoted k
    let value ← printed config level t
    return (name ++ ": " ++ value) :: (← printedEntries config level rest)
end

def asName : Tree → Except Failure String
  | .scalar s => s.asName
  | t => t.quoted

def untold : Tree → Option Tree
  | .text _ => none
  | t => some t

def toldText (t : Tree) : String := t.asName.toOption.getD ""

def shown : Tree → Except Failure String
  | .scalar s => s.shown
  | .stem items named => Json.write .flat (unstem (.stem items named))
  | t => t.quoted

def truthy : Tree → Except Failure Bool
  | .stem items named => .ok (!items.isEmpty || !named.isEmpty)
  | .scalar .unbound | .scalar .absent => .ok false
  | .scalar s =>
    match s.number? with
    | some n => do return !(← n).isZero
    | none => do return !Text.allBlank (← s.shown)
  | t => do return !Text.allBlank (← t.quoted)

def isNumeric : Tree → Bool
  | .scalar s => s.isNumeric
  | _ => false

def number (t : Tree) : Except Problem Number :=
  let refuse : Except Problem Number :=
    match t with
    | .scalar .unbound => .error (.ofCause (.notANumber "<undefined>"))
    | t => match t.shown with
      | .ok s => .error (.ofCause (.notANumber (Text.quoted s)))
      | .error f => .error (.failure f)
  match t with
  | .scalar s => match s.number? with
    | some n => n.mapError .failure
    | none => refuse
  | _ => refuse

mutual
/-- Outside data brought into the language. A stem is there already and stays as it is. -/
def normalize : Tree → Except Failure Tree
  | .scalar s => .ok (.scalar s.normalize)
  | .stem items named => .ok (.stem items named)
  | .list items => do return .stem (← normalizeAll items) []
  | .dict entries => do return .stem [] (Table.ofEntries (← normalizeEntries entries))

def normalizeAll : List Tree → Except Failure (List Tree)
  | [] => .ok []
  | t :: rest => do
    let first ← normalize t
    return first :: (← normalizeAll rest)

def normalizeEntries : List (Tree × Tree) → Except Failure (List (String × Tree))
  | [] => .ok []
  | (k, t) :: rest => do
    let name ← k.asName
    let value ← normalize t
    return (name, value) :: (← normalizeEntries rest)
end

mutual
/-- Plain data at every depth: stems, also those inside lists and dictionaries, become lists and
dictionaries, and every key becomes a text. -/
def plain : Tree → Except Failure Tree
  | .scalar s => .ok (.scalar s)
  | .stem items named => .ok (unstem (.stem items named))
  | .list items => do return .list (← plainAll items)
  | .dict entries => do
    return .dict ((Table.ofEntries (← plainEntries entries)).map fun e => (.text e.1, e.2))

def plainAll : List Tree → Except Failure (List Tree)
  | [] => .ok []
  | t :: rest => do
    let first ← plain t
    return first :: (← plainAll rest)

def plainEntries : List (Tree × Tree) → Except Failure (List (String × Tree))
  | [] => .ok []
  | (k, t) :: rest => do
    let name ← k.asName
    let value ← plain t
    return (name, value) :: (← plainEntries rest)
end

end Tree

namespace Printer

def size (count : Nat) (hasNames : Bool) : String :=
  if hasNames then "#\x7b...\x7d" else "#[" ++ Nat.repr count ++ "]"

/-- An argument of a call in a trace: stems by their size, other values cut to 24 characters. -/
def argument : Tree → Except Failure String
  | .stem items named => .ok (size items.length (!named.isEmpty))
  | t => do
    let text ← t.printed {} 0
    return if text.length ≤ 24 then text else Text.takeChars 21 text ++ "..."

def call (name : Option String) (args : List String) : String :=
  let name := match name with
    | some "" | none => "<call>"
    | some n => n
  let joined := String.intercalate " " args
  if joined.isEmpty then "(" ++ name ++ ")" else "(" ++ name ++ " " ++ joined ++ ")"

def frame (name : Option String) (args : List Tree) : Except Failure String := do
  return call name (← traverse argument args)

end Printer

end Conductor
