import Conductor.Memory

/-!
# Interpolation

A text is cut by a pattern of two delimiters into literal parts and references; the
cut depends on the text and the pattern alone. A reference whose variable is bound
is replaced by the variable's text, any other stays as it is written, delimiters
included. An engine holds named patterns, of which one is active. A registration
that is refused leaves it as it was.
-/

set_option autoImplicit false

namespace Conductor

namespace Interpolation

structure Pattern where
  name : String
  start : String
  stop : String
  deriving DecidableEq, Repr, Inhabited

def builtins : List Pattern :=
  [⟨"handlebars", "\x7b\x7b", "\x7d\x7d"⟩, ⟨"shell", "$\x7b", "\x7d"⟩, ⟨"batch", "%", "%"⟩,
    ⟨"brackets", "[[", "]]"⟩]

/-! ## Cutting a text -/

inductive Part
  | literal (s : List Char)
  | slot (inside : List Char)
  deriving DecidableEq, Repr

/-- The parts of a text. Every slot is longer than nothing because its delimiters are. -/
def partsFrom (start stop : List Char) : Nat → List Char → List Part
  | 0, text => [.literal text]
  | fuel + 1, text =>
    match Text.findSplit start text with
    | none => [.literal text]
    | some (before, rest) =>
      match Text.findSplit stop rest with
      | none => [.literal text]
      | some (inside, after) => .literal before :: .slot inside :: partsFrom start stop fuel after

def parts (p : Pattern) (text : String) : List Part :=
  partsFrom p.start.toList p.stop.toList (text.length + 1) text.toList

def isReferenceStart (c : Char) : Bool := c.isAlpha || c == '_' || c == '$' || c == '@' || c == '#'

def isReferencePart (c : Char) : Bool :=
  Text.isWordChar c || c == '$' || c == '@' || c == '#' || c == '?'

def isReference (s : String) : Bool :=
  match Text.pieces "." s with
  | [] => false
  | name :: tail =>
    (match name.toList with
      | [] => false
      | c :: rest => isReferenceStart c && rest.all isReferencePart) &&
    tail.all fun seg => !seg.isEmpty && seg.toList.all isReferencePart

def reference? (inside : List Char) : Option String :=
  let ref := Text.strip (String.ofList inside)
  if isReference ref then some ref else none

def Part.written (p : Pattern) : Part → String
  | .literal s => String.ofList s
  | .slot inside => p.start ++ String.ofList inside ++ p.stop

/-- The text that stands for a part: of a reference that the look-up binds the text of its value, and of
any other part what is written. -/
def Part.filled (p : Pattern) (lookup : String → Memory.Act Value) (part : Part) : Memory.Act String :=
  match part with
  | .literal s => return String.ofList s
  | .slot inside =>
    match reference? inside with
    | none => return part.written p
    | some ref => do
      let v ← lookup ref
      if v.isUnbound then return part.written p
      else Memory.liftE (← Memory.tree v).shown

/-- Replaces the references of a text that a look-up binds. -/
def fill (p : Pattern) (lookup : String → Memory.Act Value) (text : String) : Memory.Act String := do
  let pieces ← (parts p text).mapM (Part.filled p lookup)
  return String.join pieces

def apply (p : Pattern) (text : String) : Memory.Act String := fill p Memory.readPath text

/-! ## The engine -/

structure Engine where
  patterns : Table String Pattern
  active : Pattern
  deriving Inhabited

namespace Engine

def initial : Engine :=
  { patterns := builtins.map fun p => (Text.upper p.name, p), active := ⟨"handlebars", "\x7b\x7b", "\x7d\x7d"⟩ }

def find? (e : Engine) (name : String) : Option Pattern := e.patterns.get? (Text.upper name)

def register (e : Engine) (name start stop : String) : Except Cause (Pattern × Engine) :=
  if Text.allBlank name then .error .emptyPatternName
  else if start.isEmpty || stop.isEmpty then .error (.emptyDelimiter name)
  else if (e.find? name).isSome then .error (.duplicatePattern name)
  else
    let p : Pattern := ⟨name, start, stop⟩
    .ok (p, { e with patterns := e.patterns.put (Text.upper name) p })

def activate (e : Engine) (name : String) : Except Cause (Pattern × Engine) :=
  match e.find? name with
  | some p => .ok (p, { e with active := p })
  | none => .error (.unknownPattern (Text.quoted name))

/-- The pattern that a sample shows around the letter `v`, registered under the sample if it is new. -/
def activateSample (e : Engine) (sample : String) : Except Cause (Pattern × Engine) :=
  match Text.pieces "v" sample with
  | [start, stop] =>
    if start.isEmpty || stop.isEmpty then .error (.placeholderSides sample)
    else match e.patterns.values.find? fun p => p.start == start && p.stop == stop with
      | some p => .ok (p, { e with active := p })
      | none => do
        let (p, e) ← e.register sample start stop
        return (p, { e with active := p })
  | _ => .error (.placeholderCount sample)

end Engine

end Interpolation

end Conductor
