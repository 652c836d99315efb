import Conductor.Document.Yaml.Token
import Conductor.Tree.Same
import Conductor.Document.Yaml.Scalar

/-!
# Reading the outline format

From tokens to data: one document of block and flow collections, with anchors and
aliases, merged mappings, and of two equal keys the last value at the place of the
first. Only the standard types are built; any other tag is a fault, and so is a
collection as a key.
-/

set_option autoImplicit false

namespace Conductor.Yaml

structure Parse where
  tokens : List Token
  anchors : List (String × Tree) := []
  /-- The names of the anchors met so far; a name stands for one node of the document. -/
  names : List String := []

def fault {α : Type} (what : String) : Except Failure α := .error (.malformedYaml what)

namespace Parse

def peek (p : Parse) : Token := p.tokens.headD .streamEnd

def advance (p : Parse) : Parse := { p with tokens := p.tokens.tail }

def nextIs (ts : List Token) (p : Parse) : Bool := ts.contains p.peek

def properties (p : Parse) : Option String × Option String × Parse :=
  match p.tokens with
  | .anchor a :: .tag t :: rest => (some a, some t, { p with tokens := rest })
  | .anchor a :: rest => (some a, none, { p with tokens := rest })
  | .tag t :: .anchor a :: rest => (some a, some t, { p with tokens := rest })
  | .tag t :: rest => (none, some t, { p with tokens := rest })
  | _ => (none, none, p)

def name (anchor : Option String) (p : Parse) : Except Failure Parse :=
  match anchor with
  | none => .ok p
  | some a => if p.names.contains a then fault "found duplicate anchor" else .ok { p with names := a :: p.names }

end Parse

/-- A key that stood in the text, the mark that merges another mapping in, or the sign for a default
value, which as a key is a text. -/
inductive Key
  | plain (t : Tree)
  | merge
  | default

def mergedEntries : Tree → Except Failure (List (Tree × Tree))
  | .dict entries => .ok entries
  | .list items => do
    let parts ← traverse (fun t => match t with
      | .dict entries => .ok entries
      | _ => fault "expected a mapping for merging") items
    return parts.reverse.flatten
  | _ => fault "expected a mapping or list of mappings for merging"

/-- A mapping from its pairs: merged entries come first, and later entries win. -/
def mapping (pairs : List (Key × Tree)) : Except Failure Tree := do
  let merged ← traverse (fun p => match p.1 with
    | .merge => mergedEntries p.2
    | _ => .ok []) pairs
  let own ← traverse (fun p => match p.1 with
    | .merge => .ok []
    | .default => .ok [(.text "=", p.2)]
    | .plain (.scalar s) => .ok [((.scalar s : Tree), p.2)]
    | .plain _ => fault "found unhashable key") pairs
  return Tree.dictOf (merged.flatten ++ own.flatten)

def standardTag (name : String) : String := "tag:yaml.org,2002:" ++ name

def tagged (tag : Option String) (text : String) (plain : Bool) : Except Failure Tree :=
  let implicit := if plain then scalarValue (resolve text) text else .ok (.text text)
  match tag with
  | none => implicit
  | some "!" => scalarValue (resolve text) text
  | some t =>
    if t == standardTag "str" then .ok (.text text)
    else if t == standardTag "int" then scalarValue .int text
    else if t == standardTag "float" then
      (if isFloat text.toList || isInt text.toList || (Decimal.decimal? text.toList).isSome
        then scalarValue .float text else .error (.notADecimal (Text.quoted text)))
    else if t == standardTag "bool" then scalarValue .bool text
    else if t == standardTag "null" then .ok .absent
    else if t == standardTag "timestamp" then scalarValue .timestamp text
    else fault "could not determine a constructor for the tag"

def collectionTag (kind : String) (tag : Option String) : Except Failure Unit :=
  match tag with
  | none | some "!" => .ok ()
  | some t => if t == standardTag kind then .ok () else fault "could not determine a constructor for the tag"

def emptyScalar : Tree := .absent

mutual
/-- One node. `block` allows block collections, `indentless` a sequence at its parent's depth. -/
def node : Nat → Bool → Bool → Parse → Except Failure (Key × Parse)
  | 0, _, _, _ => fault "nesting too deep"
  | fuel + 1, block, indentless, p =>
    match p.peek with
    | .alias_ name =>
      match p.anchors.lookup name with
      | some t => .ok (.plain t, p.advance)
      | none => fault "found undefined alias"
    | _ => do
      let (anchor, tag, p) := p.properties
      let p ← p.name anchor
      let keep (t : Tree) (p : Parse) : Except Failure (Key × Parse) :=
        .ok (.plain t, match anchor with
          | some a => { p with anchors := (a, t) :: p.anchors }
          | none => p)
      match p.peek with
      | .scalar text plain =>
        if plain && tag.isNone && resolve text == .merge then .ok (.merge, p.advance)
        else if plain && tag.isNone && resolve text == .value then .ok (.default, p.advance)
        else do keep (← tagged tag text plain) p.advance
      | .flowSequenceStart => do
        collectionTag "seq" tag
        let (items, p) ← flowItems fuel true [] p.advance
        keep (.list items) p
      | .flowMappingStart => do
        collectionTag "map" tag
        let (pairs, p) ← flowPairs fuel true [] p.advance
        keep (← mapping pairs) p
      | .blockEntry =>
        if indentless then do
          collectionTag "seq" tag
          let (items, p) ← indentlessItems fuel [] p
          keep (.list items) p
        else if anchor.isSome || tag.isSome then keepEmpty keep tag p
        else fault "expected the node content"
      | .blockSequenceStart =>
        if block then do
          collectionTag "seq" tag
          let (items, p) ← blockItems fuel [] p.advance
          keep (.list items) p
        else if anchor.isSome || tag.isSome then keepEmpty keep tag p
        else fault "expected the node content"
      | .blockMappingStart =>
        if block then do
          collectionTag "map" tag
          let (pairs, p) ← blockPairs fuel [] p.advance
          keep (← mapping pairs) p
        else if anchor.isSome || tag.isSome then keepEmpty keep tag p
        else fault "expected the node content"
      | _ =>
        if anchor.isSome || tag.isSome then keepEmpty keep tag p
        else fault "expected the node content"

def valueNode : Nat → Bool → Bool → Parse → Except Failure (Tree × Parse)
  | 0, _, _, _ => fault "nesting too deep"
  | fuel + 1, block, indentless, p => do
    match ← node fuel block indentless p with
    | (.plain t, p) => return (t, p)
    | _ => fault "could not determine a constructor for the tag"

def blockItems : Nat → List Tree → Parse → Except Failure (List Tree × Parse)
  | 0, _, _ => fault "nesting too deep"
  | fuel + 1, done, p =>
    match p.peek with
    | .blockEntry =>
      let p := p.advance
      if p.nextIs [.blockEntry, .blockEnd] then blockItems fuel (emptyScalar :: done) p else do
        let (t, p) ← valueNode fuel true false p
        blockItems fuel (t :: done) p
    | .blockEnd => .ok (done.reverse, p.advance)
    | _ => fault "expected <block end>"

def indentlessItems : Nat → List Tree → Parse → Except Failure (List Tree × Parse)
  | 0, _, _ => fault "nesting too deep"
  | fuel + 1, done, p =>
    match p.peek with
    | .blockEntry =>
      let p := p.advance
      if p.nextIs [.blockEntry, .key, .value, .blockEnd] then indentlessItems fuel (emptyScalar :: done) p
      else do
        let (t, p) ← valueNode fuel true false p
        indentlessItems fuel (t :: done) p
    | _ => .ok (done.reverse, p)

def blockPairs : Nat → List (Key × Tree) → Parse → Except Failure (List (Key × Tree) × Parse)
  | 0, _, _ => fault "nesting too deep"
  | fuel + 1, done, p =>
    match p.peek with
    | .key => do
      let p := p.advance
      let stop := [Token.key, .value, .blockEnd]
      let (k, p) ← if p.nextIs stop then .ok (Key.plain emptyScalar, p) else node fuel true true p
      if p.peek == .value then do
        let p := p.advance
        let (v, p) ← if p.nextIs stop then .ok (emptyScalar, p) else valueNode fuel true true p
        blockPairs fuel ((k, v) :: done) p
      else blockPairs fuel ((k, emptyScalar) :: done) p
    | .blockEnd => .ok (done.reverse, p.advance)
    | _ => fault "expected <block end>"

def flowItems : Nat → Bool → List Tree → Parse → Except Failure (List Tree × Parse)
  | 0, _, _, _ => fault "nesting too deep"
  | fuel + 1, first, done, p =>
    if p.peek == .flowSequenceEnd then .ok (done.reverse, p.advance)
    else if !first && p.peek != .flowEntry then fault "expected ',' or ']'"
    else
      let p := if first then p else p.advance
      match p.peek with
      | .key => do
        let p := p.advance
        let (k, p) ← if p.nextIs [.value, .flowEntry, .flowSequenceEnd] then .ok (Key.plain emptyScalar, p)
          else node fuel false false p
        let (v, p) ← if p.peek == .value then
            let p := p.advance
            if p.nextIs [.flowEntry, .flowSequenceEnd] then .ok (emptyScalar, p) else valueNode fuel false false p
          else .ok (emptyScalar, p)
        flowItems fuel false ((← mapping [(k, v)]) :: done) p
      | .flowSequenceEnd => .ok (done.reverse, p.advance)
      | _ => do
        let (t, p) ← valueNode fuel false false p
        flowItems fuel false (t :: done) p

def flowPairs : Nat → Bool → List (Key × Tree) → Parse → Except Failure (List (Key × Tree) × Parse)
  | 0, _, _, _ => fault "nesting too deep"
  | fuel + 1, first, done, p =>
    if p.peek == .flowMappingEnd then .ok (done.reverse, p.advance)
    else if !first && p.peek != .flowEntry then fault "expected ',' or ending brace"
    else
      let p := if first then p else p.advance
      match p.peek with
      | .key => do
        let p := p.advance
        let (k, p) ← if p.nextIs [.value, .flowEntry, .flowMappingEnd] then .ok (Key.plain emptyScalar, p)
          else node fuel false false p
        if p.peek == .value then do
          let p := p.advance
          let (v, p) ← if p.nextIs [.flowEntry, .flowMappingEnd] then .ok (emptyScalar, p)
            else valueNode fuel false false p
          flowPairs fuel false ((k, v) :: done) p
        else flowPairs fuel false ((k, emptyScalar) :: done) p
      | .flowMappingEnd => .ok (done.reverse, p.advance)
      | _ => do
        let (k, p) ← node fuel false false p
        flowPairs fuel false ((k, emptyScalar) :: done) p

def keepEmpty (keep : Tree → Parse → Except Failure (Key × Parse)) (tag : Option String) (p : Parse) : Except Failure (Key × Parse) := do
  keep (← tagged tag "" true) p
end

def atEnd : List Token → Bool
  | [] | [.streamEnd] => true
  | .documentEnd :: rest => atEnd rest
  | _ => false

def dropEnds : List Token → List Token
  | .documentEnd :: rest => dropEnds rest
  | ts => ts

def parse (text : String) : Except Failure Tree := do
  let ts ← (tokens text).mapError Failure.malformedYaml
  let fuel := 3 * ts.length + 10
  let finish (outcome : Tree × Parse) : Except Failure Tree :=
    if atEnd outcome.2.tokens then .ok outcome.1 else fault "expected a single document in the stream"
  match ts with
  | [] | [.streamEnd] => return emptyScalar
  | first :: _ =>
    if first == .directive || first == .documentStart || first == .documentEnd then
      let ts := dropEnds ts
      if ts == [.streamEnd] then return emptyScalar else
        match ts.dropWhile (· == .directive) with
        | .documentStart :: rest =>
          let p : Parse := { tokens := rest }
          if p.nextIs [.directive, .documentStart, .documentEnd, .streamEnd] then finish (emptyScalar, p)
          else finish (← valueNode fuel true false p)
        | _ => fault "expected '<document start>'"
    else finish (← valueNode fuel true false { tokens := ts })

end Conductor.Yaml
