import Conductor.Run.Dispatch
import Conductor.Text.Slice

/-!
# What the built-in functions do

Each built-in function as a computation on its arguments. Texts are counted in
characters from one. A function that needs a whole number, a stem or a number says
so when it is given something else.
-/

set_option autoImplicit false

namespace Conductor

namespace Play

/-- The arguments of a built-in function by the names of its parameters, and those left over. -/
structure Given where
  values : Table String Value
  rest : List Value

namespace Given

def ofArguments (b : Builtin) (a : Arguments) : Given :=
  let params := b.describe.params.map Prod.fst
  { values := Table.putAll (params.zip a.placed) a.named, rest := a.placed.drop params.length }

def value? (g : Given) (name : String) : Option Value := g.values.get? name

def value (g : Given) (name : String) : Value := (g.value? name).getD (.text "")

def valueOr (g : Given) (name : String) (default : Value) : Value := (g.value? name).getD default

end Given

def isStem (v : Value) : Bool := v.isStem

def isNumeric (v : Value) : Bool :=
  match v with
  | .scalar s => s.isNumeric
  | _ => false

def isWholeNumber (n : Number) : Play (Option Int) := do
  let i ← liftE n.truncate
  return if (Number.int i).eq n then some i else none

def whole (v : Value) (what : String) : Play Int := do
  match ← isWholeNumber (← number v) with
  | some i => return i
  | none => cause (.notWhole what (← text v))

def stem (v : Value) (function : String) : Play Address := do
  match v with
  | .stem a => return a
  | v => cause (.notAStem function (Text.quoted (← text v)))

def chars (v : Value) : Play (List Char) := do return (← text v).toList

def ofChars (cs : List Char) : Value := .text (String.ofList cs)

/-- Texts longer than a length can say, and texts longer than memory, are refused. -/
def checkLength (n : Int) : Play Unit :=
  if n ≥ Int.pow 2 63 || n < -(Int.pow 2 63) then failure (.raised "OverflowError" "Python int too large to convert to C ssize_t")
  else if n ≥ Int.pow 2 34 then failure .memory
  else return ()

def padOf (g : Given) : Play Char := do return ((← chars (g.valueOr "pad" (.text " "))).head?).getD ' '

def firstUpper (v : Value) : Play String := do return Text.takeChars 1 (Text.upper (← text v))

/-! ## Numbers -/

def powerValue (a b : Number) : Play Value := do
  match ← liftE (a.power b) with
  | .real n => return .ofNumber n
  | .complex z => return .scalar (.foreign "complex" z.text z.text)

def best (beats : Number → Number → Bool) (function : String) (vs : List Value) : Play Value := do
  match vs with
  | [] => cause (.needsValue function)
  | v :: rest =>
    let first ← number v
    let winner ← rest.foldlM (fun acc v => do
      let n ← number v
      return if beats n acc then n else acc) first
    return .ofNumber winner

def trunc (g : Given) : Play Value := do
  let n ← number (g.value "number")
  let d ← whole (g.valueOr "digits" (.int 0)) "TRUNC digits"
  if d ≤ 0 then return .int (← liftE n.truncate)
  let factor : Int := Int.pow 10 d.toNat
  let scaled ← liftE ((← liftE (n.mul (.int factor))).truncate)
  return .ofNumber (← liftE (Number.quotient scaled factor))

/-! ## Texts -/

def substr (g : Given) : Play Value := do
  let s ← chars (g.value "string")
  let start ← whole (g.value "start") "SUBSTR start"
  if start < 1 then cause (.badStart (← liftE (integerText start)))
  let piece := s.drop (start.toNat - 1)
  match g.value? "length" with
  | none => return ofChars piece
  | some v =>
    let n ← whole v "SUBSTR length"
    let pad ← padOf g
    checkLength n
    return ofChars (Text.fillEnd n pad (Text.upToPos n piece))

def left (g : Given) : Play Value := do
  let n ← whole (g.value "length") "LEFT length"
  let s ← chars (g.value "string")
  let pad ← padOf g
  checkLength n
  return ofChars (Text.fillEnd n pad (Text.upToPos n s))

def right (g : Given) : Play Value := do
  let n ← whole (g.value "length") "RIGHT length"
  let s ← chars (g.value "string")
  let pad ← padOf g
  checkLength n
  return ofChars (Text.fillStart n pad (Text.lastChars n s))

def pos (g : Given) : Play Value := do
  let haystack ← chars (g.value "haystack")
  let needle ← chars (g.value "needle")
  let start ← whole (g.valueOr "start" (.int 1)) "POS start"
  return .ofNat (Text.position needle haystack (start - 1))

def word (g : Given) : Play Value := do
  let words := Text.words (← text (g.value "string"))
  let i ← whole (g.value "n") "WORD index"
  return .text (if 1 ≤ i then (words[i.toNat - 1]?).getD "" else "")

def strip (g : Given) : Play Value := do
  let s ← chars (g.value "string")
  let given ← chars (g.valueOr "char" (.text " "))
  let set := if given.isEmpty then [' '] else given
  let drop (c : Char) : Bool := set.contains c
  match ← firstUpper (g.valueOr "option" (.text "B")) with
  | "L" => return ofChars (s.dropWhile drop)
  | "T" => return ofChars (Text.dropEndWhile drop s)
  | _ => return ofChars (Text.stripWhile drop s)

def copies (g : Given) : Play Value := do
  let s ← chars (g.value "string")
  let n ← whole (g.value "n") "COPIES count"
  if n ≥ Int.pow 2 63 || n < -(Int.pow 2 63) then failure .indexTooLarge
  if s.isEmpty then return .text ""
  if n * s.length ≥ Int.pow 2 63 then failure (.raised "OverflowError" "repeated string is too long")
  if n * s.length ≥ Int.pow 2 34 then failure .memory
  return ofChars (List.replicate n.toNat s).flatten

def split (g : Given) : Play Value := do
  let s ← text (g.value "string")
  let sep ← text (g.valueOr "separator" (.text " "))
  let pieces ← if sep == " " then pure (Text.words s)
    else if sep.isEmpty then failure .emptySeparator
    else pure (Text.pieces sep s)
  memory (Memory.alloc ⟨pieces.map .text, []⟩)

/-! ## Stems -/

def itemsOf (a : Address) : Play (List Value) := do return ((← world).store.get a).items

def arrayPush (g : Given) : Play Value := do
  let a ← stem (g.value "array") "ARRAY_PUSH"
  modifyWorld fun w => { w with store := w.store.pushed a g.rest }
  return .stem a

def arrayGet (g : Given) : Play Value := do
  let a ← stem (g.value "array") "ARRAY_GET"
  let index := g.value "index"
  let key ← if isNumeric index then do pure (Tree.int (← whole index "index")) else tree index
  let found ← memory do Memory.stemGet a (← Memory.keyed key)
  return if found.isUnbound then g.value "default" else found

def arrayJoin (g : Given) : Play Value := do
  let sep ← text (g.valueOr "separator" (.text ","))
  let a ← stem (g.value "array") "ARRAY_JOIN"
  let texts ← (← itemsOf a).mapM text
  return .text (String.intercalate sep texts)

/-! ## Documents -/

def jsonParse (g : Given) : Play Value := do
  let outcome ← (do
    let t ← tree (g.value "text")
    return do Json.parse (← t.shown) : Play (Except Failure Tree))
  match outcome with
  | .ok t => plant t
  | .error f => if f.isMalformedText then cause (.badJson f) else failure f

def yamlParse (g : Given) : Play Value := do
  match Yaml.parse (← text (g.value "text")) with
  | .ok t => plant t
  | .error (.malformedYaml what) => cause (.badYaml (.malformedYaml what))
  | .error f => failure f

def jsonStringify (g : Given) : Play Value := do
  let pretty ← truthy (g.valueOr "pretty" (.int 0))
  let t ← tree (g.value "value")
  return .text (← liftE (Structured.serialize t "json" pretty))

/-! ## The outside -/

def fileRead (g : Given) : Play Value := do
  let path ← text (g.value "path")
  let base := (← session).sourceDir
  let files := (← world).files
  seek (files.resolve base path)
  plant (← liftE (files.read base path))

def fileWrite (g : Given) : Play Value := do
  let path ← text (g.value "path")
  let data ← tree (g.value "data")
  let (result, files) := (← world).files.write (← session).sourceDir path data
  modifyWorld fun w => { w with files := files }
  return .text (← liftE result)

def httpGet (g : Given) : Play Value := do
  let timeout ← number (g.valueOr "timeout" (.int 5))
  let mode ← text (g.value "mode")
  let timeout : Tree := match timeout with
    | .int n => .int n
    | .float x => .float x
  let config : Tree := .dict [(.text "timeout", timeout), (.text "response-mode", .text mode)]
  let known ← liftE (Http.modeOf config)
  if known.isNone && !Text.allBlank mode then cause (.unknownResponseMode mode)
  let url ← text (g.value "url")
  let t ← onHttp (Http.request "GET" url config none false)
  match known, t with
  | some .lite, .list [status, body, _] =>
    plant (.dict [(.text "status", status), (.text "body", body)])
  | some .full, .list [status, body, headers] =>
    plant (.dict [(.text "status", status), (.text "body", body), (.text "headers", headers)])
  | _, t => plant t

/-! ## Time -/

def months : List String :=
  ["January", "February", "March", "April", "May", "June", "July", "August", "September", "October", "November",
    "December"]

def weekdays : List String := ["Monday", "Tuesday", "Wednesday", "Thursday", "Friday", "Saturday", "Sunday"]

def digits (width n : Nat) : String := Text.padStart width '0' (Nat.repr n)

def dateText (m : Moment) (format : String) : String :=
  let month := (months[m.month - 1]?).getD ""
  match format with
  | "S" => digits 4 m.year ++ digits 2 m.month ++ digits 2 m.day
  | "I" => digits 4 m.year ++ "-" ++ digits 2 m.month ++ "-" ++ digits 2 m.day
  | "W" => (weekdays[m.weekday]?).getD ""
  | "M" => month
  | _ => Nat.repr m.day ++ " " ++ Text.takeChars 3 month ++ " " ++ Nat.repr m.year

def timeValue (m : Moment) (format : String) : Value :=
  let clock := digits 2 m.hour ++ ":" ++ digits 2 m.minute ++ ":" ++ digits 2 m.second
  match format with
  | "S" => .ofNat (m.hour * 3600 + m.minute * 60 + m.second)
  | "L" => .text (clock ++ "." ++ digits 6 m.microsecond)
  | "T" => .ofNat m.epoch
  | _ => .text clock

/-! ## Introspection -/

def argument (g : Given) : Play Value := do
  let args := ((← session).args.head?).getD []
  match g.value? "n" with
  | none => return .ofNat args.length
  | some n =>
    let i ← whole n "ARG index"
    return if 1 ≤ i then (args[i.toNat - 1]?).getD (.text "") else .text ""

def localEntry (name : String) : Play (Option Entry) := do
  let s ← session
  return s.resolver.local? s.dispatcher.methodNamed? name

def symbol (g : Given) : Play Value := do
  let name ← text (g.value "name")
  let starts := match name.toList with
    | c :: _ => Text.isLetter c || c == '_' || c == '$' || c == '@' || c == '#'
    | [] => false
  if !starts then return .text "BAD"
  let v ← memory (Memory.readPath name)
  if !v.isUnbound then return .text "VAR"
  return .text (if (← localEntry name).isSome then "FUNC" else "LIT")

def datatype (g : Given) : Play Value := do
  let v := g.value "value"
  match g.value? "type" with
  | none => return .text (if isNumeric v then "NUM" else "CHAR")
  | some type =>
    let s ← chars v
    let ok ← match ← firstUpper type with
      | "N" => pure (isNumeric v)
      | "W" => if isNumeric v then do pure (← isWholeNumber (← number v)).isSome else pure false
      | "A" => pure (!s.isEmpty && s.all Text.isAlphanumeric)
      | "U" => pure (!s.isEmpty && s.all Text.isLetter && Text.allUpper s)
      | "L" => pure (!s.isEmpty && s.all Text.isLetter && Text.allLower s)
      | "S" => pure v.isStem
      | _ => do cause (.unknownDatatype (← text type))
    return .ofBool ok

def typeOf : Value → String
  | .stem _ => "STEM"
  | .scalar (.int _) | .scalar (.float _) | .scalar (.bool _) => "NUMBER"
  | _ => "STRING"

def info (g : Given) : Play Value := do
  let name ← text (g.value "name")
  match ← localEntry name with
  | none => raise { cause := .unknownFunction name, function := some name }
  | some e =>
    let m := e.metadata.getD {}
    let texts (l : List String) : Tree := .list (l.map .text)
    plant (.dict [(.text "name", .text e.name), (.text "kind", .text e.tier.name), (.text "style", .text e.style),
      (.text "params", texts e.params), (.text "module", .text m.module), (.text "category", .text m.category),
      (.text "description", .text m.description), (.text "returns", .text m.returns),
      (.text "examples", texts m.examples)])

/-! ## All of them -/

def builtin (b : Builtin) (a : Arguments) : Play Value := do
  let g := Given.ofArguments b a
  match b with
  | .abs => return .ofNumber (← number (g.value "number")).abs
  | .address => return .text (← session).dispatcher.context.domain
  | .arg => argument g
  | .arrayGet => arrayGet g
  | .arrayJoin => arrayJoin g
  | .arrayLength => return .ofNat (← itemsOf (← stem (g.value "array") "ARRAY_LENGTH")).length
  | .arrayPush => arrayPush g
  | .copies => copies g
  | .datatype => datatype g
  | .date => return .text (dateText (← world).now (← firstUpper (g.valueOr "format" (.text "N"))))
  | .emit =>
    let topic ← text (g.valueOr "topic" (.text "stdout"))
    emit topic (← text (g.value "message"))
    return .absent
  | .fileRead => fileRead g
  | .fileWrite => fileWrite g
  | .httpGet => httpGet g
  | .info => info g
  | .interpolation => return .text (← session).interpolation.active.name
  | .jsonParse => jsonParse g
  | .jsonStringify => jsonStringify g
  | .left => left g
  | .length => return .ofNat (← chars (g.value "string")).length
  | .lower => return .text (Text.lower (← text (g.value "string")))
  | .mathPower =>
    let base ← number (g.value "base")
    powerValue base (← number (g.value "exponent"))
  | .max => best Number.gt "MAX" g.rest
  | .min => best Number.lt "MIN" g.rest
  | .pos => pos g
  | .reverse => return ofChars (← chars (g.value "string")).reverse
  | .right => right g
  | .sign =>
    let n ← number (g.value "number")
    return .int (if n.gt (.int 0) then 1 else if n.lt (.int 0) then -1 else 0)
  | .sleep =>
    discard (liftE (← number (g.value "seconds")).toFloat)
    return .int 0
  | .split => split g
  | .strip => strip g
  | .substr => substr g
  | .symbol => symbol g
  | .time => return timeValue (← world).now (← firstUpper (g.valueOr "format" (.text "N")))
  | .trunc => trunc g
  | .typeof => return .text (typeOf (g.value "value"))
  | .upper => return .text (Text.upper (← text (g.value "string")))
  | .word => word g
  | .words => return .ofNat (Text.words (← text (g.value "string"))).length
  | .yamlParse => yamlParse g

end Play

end Conductor
