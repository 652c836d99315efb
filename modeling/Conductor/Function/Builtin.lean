/-!
# The built-in functions

Their names, parameters, categories and one-line descriptions. What they do is told
where programs run.
-/

set_option autoImplicit false

namespace Conductor

inductive Builtin
  | abs
  | address
  | arg
  | arrayGet
  | arrayJoin
  | arrayLength
  | arrayPush
  | copies
  | datatype
  | date
  | emit
  | fileRead
  | fileWrite
  | httpGet
  | info
  | interpolation
  | jsonParse
  | jsonStringify
  | left
  | length
  | lower
  | mathPower
  | max
  | min
  | pos
  | reverse
  | right
  | sign
  | sleep
  | split
  | strip
  | substr
  | symbol
  | time
  | trunc
  | typeof
  | upper
  | word
  | words
  | yamlParse
  deriving DecidableEq, Repr

namespace Builtin

abbrev Param := String × Bool

structure Description where
  name : String
  params : List Param := []
  variadic : Bool := false
  category : String
  text : String := ""

def describe : Builtin → Description
  | abs => { name := "ABS", params := [("number", false)], category := "math" }
  | address => { name := "ADDRESS", category := "introspection" }
  | arg =>
    { name := "ARG", params := [("n", true)], category := "introspection",
      text := "Argument count of the current routine, or its n-th argument." }
  | arrayGet => { name := "ARRAY_GET", params := [("array", false), ("index", false), ("default", true)], category := "stem" }
  | arrayJoin => { name := "ARRAY_JOIN", params := [("array", false), ("separator", true)], category := "stem" }
  | arrayLength => { name := "ARRAY_LENGTH", params := [("array", false)], category := "stem" }
  | arrayPush => { name := "ARRAY_PUSH", params := [("array", false)], variadic := true, category := "stem" }
  | copies => { name := "COPIES", params := [("string", false), ("n", false)], category := "string" }
  | datatype => { name := "DATATYPE", params := [("value", false), ("type", true)], category := "introspection" }
  | date => { name := "DATE", params := [("format", true)], category := "time" }
  | emit =>
    { name := "EMIT", params := [("message", false), ("topic", true)], category := "io",
      text := "Append a side effect on `topic`; named arguments only." }
  | fileRead => { name := "FILE_READ", params := [("path", false)], category := "io" }
  | fileWrite => { name := "FILE_WRITE", params := [("path", false), ("data", false)], category := "io" }
  | httpGet =>
    { name := "HTTP_GET", params := [("url", false), ("timeout", true), ("mode", true)], category := "io",
      text := "GET a URL and decode the body." }
  | info =>
    { name := "INFO", params := [("name", false)], category := "introspection",
      text := "Registry entry and metadata for a resolvable function." }
  | interpolation => { name := "INTERPOLATION", category := "introspection" }
  | jsonParse => { name := "JSON_PARSE", params := [("text", false)], category := "data" }
  | jsonStringify => { name := "JSON_STRINGIFY", params := [("value", false), ("pretty", true)], category := "data" }
  | left => { name := "LEFT", params := [("string", false), ("length", false), ("pad", true)], category := "string" }
  | length => { name := "LENGTH", params := [("string", false)], category := "string" }
  | lower => { name := "LOWER", params := [("string", false)], category := "string" }
  | mathPower => { name := "MATH_POWER", params := [("base", false), ("exponent", false)], category := "math" }
  | max => { name := "MAX", variadic := true, category := "math" }
  | min => { name := "MIN", variadic := true, category := "math" }
  | pos =>
    { name := "POS", params := [("needle", false), ("haystack", false), ("start", true)], category := "string",
      text := "1-based position of `needle` in `haystack`, or 0." }
  | reverse => { name := "REVERSE", params := [("string", false)], category := "string" }
  | right => { name := "RIGHT", params := [("string", false), ("length", false), ("pad", true)], category := "string" }
  | sign => { name := "SIGN", params := [("number", false)], category := "math" }
  | sleep => { name := "SLEEP", params := [("seconds", false)], category := "time" }
  | split => { name := "SPLIT", params := [("string", false), ("separator", true)], category := "string" }
  | strip => { name := "STRIP", params := [("string", false), ("option", true), ("char", true)], category := "string" }
  | substr =>
    { name := "SUBSTR", params := [("string", false), ("start", false), ("length", true), ("pad", true)], category := "string",
      text := "Substring from 1-based `start`, padded with `pad` past the end." }
  | symbol =>
    { name := "SYMBOL", params := [("name", false)], category := "introspection",
      text := "VAR for a bound variable, FUNC for a resolvable routine, else LIT." }
  | time => { name := "TIME", params := [("format", true)], category := "time" }
  | trunc => { name := "TRUNC", params := [("number", false), ("digits", true)], category := "math" }
  | typeof => { name := "TYPEOF", params := [("value", false)], category := "introspection" }
  | upper => { name := "UPPER", params := [("string", false)], category := "string" }
  | word => { name := "WORD", params := [("string", false), ("n", false)], category := "string" }
  | words => { name := "WORDS", params := [("string", false)], category := "string" }
  | yamlParse => { name := "YAML_PARSE", params := [("text", false)], category := "data" }

def name (b : Builtin) : String := b.describe.name

def all : List Builtin :=
  [abs, address, arg, arrayGet, arrayJoin, arrayLength, arrayPush, copies, datatype, date, emit,
    fileRead, fileWrite, httpGet, info, interpolation, jsonParse, jsonStringify, left, length,
    lower, mathPower, max, min, pos, reverse, right, sign, sleep, split, strip, substr, symbol,
    time, trunc, typeof, upper, word, words, yamlParse]

def pipeParam : Builtin → Option String
  | substr => some "string"
  | _ => none

def isOperation : Builtin → Bool
  | emit => true
  | _ => false

def isAwaited : Builtin → Bool
  | httpGet | sleep => true
  | _ => false

end Builtin

end Conductor
