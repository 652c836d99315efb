import Conductor.Document.Charset
import Conductor.Document.Json
import Conductor.Document.Yaml
import Conductor.Document.Yaml.Writer
import Conductor.Path
import Conductor.Syntax.Line

/-!
# Structured documents

Which format a file name or a content type stands for, and the conversion between
wire text and plain data in that format. Decoding a body is by best effort: a text
that cannot be read in its format is passed on unchanged.
-/

set_option autoImplicit false

namespace Conductor.Structured

open Syntax (Format)

def formatForPath (path : String) : Option Format :=
  match Text.lower (Path.extension path) with
  | ".json" => some .json
  | ".yaml" | ".yml" => some .yaml
  | _ => none

def formatForContentType (contentType : String) : Option Format :=
  let t := Text.lower contentType
  if Text.occursIn "json" t then some .json
  else if Text.occursIn "yaml" t then some .yaml
  else none

def formatNamed? : String → Option Format
  | "json" => some .json
  | "yaml" => some .yaml
  | _ => none

def parse (text : String) : Format → Except Failure Tree
  | .json => Json.parse text
  | .yaml => Yaml.parse text

def write (t : Tree) (pretty : Bool) : Format → Except Failure String
  | .json => Json.write (if pretty then .indented 0 else .flat) t
  | .yaml => Yaml.write (!pretty) t

/-- The format of a body: the given one, else that of its content type, else by its first character. -/
def bodyFormat (text contentType : String) (format : Option Format) : Option Format :=
  match format <|> formatForContentType contentType with
  | some f => some f
  | none =>
    match (text.toList.dropWhile Text.isBlank).head? with
    | some '\x7b' | some '[' => some .json
    | _ => none

/-- The data of a body. A body labelled as the interchange format may also be an outline. -/
def decode (text contentType : String) (format : Option Format) : Except Failure Tree :=
  match bodyFormat text contentType format with
  | none => .ok (.text text)
  | some f =>
    attempt (if f == .json then [.json, .yaml] else [f])
where
  attempt : List Format → Except Failure Tree
    | [] => .ok (.text text)
    | f :: rest =>
      match parse text f with
      | .ok t => .ok t
      | .error e => if e.isMalformedText then attempt rest else .error e

def parseNamed (text format : String) : Except Failure Tree :=
  match formatNamed? format with
  | some f => parse text f
  | none => .error (.unsupportedStructure format)

/-- The data of a body whose format may be given by name; in a format without a reader it stays text. -/
def decodeNamed (text contentType : String) (format : Option String) : Except Failure Tree :=
  match format with
  | some "" | none => decode text contentType none
  | some name => match formatNamed? name with
    | some f => decode text contentType (some f)
    | none => .ok (.text text)

def serialize (t : Tree) (format : String) (pretty : Bool) : Except Failure String :=
  match formatNamed? (Text.lower format) with
  | some f => do write (← t.plain) pretty f
  | none => .error (.unsupportedFormat format)

end Conductor.Structured
