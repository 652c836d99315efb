import Conductor.Text.Case
import Conductor.Text.Quoted
import Conductor.Text.Split

/-!
# Character sets

Bytes as text. The character set comes from a content type; one that is not known is
read as UTF-8. Bytes that do not decode are replaced, one mark for each longest run
that could have begun a character.
-/

set_option autoImplicit false

namespace Conductor.Charset

def replacement : Char := Char.ofNat 0xFFFD

/-- The bounds of the second byte of a sequence and how many bytes continue it; none for a byte that
starts nothing. -/
def leadByte (b : Nat) : Option (Nat × Nat × Nat × Nat) :=
  if 0xC2 ≤ b && b ≤ 0xDF then some (1, b - 0xC0, 0x80, 0xBF)
  else if b == 0xE0 then some (2, 0, 0xA0, 0xBF)
  else if (0xE1 ≤ b && b ≤ 0xEC) || b == 0xEE || b == 0xEF then some (2, b - 0xE0, 0x80, 0xBF)
  else if b == 0xED then some (2, 0xD, 0x80, 0x9F)
  else if b == 0xF0 then some (3, 0, 0x90, 0xBF)
  else if 0xF1 ≤ b && b ≤ 0xF3 then some (3, b - 0xF0, 0x80, 0xBF)
  else if b == 0xF4 then some (3, 4, 0x80, 0x8F)
  else none

/-- What a decoder waits for: bytes still to come, the value so far and the bounds of the next byte. -/
structure Pending where
  count : Nat
  value : Nat
  low : Nat
  high : Nat

def startByte (out : List Char) (b : Nat) : List Char × Option Pending :=
  if b < 0x80 then (Char.ofNat b :: out, none) else
    match leadByte b with
    | some (count, value, low, high) => (out, some ⟨count, value, low, high⟩)
    | none => (replacement :: out, none)

def utf8Step (state : List Char × Option Pending) (byte : UInt8) : List Char × Option Pending :=
  let b := byte.toNat
  match state with
  | (out, none) => startByte out b
  | (out, some p) =>
    if p.low ≤ b && b ≤ p.high then
      let value := p.value * 64 + (b - 0x80)
      if p.count == 1 then (Char.ofNat value :: out, none)
      else (out, some ⟨p.count - 1, value, 0x80, 0xBF⟩)
    else startByte (replacement :: out) b

def utf8 (data : List UInt8) : String :=
  match data.foldl utf8Step ([], none) with
  | (out, none) => String.ofList out.reverse
  | (out, some _) => String.ofList (replacement :: out).reverse

/-- Why bytes are not UTF-8, from a place on: the words for a run of `count` bytes at `start`. -/
def faultText (first : UInt8) (start count : Nat) (reason : String) : String :=
  if count == 1 then
    "'utf-8' codec can't decode byte 0x" ++ Text.hexDigits 2 first.toNat ++ " in position " ++ Nat.repr start ++
      ": " ++ reason
  else
    "'utf-8' codec can't decode bytes in position " ++ Nat.repr start ++ "-" ++ Nat.repr (start + count - 1) ++
      ": " ++ reason

/-- The first fault of bytes that should be UTF-8. `open_` holds the bytes of a character begun, with
its start and what it waits for. -/
def utf8FaultFrom : Nat → Option (UInt8 × Nat × Pending) → List UInt8 → Option String
  | p, some (first, start, _), [] => some (faultText first start (p - start) "unexpected end of data")
  | _, none, [] => none
  | p, none, b :: rest =>
    match startByte [] b.toNat with
    | (_, some pending) => utf8FaultFrom (p + 1) (some (b, p, pending)) rest
    | (_, none) =>
      if b.toNat < 0x80 then utf8FaultFrom (p + 1) none rest
      else some (faultText b p 1 "invalid start byte")
  | p, some (first, start, pending), b :: rest =>
    if pending.low ≤ b.toNat && b.toNat ≤ pending.high then
      if pending.count == 1 then utf8FaultFrom (p + 1) none rest
      else utf8FaultFrom (p + 1) (some (first, start, ⟨pending.count - 1, 0, 0x80, 0xBF⟩)) rest
    else some (faultText first start (p - start) "invalid continuation byte")

def utf8Fault? (data : List UInt8) : Option String := utf8FaultFrom 0 none data

def latin1 (data : List UInt8) : String := String.ofList (data.map fun b => Char.ofNat b.toNat)

def ascii (data : List UInt8) : String :=
  String.ofList (data.map fun b => if b.toNat < 128 then Char.ofNat b.toNat else replacement)

/-- The characters of the Windows Latin set between 0x80 and 0x9F; zero where there is none. -/
def windowsLatin : List Nat :=
  [0x20AC, 0, 0x201A, 0x0192, 0x201E, 0x2026, 0x2020, 0x2021, 0x02C6, 0x2030, 0x0160, 0x2039, 0x0152, 0,
    0x017D, 0, 0, 0x2018, 0x2019, 0x201C, 0x201D, 0x2022, 0x2013, 0x2014, 0x02DC, 0x2122, 0x0161, 0x203A,
    0x0153, 0, 0x017E, 0x0178]

def windows1252 (data : List UInt8) : String :=
  String.ofList (data.map fun b =>
    let n := b.toNat
    if 0x80 ≤ n && n ≤ 0x9F then
      match windowsLatin[n - 0x80]? with
      | some 0 | none => replacement
      | some m => Char.ofNat m
    else Char.ofNat n)

def units (big : Bool) : List UInt8 → List Nat × Bool
  | a :: b :: rest =>
    let (us, odd) := units big rest
    ((if big then a.toNat * 256 + b.toNat else b.toNat * 256 + a.toNat) :: us, odd)
  | [_] => ([], true)
  | [] => ([], false)

def unitChars : Option Nat → List Nat → List Char
  | none, [] => []
  | some _, [] => [replacement]
  | some h, u :: rest =>
    if 0xDC00 ≤ u && u ≤ 0xDFFF then
      Char.ofNat (0x10000 + (h - 0xD800) * 0x400 + (u - 0xDC00)) :: unitChars none rest
    else if 0xD800 ≤ u && u ≤ 0xDBFF then replacement :: unitChars (some u) rest
    else replacement :: Char.ofNat u :: unitChars none rest
  | none, u :: rest =>
    if 0xD800 ≤ u && u ≤ 0xDBFF then unitChars (some u) rest
    else if 0xDC00 ≤ u && u ≤ 0xDFFF then replacement :: unitChars none rest
    else Char.ofNat u :: unitChars none rest

def utf16 (big : Bool) (data : List UInt8) : String :=
  let (us, odd) := units big data
  String.ofList (unitChars none us ++ (if odd then [replacement] else []))

def canonicalName (name : String) : String :=
  String.ofList ((Text.lower name).toList.map fun c => if c.isAlphanum || c == '.' then c else '_')

def decoder? (name : String) : Option (List UInt8 → String) :=
  let n := canonicalName name
  if ["utf_8", "utf8", "u8", "utf", "cp65001", "utf8_ucs2", "utf8_ucs4"].contains n then some utf8
  else if n == "utf_8_sig" then some fun data =>
    utf8 (if [0xEF, 0xBB, 0xBF].isPrefixOf (data.map UInt8.toNat) then data.drop 3 else data)
  else if ["latin_1", "latin1", "latin", "l1", "iso_8859_1", "iso8859_1", "iso8859", "8859", "cp819", "ibm819",
      "iso_8859_1_1987", "iso_ir_100", "csisolatin1"].contains n then some latin1
  else if ["ascii", "us_ascii", "us", "646", "iso646_us", "ansi_x3.4_1968", "ansi_x3_4_1968", "cp367", "ibm367",
      "iso_646.irv_1991", "iso_ir_6", "csascii"].contains n then some ascii
  else if ["cp1252", "1252", "windows_1252"].contains n then some windows1252
  else if ["utf_16_le", "utf_16le", "unicodelittleunmarked"].contains n then some (utf16 false)
  else if ["utf_16_be", "utf_16be", "unicodebigunmarked"].contains n then some (utf16 true)
  else if ["utf_16", "utf16", "u16"].contains n then some fun data =>
    match data.map UInt8.toNat with
    | 0xFF :: 0xFE :: _ => utf16 false (data.drop 2)
    | 0xFE :: 0xFF :: _ => utf16 true (data.drop 2)
    | _ => utf16 false data
  else none

/-- The character set that a content type names: what follows the word and an equals sign. -/
def nameFrom : List Char → Option String
  | [] => none
  | c :: rest =>
    let cs := c :: rest
    let found : Option String :=
      if (Text.lower (String.ofList (cs.take 7))) == "charset" then
        match (cs.drop 7).dropWhile Text.isBlank with
        | '=' :: after =>
          let after := after.dropWhile Text.isBlank
          let after := match after with
            | '"' :: r | '\'' :: r => r
            | r => r
          let name := after.takeWhile fun c => !(Text.isBlank c || c == ';' || c == '"' || c == '\'')
          if name.isEmpty then none else some (String.ofList name)
        | _ => none
      else none
    match found with
    | some name => some name
    | none => nameFrom rest

def decode (data : List UInt8) (contentType : String) : String :=
  match (nameFrom contentType.toList).bind decoder? with
  | some f => f data
  | none => utf8 data

end Conductor.Charset
