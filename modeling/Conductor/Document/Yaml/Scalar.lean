import Conductor.Tree.Shown

/-!
# Scalars of the outline format

What a plain scalar stands for: truth values, nothing, integers in four bases and
in base sixty, fractions, dates and times; everything else is text. The exponent of
a fraction needs its sign. The same rules tell the writer which texts need quotes.
-/

set_option autoImplicit false

namespace Conductor.Yaml

inductive ScalarType
  | text
  | bool
  | float
  | int
  | merge
  | null
  | timestamp
  | value
  deriving DecidableEq, Repr

def boolWords : List (String × Bool) :=
  [("yes", true), ("Yes", true), ("YES", true), ("no", false), ("No", false), ("NO", false),
    ("true", true), ("True", true), ("TRUE", true), ("false", false), ("False", false), ("FALSE", false),
    ("on", true), ("On", true), ("ON", true), ("off", false), ("Off", false), ("OFF", false)]

def isAscii09 (c : Char) : Bool := '0' ≤ c && c ≤ '9'
def isDigitOr_ (c : Char) : Bool := isAscii09 c || c == '_'

def dropSign : List Char → List Char
  | '-' :: rest | '+' :: rest => rest
  | cs => cs

/-- Groups of base sixty after the first: each a colon and one or two digits below sixty. -/
def sixtyGroups : Nat → List Char → Option (List Char)
  | 0, _ => none
  | fuel + 1, cs =>
    match cs with
    | ':' :: a :: b :: rest =>
      if '0' ≤ a && a ≤ '5' && isAscii09 b then more fuel rest
      else if isAscii09 a then more fuel (b :: rest) else none
    | [':', a] => if isAscii09 a then some [] else none
    | _ => none
where
  more (fuel : Nat) (rest : List Char) : Option (List Char) :=
    match rest with
    | ':' :: _ => sixtyGroups fuel rest
    | _ => some rest

def isInt (cs : List Char) : Bool :=
  match dropSign cs with
  | ['0'] => true
  | '0' :: 'b' :: ds => !ds.isEmpty && ds.all fun c => c == '0' || c == '1' || c == '_'
  | '0' :: 'x' :: ds => !ds.isEmpty && ds.all fun c => c == '_' || isAscii09 c || ('a' ≤ c && c ≤ 'f') || ('A' ≤ c && c ≤ 'F')
  | '0' :: ds => ds.all fun c => c == '_' || ('0' ≤ c && c ≤ '7')
  | c :: rest =>
    if '1' ≤ c && c ≤ '9' then
      match rest.dropWhile isDigitOr_ with
      | [] => true
      | after => sixtyGroups (after.length + 1) after == some []
    else false
  | [] => false

def isExponent : List Char → Bool
  | [] => true
  | e :: s :: ds => (e == 'e' || e == 'E') && (s == '+' || s == '-') && !ds.isEmpty && ds.all isAscii09
  | _ => false

def isFloat (cs : List Char) : Bool :=
  let unsigned := dropSign cs
  let word := String.ofList unsigned
  if word == ".inf" || word == ".Inf" || word == ".INF" then true
  else if String.ofList cs == ".nan" || String.ofList cs == ".NaN" || String.ofList cs == ".NAN" then true
  else match unsigned with
    | '.' :: d :: rest =>
      unsigned.length == cs.length && isAscii09 d && isExponent (rest.dropWhile isDigitOr_)
    | d :: rest =>
      isAscii09 d &&
        match rest.dropWhile isDigitOr_ with
        | '.' :: after => isExponent (after.dropWhile isDigitOr_)
        | ':' :: after =>
          match sixtyGroups (after.length + 2) (':' :: after) with
          | some ('.' :: fraction) => fraction.all isDigitOr_
          | _ => false
        | _ => false
    | [] => false

/-- The numbers of a date, and of a time if there is one: hour, minute, second, microsecond. -/
structure Stamp where
  year : Nat
  month : Nat
  day : Nat
  time : Option (List Nat × String)

def takeNat (least most : Nat) (cs : List Char) : Option (Nat × List Char) :=
  let ds := (cs.takeWhile isAscii09).take most
  if ds.length < least then none
  else some (ds.foldl (fun n c => n * 10 + (c.toNat - 48)) 0, cs.drop ds.length)

def expectChar (c : Char) : List Char → Option (List Char)
  | d :: rest => if d == c then some rest else none
  | [] => none

def zone? (cs : List Char) : Option String :=
  let cs := cs.dropWhile fun c => c == ' ' || c == '\t'
  match cs with
  | [] => some ""
  | ['Z'] => some "+00:00"
  | s :: rest =>
    if s == '+' || s == '-' then do
      let (h, rest) ← takeNat 1 2 rest
      let m ← match rest with
        | [] => some 0
        | ':' :: rest => do
          let (m, rest) ← takeNat 2 2 rest
          if rest.isEmpty then some m else none
        | _ => none
      let two (n : Nat) : String := if n < 10 then "0" ++ Nat.repr n else Nat.repr n
      return String.singleton s ++ two h ++ ":" ++ two m
    else none

def stamp? (cs : List Char) : Option Stamp := do
  let (year, rest) ← takeNat 4 4 cs
  let rest ← expectChar '-' rest
  let (month, afterMonth) ← takeNat 1 2 rest
  let rest' ← expectChar '-' afterMonth
  let (day, afterDay) ← takeNat 1 2 rest'
  if afterDay.isEmpty then
    if cs.length == 10 then some ⟨year, month, day, none⟩ else none
  else
    let rest ← match afterDay with
      | 'T' :: r | 't' :: r => some r
      | c :: _ => if c == ' ' || c == '\t' then some (afterDay.dropWhile fun c => c == ' ' || c == '\t') else none
      | [] => none
    let (hour, rest) ← takeNat 1 2 rest
    let rest ← expectChar ':' rest
    let (minute, rest) ← takeNat 2 2 rest
    let rest ← expectChar ':' rest
    let (second, rest) ← takeNat 2 2 rest
    let (fraction, rest) := match rest with
      | '.' :: r => (r.takeWhile isAscii09, r.dropWhile isAscii09)
      | r => ([], r)
    let zone ← zone? rest
    let six := (fraction.take 6) ++ List.replicate (6 - (fraction.take 6).length) '0'
    let micro := six.foldl (fun n c => n * 10 + (c.toNat - 48)) 0
    some ⟨year, month, day, some ([hour, minute, second, micro], zone)⟩

def resolve (s : String) : ScalarType :=
  let cs := s.toList
  if (boolWords.lookup s).isSome then .bool
  else if isFloat cs then .float
  else if isInt cs then .int
  else if s == "<<" then .merge
  else if s == "" || s == "~" || s == "null" || s == "Null" || s == "NULL" then .null
  else if (stamp? cs).isSome then .timestamp
  else if s == "=" then .value
  else .text

def digitsValue (base : Nat) (cs : List Char) : Option Nat :=
  if cs.isEmpty then none else
    cs.foldl (fun acc c => do
      let n ← acc
      let d ← if isAscii09 c then some (c.toNat - 48)
        else if 'a' ≤ c ∧ c ≤ 'f' then some (c.toNat - 87)
        else if 'A' ≤ c ∧ c ≤ 'F' then some (c.toNat - 55)
        else none
      if d < base then some (n * base + d) else none) (some 0)

def intValue (s : String) : Except Failure Int := do
  let cs := s.toList.filter (· != '_')
  let negative := cs.head? == some '-'
  let body := dropSign cs
  let size ← match body with
    | ['0'] => .ok 0
    | '0' :: 'b' :: ds => ofDigits 2 ds
    | '0' :: 'x' :: ds => ofDigits 16 ds
    | '0' :: ds => ofDigits 8 ds
    | _ =>
      if body.contains ':' then do
        let parts ← traverse (fun p => ofDigits 10 p.toList) (Text.pieces ":" (String.ofList body))
        .ok (parts.foldl (fun n p => n * 60 + p) 0)
      else if body.length > digitLimit then .error (.numeralBeyondLimit body.length)
      else ofDigits 10 body
  return if negative then -(size : Int) else size
where
  ofDigits (base : Nat) (ds : List Char) : Except Failure Nat :=
    match digitsValue base ds with
    | some n => .ok n
    | none => .error (.notAnInteger (Text.quoted (String.ofList ds)))

def floatValue (s : String) : Float :=
  let cs := (s.toList.filter (· != '_')).map Char.toLower
  let negative := cs.head? == some '-'
  let body := dropSign cs
  let size : Float :=
    if body == ".inf".toList then 1.0 / 0.0
    else if body == ".nan".toList then 0.0 / 0.0
    else if body.contains ':' then
      (Text.pieces ":" (String.ofList body)).foldl (fun acc p =>
        acc * 60.0 + ((Decimal.decimal? p.toList).map Decimal.Scientific.toFloat).getD 0.0) 0.0
    else ((Decimal.decimal? body).map Decimal.Scientific.toFloat).getD 0.0
  if negative then -size else size

def two (n : Nat) : String := if n < 10 then "0" ++ Nat.repr n else Nat.repr n

def isLeap (y : Nat) : Bool := (y % 4 == 0 && y % 100 != 0) || y % 400 == 0

def daysIn (year month : Nat) : Nat :=
  match month with
  | 4 | 6 | 9 | 11 => 30
  | 2 => if isLeap year then 29 else 28
  | _ => 31

def Stamp.value (t : Stamp) : Except Failure Tree :=
  if t.year == 0 then .error (.raised "ValueError" "year 0 is out of range")
  else if t.month == 0 || t.month > 12 then .error (.raised "ValueError" "month must be in 1..12")
  else if t.day == 0 || t.day > daysIn t.year t.month then
    .error (.raised "ValueError" "day is out of range for month")
  else
    let four := Text.padStart 4 '0' (Nat.repr t.year)
    let date := four ++ "-" ++ two t.month ++ "-" ++ two t.day
    let numbers := Nat.repr t.year ++ ", " ++ Nat.repr t.month ++ ", " ++ Nat.repr t.day
    match t.time with
    | none => .ok (.scalar (.foreign "date" date ("datetime.date(" ++ numbers ++ ")")))
    | some ([h, m, s, micro], zone) =>
      if h > 23 then .error (.raised "ValueError" "hour must be in 0..23")
      else if m > 59 then .error (.raised "ValueError" "minute must be in 0..59")
      else if s > 59 then .error (.raised "ValueError" "second must be in 0..59")
      else
        let fraction := if micro == 0 then "" else "." ++ Text.padStart 6 '0' (Nat.repr micro)
        let shown := date ++ " " ++ two h ++ ":" ++ two m ++ ":" ++ two s ++ fraction ++ zone
        .ok (.scalar (.foreign "datetime" shown ("datetime.datetime(" ++ numbers ++ ", " ++ Nat.repr h ++
          ", " ++ Nat.repr m ++ (if s == 0 && micro == 0 then "" else ", " ++ Nat.repr s) ++
          (if micro == 0 then "" else ", " ++ Nat.repr micro) ++ ")")))
    | some _ => .error (.malformedYaml "bad time")

def scalarValue (type : ScalarType) (s : String) : Except Failure Tree :=
  match type with
  | .text => .ok (.text s)
  | .bool =>
    match (boolWords.map fun w => (w.1.toLower, w.2)).lookup s.toLower with
    | some b => .ok (.bool b)
    | none => .error (.lookupFailed (Text.quoted s.toLower))
  | .null => .ok .absent
  | .int => do return .int (← intValue s)
  | .float => .ok (.float (floatValue s))
  | .merge => .ok (.text s)
  | .timestamp =>
    match stamp? s.toList with
    | some t => t.value
    | none => .error (.malformedYaml "bad timestamp")
  | .value => .error (.malformedYaml "could not determine a constructor for the tag")

end Conductor.Yaml
