import Conductor.Text.Property

/-!
# Quoted texts

A text as it is shown inside a message: between quotes, with the quote, the
backslash, line breaks, tabs and every character without a printed form
escaped. Single quotes are used unless the text holds one and no double quote.
-/

set_option autoImplicit false

namespace Conductor.Text

def hexDigits (width n : Nat) : String :=
  let digits := Nat.toDigits 16 n
  String.ofList (List.replicate (width - digits.length) '0' ++ digits)

def quotedChar (quote c : Char) : String :=
  if c == quote || c == '\\' then String.ofList ['\\', c]
  else if c == '\n' then "\\n"
  else if c == '\r' then "\\r"
  else if c == '\t' then "\\t"
  else if isPrinted c then String.singleton c
  else if c.toNat < 0x100 then "\\x" ++ hexDigits 2 c.toNat
  else if c.toNat < 0x10000 then "\\u" ++ hexDigits 4 c.toNat
  else "\\U" ++ hexDigits 8 c.toNat

def quoteFor (s : String) : Char :=
  if s.toList.contains '\'' && !s.toList.contains '"' then '"' else '\''

def quoted (s : String) : String :=
  let quote := quoteFor s
  let body := s.toList.foldl (fun out c => out ++ quotedChar quote c) ""
  String.singleton quote ++ body ++ String.singleton quote

end Conductor.Text
