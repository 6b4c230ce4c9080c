import WhileTyping.Text.Unprintable

/-!
# Quoted text

Text between double quotes. A quote, a backslash, the common control characters and NUL have a short
escape; every other unprintable character is written by its number in lower-case hexadecimal.
-/

namespace WhileTyping.Text

def escape (c : Char) : String :=
  if c = '"' then "\\\""
  else if c = '\\' then "\\\\"
  else if c = '\n' then "\\n"
  else if c = '\r' then "\\r"
  else if c = '\t' then "\\t"
  else if c = '\x00' then "\\0"
  else if isUnprintable c then
    "\\u\x7b" ++ String.ofList (Nat.toDigits 16 c.toNat) ++ "\x7d"
  else c.toString

def quote (s : String) : String :=
  "\"" ++ String.join (s.toList.map escape) ++ "\""

end WhileTyping.Text
