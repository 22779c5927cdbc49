import DriveChain.Text.Hidden

/-!
# Quoted texts

A text that a message quotes stands between double quotes. In it quotes, backslashes and characters
that are hidden are escaped, so that two texts which look alike are told apart.
-/

namespace DriveChain

namespace Quotation

/-- A code point as an escape of hexadecimal digits. -/
def escape (n : Nat) : String :=
  "\\u\x7b" ++ String.ofList (Nat.toDigits 16 n) ++ "\x7d"

/-- A character inside a quoted text. -/
def char (c : Char) : String :=
  let n := c.toNat
  if c = '"' then "\\\""
  else if c = '\\' then "\\\\"
  else if n = 0 then "\\0"
  else if n = 9 then "\\t"
  else if n = 10 then "\\n"
  else if n = 13 then "\\r"
  else if n < 32 then escape n
  else if n < 127 then String.singleton c
  else if Hidden.isHidden c then escape n
  else String.singleton c

/-- A text between double quotes. -/
def text (s : String) : String :=
  "\"" ++ String.join (s.toList.map char) ++ "\""

end Quotation

end DriveChain
