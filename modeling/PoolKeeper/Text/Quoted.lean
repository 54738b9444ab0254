import PoolKeeper.Text.Hidden

/-!
# Quoted text

Text in double quotes for error messages: what could be mistaken or would not show is written by
its code point.

* `quotedChar`, `quoted`: a character and a text in quotes.
-/

namespace PoolKeeper.Text

/-- A number in hexadecimal, with small letters. -/
def hexText (n : Nat) : String := String.ofList (Nat.toDigits 16 n)

/-- A character between quotes. -/
def quotedChar (c : Char) : String :=
  match c with
  | '"' => "\\\""
  | '\\' => "\\\\"
  | '\n' => "\\n"
  | '\r' => "\\r"
  | '\t' => "\\t"
  | '\x00' => "\\0"
  | c => if isHidden c then "\\u\x7b" ++ hexText c.toNat ++ "\x7d" else c.toString

/-- A text in quotes. -/
def quoted (s : String) : String := "\"" ++ String.join (s.toList.map quotedChar) ++ "\""

end PoolKeeper.Text
