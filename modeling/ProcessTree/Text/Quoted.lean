-- Quoted text: a text in double quotes, with the characters that would not show
-- written as codes.
import ProcessTree.Text.Numeral
import ProcessTree.Text.Unseen
import ProcessTree.Text.Utf8

namespace ProcessTree.Quoted

/-- The code of a character: its number in braces. -/
def code (c : Char) : String := "\\u\x7b" ++ Numeral.hex c.toNat ++ "\x7d"

/-- A character as it stands between quotes. -/
def character (c : Char) : String :=
  if c = '\x00' then "\\0"
  else if c = '\t' then "\\t"
  else if c = '\n' then "\\n"
  else if c = '\r' then "\\r"
  else if c = '"' then "\\\""
  else if c = '\\' then "\\\\"
  else if Text.isUnseen c then code c
  else c.toString

/-- A byte as it stands between quotes where no character can be read. -/
def byte (b : UInt8) : String :=
  let digits := (Nat.toDigits 16 b.toNat).map Char.toUpper
  "\\x" ++ String.ofList (List.replicate (2 - digits.length) '0' ++ digits)

/-- A text in quotes. -/
def ofText (text : String) : String :=
  "\"" ++ String.join (text.toList.map character) ++ "\""

/-- A stretch of bytes as it stands between quotes. -/
def piece : Utf8.Piece → String
  | .char c => character c
  | .broken bytes => String.join (bytes.map byte)

/-- Bytes in quotes, read as UTF-8 as far as they are. -/
def ofBytes (bytes : Bytes) : String :=
  "\"" ++ String.join ((Utf8.pieces bytes).map piece) ++ "\""

end ProcessTree.Quoted
