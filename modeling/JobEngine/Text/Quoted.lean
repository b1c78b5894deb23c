-- SUMMARY: Texts in double quotes with escapes, as error messages show them.
import JobEngine.Text.Hex

/-!
# Quoted texts

`displayQuoted` puts a text between double quotes so that it can be shown inside a message: quotes,
backslashes and characters that cannot be seen are escaped.
-/

namespace JobEngine

/-- Characters that do not show: controls, formatting characters and private use. -/
def isInvisible (c : Char) : Bool :=
  let n := c.toNat
  n < 0x20 || (0x7f ≤ n && n < 0xa0) || n == 0xad || (0x200b ≤ n && n ≤ 0x200f) ||
    (0x2028 ≤ n && n ≤ 0x202e) || (0x2060 ≤ n && n ≤ 0x206f) || (0xe000 ≤ n && n ≤ 0xf8ff) ||
    n == 0xfeff || (0x300 ≤ n && n ≤ 0x36f)

/-- A character of a quoted text. -/
def displayEscape (c : Char) : List Char :=
  match c with
  | '"' => ['\\', '"']
  | '\\' => ['\\', '\\']
  | '\n' => ['\\', 'n']
  | '\r' => ['\\', 'r']
  | '\t' => ['\\', 't']
  | '\x00' => ['\\', '0']
  | c => if isInvisible c then "\\u\x7b".toList ++ Nat.toDigits 16 c.toNat ++ "\x7d".toList else [c]

/-- The text between double quotes. -/
def displayQuoted (s : String) : String :=
  String.ofList ('"' :: s.toList.flatMap displayEscape ++ ['"'])

end JobEngine
