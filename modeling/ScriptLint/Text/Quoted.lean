import ScriptLint.Text.Printable

/-!
# Quoted text

Text between double quotes, with escapes for the quote, the backslash and the characters that
cannot be printed. Bytes that are not UTF-8 are shown by their value, each on its own.

## Main definitions

* `quoted`: a text between quotes
* `quotedBytes`: bytes between quotes, decoded where they are UTF-8
* `commaSeparated`, `quotedList`: texts joined by a comma and a space, and quoted between brackets
-/

namespace ScriptLint.Text

/-- One character as it stands between quotes. -/
def escape (c : Char) : List Char :=
  match c with
  | '\x00' => ['\\', '0']
  | '\t' => ['\\', 't']
  | '\n' => ['\\', 'n']
  | '\r' => ['\\', 'r']
  | '"' => ['\\', '"']
  | '\\' => ['\\', '\\']
  | c =>
    if isPrintable c then [c]
    else ['\\', 'u', '\x7b'] ++ Nat.toDigits 16 c.toNat ++ ['\x7d']

/-- A byte outside UTF-8 as it stands between quotes: its two hexadecimal digits. -/
def escapeByte (byte : UInt8) : List Char :=
  let digit (n : Nat) := (Nat.digitChar n).toUpper
  ['\\', 'x', digit (byte.toNat / 16), digit (byte.toNat % 16)]

/-- A text between double quotes. -/
def quoted (text : String) : String :=
  String.ofList ('"' :: text.toList.flatMap escape ++ ['"'])

/-- The bytes from a position on, as they stand between quotes. A character is escaped as in a
text, and a byte that starts no character by its value. -/
def escapeFrom (bytes : ByteArray) (start : Nat) : List Char :=
  if h : start < bytes.size then
    match bytes.utf8DecodeChar? start with
    | some c => escape c ++ escapeFrom bytes (start + c.utf8Size)
    | none => escapeByte bytes[start] ++ escapeFrom bytes (start + 1)
  else []
termination_by bytes.size - start
decreasing_by
  · have := c.utf8Size_pos
    omega
  · omega

/-- Bytes between double quotes. -/
def quotedBytes (bytes : ByteArray) : String :=
  String.ofList ('"' :: escapeFrom bytes 0 ++ ['"'])

/-- Texts joined by a comma and a space. -/
def commaSeparated (texts : List String) : String :=
  String.intercalate ", " texts

/-- Texts between brackets, each quoted. -/
def quotedList (texts : List String) : String :=
  "[" ++ commaSeparated (texts.map quoted) ++ "]"

example : quoted "a\"b\\c\n'" = "\"a\\\"b\\\\c\\n'\"" := by decide +kernel

example : quoted "\x1b" = "\"\\u\x7b1b\x7d\"" := by decide +kernel

end ScriptLint.Text
