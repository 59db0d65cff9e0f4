/-!
# Blank characters

The characters of the Unicode property `White_Space`, and text without blanks at either end.

## Main definitions

* `isBlank`: the property, as its twenty-five code points
* `trim`: the text between the first and the last character that is not blank
-/

namespace ScriptLint.Text

/-- A character of the Unicode property `White_Space`. -/
def isBlank (c : Char) : Bool :=
  let code := c.toNat
  (0x09 ≤ code && code ≤ 0x0D) || code == 0x20 || code == 0x85 || code == 0xA0 ||
    code == 0x1680 || (0x2000 ≤ code && code ≤ 0x200A) || code == 0x2028 || code == 0x2029 ||
    code == 0x202F || code == 0x205F || code == 0x3000

/-- The text without the blanks before its first and after its last other character. -/
def trim (cs : List Char) : List Char :=
  ((cs.dropWhile isBlank).reverse.dropWhile isBlank).reverse

example : trim " \t\u00a0a b\u3000\n".toList = "a b".toList := by decide

example : trim "\u200b".toList = "\u200b".toList := by decide

end ScriptLint.Text
