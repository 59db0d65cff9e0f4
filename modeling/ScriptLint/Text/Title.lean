import ScriptLint.Text.Blank

/-!
# Titles

The title of a check is its stable name made readable: the path before the last `::` and one
leading `Check` are dropped, and each ASCII capital starts a new word. So `net::CheckSocketLeak`
and `SocketLeak` both have the title `Socket Leak`.

## Main definitions

* `lastSegment`: what follows the last `::` of a name
* `withoutCheck`: a name without one leading `Check`
* `spaced`: a name with a space before each ASCII capital
* `title`: the title of a name
-/

namespace ScriptLint.Text

/-- What follows the last `::`, if there is one. -/
def afterLastPath : List Char → Option (List Char)
  | [] => none
  | c :: rest =>
    (afterLastPath rest).or <|
      match c, rest with
      | ':', ':' :: tail => some tail
      | _, _ => none

/-- What follows the last `::`, or the whole name if there is none. -/
def lastSegment (name : List Char) : List Char :=
  (afterLastPath name).getD name

/-- The name without one leading `Check`. -/
def withoutCheck : List Char → List Char
  | 'C' :: 'h' :: 'e' :: 'c' :: 'k' :: rest => rest
  | name => name

/-- The name with a space before each ASCII capital. -/
def spaced (name : List Char) : List Char :=
  name.flatMap fun c => if c.isUpper then [' ', c] else [c]

/-- The part of a name that its title shows: the last segment, without one leading `Check`. -/
def stem (name : String) : List Char :=
  withoutCheck (lastSegment name.toList)

/-- The title of a name: its stem with a space before each capital, and no blank at either end. -/
def title (name : String) : String :=
  String.ofList (trim (spaced (stem name)))

example : title "net::CheckSocketLeak" = "Socket Leak" := by decide +kernel

example : title "a:::b" = "b" := by decide +kernel

example : title "CheckCheck" = "Check" := by decide +kernel

end ScriptLint.Text
