/-!
# Reading arguments

The arguments of a program are bytes, since a command line need not be text. They are read by a
library of its own, which keeps them and hands them out piece by piece: when it is asked whether a
flag is there, what the command is, and what is left in the end. Such a reader is a parameter here.
What is relied on are a few laws of it, all of them stated by what is left.

A reader that keeps the arguments as a list has these laws.

## Main definitions

* `ArgumentReader`: the operations of a reader
* `helpFlags`: the spellings of the flag for help
* `ArgumentReader.Lawful`: the laws that are relied on
* `ArgumentReader.listed`: the reader that keeps the arguments as a list

## Main results

* `ArgumentReader.lawful_listed`: this reader is lawful
-/

namespace ScriptLint

/-! ## Bytes -/

/-- Comparing bytes decides whether they are equal. -/
instance instLawfulBEqBytes : LawfulBEq ByteArray where
  eq_of_beq {a b} h := by
    change (a.data == b.data) = true at h
    exact ByteArray.ext (eq_of_beq h)
  rfl {a} := beq_self_eq_true a.data

/-- Text is read back from its bytes. -/
theorem fromUTF8?_toUTF8 (text : String) : String.fromUTF8? text.toUTF8 = some text := by
  unfold String.fromUTF8?
  rw [String.toUTF8_eq_toByteArray, dif_pos text.isValidUTF8]
  rfl

theorem fromUTF8?_eq_none {bytes : ByteArray} (h : ¬ bytes.IsValidUTF8) :
    String.fromUTF8? bytes = none := by
  unfold String.fromUTF8?
  rw [dif_neg h]

/-! ## Readers -/

/-- A reader of arguments. -/
structure ArgumentReader where
  /-- What a reader keeps of the arguments. -/
  State : Type
  /-- Takes up the arguments of a program. -/
  load : List ByteArray → State
  /-- Takes a flag out, of which the spellings are given, and tells whether it was there. -/
  contains : List String → State → Bool × State
  /-- Takes the command out, if there is one. An error is told in words. -/
  subcommand : State → Except String (Option String × State)
  /-- The arguments that are left. -/
  finish : State → List ByteArray

/-- The spellings of the flag that asks for help. -/
def helpFlags : List String :=
  ["-h", "--help"]

namespace ArgumentReader

/-- The laws of a reader that are relied on. Flags are found by exact match. Otherwise the first
argument is the command, be it text or not, unless it is text that starts with a dash. -/
structure Lawful (reader : ArgumentReader) : Prop where
  /-- At first all arguments are left. -/
  finish_load (arguments : List ByteArray) : reader.finish (reader.load arguments) = arguments
  /-- The flag for help is found if an argument that is left is one of its spellings. -/
  contains_iff (state : reader.State) :
    (reader.contains helpFlags state).1 = true ↔
      ∃ flag ∈ helpFlags, flag.toUTF8 ∈ reader.finish state
  /-- If it is not found, nothing is taken out. -/
  finish_contains {state : reader.State} (h : (reader.contains helpFlags state).1 = false) :
    reader.finish (reader.contains helpFlags state).2 = reader.finish state
  /-- Without arguments there is no command. -/
  subcommand_nil {state : reader.State} (h : reader.finish state = []) :
    ∃ after, reader.subcommand state = .ok (none, after)
  /-- A text that starts with a dash is no command. -/
  subcommand_dash {state : reader.State} {text : String} {rest : List ByteArray}
    (h : reader.finish state = text.toUTF8 :: rest) (hdash : text.toList.head? = some '-') :
    ∃ after, reader.subcommand state = .ok (none, after)
  /-- Any other text is the command, and only what follows it is left. -/
  subcommand_text {state : reader.State} {text : String} {rest : List ByteArray}
    (h : reader.finish state = text.toUTF8 :: rest) (hdash : text.toList.head? ≠ some '-') :
    ∃ after, reader.subcommand state = .ok (some text, after) ∧ reader.finish after = rest
  /-- A command that is not text is an error. -/
  subcommand_bytes {state : reader.State} {first : ByteArray} {rest : List ByteArray}
    (h : reader.finish state = first :: rest) (hbytes : ¬ first.IsValidUTF8) :
    ∃ message, reader.subcommand state = .error message

/-! ## The reader that keeps a list -/

/-- Takes the first spelling of a flag that is there out of a list of arguments. -/
def takeFlag (flags : List String) (arguments : List ByteArray) : Bool × List ByteArray :=
  match flags.find? fun flag => flag.toUTF8 ∈ arguments with
  | some flag => (true, arguments.erase flag.toUTF8)
  | none => (false, arguments)

/-- Takes the command out of a list of arguments. -/
def takeCommand : List ByteArray → Except String (Option String × List ByteArray)
  | [] => .ok (none, [])
  | first :: rest =>
    match String.fromUTF8? first with
    | none => .error "argument is not a UTF-8 string"
    | some text =>
      if text.toList.head? = some '-' then .ok (none, first :: rest) else .ok (some text, rest)

/-- The reader that keeps the arguments as a list. -/
def listed : ArgumentReader where
  State := List ByteArray
  load := id
  contains := takeFlag
  subcommand := takeCommand
  finish := id

theorem takeFlag_iff {flags : List String} {arguments : List ByteArray} :
    (takeFlag flags arguments).1 = true ↔ ∃ flag ∈ flags, flag.toUTF8 ∈ arguments := by
  unfold takeFlag
  split
  · next flag hfind =>
    refine iff_of_true rfl ⟨flag, List.mem_of_find?_eq_some hfind, ?_⟩
    simpa using List.find?_some hfind
  · next hfind => simpa using List.find?_eq_none.mp hfind

theorem takeFlag_of_not_found {flags : List String} {arguments : List ByteArray}
    (h : (takeFlag flags arguments).1 = false) : (takeFlag flags arguments).2 = arguments := by
  unfold takeFlag at h ⊢
  split at h
  · cases h
  · rfl

theorem takeCommand_text (text : String) (rest : List ByteArray) :
    takeCommand (text.toUTF8 :: rest) =
      if text.toList.head? = some '-' then .ok (none, text.toUTF8 :: rest)
      else .ok (some text, rest) := by
  rw [takeCommand, fromUTF8?_toUTF8]

theorem takeCommand_bytes {first : ByteArray} (h : ¬ first.IsValidUTF8) (rest : List ByteArray) :
    takeCommand (first :: rest) = .error "argument is not a UTF-8 string" := by
  rw [takeCommand, fromUTF8?_eq_none h]

/-- **The reader that keeps the arguments as a list is lawful.** -/
theorem lawful_listed : listed.Lawful where
  finish_load _ := rfl
  contains_iff _ := takeFlag_iff
  finish_contains := takeFlag_of_not_found
  subcommand_nil {arguments} h := by
    obtain rfl : arguments = [] := h
    exact ⟨[], rfl⟩
  subcommand_dash {arguments text rest} h hdash := by
    obtain rfl : arguments = text.toUTF8 :: rest := h
    exact ⟨text.toUTF8 :: rest, (takeCommand_text text rest).trans (if_pos hdash)⟩
  subcommand_text {arguments text rest} h hdash := by
    obtain rfl : arguments = text.toUTF8 :: rest := h
    exact ⟨rest, (takeCommand_text text rest).trans (if_neg hdash), rfl⟩
  subcommand_bytes {arguments first rest} h hbytes := by
    obtain rfl : arguments = first :: rest := h
    exact ⟨_, takeCommand_bytes hbytes rest⟩

end ArgumentReader

end ScriptLint
