/-
Module: Assay.Message.Basic
Purpose: Messages, the single findings of a validation: a text with numbered placeholders, the key
  under which it is put into the reader's language, and the arguments that fill the placeholders. A
  placeholder is a number in braces below the number of arguments; whatever else stands in braces is
  text, and so is all of an argument once it is filled in.
Main exports: MessageArg, Message, Message.render, Message.renderChars
-/
import Assay.Decimal.Layout
import Assay.Text.Quoted
import Assay.Text.Scan

namespace Assay

inductive MessageArg where
  | null
  | bool (value : Bool)
  | int (value : Int64)
  | float (value : Float)
  | text (chars : String)
deriving BEq, Inhabited

namespace MessageArg

/-- A size as an argument: an integer where 64 signed bits hold it, and the nearest float beyond. -/
def ofSize (size : Nat) : MessageArg :=
  if (size : Int) ≤ Int64.maxValue.toInt then .int (Int64.ofNat size)
  else .float (UInt64.ofNat size).toFloat

def ofOption : Option MessageArg → MessageArg
  | some arg => arg
  | none => .null

/-- The text that an argument puts into a message. -/
def toString : MessageArg → String
  | .null => "null"
  | .bool value => if value then "true" else "false"
  | .int value => ToString.toString value.toInt
  | .float value => Decimal.Layout.plain.render value
  | .text chars => chars

instance : ToString MessageArg := ⟨toString⟩

def describe : MessageArg → String
  | .null => "Null"
  | .bool value => "Bool(" ++ (if value then "true" else "false") ++ ")"
  | .int value => "Int(" ++ ToString.toString value.toInt ++ ")"
  | .float value => "Float(" ++ Decimal.Layout.detailed.render value ++ ")"
  | .text chars => "Str(" ++ Text.quoted chars ++ ")"

end MessageArg

/-- A finding. -/
structure Message where
  /-- The text, with its placeholders. -/
  text : String
  /-- The key under which the text is found in other languages. -/
  key : String
  /-- The arguments, by position. -/
  args : List MessageArg := []
deriving BEq, Inhabited

namespace Message

def withArg (message : Message) (arg : MessageArg) : Message :=
  { message with args := message.args ++ [arg] }

/-! ### Placeholders -/

/-- The index between the braces of a placeholder: decimal digits, with or without a plus sign in
front, and a number of 64 bits. -/
def index? (inside : List Char) : Option Nat :=
  let digits := match inside with
    | '+' :: digits => digits
    | digits => digits
  if digits ≠ [] ∧ digits.all Char.isDigit ∧ Text.natOfDigits digits < UInt64.size then
    some (Text.natOfDigits digits)
  else none

/-- The argument that the placeholder at the front of a text stands for, and the text behind it; the
opening brace is already taken off. -/
def placeholder? (args : List MessageArg) (text : List Char) : Option (MessageArg × List Char) :=
  match text.dropWhile (· ≠ '\x7d') with
  | [] => none
  | _ :: rest =>
    match index? (text.takeWhile (· ≠ '\x7d')) with
    | none => none
    | some index => args[index]?.map (·, rest)

/-- A placeholder takes at least its closing brace off the text. -/
theorem length_lt_of_placeholder? {args : List MessageArg} {text rest : List Char}
    {arg : MessageArg} (found : placeholder? args text = some (arg, rest)) :
    rest.length < text.length := by
  have shorter := (List.dropWhile_suffix (l := text) (· ≠ '\x7d')).length_le
  unfold placeholder? at found
  split at found
  · simp at found
  · rename_i behind opened
    split at found
    · simp at found
    · simp only [Option.map_eq_some_iff, Prod.mk.injEq] at found
      obtain ⟨_, _, _, rfl⟩ := found
      rw [opened, List.length_cons] at shorter
      omega

/-- A text with its placeholders filled in, from left to right. -/
def renderChars (args : List MessageArg) (text : List Char) : List Char :=
  match text with
  | [] => []
  | c :: tail =>
    if c = '\x7b' then
      match _found : placeholder? args tail with
      | some (arg, rest) => arg.toString.toList ++ renderChars args rest
      | none => c :: renderChars args tail
    else c :: renderChars args tail
termination_by text.length
decreasing_by
  · have := length_lt_of_placeholder? _found
    simp only [List.length_cons]
    omega
  · simp
  · simp

/-- The text of a message with its placeholders filled in. -/
def render (message : Message) : String :=
  String.ofList (renderChars message.args message.text.toList)

instance : ToString Message := ⟨render⟩

def describe (message : Message) : String :=
  Text.record "Message" [
    ("text", Text.quoted message.text),
    ("key", Text.quoted message.key),
    ("args", Text.bracketed (message.args.map MessageArg.describe))]

end Message

end Assay
