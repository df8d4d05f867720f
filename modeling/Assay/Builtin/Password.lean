/-
Module: Assay.Builtin.Password
Purpose: The rule on the strength of passwords: how many characters there must be, and how many of
  them uppercase letters, digits and special characters. Every requirement that is not met has a
  message.
Main exports: Builtin.Password, Builtin.Password.tally, Builtin.Password.check,
  Builtin.Password.rule
-/
import Assay.Rule.Catalog
import Assay.Unicode.Classes

namespace Assay.Builtin

/-- The rule, with its requirements. -/
structure Password where
  minLength : Nat := 7
  upper : Nat := 0
  digits : Nat := 0
  special : Nat := 0
deriving DecidableEq, Repr, Inhabited

namespace Password

/-- The rule that asks for a character of each class. -/
def strong (minLength : Nat) : Password :=
  ⟨minLength, 1, 1, 1⟩

/-- How many characters of a text have been counted, in all and of each class. -/
structure Tally where
  length : Nat := 0
  upper : Nat := 0
  digits : Nat := 0
  special : Nat := 0
deriving DecidableEq, Repr, Inhabited

/-- Counts one more character. Only the digits from 0 to 9 count as digits; a character that is
neither such a digit nor a letter is special. -/
def Tally.add (tally : Tally) (c : Char) : Tally :=
  let seen := { tally with
    length := tally.length + 1
    upper := if Unicode.isUppercase c then tally.upper + 1 else tally.upper }
  if c.isDigit then { seen with digits := seen.digits + 1 }
  else if Unicode.isAlphabetic c then seen
  else { seen with special := seen.special + 1 }

/-- The tally of a text, counted in one pass. -/
def tally (text : String) : Tally :=
  text.toList.foldl Tally.add {}

/-- A message with the number that is required. -/
def shortfall (text key : String) (required : Nat) : Message :=
  { text, key, args := [.ofSize required] }

/-- What is said of too few characters. -/
def lengthMessage (rule : Password) : Message :=
  shortfall "Must be at least \x7b0\x7d characters long."
    "validation.password.length" rule.minLength

/-- What is said of too few uppercase characters. -/
def upperMessage (rule : Password) : Message :=
  shortfall "Must contain at least \x7b0\x7d uppercase letter(s)." "validation.password.uppercase"
    rule.upper

/-- What is said of too few digits. -/
def digitMessage (rule : Password) : Message :=
  shortfall "Must contain at least \x7b0\x7d digit(s)." "validation.password.digit" rule.digits

/-- What is said of too few special characters. -/
def specialMessage (rule : Password) : Message :=
  shortfall "Must contain at least \x7b0\x7d special character(s)." "validation.password.special"
    rule.special

/-- The messages for the requirements that a password does not meet. Of an absent password only the
length is said. -/
def check (rule : Password) : Option String → List Message
  | none => [rule.lengthMessage]
  | some text =>
    let counted := tally text
    (if counted.length < rule.minLength then [rule.lengthMessage] else []) ++
    (if counted.upper < rule.upper then [rule.upperMessage] else []) ++
    (if counted.digits < rule.digits then [rule.digitMessage] else []) ++
    (if counted.special < rule.special then [rule.specialMessage] else [])

/-- Reports what a password lacks; a value that is no text counts as absent. -/
def rule (password : Password) : Rule :=
  .ofValue "Vec<Message>" fun value => .messages (password.check value.text?)

/-- Makes the rule from its four numbers. -/
def make : RuleFactory := fun args => do
  let defaults : Password := {}
  let minLength ← args.count? "password" "min_length"
  let upper ← args.count? "password" "required_upper"
  let digits ← args.count? "password" "required_digit"
  let special ← args.count? "password" "required_special"
  return Password.rule {
    minLength := minLength.getD defaults.minLength
    upper := upper.getD defaults.upper
    digits := digits.getD defaults.digits
    special := special.getD defaults.special }

/-- Makes the rule that asks for a character of each class. -/
def makeStrong : RuleFactory := fun args => do
  let defaults : Password := {}
  let minLength ← args.count? "strong_password" "min_length"
  return (strong (minLength.getD defaults.minLength)).rule

end Password

end Assay.Builtin
