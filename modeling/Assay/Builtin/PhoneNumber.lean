/-
Module: Assay.Builtin.PhoneNumber
Purpose: The rule that a text must be a phone number in international format: a plus sign and
  digits, of which the first is not zero.
Main exports: Builtin.PhoneNumber.isValid, Builtin.PhoneNumber.rule
-/
import Assay.Rule.Catalog
import Assay.Text.Scan

namespace Assay.Builtin.PhoneNumber

/-- The least number of bytes. -/
def minLength : Nat := 8

/-- The greatest number of bytes. -/
def maxLength : Nat := 16

/-- Whether characters are a plus sign, a digit other than zero, and digits. -/
def hasForm : List Char → Bool
  | '+' :: first :: rest => first.isDigit && first != '0' && rest.all Char.isDigit
  | _ => false

/-- Whether a text is a phone number. -/
def isValid (text : String) : Bool :=
  let length := Text.utf8Length text.toList
  minLength ≤ length && length ≤ maxLength && hasForm text.toList

/-- What is said of a text that is no phone number. -/
def message : Message :=
  { text := "Must be a phone number in international format (e.g. +14155551234)."
    key := "validation.phone_number" }

/-- What is said of a value: only texts are looked at. -/
def check (value : Value) : RuleOutput :=
  match value.text? with
  | some text => if isValid text then .nothing else .message (some message)
  | none => .nothing

/-- Reports a text that is no phone number. -/
def rule : Rule :=
  .ofValue "Option<Message>" check

/-- Makes the rule; it has no arguments. -/
def make : RuleFactory := fun _ => .ok rule

end Assay.Builtin.PhoneNumber
