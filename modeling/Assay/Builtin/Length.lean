/-
Module: Assay.Builtin.Length
Purpose: The rule that a text must not be too short or too long, in characters or in bytes of UTF-8.
Main exports: Builtin.Length, Builtin.Length.check, Builtin.Length.rule
-/
import Assay.Rule.Catalog
import Assay.Text.Scan

namespace Assay.Builtin

/-- What the length of a text is counted in. -/
inductive LengthUnit where
  /-- Bytes of UTF-8. -/
  | bytes
  | chars
deriving DecidableEq, Repr, Inhabited

/-- The length of a text. -/
def LengthUnit.measure (unit : LengthUnit) (text : List Char) : Nat :=
  match unit with
  | .bytes => Text.utf8Length text
  | .chars => text.length

/-- The rule, with its bounds. -/
structure Length where
  /-- The least length, if there is one. -/
  min : Option Nat := none
  /-- The greatest length, if there is one. -/
  max : Option Nat := none
  unit : LengthUnit := .chars
deriving DecidableEq, Repr, Inhabited

namespace Length

/-- What is said of a text shorter than `min`. -/
def shortMessage (min : Nat) : Message :=
  { text := "Must be at least \x7b0\x7d characters long."
    key := "validation.min_length"
    args := [.ofSize min] }

/-- What is said of a text longer than `max`. -/
def longMessage (max : Nat) : Message :=
  { text := "Must be at most \x7b0\x7d characters long."
    key := "validation.max_length"
    args := [.ofSize max] }

/-- What is said of a text, if its length is out of bounds; the lower bound comes first. -/
def check (rule : Length) (text : String) : Option Message :=
  let length := rule.unit.measure text.toList
  match rule.min.filter (length < ·), rule.max.filter (· < length) with
  | some min, _ => some (shortMessage min)
  | none, some max => some (longMessage max)
  | none, none => none

/-- Reports a text whose length is out of bounds. -/
def rule (length : Length) : Rule :=
  .ofValue "Option<Message>" fun value => .message (value.text?.bind length.check)

/-- The unit that an argument names. -/
def unit? : Option Constant → Option LengthUnit
  | none => some .chars
  | some (.text "chars") => some .chars
  | some (.text "bytes") => some .bytes
  | some _ => none

/-- Makes the rule from its bounds, which must be in order, and its unit. -/
def make : RuleFactory := fun args => do
  let min ← args.count? "length" "min"
  let max ← args.count? "length" "max"
  let ordered := match min, max with
    | some min, some max => min ≤ max
    | _, _ => true
  if !ordered then throw (.invalidArgument "length" "min" .aboveMax)
  match unit? (args.get? "mode") with
  | some unit => return Length.rule { min, max, unit }
  | none => throw (.invalidArgument "length" "mode" .unknownUnit)

end Length

end Assay.Builtin
