/-
Module: Assay.Builtin.Presence
Purpose: The rule that a value must be there.
Main exports: Builtin.required
-/
import Assay.Rule.Catalog

namespace Assay.Builtin

/-- What is said of an absent value. -/
def absentMessage : Message :=
  { text := "Value is required.", key := "validation.required" }

/-- Reports a value that is absent. -/
def required : Rule :=
  .ofValue "Option<Message>" fun value =>
    .message (if value.isNull then some absentMessage else none)

/-- Makes the rule; it has no arguments. -/
def makeRequired : RuleFactory := fun _ => .ok required

end Assay.Builtin
