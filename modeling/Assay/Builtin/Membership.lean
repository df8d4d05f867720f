/-
Module: Assay.Builtin.Membership
Purpose: The rule that a value must be one of the members of an enumeration. Texts and members are
  compared by name, integers count the members from zero.
Main exports: Builtin.Membership, Builtin.Membership.admits, Builtin.Membership.rule
-/
import Assay.Rule.Catalog

namespace Assay.Builtin

/-- The rule, with the members it admits. -/
structure Membership where
  members : List String
deriving DecidableEq, Repr

namespace Membership

/-- Whether a value is absent or a member. -/
def admits (rule : Membership) : Value → Bool
  | .null => true
  | .text name | .member name => rule.members.contains name
  | .integer position => 0 ≤ position.toInt && position.toInt < rule.members.length
  | _ => false

/-- What is said of a value that is no member. -/
def message (rule : Membership) : Message :=
  { text := "Value must be one of: \x7b0\x7d."
    key := "validation.in_enum"
    args := [.text (", ".intercalate rule.members)] }

/-- Reports a value that is no member. -/
def rule (membership : Membership) : Rule :=
  .ofValue "Option<Message>" fun value =>
    if membership.admits value then .nothing else .message (some membership.message)

/-- Makes the rule from the list of its variants, which must be given. -/
def make : RuleFactory := fun args =>
  match args.names? "in_enum" "variants" with
  | .error error => .error error
  | .ok none => .error (.invalidArgument "in_enum" "variants" .missing)
  | .ok (some members) => .ok (Membership.mk members).rule

end Membership

end Assay.Builtin
