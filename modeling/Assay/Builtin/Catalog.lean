/-
Module: Assay.Builtin.Catalog
Purpose: The rules that every catalog starts with, unless it starts empty.
Main exports: RuleCatalog.builtin
-/
import Assay.Builtin.Length
import Assay.Builtin.Membership
import Assay.Builtin.Password
import Assay.Builtin.PhoneNumber
import Assay.Builtin.Presence

namespace Assay

open Builtin

/-- The built-in rules. -/
def RuleCatalog.builtin : RuleCatalog :=
  ⟨[("required", makeRequired),
    ("in_enum", Membership.make),
    ("length", Length.make),
    ("password", Password.make),
    ("strong_password", Password.makeStrong),
    ("phone_number", PhoneNumber.make)]⟩

end Assay
