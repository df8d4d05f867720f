/-
Module: Assay.Rule.Catalog
Purpose: The rules that fields can be declared with, by identifier. A rule is made from the
  arguments of its attachment when the type is compiled, which is also when arguments are refused.
Main exports: RuleFactory, RuleCatalog, RuleCatalog.register, RuleCatalog.make?
-/
import Assay.Entries
import Assay.Rule.Basic
import Assay.RuleArgs

namespace Assay

/-- Makes a rule from the arguments it is attached with. -/
abbrev RuleFactory := RuleArgs → Except CompileError Rule

structure RuleCatalog where
  factories : List (String × RuleFactory) := []

namespace RuleCatalog

instance : EmptyCollection RuleCatalog := ⟨⟨[]⟩⟩

def register (catalog : RuleCatalog) (id : String) (factory : RuleFactory) : RuleCatalog :=
  ⟨Entries.set id factory catalog.factories⟩

def size (catalog : RuleCatalog) : Nat :=
  catalog.factories.length

def contains (catalog : RuleCatalog) (id : String) : Bool :=
  (catalog.factories.lookup id).isSome

/-- Makes the rule of that identifier, if there is one. -/
def make? (catalog : RuleCatalog) (id : String) (args : RuleArgs) :
    Except CompileError (Option Rule) :=
  match catalog.factories.lookup id with
  | some factory => (factory args).map some
  | none => .ok none

/-- A catalog as descriptions of values show it: its identifiers in order. -/
def describe (catalog : RuleCatalog) : String :=
  let ids := (catalog.factories.map Prod.fst).mergeSort (· ≤ ·)
  Text.record "RuleCatalog" [("rules", Text.bracketed (ids.map Text.quoted))]

end RuleCatalog

end Assay
