/-
Module: Assay.RuleArgs
Purpose: The named constants that a rule is attached with, in the order in which their names first
  came. Setting a name again replaces its value and moves nothing.
Main exports: RuleArgs, RuleArgs.set, RuleArgs.get?, RuleArgs.count?, RuleArgs.names?
-/
import Assay.Constant.Basic
import Assay.Entries
import Assay.Error

namespace Assay

structure RuleArgs where
  /-- Names and values, in the order in which the names first came. -/
  entries : List (String × Constant) := []

namespace RuleArgs

instance : EmptyCollection RuleArgs := ⟨⟨[]⟩⟩

def size (args : RuleArgs) : Nat :=
  args.entries.length

def get? (args : RuleArgs) (name : String) : Option Constant :=
  args.entries.lookup name

def set (args : RuleArgs) (name : String) (value : Constant) : RuleArgs :=
  ⟨Entries.set name value args.entries⟩

def ofList (entries : List (String × Constant)) : RuleArgs :=
  entries.foldl (fun args entry => args.set entry.1 entry.2) ∅

/-- An optional count: an integer that is not negative. -/
def count? (args : RuleArgs) (rule name : String) : Except CompileError (Option Nat) :=
  match args.get? name with
  | none => .ok none
  | some (.integer value) =>
    if value.toInt < 0 then .error (.invalidArgument rule name .negative)
    else .ok (some value.toInt.toNat)
  | some other => .error (.invalidArgument rule name (.notInteger other.kind))

/-- The name that an item of a list of names gives: a text, or the variant of an enumeration. -/
def nameOf (rule name : String) : Constant → Except CompileError String
  | .text chars => .ok chars
  | .member _ variant => .ok variant
  | other => .error (.invalidArgument rule name (.notNames other.kind))

/-- An optional list of names. -/
def names? (args : RuleArgs) (rule name : String) : Except CompileError (Option (List String)) :=
  match args.get? name with
  | none => .ok none
  | some (.list items) => (items.mapM (nameOf rule name)).map some
  | some other => .error (.invalidArgument rule name (.notList other.kind))

end RuleArgs

end Assay
