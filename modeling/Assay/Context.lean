/-
Module: Assay.Context
Purpose: Where a rule is evaluated: the type whose rule it is, the fields that lead to its value,
  and the values that the caller attached.
Main exports: Context, Context.attach, Context.fieldPath, Context.depth, Context.enterType,
  Context.enterField
-/
import Assay.Entries
import Assay.Payload
import Assay.Text.Quoted

namespace Assay

/-- The surroundings of a rule. -/
structure Context where
  /-- The values that the caller attached, by name. -/
  values : List (String × Payload) := []
  /-- The type that is validated, once one is. -/
  typeName : Option String := none
  /-- The fields that lead from the outermost object to the current value. -/
  path : List String := []
deriving DecidableEq, Repr, Inhabited

namespace Context

/-- Attaches a value under a name, in place of the one that was there. -/
def attach (context : Context) (name : String) (value : Payload) : Context :=
  { context with values := Entries.set name value context.values }

def value? (context : Context) (name : String) : Option Payload :=
  context.values.lookup name

def contains (context : Context) (name : String) : Bool :=
  (context.value? name).isSome

def field (context : Context) : Option String :=
  context.path.getLast?

/-- The fields that lead to the current value, joined by dots. -/
def fieldPath (context : Context) : String :=
  ".".intercalate context.path

/-- How many objects the current field is nested in, below the outermost one. -/
def depth (context : Context) : Nat :=
  context.path.length - 1

def enterType (context : Context) (type : String) : Context :=
  { context with typeName := some type }

def enterField (context : Context) (field : String) : Context :=
  { context with path := context.path ++ [field] }

def describe (context : Context) : String :=
  Text.record "ValidationContext" [
    ("type_name", Text.optional (context.typeName.map Text.quoted)),
    ("field_path", Text.quoted context.fieldPath),
    ("values", toString context.values.length)]

end Context

end Assay
