/-
Module: Assay.Descriptor
Purpose: Descriptions of types: their fields, the rules attached to them, and the routines that a
  type brings along. Types stand in descriptions as texts, which are read when the description is
  compiled.
Main exports: RuleAttachment, Routine, FieldDescriptor, TypeDescriptor, Schema
-/
import Assay.Options
import Assay.Rule.Catalog

namespace Assay

structure RuleAttachment where
  rule : String
  args : RuleArgs := ∅

/-- A rule that a type brings along, for one of its fields or as a hook. -/
structure Routine where
  /-- The name, from which it follows when the routine runs. -/
  name : String
  rule : Rule

def Routine.describe (routine : Routine) : String :=
  Text.record "RoutineDescriptor" [
    ("name", Text.quoted routine.name),
    ("signature", routine.rule.signature.describe)]

structure FieldDescriptor where
  name : String
  /-- The text of the declared type. -/
  type : String
  /-- Whether the value may be absent, whatever the type says. -/
  nullable : Bool := false
  attachments : List RuleAttachment := []
  /-- Whether the type brings along a routine for the field. -/
  custom : Bool := false
  /-- The type of the object that the field holds, if it is validated by its own description. -/
  nested : Option TypeKey := none
  /-- The members of the enumeration that the field holds, if it holds one. -/
  members : Option (List String) := none

/-- The description of a field that holds an object of that type. -/
def FieldDescriptor.ofNested (name : String) (type : TypeKey) : FieldDescriptor :=
  { name, type := type.simpleName, nested := some type }

structure TypeDescriptor where
  name : String
  /-- The fields, in the order in which they are validated. -/
  fields : List FieldDescriptor := []
  routines : List Routine := []
  /-- What the type sets for itself. -/
  settings : TypeSettings := {}

namespace TypeDescriptor

def routine? (descriptor : TypeDescriptor) (name : String) : Option Rule :=
  (descriptor.routines.find? fun routine => routine.name == name).map Routine.rule

def nestedTypes (descriptor : TypeDescriptor) : List TypeKey :=
  descriptor.fields.filterMap FieldDescriptor.nested

end TypeDescriptor

structure Schema where
  types : List (TypeKey × TypeDescriptor) := []

/-- The description of a type. A type that the family does not describe has no fields. -/
def Schema.describe (schema : Schema) (type : TypeKey) : TypeDescriptor :=
  (schema.types.lookup type).getD { name := type.simpleName }

end Assay
