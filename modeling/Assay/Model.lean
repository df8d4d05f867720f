/-
Module: Assay.Model
Purpose: Descriptions with everything looked up and read: the types of fields, the rules of the
  catalog with their signatures, the rules that follow from declarations, the routines of fields and
  the two hooks. Fields are read in their order, and the first fault ends the reading.
Main exports: BoundRule, FieldModel, TypeModel, TypeModel.ofDescriptor
-/
import Assay.Descriptor

namespace Assay

/-- A rule under its identifier, with its signature read. -/
structure BoundRule where
  /-- The identifier, or the name of a routine. -/
  id : String
  rule : Rule
  signature : ParsedSignature

namespace BoundRule

def ofRule (id : String) (rule : Rule) : Except CompileError BoundRule := do
  return ⟨id, rule, ← rule.signature.parse⟩

def describe (bound : BoundRule) : String :=
  Text.record "RuleRef" [
    ("id", Text.quoted bound.id), ("signature", bound.signature.describe)]

end BoundRule

structure FieldModel where
  name : String
  type : TypeName
  /-- Whether the value may be absent. -/
  nullable : Bool
  /-- The rules, in the order in which they were declared. -/
  rules : List BoundRule
  /-- The type of the object that the field holds, if it is validated by its own description. -/
  nested : Option TypeKey

structure TypeModel where
  name : String
  fields : List FieldModel
  before : Option BoundRule
  after : Option BoundRule
  /-- Whether an object of the type is left at its first failure. -/
  failFast : Bool
  /-- Whether rules are added that follow from declarations. -/
  autoRules : Bool

namespace FieldDescriptor

def hasRule (field : FieldDescriptor) (id : String) : Bool :=
  field.attachments.any fun attachment => attachment.rule == id

/-- The attachments that follow from the declaration: a value that may not be absent is required,
and one of an enumeration must be a member of it, unless such a rule is attached already. -/
def impliedAttachments (field : FieldDescriptor) (nullable : Bool) : List RuleAttachment :=
  (if !nullable && !field.hasRule "required" then [{ rule := "required" }] else []) ++
  (if field.members.isSome && !field.hasRule "in_enum" then [{ rule := "in_enum" }] else [])

/-- The arguments of an attachment; a membership without variants gets those of the field. -/
def argsOf (field : FieldDescriptor) (attachment : RuleAttachment) : RuleArgs :=
  match field.members with
  | some members =>
    if attachment.rule = "in_enum" ∧ (attachment.args.get? "variants").isNone then
      attachment.args.set "variants" (.list (members.map .text))
    else attachment.args
  | none => attachment.args

def bind (field : FieldDescriptor) (catalog : RuleCatalog) (attachment : RuleAttachment) :
    Except CompileError BoundRule := do
  match ← catalog.make? attachment.rule (field.argsOf attachment) with
  | some rule => BoundRule.ofRule attachment.rule rule
  | none => throw (.unknownRule field.name attachment.rule)

def routineName (field : FieldDescriptor) : String :=
  "validate_" ++ field.name

/-- The routine for a field, if the field has one and the type brings it along. -/
def customRule (field : FieldDescriptor) (descriptor : TypeDescriptor) :
    Except CompileError (List BoundRule) :=
  match if field.custom then descriptor.routine? field.routineName else none with
  | some rule => (BoundRule.ofRule field.routineName rule).map ([·])
  | none => .ok []

/-- The rules of a field that holds no object: those that follow from its declaration, those
attached, and its routine. -/
def rules (field : FieldDescriptor) (descriptor : TypeDescriptor) (catalog : RuleCatalog)
    (autoRules nullable : Bool) : Except CompileError (List BoundRule) := do
  let implied := if autoRules then field.impliedAttachments nullable else []
  let attached ← (implied ++ field.attachments).mapM (field.bind catalog)
  let custom ← field.customRule descriptor
  return attached ++ custom

/-- Reads a field. One that holds an object has no rules of its own. -/
def toModel (field : FieldDescriptor) (descriptor : TypeDescriptor) (catalog : RuleCatalog)
    (autoRules : Bool) : Except CompileError FieldModel := do
  let type ← TypeName.parse field.type
  let nullable := field.nullable || type.nullable
  let rules ← if field.nested.isSome then pure []
    else field.rules descriptor catalog autoRules nullable
  return { name := field.name, type, nullable, rules, nested := field.nested }

end FieldDescriptor

namespace TypeModel

def beforeName : String := "before_validate"

def afterName : String := "after_validate"

/-- Reads a hook, if the type brings it along. -/
def hook (descriptor : TypeDescriptor) (name : String) : Except CompileError (Option BoundRule) :=
  match descriptor.routine? name with
  | some rule => (BoundRule.ofRule name rule).map some
  | none => .ok none

/-- Reads fields in their order; the names in `seen` are taken. -/
def fieldsOf (descriptor : TypeDescriptor) (catalog : RuleCatalog) (autoRules : Bool)
    (seen : List String) : List FieldDescriptor → Except CompileError (List FieldModel)
  | [] => .ok []
  | field :: fields => do
    if seen.contains field.name then throw (.duplicateField descriptor.name field.name)
    let model ← field.toModel descriptor catalog autoRules
    return model :: (← fieldsOf descriptor catalog autoRules (field.name :: seen) fields)

/-- Reads a description: the fields in their order, then the two hooks. -/
def ofDescriptor (descriptor : TypeDescriptor) (catalog : RuleCatalog) (options : Options) :
    Except CompileError TypeModel := do
  let autoRules := descriptor.settings.autoRules.getD options.autoRules
  let failFast := descriptor.settings.failFast.getD options.failFast
  let fields ← fieldsOf descriptor catalog autoRules [] descriptor.fields
  let before ← hook descriptor beforeName
  let after ← hook descriptor afterName
  return { name := descriptor.name, fields, before, after, failFast, autoRules }

end TypeModel

end Assay
