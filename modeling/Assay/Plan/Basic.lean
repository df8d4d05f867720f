/-
Module: Assay.Plan.Basic
Purpose: Plans, from which objects of a type are validated without looking at its description again:
  the services to ask for, the calls of every field in the order in which they run, and the hooks.
Main exports: PlannedCall, FieldPlan, TypePlan, TypePlan.ofModel
-/
import Assay.Model
import Assay.Plan.Shape
import Assay.Plan.Slots

namespace Assay

structure PlannedCall where
  /-- The identifier, or the name of a routine. -/
  id : String
  rule : Rule
  shape : ReturnShape
  /-- Where the arguments come from, one for each declared parameter. -/
  arguments : List Argument

def PlannedCall.describe (call : PlannedCall) : String :=
  Text.record "PlannedCall" [
    ("rule", Text.quoted call.id),
    ("shape", call.shape.describe),
    ("args", Text.bracketed (call.arguments.map Argument.describe))]

structure FieldPlan where
  name : String
  groups : List (List PlannedCall)
  /-- The type of the object that the field holds, if it is validated by its own plan. -/
  nested : Option TypeKey
  /-- How many field outcomes the rules of the field are given room for. -/
  childCapacity : Nat

namespace FieldPlan

def calls (field : FieldPlan) : List PlannedCall :=
  field.groups.flatten

/-- Whether a call may have to be waited for. -/
def isSuspendable (field : FieldPlan) : Bool :=
  field.calls.any (·.shape.isSuspendable)

end FieldPlan

structure TypePlan where
  type : TypeKey
  name : String
  /-- Whether an object is left at its first failure. -/
  failFast : Bool
  /-- Whether rules were added that follow from declarations. -/
  autoRules : Bool
  fields : List FieldPlan
  before : Option PlannedCall
  after : Option PlannedCall
  dependencies : List Dependency

namespace TypePlan

def hooks (plan : TypePlan) : List PlannedCall :=
  plan.before.toList ++ plan.after.toList

/-- Whether no rule may have to be waited for. -/
def isSynchronous (plan : TypePlan) : Bool :=
  !plan.fields.any FieldPlan.isSuspendable && plan.hooks.all (!·.shape.isSuspendable)

def nestedTypes (plan : TypePlan) : List TypeKey :=
  plan.fields.filterMap FieldPlan.nested

/-- The number of calls, hooks included. -/
def callCount (plan : TypePlan) : Nat :=
  plan.fields.foldr (fun field count => field.calls.length + count) 0 + plan.hooks.length

end TypePlan

/-! ### Planning -/

namespace BoundRule

/-- Plans a rule, with slots for the services it declares. -/
def plan (bound : BoundRule) (slots : DependencySlots) :
    Except CompileError (PlannedCall × DependencySlots) :=
  match slots.arguments bound.id bound.signature.parameters with
  | (.error error, _) => .error error
  | (.ok arguments, slots) =>
    .ok (⟨bound.id, bound.rule, .classify bound.signature.returns, arguments⟩, slots)

/-- Plans rules one after the other. -/
def planAll (slots : DependencySlots) :
    List BoundRule → Except CompileError (List PlannedCall × DependencySlots)
  | [] => .ok ([], slots)
  | bound :: more => do
    let (call, slots) ← bound.plan slots
    let (calls, slots) ← planAll slots more
    return (call :: calls, slots)

/-- Plans a hook, if there is one. -/
def planHook (slots : DependencySlots) :
    Option BoundRule → Except CompileError (Option PlannedCall × DependencySlots)
  | none => .ok (none, slots)
  | some bound => do
    let (call, slots) ← bound.plan slots
    return (some call, slots)

end BoundRule

namespace FieldPlan

/-- Calls by group, in their order within a group. -/
def grouped (calls : List PlannedCall) : List (List PlannedCall) :=
  (List.range ReturnShape.groupCount).map fun group =>
    calls.filter fun call => call.shape.group == group

/-- Whether some call may add field outcomes: one of the first group, where every call may, or one of
those that may have to be waited for. -/
def composes (groups : List (List PlannedCall)) : Bool :=
  !(groups.getD 0 []).isEmpty || (groups.drop 3).flatten.any (·.shape.contribution == .outcome)

/-- The plan of a field with these calls. Calls that may add field outcomes are given room for as many as
`room`. -/
def ofCalls (field : FieldModel) (calls : List PlannedCall) (room : Nat) : FieldPlan where
  name := field.name
  groups := grouped calls
  nested := field.nested
  childCapacity := if composes (grouped calls) then room else 0

/-- Plans fields one after the other. -/
def planAll (room : Nat) (slots : DependencySlots) :
    List FieldModel → Except CompileError (List FieldPlan × DependencySlots)
  | [] => .ok ([], slots)
  | field :: more => do
    let (calls, slots) ← BoundRule.planAll slots field.rules
    let (fields, slots) ← planAll room slots more
    return (ofCalls field calls room :: fields, slots)

end FieldPlan

/-- Plans a type: first the hook before the fields, then the fields, then the hook after them. -/
def TypePlan.ofModel (model : TypeModel) (type : TypeKey) (fieldMessageCapacity : Nat) :
    Except CompileError TypePlan := do
  let (before, slots) ← BoundRule.planHook {} model.before
  let (fields, slots) ← FieldPlan.planAll fieldMessageCapacity slots model.fields
  let (after, slots) ← BoundRule.planHook slots model.after
  return {
    type
    name := model.name
    failFast := model.failFast
    autoRules := model.autoRules
    fields
    before
    after
    dependencies := slots.dependencies }

end Assay
