/-
Module: Assay.Run.Object
Purpose: The validation of an object by its plan: the services, the hook before the fields, the
  fields group by group, the objects that fields hold, and the hook after them. Where the plan says
  so, the first failure ends the object. Whatever stops a validation, the outcomes at hand are
  released.
Main exports: Run.onField, Run.onNext, Run.onFields, Run.onContents, Run.onObject, Object.run
-/
import Assay.Run.Output

namespace Assay

/-- The validation of an object that a field holds, by its plan and in its context. -/
abbrev Descent := TypePlan → Context → Run Outcome

namespace Run

/-! ### Fields -/

/-- Makes the calls of a group, each on what the one before left. -/
def onGroup (env : Environment) (scope : Scope) (value : Value) (outcome : Outcome)
    (calls : List PlannedCall) (into : Outcome) : Run Outcome :=
  calls.foldlM (fun into call => holding into (invoke env scope value outcome call into)) into

/-- Makes the calls of the groups in order, up to the first failing group if the plan is strict. -/
def onGroups (env : Environment) (scope : Scope) (failFast : Bool) (value : Value)
    (outcome : Outcome) : List (List PlannedCall) → Outcome → Run Outcome
  | [], into => pure into
  | group :: groups, into => do
    let into ← onGroup env scope value outcome group into
    if failFast && !into.isSuccess then return into
    onGroups env scope failFast value outcome groups into

/-- The plan of the object that a field holds, if it is validated by its own plan. -/
def nestedPlan (env : Environment) (field : FieldPlan) : Run (Option TypePlan) :=
  match field.nested with
  | none => pure none
  | some type =>
    match env.planOf type with
    | .ok plan => pure (some plan)
    | .error error => throw (.error (.compile error))

/-- Validates the object that a field holds, and merges what comes of it under the field's name. -/
def onNested (field : FieldPlan) (context : Context) (plan : Option TypePlan)
    (descent : Option Descent) (into : Outcome) : Run Outcome :=
  match plan, descent with
  | some plan, some descent => do
    let child ← holding into (descent plan context)
    merge into child (some field.name)
  | _, _ => pure into

/-- Validates a field: first by its rules, then by the plan of the object that it holds. -/
def onField (env : Environment) (scope : Scope) (failFast : Bool) (outcome : Outcome)
    (descent : Option Descent) (field : FieldPlan) : Run FieldOutcome := do
  let nested ← nestedPlan env field
  let room := (nested.map (·.fields.length)).getD field.childCapacity
  let fresh ← withPools (·.createField field.name room)
  let value := scope.target.field field.name
  let content ← onGroups env scope failFast value outcome field.groups fresh.outcome
  if failFast && !content.isSuccess then return ⟨field.name, content⟩
  let content ← onNested field scope.context nested descent content
  return ⟨field.name, content⟩

/-- Validates the next field of an object, unless the validation is cancelled. -/
def onNext (env : Environment) (scope : Scope) (failFast : Bool) (outcome : Outcome)
    (descent : String → Option Descent) (field : FieldPlan) : Run FieldOutcome :=
  holding outcome do
    checkpoint (.field field.name)
    let inside := { scope with context := scope.context.enterField field.name }
    onField env inside failFast outcome (descent field.name) field

/-- Validates fields in order and attaches what comes of each. The second part of the result tells
whether a failing field ended the object. -/
def onFields (env : Environment) (scope : Scope) (failFast : Bool)
    (descent : String → Option Descent) : List FieldPlan → Outcome → Run (Outcome × Bool)
  | [], outcome => pure (outcome, false)
  | field :: fields, outcome => do
    let result ← onNext env scope failFast outcome descent field
    let outcome ← attach outcome result
    if failFast && !result.isSuccess then return (outcome, true)
    onFields env scope failFast descent fields outcome

/-! ### Objects -/

/-- Runs a hook on the object itself; what it adds is collected apart and merged when it is done. -/
def onHook (env : Environment) (scope : Scope) (plan : TypePlan) (hook : Option PlannedCall)
    (outcome : Outcome) : Run Outcome :=
  match hook with
  | none => pure outcome
  | some call => do
    let scratch ← holding outcome do
      let scratch ← withPools (·.create plan.fields.length)
      holding scratch (invoke env scope (.object scope.target) outcome call scratch)
    merge outcome scratch none

/-- Runs the hook before the fields of an object, validates the fields, and runs the hook after them.
What is found is added to `outcome`. -/
def onContents (env : Environment) (scope : Scope) (descent : String → Option Descent)
    (plan : TypePlan) (outcome : Outcome) : Run Outcome := do
  let outcome ← onHook env scope plan plan.before outcome
  if plan.failFast && !outcome.isSuccess then return outcome
  let (outcome, ended) ← onFields env scope plan.failFast descent plan.fields outcome
  if ended then return outcome
  onHook env scope plan plan.after outcome

/-- Validates an object, given how the objects in its fields are validated. -/
def onObject (env : Environment) (descent : String → Option Descent) (target : Object)
    (plan : TypePlan) (context : Context) : Run Outcome := do
  checkpoint (.object plan.type)
  let services ← plan.dependencies.mapM (lookup env)
  let outcome ← withPools (·.create plan.fields.length)
  onContents env ⟨target, services, context.enterType plan.name⟩ descent plan outcome

end Run

mutual

def Object.run (env : Environment) : Object → Descent
  | .mk type fields =>
    Run.onObject env (fun name => (runFields env fields).lookup name |>.join) (.mk type fields)
termination_by structural object => object

/-- How the values of fields are validated, by name. -/
def runFields (env : Environment) : List (String × Value) → List (String × Option Descent)
  | [] => []
  | (name, value) :: fields => (name, value.run? env) :: runFields env fields
termination_by structural fields => fields

/-- How a value is validated, if it is an object. -/
def Value.run? (env : Environment) : Value → Option Descent
  | .object held => some (held.run env)
  | _ => none
termination_by structural value => value

end

/-- How the object in a field is validated is found under the field's name. -/
theorem lookup_runFields (env : Environment) (fields : List (String × Value)) (name : String) :
    (runFields env fields).lookup name = (fields.lookup name).map (Value.run? env) := by
  induction fields with
  | nil => rfl
  | cons entry fields ih =>
    obtain ⟨label, value⟩ := entry
    simp only [runFields, List.lookup_cons]
    split <;> simp [ih]

/-- An object is validated by validating the objects in its fields. -/
theorem Object.run_eq (env : Environment) (object : Object) :
    object.run env = Run.onObject env (fun name => (object.field name).run? env) object := by
  obtain ⟨type, fields⟩ := object
  funext plan context
  have descents : (fun name => ((runFields env fields).lookup name).join) =
      fun name => ((Object.mk type fields).field name).run? env := by
    funext name
    rw [lookup_runFields]
    simp only [Object.field, Object.fields]
    cases fields.lookup name <;> rfl
  rw [Object.run, descents]

end Assay
