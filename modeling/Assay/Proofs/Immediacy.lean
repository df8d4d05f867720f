/-
Module: Assay.Proofs.Immediacy
Purpose: Where no plan has a call whose output may have to be waited for, it makes no difference whether
  a validation may wait. Each part of the executor does the same in both cases, whatever the rules
  answer, since an output that was not declared to come later is passed over.
Main exports: Environment.allowing, Immediate, Run.receive_allowing, Object.run_allowing
-/
import Assay.Proofs.Course
import Assay.Proofs.Synchrony

namespace Assay

/-- The same environment, in which outputs may be waited for or not. -/
def Environment.allowing (env : Environment) (mayWait : Bool) : Environment :=
  { env with mayWait }

/-- Plans without a call whose output may have to be waited for, and which lead to such plans only. -/
structure Immediate (env : Environment) (plans : TypePlan → Prop) : Prop where
  calls : ∀ plan, plans plan → ∀ call ∈ plan.calls, call.shape.delivery = .immediate
  nested : ∀ plan, plans plan → ∀ type ∈ plan.nestedTypes, ∀ inner, env.planOf type = .ok inner →
    plans inner

/-- A value is validated exactly if it is an object. -/
theorem Value.run?_cases (value : Value) :
    (∃ child, value = .object child ∧ ∀ env, value.run? env = some (child.run env)) ∨
      ∀ env, value.run? env = none := by
  cases value with
  | object child => exact .inl ⟨child, rfl, fun _ => rfl⟩
  | _ => exact .inr fun _ => rfl

namespace Run

variable {env : Environment} {plans : TypePlan → Prop} {scope : Scope} {value : Value}

/-! ### Calls -/

/-- An output that was not declared to come later is added or passed over at once. -/
theorem receive_allowing {call : PlannedCall} (immediate : call.shape.delivery = .immediate)
    (mayWait : Bool) (output : RuleOutput) (into : Outcome) :
    receive (env.allowing mayWait) call output into = receive env call output into := by
  simp only [receive, if_pos immediate]

theorem invoke_allowing {call : PlannedCall} (immediate : call.shape.delivery = .immediate)
    (mayWait : Bool) (outcome into : Outcome) :
    invoke (env.allowing mayWait) scope value outcome call into =
      invoke env scope value outcome call into :=
  bind_congr fun output => receive_allowing immediate mayWait output into

theorem onGroup_allowing {calls : List PlannedCall}
    (immediate : ∀ call ∈ calls, call.shape.delivery = .immediate) (mayWait : Bool)
    (outcome into : Outcome) :
    onGroup (env.allowing mayWait) scope value outcome calls into =
      onGroup env scope value outcome calls into := by
  rw [onGroup, onGroup]
  induction calls generalizing into with
  | nil => rw [List.foldlM_nil, List.foldlM_nil]
  | cons call calls ih =>
    rw [List.forall_mem_cons] at immediate
    rw [List.foldlM_cons, List.foldlM_cons, invoke_allowing immediate.1]
    exact bind_congr fun into => ih immediate.2 into

theorem onGroups_allowing {groups : List (List PlannedCall)}
    (immediate : ∀ group ∈ groups, ∀ call ∈ group, call.shape.delivery = .immediate) (mayWait : Bool)
    (failFast : Bool) (outcome into : Outcome) :
    onGroups (env.allowing mayWait) scope failFast value outcome groups into =
      onGroups env scope failFast value outcome groups into := by
  induction groups generalizing into with
  | nil => rw [onGroups, onGroups]
  | cons group groups ih =>
    rw [List.forall_mem_cons] at immediate
    rw [onGroups, onGroups, onGroup_allowing immediate.1]
    refine bind_congr fun into => ?_
    rw [ih immediate.2]

theorem onHook_allowing {plan : TypePlan} {hook : Option PlannedCall}
    (immediate : ∀ call, hook = some call → call.shape.delivery = .immediate) (mayWait : Bool)
    (outcome : Outcome) :
    onHook (env.allowing mayWait) scope plan hook outcome = onHook env scope plan hook outcome := by
  cases hook with
  | none => rfl
  | some call =>
    rw [onHook, onHook]
    simp only [invoke_allowing (immediate call rfl)]

/-! ### Fields -/

/-- Nothing follows a stop. -/
theorem throw_bind {α β : Type} (stop : Stop) (next : α → Run β) :
    (throw stop >>= next : Run β) = throw stop := rfl

/-- The object that a value is, if it is one, is validated alike by these plans. -/
def AllowedAlike (env : Environment) (plans : TypePlan → Prop) (mayWait : Bool) (value : Value) : Prop :=
  ∀ child, value = .object child → ∀ plan, plans plan → ∀ context,
    child.run (env.allowing mayWait) plan context = child.run env plan context

theorem nestedPlan_allowing (env : Environment) (mayWait : Bool) (field : FieldPlan) :
    nestedPlan (env.allowing mayWait) field = nestedPlan env field := rfl

/-- Nothing is validated without a plan. -/
theorem onNested_none (field : FieldPlan) (context : Context) (descent : Option Descent)
    (into : Outcome) : onNested field context none descent into = pure into := rfl

theorem onNested_allowing {field : FieldPlan} {plan : Option TypePlan} {mayWait : Bool}
    (known : ∀ inner, plan = some inner → plans inner)
    (alike : AllowedAlike env plans mayWait value) (context : Context) (into : Outcome) :
    onNested field context plan (value.run? (env.allowing mayWait)) into =
      onNested field context plan (value.run? env) into := by
  cases plan with
  | none => rw [onNested_none, onNested_none]
  | some inner =>
    rcases value.run?_cases with ⟨child, rfl, runs⟩ | none
    · rw [runs, runs, onNested, onNested, alike child rfl inner (known inner rfl)]
    · rw [none, none]

theorem onField_allowing {plan : TypePlan} {field : FieldPlan} {mayWait : Bool}
    (immediate : Immediate env plans) (known : plans plan) (declared : field ∈ plan.fields)
    (alike : AllowedAlike env plans mayWait value) (failFast : Bool) (outcome : Outcome) :
    onField (env.allowing mayWait) scope failFast outcome (value.run? (env.allowing mayWait)) field =
      onField env scope failFast outcome (value.run? env) field := by
  have calls : ∀ group ∈ field.groups, ∀ call ∈ group, call.shape.delivery = .immediate := by
    intro group member call inside
    have present : call ∈ field.calls := List.mem_flatten.2 ⟨group, member, inside⟩
    exact immediate.calls plan known call
      (List.mem_append_right _ (List.mem_flatMap.2 ⟨field, declared, present⟩))
  have proceed {nested : Option TypePlan} (planned : nestedPlan env field = pure nested)
      (fits : ∀ inner, nested = some inner → plans inner) :
      onField (env.allowing mayWait) scope failFast outcome (value.run? (env.allowing mayWait)) field =
        onField env scope failFast outcome (value.run? env) field := by
    have plannedThere : nestedPlan (env.allowing mayWait) field = pure nested := by
      rw [nestedPlan_allowing, planned]
    rw [onField_of_nestedPlan planned, onField_of_nestedPlan plannedThere]
    simp only [onGroups_allowing calls, onNested_allowing fits alike]
  cases nested : field.nested with
  | none =>
    have none : nestedPlan env field = pure none := by rw [nestedPlan, nested]
    exact proceed none fun inner same => by cases same
  | some type =>
    have leads : type ∈ plan.nestedTypes := List.mem_filterMap.2 ⟨field, declared, nested⟩
    cases planned : env.planOf type with
    | ok inner =>
      have some : nestedPlan env field = pure (some inner) := by
        rw [nestedPlan, nested]
        simp only [planned]
      refine proceed some fun other same => ?_
      exact Option.some.inj same ▸ immediate.nested plan known type leads inner planned
    | error error =>
      have none : nestedPlan env field = throw (.error (.compile error)) := by
        rw [nestedPlan, nested]
        simp only [planned]
      rw [onField, onField, nestedPlan_allowing, none, throw_bind, throw_bind]

/-- The objects in the fields of an object are validated alike by these plans. -/
def FieldsAlike (env : Environment) (plans : TypePlan → Prop) (mayWait : Bool) (target : Object) :
    Prop :=
  ∀ name, AllowedAlike env plans mayWait (target.field name)

theorem onFields_allowing {plan : TypePlan} {mayWait : Bool} (immediate : Immediate env plans)
    (known : plans plan) (alike : FieldsAlike env plans mayWait scope.target) (failFast : Bool)
    {fields : List FieldPlan} (declared : ∀ field ∈ fields, field ∈ plan.fields) (outcome : Outcome) :
    onFields (env.allowing mayWait) scope failFast
        (fun name => (scope.target.field name).run? (env.allowing mayWait)) fields outcome =
      onFields env scope failFast (fun name => (scope.target.field name).run? env) fields outcome := by
  induction fields generalizing outcome with
  | nil => rw [onFields, onFields]
  | cons field fields ih =>
    rw [List.forall_mem_cons] at declared
    rw [onFields, onFields, onNext, onNext, onField_allowing immediate known declared.1 (alike _)]
    refine bind_congr fun result => bind_congr fun outcome => ?_
    rw [ih declared.2]

/-! ### Objects -/

theorem onContents_allowing {plan : TypePlan} {mayWait : Bool} (immediate : Immediate env plans)
    (known : plans plan) (alike : FieldsAlike env plans mayWait scope.target) (outcome : Outcome) :
    onContents (env.allowing mayWait) scope
        (fun name => (scope.target.field name).run? (env.allowing mayWait)) plan outcome =
      onContents env scope (fun name => (scope.target.field name).run? env) plan outcome := by
  have before : ∀ call, plan.before = some call → call.shape.delivery = .immediate := by
    intro call present
    refine immediate.calls plan known call (List.mem_append_left _ (List.mem_append_left _ ?_))
    exact Option.mem_toList.2 present
  have after : ∀ call, plan.after = some call → call.shape.delivery = .immediate := by
    intro call present
    refine immediate.calls plan known call (List.mem_append_left _ (List.mem_append_right _ ?_))
    exact Option.mem_toList.2 present
  rw [onContents, onContents, onHook_allowing before]
  refine bind_congr fun outcome => ?_
  rw [onFields_allowing immediate known alike _ fun _ => id]
  simp only [onHook_allowing after]

end Run

/-- Where plans have no call whose output may have to be waited for, an object is validated by them as
if waiting were allowed. -/
theorem Object.run_allowing {env : Environment} {plans : TypePlan → Prop}
    (immediate : Immediate env plans) (mayWait : Bool) (object : Object) :
    ∀ plan, plans plan → ∀ context,
      object.run (env.allowing mayWait) plan context = object.run env plan context := by
  refine Object.run_induction env (motive := fun object run => ∀ plan, plans plan → ∀ context,
    object.run (env.allowing mayWait) plan context = run plan context) ?_ object
  intro object ih plan known context
  have alike : Run.FieldsAlike env plans mayWait object := ih
  rw [Object.run_eq, Run.onObject, Run.onObject]
  refine bind_congr fun _ => ?_
  refine bind_congr fun services => bind_congr fun outcome => ?_
  exact Run.onContents_allowing immediate known alike outcome

end Assay
