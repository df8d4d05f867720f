/-
Module: Assay.Proofs.Planning
Purpose: What a plan has of the description it was made from: the settings, the fields in their order
  with the types they hold, the calls that the rules of a field give, grouped and in their order
  otherwise, and the hooks.
Main exports: PlannedCall.Plans, FieldPlan.Plans, TypePlan.Plans, PlanCache.declares_of_compile
-/
import Mathlib.Data.List.Forall2
import Assay.Plan.Cache
import Assay.Proofs.Grouping

namespace Assay

/-- A sequence of two steps without a fault has a result in between. -/
theorem except_bind_eq_ok {ε α β : Type} {action : Except ε α} {next : α → Except ε β}
    {result : β} (ended : (action >>= next) = .ok result) :
    ∃ value, action = .ok value ∧ next value = .ok result := by
  cases action with
  | error error => cases ended
  | ok value => exact ⟨value, rfl, ended⟩

/-- Steps without a fault, one for each item of a list, have their results in between. -/
theorem forall₂_of_mapM {ε α β : Type} {read : α → Except ε β} {items : List α} {results : List β}
    (done : items.mapM read = .ok results) :
    List.Forall₂ (fun item result => read item = .ok result) items results := by
  induction items generalizing results with
  | nil =>
    cases done
    exact .nil
  | cons item items ih =>
    rw [List.mapM_cons] at done
    obtain ⟨result, one, done⟩ := except_bind_eq_ok done
    obtain ⟨more, others, done⟩ := except_bind_eq_ok done
    cases done
    exact .cons one (ih others)

/-- Where lists are related item by item, every item of the second comes from one of the first. -/
theorem exists_of_forall₂ {α β : Type} {relates : α → β → Prop} {items : List α} {results : List β}
    (related : List.Forall₂ relates items results) {result : β} (member : result ∈ results) :
    ∃ item ∈ items, relates item result := by
  induction related with
  | nil => cases member
  | @cons item first _ _ own _ ih =>
    rcases List.mem_cons.1 member with rfl | later
    · exact ⟨item, List.mem_cons_self, own⟩
    · obtain ⟨other, found, holds⟩ := ih later
      exact ⟨other, List.mem_cons_of_mem _ found, holds⟩

/-- A call carries the rule it was planned from. -/
structure PlannedCall.Plans (bound : BoundRule) (call : PlannedCall) : Prop where
  id : call.id = bound.id
  rule : call.rule = bound.rule
  shape : call.shape = .classify bound.signature.returns

/-- The plan of a field has the calls that its rules give, by group. -/
structure FieldPlan.Plans (room : Nat) (model : FieldModel) (plan : FieldPlan) : Prop where
  name : plan.name = model.name
  nested : plan.nested = model.nested
  calls : ∃ calls, List.Forall₂ PlannedCall.Plans model.rules calls ∧
    plan.groups = (List.range ReturnShape.groupCount).map (fun group =>
      calls.filter fun call => call.shape.group == group) ∧
    plan.childCapacity = if calls.any (·.shape.contribution == .outcome) then room else 0

/-- A hook is planned if and only if there is one. -/
inductive PlannedCall.PlansHook : Option BoundRule → Option PlannedCall → Prop where
  | none : PlansHook none none
  | some {bound : BoundRule} {call : PlannedCall} (plans : Plans bound call) :
    PlansHook (some bound) (some call)

/-- The plan of a type has its settings, its fields and its hooks. -/
structure TypePlan.Plans (room : Nat) (model : TypeModel) (plan : TypePlan) : Prop where
  name : plan.name = model.name
  failFast : plan.failFast = model.failFast
  autoRules : plan.autoRules = model.autoRules
  fields : List.Forall₂ (FieldPlan.Plans room) model.fields plan.fields
  before : PlannedCall.PlansHook model.before plan.before
  after : PlannedCall.PlansHook model.after plan.after

/-! ### Planning -/

theorem BoundRule.plans_drawn (dependencies : List Dependency) (bound : BoundRule) :
    PlannedCall.Plans bound (bound.drawn dependencies) :=
  ⟨rfl, rfl, rfl⟩

theorem BoundRule.plansHook_drawn (dependencies : List Dependency) (hook : Option BoundRule) :
    PlannedCall.PlansHook hook (hook.map (drawn dependencies)) := by
  cases hook with
  | none => exact .none
  | some bound => exact .some (bound.plans_drawn dependencies)

theorem FieldPlan.plans_drawn (room : Nat) (dependencies : List Dependency) (model : FieldModel) :
    (drawn room dependencies model).Plans room model where
  name := rfl
  nested := rfl
  calls := by
    refine ⟨model.rules.map (BoundRule.drawn dependencies), ?_, rfl, childCapacity_ofCalls⟩
    rw [List.forall₂_map_right_iff, List.forall₂_same]
    exact fun bound _ => bound.plans_drawn dependencies

theorem FieldPlan.mem_calls_drawn {room : Nat} {dependencies : List Dependency} {model : FieldModel}
    {call : PlannedCall} (member : call ∈ (drawn room dependencies model).calls) :
    ∃ bound ∈ model.rules, bound.drawn dependencies = call := by
  obtain ⟨group, grouped, inside⟩ := List.mem_flatten.1 member
  obtain ⟨index, _, rfl⟩ := List.mem_map.1 grouped
  exact List.mem_map.1 (List.mem_filter.1 inside).1

theorem TypePlan.hooks_drawn (model : TypeModel) (type : TypeKey) (room : Nat) :
    (drawn model type room).hooks =
      (model.before.toList ++ model.after.toList).map (BoundRule.drawn model.services.eraseDups) := by
  rw [hooks, List.map_append, ← Option.toList_map, ← Option.toList_map]
  rfl

theorem TypePlan.plans_of_ofModel {model : TypeModel} {type : TypeKey} {room : Nat}
    {plan : TypePlan} (planned : ofModel model type room = .ok plan) :
    plan.type = type ∧ plan.Plans room model := by
  obtain ⟨_, rfl⟩ := ofModel_eq_ok planned
  refine ⟨rfl, rfl, rfl, rfl, ?_, BoundRule.plansHook_drawn _ _, BoundRule.plansHook_drawn _ _⟩
  simp only [drawn, List.forall₂_map_right_iff, List.forall₂_same]
  exact fun field _ => FieldPlan.plans_drawn room _ field

/-! ### Reading descriptions -/

/-- A field that holds an object has no rules of its own; another one has those that follow from its
description. -/
theorem FieldDescriptor.toModel_eq_ok {field : FieldDescriptor} {descriptor : TypeDescriptor}
    {catalog : RuleCatalog} {autoRules : Bool} {model : FieldModel}
    (read : field.toModel descriptor catalog autoRules = .ok model) :
    model.name = field.name ∧ model.nested = field.nested ∧
      (field.nested.isSome → model.rules = []) ∧
      (field.nested = none → field.rules descriptor catalog autoRules model.nullable =
        .ok model.rules) := by
  obtain ⟨type, _, read⟩ := except_bind_eq_ok read
  cases holds : field.nested with
  | some held =>
    simp only [holds, Option.isSome_some, if_true] at read
    cases read
    exact ⟨rfl, rfl, fun _ => rfl, by simp⟩
  | none =>
    simp only [holds, Option.isSome_none, Bool.false_eq_true, if_false] at read
    obtain ⟨rules, found, read⟩ := except_bind_eq_ok read
    cases read
    exact ⟨rfl, rfl, by simp, fun _ => found⟩

theorem TypeModel.forall₂_of_fieldsOf {descriptor : TypeDescriptor} {catalog : RuleCatalog}
    {autoRules : Bool} {seen : List String} {fields : List FieldDescriptor}
    {models : List FieldModel}
    (read : fieldsOf descriptor catalog autoRules seen fields = .ok models) :
    List.Forall₂ (fun field model => field.toModel descriptor catalog autoRules = .ok model)
      fields models := by
  induction fields generalizing seen models with
  | nil =>
    cases read
    exact .nil
  | cons field fields ih =>
    rw [fieldsOf] at read
    split at read
    · cases read
    · obtain ⟨model, own, read⟩ := except_bind_eq_ok read
      obtain ⟨more, others, read⟩ := except_bind_eq_ok read
      cases read
      exact .cons own (ih others)

/-- To read fields, only the name and the routines of the description are looked at. -/
theorem TypeModel.fieldsOf_congr (descriptor other : TypeDescriptor)
    (name : other.name = descriptor.name) (routines : other.routines = descriptor.routines)
    (catalog : RuleCatalog) (autoRules : Bool) (seen : List String)
    (fields : List FieldDescriptor) :
    fieldsOf other catalog autoRules seen fields =
      fieldsOf descriptor catalog autoRules seen fields := by
  rcases descriptor with ⟨_, inOrder, _, settings⟩
  cases name
  cases routines
  induction fields generalizing seen with
  | nil => rfl
  | cons field fields ih =>
    rw [fieldsOf, fieldsOf]
    simp only [ih]
    rfl

theorem TypeModel.ofDescriptor_eq_ok {descriptor : TypeDescriptor} {catalog : RuleCatalog}
    {options : Options} {model : TypeModel}
    (read : ofDescriptor descriptor catalog options = .ok model) :
    model.name = descriptor.name ∧
      model.failFast = descriptor.settings.failFast.getD options.failFast ∧
      List.Forall₂ (fun field model => field.toModel descriptor catalog
        (descriptor.settings.autoRules.getD options.autoRules) = .ok model)
        descriptor.fields model.fields ∧
      hook descriptor beforeName = .ok model.before ∧
      hook descriptor afterName = .ok model.after := by
  obtain ⟨fields, readFields, read⟩ := except_bind_eq_ok read
  obtain ⟨before, readBefore, read⟩ := except_bind_eq_ok read
  obtain ⟨after, readAfter, read⟩ := except_bind_eq_ok read
  cases read
  exact ⟨rfl, rfl, forall₂_of_fieldsOf readFields, readBefore, readAfter⟩

/-! ### Compiling -/

namespace PlanCache

variable {cache : PlanCache} {type : TypeKey} {plan : TypePlan}

/-- Whether an object of a type is left at its first failure: what the type says, or else the
options. -/
def failFastOf (cache : PlanCache) (type : TypeKey) : Bool :=
  (cache.schema.describe type).settings.failFast.getD cache.options.failFast

/-- The plan of a type is made from the model that its description is read as. -/
theorem compile_eq_ok (compiled : cache.compile type = .ok plan) :
    ∃ model, TypeModel.ofDescriptor (cache.schema.describe type) cache.catalog cache.options =
        .ok model ∧ plan.type = type ∧ plan.Plans cache.options.fieldMessageCapacity model := by
  obtain ⟨model, read, planned⟩ := except_bind_eq_ok compiled
  exact ⟨model, read, TypePlan.plans_of_ofModel planned⟩

theorem type_of_compile (compiled : cache.compile type = .ok plan) : plan.type = type := by
  obtain ⟨_, _, same, _⟩ := compile_eq_ok compiled
  exact same

theorem name_of_compile (compiled : cache.compile type = .ok plan) :
    plan.name = (cache.schema.describe type).name := by
  obtain ⟨model, read, _, plans⟩ := compile_eq_ok compiled
  exact plans.name.trans (TypeModel.ofDescriptor_eq_ok read).1

theorem failFast_of_compile (compiled : cache.compile type = .ok plan) :
    plan.failFast = cache.failFastOf type := by
  obtain ⟨model, read, _, plans⟩ := compile_eq_ok compiled
  exact plans.failFast.trans (TypeModel.ofDescriptor_eq_ok read).2.1

/-- A hook is planned as a description of a type declares it under that name. -/
def DeclaresHook (cache : PlanCache) (type : TypeKey) (name : String)
    (call : Option PlannedCall) : Prop :=
  ∃ bound, TypeModel.hook (cache.schema.describe type) name = .ok bound ∧
    PlannedCall.PlansHook bound call

theorem hooks_of_compile (compiled : cache.compile type = .ok plan) :
    cache.DeclaresHook type TypeModel.beforeName plan.before ∧
      cache.DeclaresHook type TypeModel.afterName plan.after := by
  obtain ⟨model, read, _, plans⟩ := compile_eq_ok compiled
  obtain ⟨_, _, _, before, after⟩ := TypeModel.ofDescriptor_eq_ok read
  exact ⟨⟨_, before, plans.before⟩, ⟨_, after, plans.after⟩⟩

/-- A field is planned as a description of a type declares it. -/
def Declares (cache : PlanCache) (type : TypeKey) (field : FieldDescriptor) (plan : FieldPlan) :
    Prop :=
  ∃ model, field.toModel (cache.schema.describe type) cache.catalog
      ((cache.schema.describe type).settings.autoRules.getD cache.options.autoRules) = .ok model ∧
    FieldPlan.Plans cache.options.fieldMessageCapacity model plan

theorem Declares.name {field : FieldDescriptor} {plan : FieldPlan}
    (declares : cache.Declares type field plan) : plan.name = field.name := by
  rcases declares with ⟨model, read, plans⟩
  exact plans.name.trans (FieldDescriptor.toModel_eq_ok read).1

theorem Declares.nested {field : FieldDescriptor} {plan : FieldPlan}
    (declares : cache.Declares type field plan) : plan.nested = field.nested := by
  rcases declares with ⟨model, read, plans⟩
  exact plans.nested.trans (FieldDescriptor.toModel_eq_ok read).2.1

/-- A field that holds an object has no call. -/
theorem Declares.groups_of_nested {field : FieldDescriptor} {plan : FieldPlan}
    (declares : cache.Declares type field plan) (holds : plan.nested.isSome) :
    ∀ group ∈ plan.groups, group = [] := by
  rw [declares.nested] at holds
  rcases declares with ⟨model, read, plans⟩
  obtain ⟨calls, planned, groups, _⟩ := plans.calls
  rw [(FieldDescriptor.toModel_eq_ok read).2.2.1 holds] at planned
  cases planned
  intro group member
  rw [groups] at member
  obtain ⟨index, _, rfl⟩ := List.mem_map.1 member
  rfl

/-- The fields of a plan are those that are declared, in their order. -/
theorem declares_of_compile (compiled : cache.compile type = .ok plan) :
    List.Forall₂ (cache.Declares type) (cache.schema.describe type).fields plan.fields := by
  obtain ⟨model, read, _, plans⟩ := compile_eq_ok compiled
  have models := (TypeModel.ofDescriptor_eq_ok read).2.2.1
  have planned := plans.fields
  generalize (cache.schema.describe type).fields = fields at models
  generalize plan.fields = plans at planned
  generalize model.fields = between at models planned
  induction models generalizing plans with
  | nil =>
    cases planned
    exact .nil
  | cons own _ ih =>
    cases planned with
    | cons first rest => exact .cons ⟨_, own, first⟩ (ih _ rest)

theorem names_of_declares {fields : List FieldDescriptor} {plans : List FieldPlan}
    (declared : List.Forall₂ (cache.Declares type) fields plans) :
    plans.map FieldPlan.name = fields.map FieldDescriptor.name := by
  induction declared with
  | nil => rfl
  | cons own _ ih => rw [List.map_cons, List.map_cons, ih, own.name]

theorem nested_of_declares {fields : List FieldDescriptor} {plans : List FieldPlan}
    (declared : List.Forall₂ (cache.Declares type) fields plans) :
    plans.filterMap FieldPlan.nested = fields.filterMap FieldDescriptor.nested := by
  induction declared with
  | nil => rfl
  | cons own _ ih => rw [List.filterMap_cons, List.filterMap_cons, ih, own.nested]

/-- A plan leads to the types that the description leads to. -/
theorem nestedTypes_of_compile (compiled : cache.compile type = .ok plan) :
    plan.nestedTypes = cache.schema.nestedTypes type :=
  nested_of_declares (declares_of_compile compiled)

end PlanCache

end Assay
