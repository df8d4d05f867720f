/-
Module: Assay.Proofs.Sharing
Purpose: Slots are shared by those who ask for the same. The services of a type have their slots in the
  order in which its rules ask for them first, no service has two, and every parameter leads to its own;
  so two parameters have the same slot exactly if they ask for the same service under the same key.
Main exports: ParsedParameter.Sourced, TypePlan.Shares, TypePlan.slots_of_ofModel
-/
import Assay.Proofs.Grouping

namespace Assay

/-- What no provider is asked for goes by one of three names. -/
theorem lookup_implicitParameters (name : String) :
    (implicitParameters.lookup name = some .context ∧ name = "ValidationContext") ∨
    (implicitParameters.lookup name = some .outcome ∧ name = "Outcome") ∨
    (implicitParameters.lookup name = some .cancellation ∧ name = "CancellationToken") ∨
    (implicitParameters.lookup name = none ∧
      name ≠ "ValidationContext" ∧ name ≠ "Outcome" ∧ name ≠ "CancellationToken") := by
  by_cases context : name = "ValidationContext"
  · subst context
    exact .inl ⟨rfl, rfl⟩
  · by_cases outcome : name = "Outcome"
    · subst outcome
      exact .inr (.inl ⟨by decide, rfl⟩)
    · by_cases cancellation : name = "CancellationToken"
      · subst cancellation
        exact .inr (.inr (.inl ⟨by decide, rfl⟩))
      · have unknown : implicitParameters.lookup name = none := by
          simp [implicitParameters, context, outcome, cancellation]
        exact .inr (.inr (.inr ⟨unknown, context, outcome, cancellation⟩))

namespace ParsedParameter

/-- The argument for a parameter is the one that the name of its type stands for, and under any other
name the slot of the service that the parameter asks for. -/
structure Sourced (dependencies : List Dependency) (parameter : ParsedParameter)
    (argument : Argument) : Prop where
  context : argument = .context ↔ parameter.type.name = "ValidationContext"
  outcome : argument = .outcome ↔ parameter.type.name = "Outcome"
  cancellation : argument = .cancellation ↔ parameter.type.name = "CancellationToken"
  own : ∀ slot, argument = .dependency slot → dependencies[slot]? = some parameter.service

variable {dependencies : List Dependency} {parameter : ParsedParameter}

/-- A parameter has its argument where the services that it asks for have slots. -/
theorem sourced_source (known : parameter.services ⊆ dependencies) :
    parameter.Sourced dependencies (parameter.source dependencies) := by
  obtain ⟨lookup, name⟩ | ⟨lookup, name⟩ | ⟨lookup, name⟩ | ⟨lookup, notContext, notOutcome, notToken⟩ :=
    lookup_implicitParameters parameter.type.name
  · constructor <;> simp [source_of_lookup lookup, name]
  · constructor <;> simp [source_of_lookup lookup, name]
  · constructor <;> simp [source_of_lookup lookup, name]
  · have asks : parameter.isImplicit = false := by rw [isImplicit, lookup, Option.isSome_none]
    have member : parameter.service ∈ dependencies := known (by simp [services, asks])
    have own : dependencies[dependencies.idxOf parameter.service]? = some parameter.service :=
      List.getElem?_idxOf member
    constructor <;> simp [source_of_asks asks, notContext, notOutcome, notToken, own]

/-- Parameters that ask for services that have slots have the same slot exactly if they ask for the
same service. -/
theorem source_eq_iff {other : ParsedParameter} (asks : parameter.isImplicit = false)
    (otherAsks : other.isImplicit = false) (known : parameter.services ⊆ dependencies) :
    parameter.source dependencies = other.source dependencies ↔
      parameter.service = other.service := by
  have member : parameter.service ∈ dependencies := known (by simp [services, asks])
  rw [source_of_asks asks, source_of_asks otherAsks, Argument.dependency.injEq]
  exact List.idxOf_inj member

end ParsedParameter

namespace TypeModel

/-- All parameters that the rules of a type declare. -/
def parameters (model : TypeModel) : List ParsedParameter :=
  model.rules.flatMap (·.signature.parameters)

theorem services_eq (model : TypeModel) :
    model.services = model.parameters.flatMap ParsedParameter.services := by
  rw [services, parameters, List.flatMap_assoc]
  rfl

/-- Whatever a parameter asks for is a service of the type. -/
theorem services_subset {model : TypeModel} {parameter : ParsedParameter}
    (member : parameter ∈ model.parameters) : parameter.services ⊆ model.services := by
  intro service asked
  rw [services_eq]
  exact List.mem_flatMap_of_mem member asked

end TypeModel

/-- The services of a type have their slots in the order in which its rules ask for them first, and no
service has two; the calls are the rules with the arguments for their parameters, each of which leads to
its own service; and parameters have the same slot exactly if they ask for the same service. -/
structure TypePlan.Shares (model : TypeModel) (plan : TypePlan) : Prop where
  nodup : plan.dependencies.Nodup
  inOrder : plan.dependencies = model.services.eraseDups
  before : plan.before = model.before.map (BoundRule.drawn plan.dependencies)
  fields : List.Forall₂ (fun field step =>
    step.calls.Perm (field.rules.map (BoundRule.drawn plan.dependencies))) model.fields plan.fields
  after : plan.after = model.after.map (BoundRule.drawn plan.dependencies)
  sourced : ∀ parameter ∈ model.parameters,
    parameter.Sourced plan.dependencies (parameter.source plan.dependencies)
  shared : ∀ one ∈ model.parameters, ∀ other ∈ model.parameters,
    one.isImplicit = false → other.isImplicit = false →
      (one.source plan.dependencies = other.source plan.dependencies ↔ one.service = other.service)

theorem TypePlan.shares_drawn (model : TypeModel) (type : TypeKey) (room : Nat) :
    (drawn model type room).Shares model where
  nodup := nodup_eraseDups model.services
  inOrder := rfl
  before := rfl
  fields := by
    simp only [drawn, List.forall₂_map_right_iff, List.forall₂_same]
    exact fun field _ => (FieldPlan.groups_drawn _).perm
  after := rfl
  sourced := by
    intro parameter member
    exact ParsedParameter.sourced_source
      fun _ asked => List.mem_eraseDups.2 (TypeModel.services_subset member asked)
  shared := by
    intro one member other _ asks otherAsks
    exact ParsedParameter.source_eq_iff asks otherAsks
      fun _ asked => List.mem_eraseDups.2 (TypeModel.services_subset member asked)

/-- To plan a type fails exactly if some parameter asks for a service under what is no key, and a plan
shares its slots as it should. -/
theorem TypePlan.slots_of_ofModel (model : TypeModel) (type : TypeKey) (room : Nat) :
    match ofModel model type room with
    | .error error => ∃ rule ∈ model.rules, ∃ parameter ∈ rule.signature.parameters,
        parameter.Unkeyed ∧ error = .nonConstantKey rule.id parameter.type.name
    | .ok plan => (∀ rule ∈ model.rules, ∀ parameter ∈ rule.signature.parameters,
        ¬ parameter.Unkeyed) ∧ plan.Shares model := by
  rw [ofModel_eq]
  cases fault : model.fault? with
  | some error => exact TypeModel.of_fault?_eq_some fault
  | none => exact ⟨TypeModel.keyed_of_fault?_eq_none fault, shares_drawn model type room⟩

end Assay
