/-
Module: Assay.Proofs.Slots
Purpose: Arguments lead to the services that were declared. A plan is drawn with a slot for each service
  that its rules declare, and none has two, so that the slot of an argument leads to the service that the
  parameter asks for. The parameters that a slot was found for are those of the rule's own signature.
Main exports: ParsedParameter.FilledBy, PlannedCall.Wired, TypePlan.Wired, PlanCache.wired_of_compile
-/
import Assay.Proofs.Planning

namespace Assay

/-- Where the argument for a parameter comes from: it is one of those that no provider is asked for, or
the slot of the service that the parameter declares. -/
inductive ParsedParameter.FilledBy (dependencies : List Dependency) (owner : String) :
    ParsedParameter → Argument → Prop where
  | implicit {parameter : ParsedParameter} {argument : Argument}
      (known : implicitParameters.lookup parameter.type.name = some argument) :
    FilledBy dependencies owner parameter argument
  | slot {parameter : ParsedParameter} {key : Option ServiceKey} {slot : Nat}
      (declared : implicitParameters.lookup parameter.type.name = none)
      (keyed : parameter.serviceKey owner = .ok key)
      (reserved : dependencies[slot]? = some ⟨parameter.type.name, key⟩) :
    FilledBy dependencies owner parameter (.dependency slot)

/-- A parameter without a fault is filled by its source, where the service that it asks for has a slot. -/
theorem ParsedParameter.filledBy_source {dependencies : List Dependency} {parameter : ParsedParameter}
    (owner : String) (faultless : parameter.fault? owner = none)
    (known : parameter.services ⊆ dependencies) :
    parameter.FilledBy dependencies owner (parameter.source dependencies) := by
  cases lookup : implicitParameters.lookup parameter.type.name with
  | some argument =>
    rw [source_of_lookup lookup]
    exact .implicit lookup
  | none =>
    have asks : parameter.isImplicit = false := by rw [isImplicit, lookup, Option.isSome_none]
    have member : parameter.service ∈ dependencies := known (by simp [services, asks])
    rw [source_of_asks asks]
    exact .slot lookup (serviceKey_of_fault?_eq_none asks faultless) (List.getElem?_idxOf member)

/-- What no provider is asked for has no slot. -/
theorem implicit_ne_dependency {name : String} {argument : Argument}
    (known : implicitParameters.lookup name = some argument) (slot : Nat) :
    argument ≠ .dependency slot := by
  rintro rfl
  simp only [implicitParameters, List.lookup_cons, List.lookup_nil] at known
  split at known
  · cases known
  · split at known
    · cases known
    · split at known <;> cases known

/-- A service is found in the slot that is reserved for it. -/
theorem DependencySlots.getElem?_reserve (slots : DependencySlots) (dependency : Dependency) :
    (slots.reserve dependency).2.dependencies[(slots.reserve dependency).1]? = some dependency := by
  rw [reserve]
  cases found : slots.dependencies.idxOf? dependency with
  | some slot =>
    obtain ⟨present, same, _⟩ := List.idxOf?_eq_some_iff.1 found
    exact List.getElem?_eq_some_iff.2 ⟨present, same⟩
  | none => exact List.getElem?_concat_length

/-! ### Planning -/

/-- A rule comes with its own signature, read. -/
def BoundRule.Read (bound : BoundRule) : Prop :=
  bound.rule.signature.parse = .ok bound.signature

/-- The arguments of a call are those for the parameters that its rule declares. -/
def PlannedCall.Wired (dependencies : List Dependency) (call : PlannedCall) : Prop :=
  ∃ signature, call.rule.signature.parse = .ok signature ∧
    List.Forall₂ (ParsedParameter.FilledBy dependencies call.id) signature.parameters call.arguments

/-- No service has two slots, and all calls have the arguments that their rules declare. -/
structure TypePlan.Wired (plan : TypePlan) : Prop where
  nodup : plan.dependencies.Nodup
  hooks : ∀ call ∈ plan.hooks, call.Wired plan.dependencies
  fields : ∀ field ∈ plan.fields, ∀ call ∈ field.calls, call.Wired plan.dependencies

/-- The call of a rule without a fault is wired, where the services that it asks for have slots. -/
theorem BoundRule.wired_drawn {dependencies : List Dependency} {bound : BoundRule} (read : bound.Read)
    (faultless : bound.fault? = none) (known : bound.services ⊆ dependencies) :
    (bound.drawn dependencies).Wired dependencies := by
  refine ⟨bound.signature, read, ?_⟩
  simp only [drawn, List.forall₂_map_right_iff, List.forall₂_same]
  intro parameter declared
  have own := List.findSome?_eq_none_iff.1 faultless parameter declared
  exact ParsedParameter.filledBy_source bound.id own
    fun service asked => known (List.mem_flatMap_of_mem declared asked)

/-- All rules of a model come with their own signatures. -/
structure TypeModel.Read (model : TypeModel) : Prop where
  before : ∀ bound ∈ model.before, bound.Read
  fields : ∀ field ∈ model.fields, ∀ bound ∈ field.rules, bound.Read
  after : ∀ bound ∈ model.after, bound.Read

theorem TypeModel.Read.rules {model : TypeModel} (read : model.Read) :
    ∀ bound ∈ model.rules, bound.Read := by
  intro bound member
  obtain early | ⟨field, declared, own⟩ | late := mem_rules.1 member
  · exact read.before bound early
  · exact read.fields field declared bound own
  · exact read.after bound late

theorem TypePlan.wired_of_ofModel {model : TypeModel} {type : TypeKey} {room : Nat}
    {plan : TypePlan} (read : model.Read) (planned : ofModel model type room = .ok plan) :
    plan.Wired := by
  obtain ⟨faultless, rfl⟩ := ofModel_eq_ok planned
  have wired : ∀ bound ∈ model.rules,
      (bound.drawn model.services.eraseDups).Wired model.services.eraseDups := by
    intro bound member
    apply BoundRule.wired_drawn (read.rules bound member)
    · exact List.findSome?_eq_none_iff.1 faultless bound member
    · exact fun service asked => List.mem_eraseDups.2 (List.mem_flatMap_of_mem member asked)
  refine ⟨nodup_eraseDups model.services, ?_, ?_⟩
  · intro call member
    rw [hooks_drawn] at member
    obtain ⟨bound, hooked, rfl⟩ := List.mem_map.1 member
    apply wired bound (TypeModel.mem_rules.2 _)
    cases List.mem_append.1 hooked with
    | inl early => exact .inl (Option.mem_toList.1 early)
    | inr late => exact .inr (.inr (Option.mem_toList.1 late))
  · intro field member call inside
    obtain ⟨model, declared, rfl⟩ := List.mem_map.1 member
    obtain ⟨bound, own, rfl⟩ := FieldPlan.mem_calls_drawn inside
    exact wired bound (TypeModel.mem_rules.2 (.inr (.inl ⟨model, declared, own⟩)))

/-! ### Reading descriptions -/

theorem BoundRule.read_of_ofRule {id : String} {rule : Rule} {bound : BoundRule}
    (read : ofRule id rule = .ok bound) : bound.Read := by
  obtain ⟨signature, parsed, read⟩ := except_bind_eq_ok read
  cases read
  exact parsed

namespace FieldDescriptor

variable {field : FieldDescriptor} {descriptor : TypeDescriptor} {catalog : RuleCatalog}

theorem read_of_bind {attachment : RuleAttachment} {bound : BoundRule}
    (read : field.bind catalog attachment = .ok bound) : bound.Read := by
  obtain ⟨made, _, read⟩ := except_bind_eq_ok read
  cases made with
  | none => cases read
  | some rule => exact BoundRule.read_of_ofRule read

theorem read_of_customRule {rules : List BoundRule}
    (read : field.customRule descriptor = .ok rules) : ∀ bound ∈ rules, bound.Read := by
  rw [customRule] at read
  split at read
  · rename_i rule _
    cases made : BoundRule.ofRule field.routineName rule with
    | error error =>
      rw [made] at read
      cases read
    | ok bound =>
      rw [made] at read
      cases read
      exact fun _ member => List.mem_singleton.1 member ▸ BoundRule.read_of_ofRule made
  · cases read
    exact nofun

theorem read_of_toModel {autoRules : Bool} {model : FieldModel}
    (read : field.toModel descriptor catalog autoRules = .ok model) :
    ∀ bound ∈ model.rules, bound.Read := by
  obtain ⟨_, _, held, own⟩ := toModel_eq_ok read
  cases holds : field.nested with
  | some type =>
    rw [held (by rw [holds]; rfl)]
    exact nofun
  | none =>
    obtain ⟨attached, bound, rest⟩ := except_bind_eq_ok (own holds)
    obtain ⟨custom, made, rest⟩ := except_bind_eq_ok rest
    intro rule member
    rw [← Except.ok.inj rest] at member
    rcases List.mem_append.1 member with early | late
    · obtain ⟨_, _, bindsRule⟩ := exists_of_forall₂ (forall₂_of_mapM bound) early
      exact read_of_bind bindsRule
    · exact read_of_customRule made rule late

end FieldDescriptor

theorem TypeModel.read_of_hook {descriptor : TypeDescriptor} {name : String}
    {hook : Option BoundRule} (read : TypeModel.hook descriptor name = .ok hook) :
    ∀ bound ∈ hook, bound.Read := by
  rw [TypeModel.hook] at read
  split at read
  · rename_i rule _
    cases made : BoundRule.ofRule name rule with
    | error error =>
      rw [made] at read
      cases read
    | ok bound =>
      rw [made] at read
      cases read
      exact fun _ same => Option.some.inj same ▸ BoundRule.read_of_ofRule made
  · cases read
    exact nofun

theorem TypeModel.read_of_ofDescriptor {descriptor : TypeDescriptor} {catalog : RuleCatalog}
    {options : Options} {model : TypeModel}
    (read : ofDescriptor descriptor catalog options = .ok model) : model.Read := by
  obtain ⟨_, _, fields, before, after⟩ := ofDescriptor_eq_ok read
  refine ⟨read_of_hook before, fun field member => ?_, read_of_hook after⟩
  obtain ⟨declared, _, own⟩ := exists_of_forall₂ fields member
  exact FieldDescriptor.read_of_toModel own

/-- The plan of a type leads every argument to its service. -/
theorem PlanCache.wired_of_compile {cache : PlanCache} {type : TypeKey} {plan : TypePlan}
    (compiled : cache.compile type = .ok plan) : plan.Wired := by
  obtain ⟨model, read, planned⟩ := except_bind_eq_ok compiled
  exact TypePlan.wired_of_ofModel (TypeModel.read_of_ofDescriptor read) planned

end Assay
