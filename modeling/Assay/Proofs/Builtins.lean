/-
Module: Assay.Proofs.Builtins
Purpose: The built-in rules look at the value and at nothing else. They declare no parameters, so that a
  family that is declared with them alone asks for no services, and its fields are validated one by one.
Main exports: Rule.LooksAtValue, RuleCatalog.looksAtValue_of_builtin, PlanCache.fieldwise_of_builtin
-/
import Assay.Proofs.Findings
import Assay.Proofs.Slots

namespace Assay

/-- A rule that looks at the value only, and answers at once. -/
def Rule.LooksAtValue (rule : Rule) : Prop :=
  ∃ returns check, rule = .ofValue returns check

theorem Rule.LooksAtValue.decides {rule : Rule} (looks : rule.LooksAtValue) : rule.Decides := by
  obtain ⟨returns, check, rfl⟩ := looks
  exact decides_ofValue returns check

theorem Rule.LooksAtValue.parameters_eq {rule : Rule} (looks : rule.LooksAtValue) :
    rule.signature.parameters = [] := by
  obtain ⟨returns, check, rfl⟩ := looks
  rfl

/-! ### The catalog -/

namespace Builtin

variable {args : RuleArgs} {rule : Rule}

theorem Length.looksAtValue_of_make (made : Length.make args = .ok rule) : rule.LooksAtValue := by
  obtain ⟨min, _, made⟩ := except_bind_eq_ok made
  obtain ⟨max, _, made⟩ := except_bind_eq_ok made
  -- Whether or not both bounds are given, the unit is read last.
  cases found : unit? (args.get? "mode") with
  | none =>
    simp only [found] at made
    split at made
    · split at made <;> cases made
    · cases made
  | some unit =>
    simp only [found] at made
    split at made
    · split at made
      · cases made
      · cases made
        exact ⟨_, _, rfl⟩
    · cases made
      exact ⟨_, _, rfl⟩

theorem Membership.looksAtValue_of_make (made : Membership.make args = .ok rule) :
    rule.LooksAtValue := by
  unfold Membership.make at made
  split at made
  · cases made
  · cases made
  · cases made
    exact ⟨_, _, rfl⟩

theorem Password.looksAtValue_of_make (made : Password.make args = .ok rule) :
    rule.LooksAtValue := by
  obtain ⟨_, _, made⟩ := except_bind_eq_ok made
  obtain ⟨_, _, made⟩ := except_bind_eq_ok made
  obtain ⟨_, _, made⟩ := except_bind_eq_ok made
  obtain ⟨_, _, made⟩ := except_bind_eq_ok made
  cases made
  exact ⟨_, _, rfl⟩

theorem Password.looksAtValue_of_makeStrong (made : Password.makeStrong args = .ok rule) :
    rule.LooksAtValue := by
  obtain ⟨_, _, made⟩ := except_bind_eq_ok made
  cases made
  exact ⟨_, _, rfl⟩

end Builtin

namespace RuleCatalog

open Builtin

theorem looksAtValue_of_mem_builtin : ∀ entry ∈ builtin.factories, ∀ args rule,
    entry.2 args = .ok rule → rule.LooksAtValue := by
  simp only [builtin, List.forall_mem_cons, List.not_mem_nil, false_implies, implies_true, and_true]
  refine ⟨?_, fun _ _ => Membership.looksAtValue_of_make, fun _ _ => Length.looksAtValue_of_make,
    fun _ _ => Password.looksAtValue_of_make, fun _ _ => Password.looksAtValue_of_makeStrong, ?_⟩
  all_goals
    intro args rule made
    cases made
    exact ⟨_, _, rfl⟩

/-- Whatever rule is made from the built-in catalog, it looks at the value only. -/
theorem looksAtValue_of_builtin {id : String} {args : RuleArgs} {rule : Rule}
    (made : builtin.make? id args = .ok (some rule)) : rule.LooksAtValue := by
  rw [make?] at made
  split at made
  · rename_i factory found
    cases fabricated : factory args with
    | error error => simp [fabricated, Except.map] at made
    | ok product =>
      simp only [fabricated, Except.map, Except.ok.injEq, Option.some.injEq] at made
      subst made
      obtain ⟨before, after, entries, _⟩ := List.lookup_eq_some_iff.1 found
      exact looksAtValue_of_mem_builtin (id, factory) (by simp [entries]) args product fabricated
  · cases made

end RuleCatalog

/-! ### Families -/

/-- A rule that is read from the built-in catalog. -/
structure BoundRule.IsBuiltin (bound : BoundRule) : Prop where
  looks : bound.rule.LooksAtValue
  read : bound.Read

theorem BoundRule.IsBuiltin.parameters_eq {bound : BoundRule} (own : bound.IsBuiltin) :
    bound.signature.parameters = [] := by
  obtain ⟨parameters, each, read⟩ := except_bind_eq_ok own.read
  obtain ⟨_, _, read⟩ := except_bind_eq_ok read
  rw [own.looks.parameters_eq] at each
  cases each
  rw [← Except.ok.inj read]
  rfl

theorem FieldDescriptor.looksAtValue_of_bind {field : FieldDescriptor} {attachment : RuleAttachment}
    {bound : BoundRule} (read : field.bind .builtin attachment = .ok bound) :
    bound.rule.LooksAtValue := by
  obtain ⟨found, made, read⟩ := except_bind_eq_ok read
  cases found with
  | none => cases read
  | some rule =>
    obtain ⟨_, _, read⟩ := except_bind_eq_ok read
    cases read
    exact RuleCatalog.looksAtValue_of_builtin made

/-- Of a description without routines, all rules of a field are from the catalog. -/
theorem FieldDescriptor.isBuiltin_of_toModel {field : FieldDescriptor} {descriptor : TypeDescriptor}
    {autoRules : Bool} {model : FieldModel} (bare : descriptor.routines = [])
    (read : field.toModel descriptor .builtin autoRules = .ok model) :
    ∀ bound ∈ model.rules, bound.IsBuiltin := by
  intro bound member
  refine ⟨?_, read_of_toModel read bound member⟩
  obtain ⟨_, _, held, own⟩ := toModel_eq_ok read
  cases holds : field.nested with
  | some type => simp [held (by simp [holds])] at member
  | none =>
    obtain ⟨attached, eachBound, rest⟩ := except_bind_eq_ok (own holds)
    obtain ⟨custom, made, rest⟩ := except_bind_eq_ok rest
    have noCustom : custom = [] := by
      have unset : (if field.custom then descriptor.routine? field.routineName else none) = none := by
        simp [TypeDescriptor.routine?, bare]
      rw [customRule, unset] at made
      exact (Except.ok.inj made).symm
    rw [← Except.ok.inj rest, noCustom, List.append_nil] at member
    obtain ⟨_, _, bindsRule⟩ := exists_of_forall₂ (forall₂_of_mapM eachBound) member
    exact looksAtValue_of_bind bindsRule

theorem TypePlan.fieldwise_of_ofModel {model : TypeModel} {type : TypeKey} {room : Nat}
    {plan : TypePlan} (before : model.before = none) (after : model.after = none)
    (lenient : model.failFast = false)
    (own : ∀ field ∈ model.fields, ∀ bound ∈ field.rules, bound.IsBuiltin)
    (planned : ofModel model type room = .ok plan) : plan.Fieldwise := by
  obtain ⟨_, rfl⟩ := ofModel_eq_ok planned
  have rules : model.rules = model.fields.flatMap FieldModel.rules := by
    simp [TypeModel.rules, before, after]
  have services : model.services = [] := by
    rw [TypeModel.services, rules]
    apply List.flatMap_eq_nil_iff.2
    intro bound member
    obtain ⟨field, declared, inside⟩ := List.mem_flatMap.1 member
    rw [BoundRule.services, (own field declared bound inside).parameters_eq, List.flatMap_nil]
  refine ⟨?_, ?_, lenient, ?_, fun field member call inside => ?_⟩
  · rw [drawn, before]
    rfl
  · rw [drawn, after]
    rfl
  · rw [drawn, services]
    rfl
  · obtain ⟨declared, present, rfl⟩ := List.mem_map.1 member
    obtain ⟨bound, listed, rfl⟩ := FieldPlan.mem_calls_drawn inside
    exact (own declared present bound listed).looks.decides

/-- Families that are declared with built-in rules alone, and whose objects are validated to the end,
are validated field by field. -/
theorem PlanCache.fieldwise_of_builtin {cache : PlanCache} {type : TypeKey}
    (catalog : cache.catalog = .builtin)
    (plain : ∀ reached, cache.schema.LeadsTo type reached →
      (cache.schema.describe reached).routines = [] ∧ cache.failFastOf reached = false ∧
      ∃ plan, cache.compile reached = .ok plan) : cache.Fieldwise type := by
  intro reached leads
  obtain ⟨bare, lenient, plan, compiled⟩ := plain reached leads
  obtain ⟨model, read, planned⟩ := except_bind_eq_ok compiled
  obtain ⟨_, failFast, fields, before, after⟩ := TypeModel.ofDescriptor_eq_ok read
  have noHook (name : String) :
      TypeModel.hook (cache.schema.describe reached) name = .ok none := by
    simp [TypeModel.hook, TypeDescriptor.routine?, bare]
  refine ⟨plan, compiled, TypePlan.fieldwise_of_ofModel ?_ ?_ (failFast.trans lenient) ?_ planned⟩
  · exact Except.ok.inj (before.symm.trans (noHook _))
  · exact Except.ok.inj (after.symm.trans (noHook _))
  · intro field member
    obtain ⟨_, _, own⟩ := exists_of_forall₂ fields member
    rw [catalog] at own
    exact FieldDescriptor.isBuiltin_of_toModel bare own

end Assay
