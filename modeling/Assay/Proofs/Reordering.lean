/-
Module: Assay.Proofs.Reordering
Purpose: Descriptions whose fields are declared in another order. Reading and planning treat fields one
  by one, except that names may be taken and that slots are shared. Where no slots are asked for, the
  plans of such descriptions differ in the order of the fields and in nothing else.
Main exports: PlanCache.Reorders, TypeModel.fieldsOf_perm, TypePlan.ofModel_perm,
  PlanCache.Reorders.compile_self, PlanCache.Reorders.fieldwise, PlanCache.Reorders.reordered
-/
import Mathlib.Data.List.Perm.Basic
import Assay.Proofs.Family
import Assay.Proofs.Rearrangement
import Assay.Proofs.Slots

namespace Assay

/-! ### Reading -/

namespace TypeModel

variable {descriptor : TypeDescriptor} {catalog : RuleCatalog} {autoRules : Bool} {seen : List String}
  {fields : List FieldDescriptor} {models : List FieldModel}

/-- Fields that are read have names of their own, none of which was taken. -/
theorem names_of_fieldsOf (read : fieldsOf descriptor catalog autoRules seen fields = .ok models) :
    (∀ field ∈ fields, field.name ∉ seen) ∧ (fields.map FieldDescriptor.name).Nodup := by
  induction fields generalizing seen models with
  | nil => simp
  | cons field fields ih =>
    rw [fieldsOf] at read
    split at read
    · cases read
    · rename_i free
      obtain ⟨model, own, read⟩ := except_bind_eq_ok read
      obtain ⟨more, others, read⟩ := except_bind_eq_ok read
      obtain ⟨areFree, differ⟩ := ih others
      simp only [List.mem_cons, not_or] at areFree
      constructor
      · exact List.forall_mem_cons.2 ⟨by simpa using free, fun other member => (areFree other member).2⟩
      · rw [List.map_cons, List.nodup_cons]
        refine ⟨fun taken => ?_, differ⟩
        obtain ⟨other, member, same⟩ := List.mem_map.1 taken
        exact (areFree other member).1 same

/-- Fields with names of their own are read if each of them can be. -/
theorem fieldsOf_of_forall₂ (free : ∀ field ∈ fields, field.name ∉ seen)
    (differ : (fields.map FieldDescriptor.name).Nodup)
    (each : List.Forall₂ (fun field model => field.toModel descriptor catalog autoRules = .ok model)
      fields models) : fieldsOf descriptor catalog autoRules seen fields = .ok models := by
  induction each generalizing seen with
  | nil => rfl
  | @cons field model fields models own _ ih =>
    rw [List.forall_mem_cons] at free
    rw [List.map_cons, List.nodup_cons] at differ
    have later : ∀ other ∈ fields, other.name ∉ field.name :: seen := by
      intro other member taken
      rcases List.mem_cons.1 taken with same | before
      · exact differ.1 (same ▸ List.mem_map_of_mem member)
      · exact free.2 other member before
    have others := ih later differ.2
    have isNew : ¬seen.contains field.name = true := by simpa using free.1
    rw [fieldsOf, if_neg isNew]
    simp only [own, others, bind, Except.bind, pure, Except.pure]

/-- Declarations in another order are read in that order. -/
theorem fieldsOf_perm {others : List FieldDescriptor} (permuted : others.Perm fields)
    (read : fieldsOf descriptor catalog autoRules [] fields = .ok models) :
    ∃ more, fieldsOf descriptor catalog autoRules [] others = .ok more ∧ more.Perm models := by
  obtain ⟨more, each, same⟩ := List.perm_comp_forall₂ permuted (forall₂_of_fieldsOf read)
  have differ := (names_of_fieldsOf read).2
  exact ⟨more, fieldsOf_of_forall₂ (by simp) ((permuted.map _).nodup_iff.2 differ) each, same⟩

end TypeModel

/-! ### Planning -/

/-- A type that asks for no services is planned field by field. -/
theorem TypePlan.ofModel_perm {model : TypeModel} {type : TypeKey} {room : Nat} {plan : TypePlan}
    (planned : ofModel model type room = .ok plan) (alone : plan.dependencies = [])
    {fields : List FieldModel} (permuted : fields.Perm model.fields) :
    ∃ more, ofModel { model with fields } type room = .ok { plan with fields := more } ∧
      more.Perm plan.fields := by
  obtain ⟨faultless, rfl⟩ := ofModel_eq_ok planned
  let other : TypeModel := { model with fields }
  have same : other.rules.Perm model.rules :=
    ((permuted.flatMap_right FieldModel.rules).append_right _).append_left _
  have asked : other.services.eraseDups = model.services.eraseDups := by
    have slots : model.services.eraseDups = [] := alone
    rw [slots]
    apply List.eq_nil_iff_forall_not_mem.2
    intro service member
    have known := (same.flatMap_right BoundRule.services).mem_iff.1 (List.mem_eraseDups.1 member)
    have kept : service ∈ model.services.eraseDups := List.mem_eraseDups.2 known
    rw [slots] at kept
    cases kept
  have fine : other.fault? = none := List.findSome?_eq_none_iff.2 fun bound member =>
    List.findSome?_eq_none_iff.1 faultless bound (same.mem_iff.1 member)
  have drawn_other : drawn other type room = { drawn model type room with
      fields := fields.map (FieldPlan.drawn room model.services.eraseDups) } := by
    simp only [drawn, asked, other]
  exact ⟨_, (ofModel_eq_drawn fine type room).trans (congrArg Except.ok drawn_other),
    permuted.map _⟩

theorem TypeModel.ofDescriptor_perm {descriptor : TypeDescriptor} {catalog : RuleCatalog}
    {options : Options} {model : TypeModel} {fields : List FieldDescriptor}
    (permuted : fields.Perm descriptor.fields)
    (read : ofDescriptor descriptor catalog options = .ok model) :
    ∃ more, ofDescriptor { descriptor with fields } catalog options =
        .ok { model with fields := more } ∧ more.Perm model.fields := by
  obtain ⟨inOrder, readFields, read⟩ := except_bind_eq_ok read
  obtain ⟨before, readBefore, read⟩ := except_bind_eq_ok read
  obtain ⟨after, readAfter, read⟩ := except_bind_eq_ok read
  cases read
  obtain ⟨more, readMore, same⟩ := fieldsOf_perm permuted readFields
  have unchanged := fieldsOf_congr descriptor { descriptor with fields } rfl rfl catalog
    (descriptor.settings.autoRules.getD options.autoRules) [] fields
  have hooks (name : String) : hook { descriptor with fields } name = hook descriptor name := rfl
  refine ⟨more, ?_, same⟩
  simp only [ofDescriptor, unchanged, hooks, readMore, readBefore, readAfter, bind, Except.bind, pure,
    Except.pure]

namespace PlanCache

/-- Another cache for a family in which the fields of one type are declared in another order, and which
is the same otherwise. -/
structure Reorders (cache other : PlanCache) (type : TypeKey) : Prop where
  catalog : other.catalog = cache.catalog
  options : other.options = cache.options
  others : ∀ key, key ≠ type → other.schema.describe key = cache.schema.describe key
  fields : ∃ fields, fields.Perm (cache.schema.describe type).fields ∧
    other.schema.describe type = { cache.schema.describe type with fields }

variable {cache other : PlanCache} {type : TypeKey}

/-- No two fields of a plan have one name. -/
theorem nodup_of_compile {plan : TypePlan} (compiled : cache.compile type = .ok plan) :
    (plan.fields.map FieldPlan.name).Nodup := by
  rw [names_of_declares (declares_of_compile compiled)]
  obtain ⟨_, read, _⟩ := except_bind_eq_ok compiled
  obtain ⟨_, readFields, _⟩ := except_bind_eq_ok read
  exact (TypeModel.names_of_fieldsOf readFields).2

namespace Reorders

/-- Where a type is planned field by field, its plan has the fields in the new order. -/
theorem compile_self (reorders : cache.Reorders other type) {plan : TypePlan}
    (compiled : cache.compile type = .ok plan) (fieldwise : plan.Fieldwise) :
    ∃ fields, other.compile type = .ok { plan with fields } ∧ fields.Perm plan.fields := by
  obtain ⟨fields, permuted, described⟩ := reorders.fields
  obtain ⟨model, read, planned⟩ := except_bind_eq_ok compiled
  obtain ⟨models, readOther, same⟩ := TypeModel.ofDescriptor_perm permuted read
  obtain ⟨plans, plannedOther, samePlans⟩ := TypePlan.ofModel_perm planned fieldwise.alone same
  refine ⟨plans, ?_, samePlans⟩
  rw [compile, described, reorders.catalog, reorders.options, readOther]
  exact plannedOther

theorem compile_other (reorders : cache.Reorders other type) {key : TypeKey} (differs : key ≠ type) :
    other.compile key = cache.compile key := by
  rw [compile, compile, reorders.others key differs, reorders.catalog, reorders.options]

/-- A type leads to the same types at once. -/
theorem mem_nestedTypes_iff (reorders : cache.Reorders other type) (key nested : TypeKey) :
    nested ∈ other.schema.nestedTypes key ↔ nested ∈ cache.schema.nestedTypes key := by
  by_cases same : key = type
  · obtain ⟨fields, permuted, described⟩ := reorders.fields
    subst same
    rw [Schema.nestedTypes, Schema.nestedTypes, described]
    exact (permuted.filterMap _).mem_iff
  · rw [Schema.nestedTypes, Schema.nestedTypes, reorders.others key same]

theorem leadsTo_iff (reorders : cache.Reorders other type) (start reached : TypeKey) :
    other.schema.LeadsTo start reached ↔ cache.schema.LeadsTo start reached := by
  simp only [Schema.LeadsTo, reorders.mem_nestedTypes_iff]

/-- The plan of a type has the same fields, perhaps in another order, and is the same otherwise. -/
theorem compile (reorders : cache.Reorders other type) {key : TypeKey} {plan : TypePlan}
    (compiled : cache.compile key = .ok plan) (fieldwise : plan.Fieldwise) :
    ∃ fields, other.compile key = .ok { plan with fields } ∧ fields.Perm plan.fields := by
  by_cases same : key = type
  · subst same
    exact reorders.compile_self compiled fieldwise
  · exact ⟨plan.fields, (reorders.compile_other same).trans compiled, .refl _⟩

/-- Fields that are validated one by one are so in any order. -/
theorem fieldwise (reorders : cache.Reorders other type) {start : TypeKey}
    (fieldwise : cache.Fieldwise start) : other.Fieldwise start := by
  intro reached leads
  obtain ⟨plan, compiled, own⟩ := fieldwise reached ((reorders.leadsTo_iff _ _).1 leads)
  obtain ⟨fields, compiledOther, permuted⟩ := reorders.compile compiled own
  have decides : ∀ field ∈ fields, ∀ call ∈ field.calls, call.rule.Decides :=
    fun field member => own.decides field (permuted.mem_iff.1 member)
  exact ⟨_, compiledOther, { own with decides }⟩

/-- The plans of both families have the same fields, in some order. -/
theorem reordered (reorders : cache.Reorders other type) {start : TypeKey}
    (fieldwise : cache.Fieldwise start) :
    Reordered cache.compile other.compile (cache.schema.LeadsTo start) where
  planned reached leads := by
    obtain ⟨plan, compiled, own⟩ := fieldwise reached leads
    obtain ⟨fields, compiledOther, permuted⟩ := reorders.compile compiled own
    exact ⟨plan, _, compiled, compiledOther, permuted.symm⟩
  closed reached plan leads compiled nested member := by
    rw [nestedTypes_of_compile compiled] at member
    exact leads.tail member
  bare reached plan _ compiled field member holds := by
    obtain ⟨_, _, declares⟩ := exists_of_forall₂ (declares_of_compile compiled) member
    exact List.flatten_eq_nil_iff.2 (declares.groups_of_nested holds)

/-- What is found of a field that does not lead back to the type is the same in both families. -/
theorem content_eq (reorders : cache.Reorders other type) {rooms : Rooms} {field : FieldPlan}
    (away : ∀ nested, field.nested = some nested → ¬cache.schema.LeadsTo nested type)
    (around : TypeKey) (value : Value) :
    field.content rooms cache.compile around value =
      field.content rooms other.compile around value := by
  let reached (key : TypeKey) : Prop :=
    ∃ nested, field.nested = some nested ∧ cache.schema.LeadsTo nested key
  have agrees : ∀ key, reached key → cache.compile key = other.compile key := by
    rintro key ⟨nested, holds, leads⟩
    refine (reorders.compile_other fun same => ?_).symm
    exact away nested holds (same ▸ leads)
  have closed : ∀ key plan, reached key → cache.compile key = .ok plan →
      ∀ nested ∈ plan.nestedTypes, reached nested := by
    rintro key plan ⟨nested, holds, leads⟩ compiled further member
    rw [nestedTypes_of_compile compiled] at member
    exact ⟨nested, holds, leads.tail member⟩
  have held : ∀ key, field.nested = some key → reached key :=
    fun key holds => ⟨key, holds, .refl⟩
  refine FieldPlan.content_congr (fun key holds => agrees key (held key holds)) around value ?_
  intro child _ inner found
  obtain ⟨key, holds, compiled⟩ := FieldPlan.inner?_eq_some found
  exact child.found_congr agrees closed (closed key inner (held key holds) compiled)

end Reorders

end PlanCache

end Assay
