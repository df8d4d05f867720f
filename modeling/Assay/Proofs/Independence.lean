/-
Module: Assay.Proofs.Independence
Purpose: Fields are independent of each other. In families whose fields are validated one by one, what an
  answer says of a field depends on the value of that field alone, and the order in which fields are
  declared decides about the order in which they are reported, on every level, and about nothing else.
Main exports: Validator.fields_independent, Validator.reordered_child
-/
import Mathlib.Data.List.Nodup
import Assay.Proofs.Builtins
import Assay.Proofs.Lifetime
import Assay.Proofs.Reordering
import Assay.Proofs.Replanning

namespace Assay

/-- The labels of the field outcomes. -/
def Outcome.labels (outcome : Outcome) : List String :=
  outcome.fields.items.map FieldOutcome.path

/-- The names of the declared fields. -/
def TypeDescriptor.names (descriptor : TypeDescriptor) : List String :=
  descriptor.fields.map FieldDescriptor.name

/-- A field of that name is declared to hold an object whose type leads to the type itself. -/
def Schema.LeadsBack (schema : Schema) (type : TypeKey) (name : String) : Prop :=
  ∃ field ∈ (schema.describe type).fields, field.name = name ∧
    ∃ nested, field.nested = some nested ∧ schema.LeadsTo nested type

namespace Validator

/-- The field outcomes of an answer are what there is to be found of the declared fields. -/
theorem items_of_answer {validator : Validator} (reachable : validator.Reachable) {object : Object}
    (fieldwise : validator.cache.Fieldwise object.type) {way : Way} {outcome : Outcome}
    (ended : (validator.answer object way).result = .ok outcome) :
    ∃ plan, validator.cache.compile object.type = .ok plan ∧
      outcome = object.found validator.pools.rooms validator.cache.compile plan ∧
      outcome.labels = (validator.cache.schema.describe object.type).names ∧
      outcome.fields.items = plan.fields.map fun field => ⟨field.name,
        field.content validator.pools.rooms validator.cache.compile object.type
          (object.field field.name)⟩ := by
  obtain ⟨plan, compiled, rfl⟩ := eq_found_of_answer fieldwise reachable ended
  have names := PlanCache.names_of_declares (PlanCache.declares_of_compile compiled)
  refine ⟨plan, compiled, rfl, ?_, by rw [Object.found_eq]; rfl⟩
  rw [Object.found_eq, TypeDescriptor.names, ← names, Outcome.labels, Rooms.reported, List.map_map]
  rfl

/-- Fields with one label are reported for one field. -/
theorem field_of_items {fields others : List FieldPlan} (permuted : others.Perm fields)
    (differ : (fields.map FieldPlan.name).Nodup) {content other : FieldPlan → Outcome}
    {own own' : FieldOutcome}
    (member : own ∈ fields.map fun field => ⟨field.name, content field⟩)
    (member' : own' ∈ others.map fun field => ⟨field.name, other field⟩)
    (same : own.path = own'.path) :
    ∃ field ∈ fields, field.name = own.path ∧ own.outcome = content field ∧
      own'.outcome = other field := by
  obtain ⟨field, present, rfl⟩ := List.mem_map.1 member
  obtain ⟨field', present', rfl⟩ := List.mem_map.1 member'
  have one : field = field' :=
    List.inj_on_of_nodup_map differ present (permuted.mem_iff.1 present') same
  subst one
  exact ⟨field, present, rfl, rfl, rfl⟩

variable {validator other : Validator} {type : TypeKey} {way way' : Way}
  {outcome outcome' : Outcome}

/-- What two answers say of a field on which the objects agree is the same. -/
theorem content_of_agreeing (reachable : validator.Reachable) (fieldwise : validator.cache.Fieldwise type)
    (reachableOther : other.Reachable) (akin : other.cache.Akin validator.cache)
    (rooms : other.pools.rooms = validator.pools.rooms) {one two : Object} (ofType : one.type = type)
    (ofType' : two.type = type) (ended : (validator.answer one way).result = .ok outcome)
    (ended' : (other.answer two way').result = .ok outcome') :
    outcome.labels = (validator.cache.schema.describe type).names ∧
    outcome'.labels = (validator.cache.schema.describe type).names ∧
    ∀ own ∈ outcome.fields.items, ∀ own' ∈ outcome'.fields.items, own.path = own'.path →
      one.field own.path = two.field own.path → own.outcome = own'.outcome := by
  subst ofType
  have compiles := akin.compile_eq
  have fieldwiseOther : other.cache.Fieldwise two.type := by
    rw [PlanCache.Fieldwise, akin.schema, compiles, ofType']
    exact fieldwise
  obtain ⟨plan, compiled, _, labels, items⟩ := items_of_answer reachable fieldwise ended
  obtain ⟨plan', compiled', _, labels', items'⟩ :=
    items_of_answer reachableOther fieldwiseOther ended'
  rw [compiles, ofType', compiled] at compiled'
  cases compiled'
  rw [akin.schema, ofType'] at labels'
  refine ⟨labels, labels', fun own member own' member' same agrees => ?_⟩
  rw [items] at member
  rw [items'] at member'
  obtain ⟨field, _, name, content, content'⟩ :=
    field_of_items (.refl _) (PlanCache.nodup_of_compile compiled) member member' same
  rw [content, content', compiles, rooms, ofType', name, agrees]

/-- What is said of a field is the same up to order, if the fields are declared in another order. -/
theorem content_of_reordered (reachable : validator.Reachable)
    (fieldwise : validator.cache.Fieldwise type) (reachableOther : other.Reachable)
    (reorders : validator.cache.Reorders other.cache type)
    (rooms : other.pools.rooms = validator.pools.rooms) {object : Object} (ofType : object.type = type)
    (ended : (validator.answer object way).result = .ok outcome)
    (ended' : (other.answer object way').result = .ok outcome') :
    outcome.labels = (validator.cache.schema.describe type).names ∧
    outcome'.labels = (other.cache.schema.describe type).names ∧
    outcome.isSuccess = outcome'.isSuccess ∧
    ∀ own ∈ outcome.fields.items, ∀ own' ∈ outcome'.fields.items, own.path = own'.path →
      own.outcome.Rearranged own'.outcome ∧
      (¬validator.cache.schema.LeadsBack type own.path → own.outcome = own'.outcome) := by
  subst ofType
  have reordered := reorders.reordered fieldwise
  have enough := reachable.sound.pools.yields.le_fields
  obtain ⟨plan, compiled, found, labels, items⟩ := items_of_answer reachable fieldwise ended
  obtain ⟨plan', compiled', found', labels', items'⟩ :=
    items_of_answer reachableOther (reorders.fieldwise fieldwise) ended'
  obtain ⟨_, _, known, known', permuted⟩ := reordered.planned object.type .refl
  cases compiled.symm.trans known
  cases compiled'.symm.trans known'
  refine ⟨labels, labels', ?_, fun own member own' member' same => ?_⟩
  case refine_1 =>
    rw [found, found', rooms]
    exact (object.rearranged_found enough reordered .refl compiled compiled').isSuccess_eq
  case refine_2 =>
    rw [items] at member
    rw [items', rooms] at member'
    obtain ⟨field, present, name, content, content'⟩ :=
      field_of_items permuted.symm (PlanCache.nodup_of_compile compiled) member member' same
    rw [content, content']
    constructor
    case left =>
      apply FieldPlan.rearranged_content enough reordered .refl compiled present
      intro child _ key inner inner' leads known known'
      exact child.rearranged_found enough reordered leads known known'
    case right =>
      intro away
      apply reorders.content_eq
      intro nested holds leads
      obtain ⟨declared, listed, declares⟩ :=
        exists_of_forall₂ (PlanCache.declares_of_compile compiled) present
      rw [declares.nested] at holds
      exact away ⟨declared, listed, declares.name.symm.trans name, nested, holds, leads⟩

/-- Fields are independent. In a family without hooks, services and stops at the first failure, whose
rules decide by the value (as all built-in rules do), a validation that nobody cancels ends with an
outcome. In the outcomes of any two objects of a type, whatever is between them, a field on which the
objects agree has the same content. If the fields of the type are declared in another order, they are
reported in that order; the outcome is a success or not as before, and what is reported of a field is
the same, up to the order of the field outcomes in it if the field holds an object that leads back to
the type, and exactly otherwise. -/
theorem fields_independent {validator : Validator} (reachable : validator.Reachable) {type : TypeKey}
    (fieldwise : validator.cache.Fieldwise type) :
    let schema := validator.cache.schema
    (∀ (object : Object) (request : Request), object.type = type →
      (validator.validate object request).cancelled = false →
      (∀ event ∈ (validator.validate object request).journal,
        event.proceeds request.provider = true) →
      ∃ outcome, (validator.validate object request).result = .ok outcome) ∧
    (∀ other : Validator, other.Reachable → other.cache.Akin validator.cache →
      other.pools.rooms = validator.pools.rooms →
      ∀ (one two : Object) (way way' : Way) (outcome outcome' : Outcome),
        one.type = type → two.type = type → (validator.answer one way).result = .ok outcome →
        (other.answer two way').result = .ok outcome' →
        outcome.labels = (schema.describe type).names ∧
        outcome'.labels = (schema.describe type).names ∧
        ∀ own ∈ outcome.fields.items, ∀ own' ∈ outcome'.fields.items, own.path = own'.path →
          one.field own.path = two.field own.path → own.outcome = own'.outcome) ∧
    (∀ other : Validator, other.Reachable → validator.cache.Reorders other.cache type →
      other.pools.rooms = validator.pools.rooms →
      other.cache.Fieldwise type ∧
      ∀ (object : Object) (way way' : Way) (outcome outcome' : Outcome), object.type = type →
        (validator.answer object way).result = .ok outcome →
        (other.answer object way').result = .ok outcome' →
        outcome.labels = (schema.describe type).names ∧
        outcome'.labels = (other.cache.schema.describe type).names ∧
        outcome.isSuccess = outcome'.isSuccess ∧
        ∀ own ∈ outcome.fields.items, ∀ own' ∈ outcome'.fields.items, own.path = own'.path →
          own.outcome.Rearranged own'.outcome ∧
          (¬schema.LeadsBack type own.path → own.outcome = own'.outcome)) ∧
    ∀ (id : String) (args : RuleArgs) (rule : Rule),
      RuleCatalog.builtin.make? id args = .ok (some rule) → rule.LooksAtValue ∧ rule.Decides := by
  refine ⟨?_, ?_, ?_, ?_⟩
  case refine_1 =>
    rintro object request rfl uncancelled proceeds
    exact validate_ends fieldwise reachable uncancelled proceeds
  case refine_2 =>
    intro other reachableOther akin rooms one two way way' outcome outcome'
    exact content_of_agreeing reachable fieldwise reachableOther akin rooms
  case refine_3 =>
    intro other reachableOther reorders rooms
    refine ⟨reorders.fieldwise fieldwise, fun object way way' outcome outcome' => ?_⟩
    exact content_of_reordered reachable fieldwise reachableOther reorders rooms
  case refine_4 =>
    intro id args rule made
    have looks := RuleCatalog.looksAtValue_of_builtin made
    exact ⟨looks, looks.decides⟩

/-! ### A family with one type and built-in rules -/

/-- A validator of one type with these fields, for which there are the built-in rules. -/
def declaring (fields : List FieldDescriptor) : Validator :=
  .ofOptions ⟨[(.sample, { name := "Sample", fields })]⟩ .builtin {}

/-- Fields of the one type lead to it only. -/
theorem fieldwise_declaring {fields : List FieldDescriptor}
    (alone : ∀ field ∈ fields, ∀ nested, field.nested = some nested → nested = .sample)
    (compiles : ((declaring fields).cache.compile .sample).toBool = true) :
    (declaring fields).cache.Fieldwise .sample := by
  apply PlanCache.fieldwise_of_builtin rfl
  intro reached leads
  have same : reached = .sample := by
    apply leads.eq_of_alone
    intro nested next
    obtain ⟨field, member, holds⟩ := List.mem_filterMap.1 next
    exact alone field member nested holds
  subst same
  refine ⟨rfl, rfl, ?_⟩
  cases found : (declaring fields).cache.compile .sample with
  | error error => simp [found, Except.toBool] at compiles
  | ok plan => exact ⟨plan, rfl⟩

theorem reorders_declaring {fields others : List FieldDescriptor} (permuted : others.Perm fields) :
    (declaring fields).cache.Reorders (declaring others).cache .sample where
  catalog := rfl
  options := rfl
  others key differs := by
    have unknown : (key == TypeKey.sample) = false := beq_eq_false_iff_ne.2 differs
    simp [declaring, ofOptions, Schema.describe, List.lookup_cons, unknown]
  fields := ⟨others, permuted, rfl⟩

/-- A field for a text that must be there and not too short. -/
def namedField : FieldDescriptor :=
  { name := "name", type := "String",
    attachments := [{ rule := "required" }, { rule := "length", args := ⟨[("min", .integer 3)]⟩ }] }

/-- A field for another object of the type. -/
def childField : FieldDescriptor :=
  .ofNested "child" .sample

theorem named_field_independent :
    let validator := declaring [namedField, childField]
    let one : Object := .mk .sample [("name", .text "Al")]
    let two : Object := .mk .sample [("name", .text "Al"), ("child", .object (.mk .sample []))]
    ∃ outcome outcome', (validator.validate one {}).result = .ok outcome ∧
      (validator.validate two {}).result = .ok outcome' ∧
      outcome.labels = ["name", "child"] ∧ outcome'.labels = ["name", "child"] ∧
      ∀ own ∈ outcome.fields.items, ∀ own' ∈ outcome'.fields.items, own.path = "name" →
        own'.path = "name" → own.outcome = own'.outcome := by
  intro validator one two
  have reachable : validator.Reachable := .fresh _ _ _ _ _
  have fieldwise : validator.cache.Fieldwise .sample :=
    fieldwise_declaring (by decide) (by decide +kernel)
  obtain ⟨ends, agree, -⟩ := fields_independent reachable fieldwise
  have alone : ∀ nested ∈ validator.cache.schema.nestedTypes .sample, nested = .sample := by decide
  obtain ⟨outcome, ended⟩ := ends one {} rfl
    (by rw [validate_of_alone rfl alone]; decide +kernel)
    (by rw [validate_of_alone rfl alone]; decide +kernel)
  obtain ⟨outcome', ended'⟩ := ends two {} rfl
    (by rw [validate_of_alone rfl alone]; decide +kernel)
    (by rw [validate_of_alone rfl alone]; decide +kernel)
  obtain ⟨labels, labels', same⟩ := agree validator reachable ⟨rfl, rfl, rfl⟩ rfl one two
    (.waiting {}) (.waiting {}) outcome outcome' rfl rfl ended ended'
  refine ⟨outcome, outcome', ended, ended', labels, labels', ?_⟩
  intro own member own' member' named named'
  exact same own member own' member' (named.trans named'.symm) (by rw [named]; rfl)

/-- Whether there is an outcome in which something is reported of a field, with these labels below. -/
def shows (path : String) (below : List String) : Except Stop Outcome → Bool
  | .ok outcome =>
    outcome.fields.items.any fun own => own.path == path && own.outcome.labels == below
  | .error _ => false

theorem exists_of_shows {path : String} {below : List String} {result : Except Stop Outcome}
    (shown : shows path below result = true) :
    ∃ outcome, result = .ok outcome ∧
      ∃ own ∈ outcome.fields.items, own.path = path ∧ own.outcome.labels = below := by
  cases result with
  | error stop => cases shown
  | ok outcome =>
    obtain ⟨own, member, holds⟩ := List.any_eq_true.1 shown
    simp only [Bool.and_eq_true, beq_iff_eq] at holds
    exact ⟨outcome, rfl, own, member, holds⟩

/-- What is reported of a field that holds an object of the type itself has the field outcomes below it
in the order in which the fields of the type are declared. -/
theorem reordered_child :
    let validator := declaring [namedField, childField]
    let other := declaring [childField, namedField]
    let object : Object := .mk .sample [("child", .object (.mk .sample []))]
    validator.cache.Fieldwise .sample ∧ validator.cache.Reorders other.cache .sample ∧
    ∃ outcome outcome', (validator.validate object {}).result = .ok outcome ∧
      (other.validate object {}).result = .ok outcome' ∧
      ∃ own ∈ outcome.fields.items, ∃ own' ∈ outcome'.fields.items,
        own.path = "child" ∧ own'.path = "child" ∧ own.outcome ≠ own'.outcome := by
  intro validator other object
  have fieldwise : validator.cache.Fieldwise .sample :=
    fieldwise_declaring (by decide) (by decide +kernel)
  have reorders : validator.cache.Reorders other.cache .sample := reorders_declaring (.swap _ _ [])
  have alone : ∀ nested ∈ validator.cache.schema.nestedTypes .sample, nested = .sample := by decide
  have alone' : ∀ nested ∈ other.cache.schema.nestedTypes .sample, nested = .sample := by decide
  obtain ⟨outcome, ended, own, member, path, labels⟩ :=
    exists_of_shows (show shows "child" ["child.name", "child.child"]
      (validator.validate object {}).result = true by
        rw [validate_of_alone rfl alone]; decide +kernel)
  obtain ⟨outcome', ended', own', member', path', labels'⟩ :=
    exists_of_shows (show shows "child" ["child.child", "child.name"]
      (other.validate object {}).result = true by
        rw [validate_of_alone rfl alone']; decide +kernel)
  refine ⟨fieldwise, reorders, outcome, outcome', ended, ended', own, member, own', member', path,
    path', fun same => ?_⟩
  rw [← same, labels] at labels'
  exact absurd labels' (by decide)

end Validator

end Assay
