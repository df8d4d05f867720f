/-
Module: Assay.Proofs.Rearrangement
Purpose: Outcomes up to the order of their fields. What is found of an object by plans whose fields
  stand in another order is the same up to that order, on every level on which such a plan is met, and
  exactly the same where none is met.
Main exports: Outcome.Rearranged, FieldsRearranged, Outcome.Rearranged.isSuccess_eq,
  Object.rearranged_found, Object.found_congr
-/
import Assay.Proofs.Findings

namespace Assay

mutual

/-- Two outcomes are the same up to the order of the field outcomes, here and below. -/
inductive Outcome.Rearranged : Outcome → Outcome → Prop where
  | intro (messages : Buffer Message) (capacity : Nat) {fields others : List FieldOutcome}
      (below : FieldsRearranged fields others) :
    Outcome.Rearranged ⟨messages, ⟨fields, capacity⟩⟩ ⟨messages, ⟨others, capacity⟩⟩

/-- Two lists hold the same field outcomes in some order, each up to the order of those below it. -/
inductive FieldsRearranged : List FieldOutcome → List FieldOutcome → Prop where
  | nil : FieldsRearranged [] []
  | cons (path : String) {own other : Outcome} {fields others : List FieldOutcome}
      (content : Outcome.Rearranged own other) (rest : FieldsRearranged fields others) :
    FieldsRearranged (⟨path, own⟩ :: fields) (⟨path, other⟩ :: others)
  | swap (one two : FieldOutcome) (fields : List FieldOutcome) :
    FieldsRearranged (one :: two :: fields) (two :: one :: fields)
  | trans {fields between others : List FieldOutcome} (first : FieldsRearranged fields between)
      (second : FieldsRearranged between others) : FieldsRearranged fields others

end

mutual

theorem Outcome.Rearranged.refl : ∀ outcome : Outcome, outcome.Rearranged outcome
  | ⟨messages, ⟨fields, capacity⟩⟩ => .intro messages capacity (FieldsRearranged.refl fields)
termination_by structural outcome => outcome

theorem FieldsRearranged.refl : ∀ fields : List FieldOutcome, FieldsRearranged fields fields
  | [] => .nil
  | ⟨path, outcome⟩ :: fields =>
    .cons path (Outcome.Rearranged.refl outcome) (FieldsRearranged.refl fields)
termination_by structural fields => fields

end

mutual

/-- The order does not decide about success. -/
theorem Outcome.Rearranged.isSuccess_eq : ∀ {one two : Outcome}, one.Rearranged two →
    one.isSuccess = two.isSuccess
  | _, _, .intro messages capacity below => by
    rw [Outcome.isSuccess, Outcome.isSuccess, below.allSucceed_eq]

theorem FieldsRearranged.allSucceed_eq : ∀ {fields others : List FieldOutcome},
    FieldsRearranged fields others → Outcome.allSucceed fields = Outcome.allSucceed others
  | _, _, .nil => rfl
  | _, _, .cons path content rest => by
    rw [Outcome.allSucceed, Outcome.allSucceed, content.isSuccess_eq, rest.allSucceed_eq]
  | _, _, .swap one two fields => by
    rcases one with ⟨_, one⟩
    rcases two with ⟨_, two⟩
    simp only [Outcome.allSucceed, Bool.and_left_comm]
  | _, _, .trans first second => first.allSucceed_eq.trans second.allSucceed_eq

end

mutual

theorem Outcome.Rearranged.under (name : String) : ∀ {one two : Outcome}, one.Rearranged two →
    (one.under name).Rearranged (two.under name)
  | _, _, .intro messages capacity below => by
    rw [Outcome.under, Outcome.under]
    exact .intro messages capacity (below.fieldsUnder name)

/-- Field outcomes are relabelled one by one. -/
theorem FieldsRearranged.fieldsUnder (name : String) : ∀ {fields others : List FieldOutcome},
    FieldsRearranged fields others →
      FieldsRearranged (Outcome.fieldsUnder name fields) (Outcome.fieldsUnder name others)
  | _, _, .nil => .nil
  | _, _, .cons path content rest => .cons _ (content.under name) (rest.fieldsUnder name)
  | _, _, .swap ⟨_, one⟩ ⟨_, two⟩ fields => .swap _ _ _
  | _, _, .trans first second => (first.fieldsUnder name).trans (second.fieldsUnder name)

end

/-- The field outcomes of the one are those of the other, up to order. -/
theorem Outcome.Rearranged.fields {one two : Outcome} (rearranged : one.Rearranged two) :
    FieldsRearranged one.fields.items two.fields.items := by
  cases rearranged with
  | intro _ _ below => exact below

namespace FieldsRearranged

theorem of_perm {fields others : List FieldOutcome} (permuted : fields.Perm others) :
    FieldsRearranged fields others := by
  induction permuted with
  | nil => exact .nil
  | cons field _ ih =>
    rcases field with ⟨path, outcome⟩
    exact .cons path (.refl outcome) ih
  | swap one two fields => exact .swap two one fields
  | trans _ _ first second => exact first.trans second

/-- Fields that are found the same up to order are so together. -/
theorem of_contents {fields : List FieldPlan} {content other : FieldPlan → Outcome}
    (each : ∀ field ∈ fields, (content field).Rearranged (other field)) :
    FieldsRearranged (fields.map fun field => ⟨field.name, content field⟩)
      (fields.map fun field => ⟨field.name, other field⟩) := by
  induction fields with
  | nil => exact .nil
  | cons field fields ih =>
    rw [List.forall_mem_cons] at each
    exact .cons field.name each.1 (ih each.2)

end FieldsRearranged

/-! ### Findings -/

namespace FieldPlan

variable {rooms : Rooms} {planOf : TypeKey → Except CompileError TypePlan} {field : FieldPlan}

theorem inner?_of_nested {type : TypeKey} {plan : TypePlan} (nested : field.nested = some type)
    (planned : planOf type = .ok plan) : field.inner? planOf = some plan := by
  simp [inner?, nested, planned, Except.toOption]

theorem inner?_of_none (nested : field.nested = none) : field.inner? planOf = none := by
  simp [inner?, nested]

/-- A field that holds an object, and has no calls, has what is found of the object under its name. -/
theorem content_of_child {inner : TypePlan} {child : Object} (type : TypeKey)
    (enough : ∀ n, n ≤ rooms.fields n) (found : field.inner? planOf = some inner)
    (bare : field.calls = []) :
    field.content rooms planOf type (.object child) =
      rooms.reportedField inner.fields.length []
        (Outcome.fieldsUnder field.name (child.found rooms planOf inner).fields.items) := by
  have own : field.own rooms planOf type (.object child) = rooms.field inner.fields.length := by
    simp [FieldPlan.own, found, bare, called]
  have few : (Outcome.fieldsUnder field.name (child.found rooms planOf inner).fields.items).length ≤
      rooms.fields inner.fields.length := by
    rw [Outcome.length_fieldsUnder, Object.found_eq]
    simpa [Rooms.reported] using enough inner.fields.length
  simp only [content, found, own, Outcome.absorb_into, Outcome.moved]
  rw [Object.found_eq] at few ⊢
  simp only [Rooms.reported, List.take_nil, Outcome.addMessages_nil] at few ⊢
  simp [Rooms.field, Rooms.reportedField, Outcome.addFields, Buffer.offer, Buffer.room, Buffer.size,
    Buffer.withCapacity, List.take_of_length_le few]

/-- A field whose value is no object has what its calls give. -/
theorem content_of_no_child {value : Value} (type : TypeKey)
    (empty : ∀ child, value ≠ .object child) :
    field.content rooms planOf type value = field.own rooms planOf type value := by
  unfold content
  split
  · exact absurd rfl (empty _)
  · rfl

/-- Likewise if no object is expected in it. -/
theorem content_of_no_plan (type : TypeKey) (value : Value) (unplanned : field.inner? planOf = none) :
    field.content rooms planOf type value = field.own rooms planOf type value := by
  simp only [content, unplanned]

end FieldPlan

/-- Two ways to plan the types `reached`: each type has the same fields in both, in some order, and
fields that hold objects have no calls. -/
structure Reordered (planOf other : TypeKey → Except CompileError TypePlan) (reached : TypeKey → Prop) :
    Prop where
  planned : ∀ type, reached type → ∃ plan plan', planOf type = .ok plan ∧ other type = .ok plan' ∧
    plan.fields.Perm plan'.fields
  closed : ∀ type plan, reached type → planOf type = .ok plan →
    ∀ nested ∈ plan.nestedTypes, reached nested
  bare : ∀ type plan, reached type → planOf type = .ok plan →
    ∀ field ∈ plan.fields, field.nested.isSome → field.calls = []

variable {rooms : Rooms} {planOf other : TypeKey → Except CompileError TypePlan}
  {reached : TypeKey → Prop}

/-- A field is found the same up to order, if the object is that it may hold. -/
theorem FieldPlan.rearranged_content (enough : ∀ n, n ≤ rooms.fields n)
    (reordered : Reordered planOf other reached) {type : TypeKey} {plan : TypePlan}
    (leads : reached type) (planned : planOf type = .ok plan) {field : FieldPlan}
    (member : field ∈ plan.fields) (around : TypeKey) (value : Value)
    (below : ∀ child, value = .object child → ∀ type plan plan', reached type →
      planOf type = .ok plan → other type = .ok plan' →
        (child.found rooms planOf plan).Rearranged (child.found rooms other plan')) :
    (field.content rooms planOf around value).Rearranged (field.content rooms other around value) := by
  cases nested : field.nested with
  | none =>
    rw [content_of_no_plan _ _ (inner?_of_none nested), content_of_no_plan _ _ (inner?_of_none nested),
      own, own, inner?_of_none nested, inner?_of_none nested]
    exact .refl _
  | some held =>
    have calls := reordered.bare type plan leads planned field member (by simp [nested])
    have ledTo := reordered.closed type plan leads planned held
      (List.mem_filterMap.2 ⟨field, member, nested⟩)
    obtain ⟨plan, plan', planned, planned', permuted⟩ := reordered.planned held ledTo
    have inner := inner?_of_nested nested planned
    have inner' := inner?_of_nested nested planned'
    by_cases holds : ∃ child, value = .object child
    · obtain ⟨child, rfl⟩ := holds
      have found := below child rfl held plan plan' ledTo planned planned'
      rw [content_of_child around enough inner calls, content_of_child around enough inner' calls,
        permuted.length_eq]
      exact .intro _ _ (found.fields.fieldsUnder field.name)
    · have empty : ∀ child, value ≠ .object child := fun child same => holds ⟨child, same⟩
      rw [content_of_no_child _ empty, content_of_no_child _ empty, own, own, inner, inner']
      simp only [Option.map_some, permuted.length_eq]
      exact .refl _

/-- What is found of an object is the same up to order, here and below. -/
theorem Object.rearranged_found (enough : ∀ n, n ≤ rooms.fields n)
    (reordered : Reordered planOf other reached) (object : Object) {type : TypeKey}
    {plan plan' : TypePlan} (leads : reached type) (planned : planOf type = .ok plan)
    (planned' : other type = .ok plan') :
    (object.found rooms planOf plan).Rearranged (object.found rooms other plan') := by
  obtain ⟨_, _, same, same', permuted⟩ := reordered.planned type leads
  cases planned.symm.trans same
  cases planned'.symm.trans same'
  rw [found_eq, found_eq, permuted.length_eq]
  refine .intro _ _ (.trans (.of_contents fun field member => ?_) (.of_perm (permuted.map _)))
  apply FieldPlan.rearranged_content enough reordered leads planned member
  intro child holds held inner inner' ledTo known known'
  exact rearranged_found enough reordered child ledTo known known'
termination_by sizeOf object
decreasing_by exact Object.sizeOf_lt_of_field_eq_object holds

/-- What is found of a field depends on the plans of the types only that it leads to. -/
theorem FieldPlan.content_congr {field : FieldPlan}
    (agrees : ∀ type, field.nested = some type → planOf type = other type) (type : TypeKey)
    (value : Value)
    (below : ∀ child, value = .object child → ∀ inner, field.inner? planOf = some inner →
      child.found rooms planOf inner = child.found rooms other inner) :
    field.content rooms planOf type value = field.content rooms other type value := by
  have same : field.inner? planOf = field.inner? other := by
    cases nested : field.nested with
    | none => rw [inner?_of_none nested, inner?_of_none nested]
    | some held => simp [inner?, nested, agrees held nested]
  simp only [content, own, same]
  split
  · rename_i inner child found
    rw [below child rfl inner (same.trans found)]
  · rfl

theorem Object.found_congr (agrees : ∀ type, reached type → planOf type = other type)
    (closed : ∀ type plan, reached type → planOf type = .ok plan →
      ∀ nested ∈ plan.nestedTypes, reached nested) (object : Object) {plan : TypePlan}
    (leads : ∀ nested ∈ plan.nestedTypes, reached nested) :
    object.found rooms planOf plan = object.found rooms other plan := by
  rw [found_eq, found_eq]
  congr 1
  refine List.map_congr_left fun field member => ?_
  congr 1
  have ledTo : ∀ type, field.nested = some type → reached type := fun type nested =>
    leads type (List.mem_filterMap.2 ⟨field, member, nested⟩)
  refine FieldPlan.content_congr (fun type nested => agrees type (ledTo type nested)) _ _ ?_
  intro child holds inner found
  obtain ⟨type, nested, known⟩ := FieldPlan.inner?_eq_some found
  exact found_congr agrees closed child (closed type inner (ledTo type nested) known)
termination_by sizeOf object
decreasing_by exact Object.sizeOf_lt_of_field_eq_object holds

end Assay
