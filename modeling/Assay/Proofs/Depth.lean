/-
Module: Assay.Proofs.Depth
Purpose: How deep a rule is told that it is. The depth is counted along the path, without the innermost
  name. For a rule of a field that name is the field's own, and what is left are the objects around it.
  A hook has no field of its own: on an object that is held by another one it is told the depth of the
  object around it.
Main exports: Validator.Sunk, Validator.answer_depth, Validator.held_hook_depth
-/
import Assay.Proofs.Location

namespace Assay

namespace Scope.Visits

variable {planOf : TypeKey → Except CompileError TypePlan} {object : Object} {plan inner : TypePlan}
  {attached : List (String × Payload)} {names : List String} {scope : Scope}
  (visits : scope.Visits planOf object plan (.ofValues attached) names inner)

include visits

/-- The path of an object leads along the fields that it is met below. -/
theorem path_eq : scope.context.path = names := by
  simp [visits.context, Context.below, Context.path_ofValues]

/-- The rules of a field are told how many objects are around theirs. -/
theorem depth_inside (field : FieldPlan) : (scope.inside field).context.depth = names.length := by
  simp [Context.depth, Scope.inside, Context.enterField, visits.path_eq]

/-- Hooks are told one less, except on the outermost object. -/
theorem depth_eq : scope.context.depth = names.length - 1 := by
  simp [Context.depth, visits.path_eq]

end Scope.Visits

namespace Validator

variable {validator : Validator}

/-- A call is evaluated on an object that is met below the fields of these names, so many objects below
the outermost one. A rule of a field is told that depth, and a hook one less where there is less. -/
inductive Sunk (validator : Validator) (object : Object) (call : PlannedCall) (input : Call) : Prop where
  | hook {plan inner : TypePlan} {names : List String} {target : Object}
      (compiled : validator.cache.compile object.type = .ok plan)
      (met : Visits validator.cache.compile object plan names target inner) (member : call ∈ inner.hooks)
      (on : input.target = target) (value : input.value = .object target)
      (path : input.context.path = names) (depth : input.context.depth = names.length - 1)
  | field {plan inner : TypePlan} {names : List String} {target : Object} {field : FieldPlan}
      (compiled : validator.cache.compile object.type = .ok plan)
      (met : Visits validator.cache.compile object plan names target inner)
      (declared : field ∈ inner.fields) (member : call ∈ field.calls)
      (on : input.target = target) (value : input.value = target.field field.name)
      (path : input.context.path = names ++ [field.name]) (depth : input.context.depth = names.length)

/-- Wherever a rule is evaluated, the depth that it is told is the number of objects around its own if
it is a rule of a field, and one less, but not less than none, if it is a hook. -/
theorem answer_depth (reachable : validator.Reachable) (object : Object) (way : Way)
    {attached : List (String × Payload)} (started : way.request.context = .ofValues attached) :
    ∀ call input, .evaluation call input ∈ (validator.answer object way).journal →
      validator.Sunk object call input := by
  intro call input happened
  cases validator.answers object way with
  | refused prepared journal result => simp [journal] at happened
  | @taken plan cache halt prepared heeds takes result =>
    obtain ⟨sound, family, kept⟩ := reachable.sound.prepare prepared
    have evaluated := takes.traced_object.evaluated call input happened
    rw [started] at evaluated
    cases evaluated with
    | hook visits member outcome cancelled =>
      obtain ⟨compiled, met, _⟩ := compiled_of_visits sound family (kept plan rfl) visits.met
      exact .hook compiled met member rfl rfl visits.path_eq visits.depth_eq
    | @field scope names inner field visits declared member outcome cancelled =>
      obtain ⟨compiled, met, _⟩ := compiled_of_visits sound family (kept plan rfl) visits.met
      have path : (scope.inside field).context.path = names ++ [field.name] := by
        simp [Scope.inside, Context.enterField, visits.path_eq]
      exact .field compiled met declared member rfl rfl path (visits.depth_inside field)

/-- The routine for the field of an object that is held by another one is told that one object is around
its own. -/
theorem linked_depth :
    let object : Object := .mk .sample [("next", .object (.mk .sample []))]
    ∃ call input, .evaluation call input ∈ (linked.answer object (.waiting {})).journal ∧
      input.context.path = ["next", "declared"] ∧ input.context.depth = 1 ∧
        linked.Sunk object call input := by
  intro object
  have alone : ∀ nested ∈ linked.cache.schema.nestedTypes object.type, nested = object.type := by
    decide +kernel
  have evaluated : (linked.answer object (.waiting {})).journal.any (Event.evaluates fun _ input =>
      input.context.path == ["next", "declared"] && input.context.depth == 1) := by
    rw [answer, validate_of_alone rfl alone]
    decide +kernel
  obtain ⟨call, input, member, sees⟩ := exists_evaluation evaluated
  have started : (Way.waiting {}).request.context = .ofValues [] := rfl
  have sunk := answer_depth (.fresh _ _ _ _ _) object (.waiting {}) started call input member
  simp only [Bool.and_eq_true, beq_iff_eq] at sees
  exact ⟨call, input, member, sees.1, sees.2, sunk⟩

/-- A hook on an object that another one holds, and that lies nowhere else, is told that no object is
around it. -/
theorem held_hook_depth :
    let validator := sampled false [.ofNested "next" .sample] .refuses
    let child : Object := .mk .sample []
    let object : Object := .mk .sample [("next", .object child)]
    (∀ plan names target inner, Visits validator.cache.compile object plan names target inner →
      (names = [] ∧ target = object) ∨ (names = ["next"] ∧ target = child)) ∧
    ∃ call input, .evaluation call input ∈ (validator.answer object (.waiting {})).journal ∧
      input.value = .object child ∧ input.target = child ∧ input.context.depth = 0 := by
  intro validator child object
  constructor
  case left =>
    intro plan names target inner met
    induction met with
    | start => exact .inl ⟨rfl, rfl⟩
    | @nested names outer held above inner field type met member nested planned holds ih =>
      rcases ih with ⟨rfl, rfl⟩ | ⟨rfl, rfl⟩
      case inl =>
        by_cases named : field.name = "next"
        · simp [object, Object.field, Object.fields, named] at holds
          exact .inr ⟨by simp [named], holds.symm⟩
        · have other : (field.name == "next") = false := by simpa using named
          simp [object, Object.field, Object.fields, List.lookup_cons, other] at holds
      case inr => simp [child, Object.field, Object.fields] at holds
  case right =>
    have alone : ∀ nested ∈ validator.cache.schema.nestedTypes object.type, nested = object.type := by
      decide +kernel
    let bare (held : Object) : Bool := held.isOf .sample && held.fields.isEmpty
    have eq_child : ∀ held, bare held = true → held = child := by
      rintro ⟨type, fields⟩ holds
      simpa [bare, Object.isOf, Object.type, Object.fields, child] using holds
    have evaluated : (validator.answer object (.waiting {})).journal.any (Event.evaluates fun _ input =>
        input.value.object?.any bare && (bare input.target && input.context.depth == 0)) := by
      rw [answer, validate_of_alone rfl alone]
      decide +kernel
    obtain ⟨call, input, member, sees⟩ := exists_evaluation evaluated
    simp only [Bool.and_eq_true, beq_iff_eq] at sees
    obtain ⟨onWhole, onChild, depth⟩ := sees
    cases whole : input.value with
    | object held =>
      rw [whole] at onWhole
      exact ⟨call, input, member, whole.trans (congrArg _ (eq_child held onWhole)), eq_child _ onChild,
        depth⟩
    | _ => rw [whole] at onWhole; cases onWhole

end Validator

end Assay
