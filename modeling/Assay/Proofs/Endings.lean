/-
Module: Assay.Proofs.Endings
Purpose: What comes of a part of a validation on sound pools, whether it ends or stops. With the rules a
  field and a hook are followed up to the event at which they stop: among their events a rule is evaluated
  for a call of theirs, on what the calls are made on, or in the validation of the object that the field
  holds.
Main exports: Run.Ensures, Object.Validated, HoldsObject, Run.ensures_onHook, Run.ensures_onNext,
  Run.ensures_begun
-/
import Assay.Proofs.Sites

namespace Assay

namespace Run

variable {rooms : Rooms} {α β : Type}

/-- Whatever comes of a part on sound pools, its result and its events are as `post` says. -/
def Ensures (rooms : Rooms) (action : Run α) (post : Except Stop α → List Event → Prop) : Prop :=
  ∀ state : RunState, state.pools.Yields rooms →
    ∃ events, state.Leads rooms (action state).2 events ∧ post (action state).1 events

namespace Ensures

variable {action : Run α} {next : α → Run β} {post : Except Stop α → List Event → Prop}
  {postNext : Except Stop β → List Event → Prop}

theorem ofUnfolds {post : List Event → Except Stop α → Prop} (unfolds : Unfolds rooms action post) :
    Ensures rooms action fun result events => post events result := by
  intro state _
  obtain ⟨events, led, _, holds⟩ := unfolds state
  exact ⟨events, led, holds⟩

theorem pure {value : α} (holds : post (.ok value) []) : Ensures rooms (Pure.pure value) post :=
  fun state _ => ⟨[], .refl state, holds⟩

theorem mono {weaker : Except Stop α → List Event → Prop} (ensures : Ensures rooms action post)
    (weaken : ∀ result events, post result events → weaker result events) :
    Ensures rooms action weaker := by
  intro state yields
  obtain ⟨events, led, holds⟩ := ensures state yields
  exact ⟨events, led, weaken _ _ holds⟩

/-- A sequence does what its parts do, or what the first of them does if that stops. -/
theorem bind {mid : Except Stop α → List Event → Prop} (first : Ensures rooms action mid)
    (stops : ∀ stop events, mid (.error stop) events → postNext (.error stop) events)
    (second : ∀ value events, mid (.ok value) events →
      Ensures rooms (next value) fun result more => postNext result (events ++ more)) :
    Ensures rooms (action >>= next) postNext := by
  intro state yields
  obtain ⟨events, led, holds⟩ := first state yields
  rw [bind_apply]
  split
  · rename_i value middle ended
    rw [ended] at led holds
    obtain ⟨more, ledOn, holdsOn⟩ := second value events holds middle (led.pools yields)
    exact ⟨events ++ more, led.trans ledOn, holdsOn⟩
  · rename_i stop after stopped
    rw [stopped] at led holds
    exact ⟨events, led, stops stop events holds⟩

theorem holding (ensures : Ensures rooms action post) (outcome : Outcome) :
    Ensures rooms (Run.holding outcome action) post := by
  intro state yields
  obtain ⟨events, led, holds⟩ := ensures state yields
  rw [holding_apply]
  split
  · rename_i ended
    rw [ended] at led holds
    exact ⟨events, led, holds⟩
  · rename_i stop after stopped
    rw [stopped] at led holds
    have released := led.trans (.ofPools fun yields => yields.release outcome)
    rw [List.append_nil] at released
    exact ⟨events, released, holds⟩

theorem ite {condition : Prop} [Decidable condition] {one two : Run α}
    (first : condition → Ensures rooms one post) (second : ¬condition → Ensures rooms two post) :
    Ensures rooms (if condition then one else two) post := by
  split
  · exact first ‹_›
  · exact second ‹_›

/-- What is known of a part that ends is known besides. -/
theorem tracked {good : α → List Event → Prop} (ensures : Ensures rooms action post)
    (tracks : Tracks rooms action good) :
    Ensures rooms action fun result events =>
      post result events ∧ ∀ value, result = .ok value → good value events := by
  intro state yields
  obtain ⟨events, led, holds⟩ := ensures state yields
  refine ⟨events, led, holds, fun value ended => ?_⟩
  obtain ⟨same, ledSame, tracked⟩ := tracks state value _ yields (Prod.ext ended rfl)
  rwa [led.unique ledSame]

end Ensures

/-! ### Calls -/

theorem not_evaluation_of_onlyRefusals {events : List Event} {result : Except Stop α}
    (only : OnlyRefusals events result) (call : PlannedCall) (input : Call) :
    .evaluation call input ∉ events := by
  obtain ⟨⟨refused, rfl⟩, _⟩ := only
  exact not_evaluation_of_refusals refused call input

section

variable (env : Environment) (scope : Scope) (outcome : Outcome)

theorem evaluates_onHook (plan : TypePlan) (hook : Option PlannedCall) :
    Unfolds rooms (onHook env scope plan hook outcome) fun events _ =>
      scope.Evaluates (.object scope.target) outcome hook.toList events := by
  cases hook with
  | none => exact .pure .nil
  | some call =>
    have called : Unfolds rooms (withPools (·.create plan.fields.length) >>= fun scratch =>
        Run.holding scratch (invoke env scope (.object scope.target) outcome call scratch))
        fun events _ => scope.Evaluates (.object scope.target) outcome [call] events :=
      unfolds_after_withPools (fun yields => yields.create _) fun scratch =>
        (evaluates_invoke env scope _ outcome call scratch).holding scratch
    apply (called.holding outcome).bind
    case stops => exact fun events stop first => first
    case second =>
      intro events scratch first
      apply (unfolds_merge outcome scratch none).mono
      intro more result only
      have dropped : scope.Evaluates (.object scope.target) outcome [] more :=
        .silent (not_evaluation_of_onlyRefusals only)
      exact (first.append dropped).mono (by simp)

theorem ensures_onHook (plan : TypePlan) (hook : Option PlannedCall) :
    Ensures rooms (onHook env scope plan hook outcome) fun result events =>
      scope.Evaluates (.object scope.target) outcome hook.toList events ∧
        ∀ after, result = .ok after → Hooks rooms scope plan outcome hook after events :=
  (Ensures.ofUnfolds (evaluates_onHook env scope outcome plan hook)).tracked
    (tracks_onHook env scope plan hook outcome)

end

end Run

/-! ### Fields -/

/-- In these events an object was validated by a plan, on pools with these rooms, and that is what came
of it. -/
inductive Object.Validated (rooms : Rooms) (env : Environment) (target : Object) (plan : TypePlan)
    (context : Context) (events : List Event) (result : Except Stop Outcome) : Prop where
  | intro {start finish : RunState} (yields : start.pools.Yields rooms)
      (ran : target.run env plan context start = (result, finish))
      (journal : finish.journal = start.journal ++ events)

/-- In these events nothing is evaluated, except in the validation of the object that a field holds. -/
inductive HoldsObject (rooms : Rooms) (env : Environment) (scope : Scope) (field : FieldPlan) :
    List Event → Prop where
  | none : HoldsObject rooms env scope field []
  | held {type : TypeKey} {inner : TypePlan} {child : Object} {events : List Event}
      {result : Except Stop Outcome} (nested : field.nested = some type)
      (planned : env.planOf type = .ok inner) (holds : scope.target.field field.name = .object child)
      (validated : child.Validated rooms env inner (scope.inside field).context events result)
      (refused : List FieldOutcome) :
    HoldsObject rooms env scope field (events ++ refused.map .refusal)

/-- In a step with these events a field of an object is validated: it makes its calls while the object's
outcome is `seen`, and then the object that it holds is validated. -/
def StepsThrough (rooms : Rooms) (env : Environment) (scope : Scope) (field : FieldPlan)
    (seen : Outcome) (events : List Event) : Prop :=
  ∃ calls held, events = calls ++ held ∧
    (scope.inside field).Evaluates (scope.target.field field.name) seen field.calls calls ∧
    HoldsObject rooms env scope field held

namespace Run

variable {rooms : Rooms} {env : Environment} {scope : Scope} {field : FieldPlan}

theorem ensures_validated (target : Object) (plan : TypePlan) (context : Context) :
    Ensures rooms (target.run env plan context) fun result events =>
      target.Validated rooms env plan context events result := by
  intro state yields
  obtain ⟨events, led⟩ := target.regular_run env plan context state
  exact ⟨events, led, .intro yields rfl led.journal⟩

theorem ensures_onNested {nested : Option TypePlan} (planned : Planned env field nested)
    (into : Outcome) :
    Ensures rooms (onNested field (scope.inside field).context nested
      ((scope.target.field field.name).run? env) into) fun _ events =>
        HoldsObject rooms env scope field events := by
  cases planned with
  | none => exact .pure .none
  | @some type found nested planned =>
    cases descent : (scope.target.field field.name).run? env with
    | none => exact .pure .none
    | some run =>
      obtain ⟨child, holds, rfl⟩ := Value.run?_eq_some descent
      apply ((ensures_validated child found _).holding into).bind
      case stops =>
        intro stop events validated
        have held := HoldsObject.held nested planned holds validated []
        rwa [List.map_nil, List.append_nil] at held
      case second =>
        intro below events validated
        apply (Ensures.ofUnfolds (unfolds_merge into below (some field.name))).mono
        rintro result _ ⟨⟨refused, rfl⟩, _⟩
        exact .held nested planned holds validated refused

theorem ensures_nestedPlan (env : Environment) (field : FieldPlan) :
    Ensures rooms (nestedPlan env field) fun result events =>
      events = [] ∧ ∀ nested, result = .ok nested → Planned env field nested := by
  rw [← bind_pure (nestedPlan env field)]
  apply Ensures.ofUnfolds
  apply unfolds_after_nestedPlan
  case unplanned =>
    intro type error _ _
    refine ⟨rfl, fun nested same => ?_⟩
    cases same
  case unfolds =>
    intro nested planned
    refine .pure ⟨rfl, fun found same => ?_⟩
    cases same
    exact planned

theorem ensures_onField (strict : Bool) (seen : Outcome) :
    Ensures rooms (onField env (scope.inside field) strict seen
      ((scope.target.field field.name).run? env) field) fun _ events =>
        StepsThrough rooms env scope field seen events := by
  apply (ensures_nestedPlan env field).bind
  case stops =>
    rintro stop _ ⟨rfl, _⟩
    exact ⟨[], [], rfl, .nil, .none⟩
  rintro nested _ ⟨rfl, planned⟩
  have created (room : Nat) : Ensures rooms (withPools (·.createField field.name room))
      fun result events => events = [] ∧ Stop.of? result = none :=
    .ofUnfolds (unfolds_withPools fun yields => yields.createField _ _)
  apply (created _).bind
  case stops =>
    rintro stop _ ⟨_, same⟩
    cases same
  rintro fresh _ ⟨rfl, _⟩
  apply (Ensures.ofUnfolds (evaluates_onGroups env (scope.inside field) _ seen strict field.groups
    fresh.outcome)).bind
  case stops => exact fun stop events evaluates => ⟨events, [], by simp, evaluates, .none⟩
  intro content events evaluates
  refine .ite (fun _ => .pure ⟨events, [], by simp, evaluates, .none⟩) fun _ => ?_
  apply (ensures_onNested (planned nested rfl) content).bind
  case stops => exact fun stop more held => ⟨events, more, rfl, evaluates, held⟩
  exact fun after more held => .pure ⟨events, more, by simp, evaluates, held⟩

/-- The step in which a field is validated goes through its calls and the object that it holds. -/
theorem ensures_onNext (strict : Bool) (seen : Outcome) :
    Ensures rooms (onNext env scope strict seen (fun name => (scope.target.field name).run? env) field)
      fun _ events => StepsThrough rooms env scope field seen events := by
  have looks (token : Bool) : (scope.inside field).Evaluates (scope.target.field field.name) seen []
      [.checkpoint (.field field.name) token] := .silent (by simp)
  apply Ensures.holding
  apply (Ensures.ofUnfolds (unfolds_checkpoint (.field field.name))).bind
  case stops =>
    rintro stop events (⟨rfl, _⟩ | ⟨_, same⟩)
    · exact ⟨_, [], by simp, (looks true).mono (List.nil_subset _), .none⟩
    · cases same
  case second =>
    rintro _ events (⟨_, same⟩ | ⟨rfl, _⟩)
    · cases same
    · apply (ensures_onField strict seen).mono
      rintro result _ ⟨calls, held, rfl, evaluates, holds⟩
      exact ⟨_ :: calls, held, rfl, (looks false).append evaluates, holds⟩

end Run

/-! ### Objects -/

/-- An object is begun with a look at the token and at the services that its plan asks for. -/
def TypePlan.begins (plan : TypePlan) : List Event :=
  .checkpoint (.object plan.type) false :: plan.dependencies.map .lookup

theorem TypePlan.not_evaluation_begins (plan : TypePlan) (call : PlannedCall) (input : Call) :
    .evaluation call input ∉ plan.begins := by
  simp [begins]

namespace Run

/-- An object is begun, and what stops it there evaluates nothing; then its contents are validated. -/
theorem ensures_begun {rooms : Rooms} {env : Environment} {descent : String → Option Descent}
    {target : Object} {plan : TypePlan} {context : Context}
    {post : List Payload → Except Stop Outcome → List Event → Prop}
    (contents : ∀ services, Ensures rooms (onContents env
      ⟨target, services, context.enterType plan.name⟩ descent plan (rooms.object plan.fields.length))
      (post services)) :
    Ensures rooms (onObject env descent target plan context) fun result events =>
      (∀ call input, .evaluation call input ∉ events) ∨
        ∃ services more, events = plan.begins ++ more ∧ post services result more := by
  apply (Ensures.ofUnfolds (unfolds_checkpoint (.object plan.type))).bind
  case stops =>
    rintro stop _ (⟨rfl, _⟩ | ⟨_, same⟩)
    · exact .inl fun call input => by simp
    · cases same
  rintro _ _ (⟨_, same⟩ | ⟨rfl, _⟩)
  · cases same
  apply (Ensures.ofUnfolds (unfolds_lookups env plan.dependencies)).bind
  case stops =>
    rintro stop _ (⟨_, _, _, same⟩ | ⟨asked, missing, _, _, _, _, _, rfl, _⟩)
    · cases same
    · exact .inl fun call input => by simp
  rintro services _ (⟨_, _, rfl, _⟩ | ⟨_, _, _, _, _, _, _, _, same⟩)
  case inr => cases same
  have created : Ensures rooms (withPools (·.create plan.fields.length)) fun result events =>
      (events = [] ∧ Stop.of? result = none) ∧
        ∀ outcome, result = .ok outcome → outcome = rooms.object plan.fields.length ∧ events = [] :=
    (Ensures.ofUnfolds (unfolds_withPools fun yields => yields.create _)).tracked (tracks_create _)
  apply created.bind
  case stops =>
    rintro stop _ ⟨⟨_, same⟩, _⟩
    cases same
  rintro fresh _ ⟨_, made⟩
  obtain ⟨rfl, rfl⟩ := made fresh rfl
  apply (contents services).mono
  intro result more holds
  exact .inr ⟨services, more, by simp [TypePlan.begins], holds⟩

end Run

end Assay
