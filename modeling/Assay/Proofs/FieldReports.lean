/-
Module: Assay.Proofs.FieldReports
Purpose: Which fields an outcome reports. The room for field outcomes suffices for the declared
  fields, but those that the hook before the fields brings along come first and take up room. What
  remains goes to the declared fields in their order, each with the outcome of its own step.
Main exports: Run.Stages.fields_eq, Validator.declared_fields_reported
-/
import Assay.Proofs.Lifetime
import Assay.Proofs.Planning
import Assay.Proofs.Stages

namespace Assay

namespace Run

variable {rooms : Rooms} {env : Environment} {descent : String → Option Descent}

/-- The field outcomes of an object are those that the hook before the fields brought along, then
those of its fields as far as there is room, and then those of the hook after the fields. -/
theorem Stages.fields_eq {target : Object} {plan : TypePlan} {context : Context}
    {start finish : RunState} {first outcome : Outcome} {own : List FieldOutcome}
    (yields : start.pools.Yields rooms)
    (stages : Stages env descent target plan context start first own outcome finish) :
    outcome.fields.capacity = rooms.fields plan.fields.length ∧
      (∃ late, outcome.fields.items = first.fields.items ++
        own.take (outcome.fields.capacity - first.fields.size) ++ late) ∧
      ((∀ call, plan.before = some call → call.shape.contribution ≠ .outcome) →
        first.fields.items = []) := by
  rcases stages with ⟨looked, asked, created, before, steps, after⟩
  have yieldsLooked := (regular_checkpoint _).yields yields looked
  have yieldsAsked := (Regular.mapM (regular_lookup env) _).yields yieldsLooked asked
  obtain ⟨_, led, rfl, _⟩ := tracks_create _ _ _ _ yieldsAsked created
  obtain ⟨_, _, hooks⟩ := tracks_onHook env _ plan plan.before _ _ _ _ (led.pools yieldsAsked) before
  obtain ⟨found, brought, rfl, plain⟩ := hooks.eq_add
  obtain ⟨more, late, rfl⟩ := eq_add_of_onHook after
  rw [steps.last_eq]
  refine ⟨rfl, ⟨_, rfl⟩, fun simple => ?_⟩
  rw [plain simple, Outcome.addFields_nil]
  rfl

end Run

namespace Validator

/-- Where an object is not left at its first failure, every declared field has its step, and the
outcomes of these steps are reported in order behind what the hook before the fields brought along,
as far as there is room; if the hook declares no outcome, that is all of them. -/
theorem declared_fields_reported {validator : Validator} (reachable : validator.Reachable)
    (object : Object) (way : Way) {outcome : Outcome}
    (ended : (validator.answer object way).result = .ok outcome)
    (lenient : validator.cache.failFastOf object.type = false) :
    let env := environment ⟨(validator.prepare object.type way).2, validator.pools⟩ way.request
      way.mayWait
    ∃ plan first own finish,
      validator.cache.compile object.type = .ok plan ∧
      Run.Stages env (fun name => (object.field name).run? env) object plan way.request.context
        (validator.start way.request) first own outcome finish ∧
      (validator.answer object way).journal = finish.journal ∧
      own.map FieldOutcome.path =
        (validator.cache.schema.describe object.type).fields.map FieldDescriptor.name ∧
      own.length ≤ outcome.fields.capacity ∧
      (∃ late, outcome.fields.items = first.fields.items ++
        own.take (outcome.fields.capacity - first.fields.size) ++ late) ∧
      ((∀ call, plan.before = some call → call.shape.contribution ≠ .outcome) →
        own <+: outcome.fields.items) := by
  intro env
  have sound := reachable.sound
  obtain ⟨prepared, soundCache, family, kept, ran, journal⟩ := sound.course ended
  rename_i cache plan finish
  have same : environment ⟨cache, validator.pools⟩ way.request way.mayWait = env := by
    simp only [env, prepared]
  have compiled := family.compile_of_get? soundCache kept
  have patient : plan.failFast = false := (PlanCache.failFast_of_compile compiled).trans lenient
  rw [same, Object.run_eq] at ran
  obtain ⟨first, own, stages⟩ := Run.stages_of_onObject patient ran
  have yields : (validator.start way.request).pools.Yields validator.pools.rooms := sound.pools.yields
  obtain ⟨room, ⟨late, reported⟩, plain⟩ := stages.fields_eq yields
  have paths : own.map FieldOutcome.path = plan.fields.map FieldPlan.name := by
    cases stages with
    | intro _ _ _ _ steps _ => exact steps.paths
  have fits : own.length ≤ outcome.fields.capacity := by
    have counted := congrArg List.length paths
    rw [List.length_map, List.length_map] at counted
    rw [room, counted]
    exact yields.le_fields _
  refine ⟨plan, first, own, finish, compiled, stages, journal, ?_, fits, ⟨late, reported⟩,
    fun simple => ?_⟩
  · exact paths.trans (PlanCache.names_of_declares (PlanCache.declares_of_compile compiled))
  · have whole : own.take (outcome.fields.capacity - first.fields.size) = own := by
      rw [Buffer.size, plain simple]
      exact List.take_of_length_le fits
    rw [reported, plain simple, whole]
    exact List.prefix_append own late

/-- A hook that brings a field outcome along. -/
def bringingHook : Rule :=
  .drafts ⟨1, [], [⟨"brought", 0, [], []⟩]⟩

/-- A field is reported behind what the hook brought along. -/
theorem declared_field_reported :
    ∃ (outcome first : Outcome) (own late : List FieldOutcome),
      ((sampled false [declaredField] bringingHook).answer (.mk .sample []) (.waiting {})).result =
        .ok outcome ∧
      outcome.fields.items.map FieldOutcome.path = ["brought", "declared"] ∧
      own.map FieldOutcome.path = ["declared"] ∧
      outcome.fields.items = first.fields.items ++
        own.take (outcome.fields.capacity - first.fields.size) ++ late := by
  have both : ((sampled false [declaredField] bringingHook).answer (.mk .sample [])
      (.waiting {})).result.toOption.any (fun outcome =>
        outcome.fields.items.map FieldOutcome.path == ["brought", "declared"]) = true := by
    rw [answer, validate_sampled rfl]
    decide +kernel
  cases ended : ((sampled false [declaredField] bringingHook).answer (.mk .sample [])
      (.waiting {})).result with
  | error stop =>
    rw [ended] at both
    cases both
  | ok outcome =>
    rw [ended] at both
    obtain ⟨_, first, own, _, _, _, _, paths, _, ⟨late, reported⟩, _⟩ :=
      declared_fields_reported (reachable_sampled _ _ _) _ _ ended rfl
    exact ⟨outcome, first, own, late, rfl, eq_of_beq both, paths, reported⟩

/-- The hook of this type brings along as many field outcomes as there is room for. -/
theorem declared_field_dropped :
    ∃ (validator : Validator) (object : Object) (way : Way) (outcome : Outcome),
      validator.Reachable ∧ (validator.answer object way).result = .ok outcome ∧
      validator.cache.failFastOf object.type = false ∧
      ∃ field ∈ (validator.cache.schema.describe object.type).fields,
        ∀ reported ∈ outcome.fields.items, reported.path ≠ field.name := by
  let draft : Draft := ⟨16, [], List.replicate 16 ⟨"brought", 0, [], []⟩⟩
  have missing : ((sampled false [declaredField] (.drafts draft)).answer (.mk .sample []) (.waiting {})).result.toOption.any
      (fun outcome => outcome.fields.items.all fun reported => reported.path != "declared") =
      true := by
    rw [answer, validate_sampled rfl]
    decide +kernel
  cases ended : ((sampled false [declaredField] (.drafts draft)).answer (.mk .sample []) (.waiting {})).result with
  | error stop =>
    rw [ended] at missing
    cases missing
  | ok outcome =>
    rw [ended] at missing
    refine ⟨sampled false [declaredField] (.drafts draft), .mk .sample [], .waiting {}, outcome, ?_, ended, ?_⟩
    · exact reachable_sampled _ _ _
    · refine ⟨rfl, declaredField, List.mem_singleton.2 rfl, fun reported member => ?_⟩
      exact bne_iff_ne.1 (List.all_eq_true.1 missing reported member)

end Validator

end Assay
