/-
Module: Assay.Proofs.Meetings
Purpose: What is met in a validation whose plan is kept. The plans of all objects that are met are kept
  as well, so none is missed; and if an output is polled or waited for, then one of the types that are
  led to has a call for which that is declared.
Main exports: Validator.kept_of_visits, Validator.run_traced, Validator.run_ne_compile,
  Validator.exists_of_delays
-/
import Assay.Proofs.Answers
import Assay.Proofs.Planning
import Assay.Proofs.Visits

namespace Assay

/-- Where a plan is kept, those of the types that it leads to are kept as well. -/
theorem PlanCache.Sound.get?_of_mem_nestedTypes {cache : PlanCache} (sound : cache.Sound)
    {type nested : TypeKey} {plan : TypePlan} (kept : cache.get? type = some plan)
    (member : nested ∈ plan.nestedTypes) :
    nested ∈ cache.schema.nestedTypes type ∧ ∃ found, cache.get? nested = some found := by
  have leads : nested ∈ cache.schema.nestedTypes type := by
    rwa [← nestedTypes_of_compile (sound.compiled kept)]
  have isKept := sound.closed (Option.isSome_of_eq_some kept) nested leads
  exact ⟨leads, Option.isSome_iff_exists.1 isKept⟩

namespace Validator

variable {cache : PlanCache} {pools : OutcomePools} {plan inner : TypePlan} {object target : Object}
  {request : Request} {mayWait : Bool} {type : TypeKey} {names : List String}

/-- The plan of an object that is met is the one kept for a type that is led to. -/
theorem kept_of_visits (sound : cache.Sound) (kept : cache.get? type = some plan)
    (met : Visits (environment ⟨cache, pools⟩ request mayWait).planOf object plan names target inner) :
    ∃ reached, cache.schema.LeadsTo type reached ∧ cache.get? reached = some inner := by
  induction met with
  | start => exact ⟨type, .refl, kept⟩
  | @nested names outer child above inner field nested met member holds planned _ ih =>
    obtain ⟨reached, leads, known⟩ := ih
    have direct : nested ∈ above.nestedTypes := List.mem_filterMap.2 ⟨field, member, holds⟩
    obtain ⟨step, found, keptNested⟩ := sound.get?_of_mem_nestedTypes known direct
    rw [planOf_of_get? keptNested] at planned
    cases planned
    exact ⟨nested, leads.tail step, keptNested⟩

/-- What happens in a validation goes back to the objects that are met in it. -/
theorem run_traced (validator : Validator) (plan : TypePlan) (object : Object) (request : Request)
    (mayWait : Bool) :
    let verdict := validator.run plan object request mayWait
    Traced (validator.environment request mayWait).planOf object plan request.context verdict.journal
      (Stop.of? verdict.result) :=
  (run_takes validator plan object request mayWait).2.traced_object

/-- In a validation whose plan is kept, no plan is missing. -/
theorem run_ne_compile (sound : cache.Sound) (kept : cache.get? type = some plan) (pools : OutcomePools)
    (object : Object) (request : Request) (mayWait : Bool) (error : CompileError) :
    (Validator.run ⟨cache, pools⟩ plan object request mayWait).result ≠
      .error (.error (.compile error)) := by
  intro failed
  have traced := run_traced ⟨cache, pools⟩ plan object request mayWait
  cases traced.halts _ (by rw [failed]; rfl) with
  | compile met member missing =>
    obtain ⟨reached, _, known⟩ := kept_of_visits sound kept met
    obtain ⟨_, found, keptNested⟩ := sound.get?_of_mem_nestedTypes known member
    rw [planOf_of_get? keptNested] at missing
    cases missing

/-- Where an output may have to be waited for, a type that is led to has a call that declares it. -/
theorem exists_of_delays (sound : cache.Sound) (kept : cache.get? type = some plan)
    (delays : Delays (environment ⟨cache, pools⟩ request mayWait).planOf object plan) :
    ∃ reached inner, cache.schema.LeadsTo type reached ∧ cache.get? reached = some inner ∧
      inner.isSynchronous = false := by
  obtain ⟨names, target, inner, met, call, member, delayed⟩ := delays
  obtain ⟨reached, leads, known⟩ := kept_of_visits sound kept met
  refine ⟨reached, inner, leads, known, Bool.eq_false_iff.2 fun synchronous => ?_⟩
  exact delayed (inner.isSynchronous_iff.1 synchronous call member)

end Validator

end Assay
