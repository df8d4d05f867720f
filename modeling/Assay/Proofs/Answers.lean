/-
Module: Assay.Proofs.Answers
Purpose: What happens in an answer, whichever way a validator answers: nothing if no plan is found, and
  otherwise the object's task, in which the token is heeded.
Main exports: Validator.run_takes, Validator.Answers, Validator.answers, Validator.cancelled_iff_halt
-/
import Assay.Proofs.Lifetime
import Assay.Proofs.Unfolding

namespace Assay

namespace Validator

variable {validator : Validator} {object : Object} {way : Way}

/-- A validation is not refused as if it had been cancelled. -/
theorem ne_cancelled_of_prepare {type : TypeKey} {stop : Stop} {cache : PlanCache}
    (refused : validator.prepare type way = (.error stop, cache)) : stop ≠ .error .cancelled := by
  rintro rfl
  have sought {before : PlanCache} : seek before type ≠ (.error (.error .cancelled), cache) := by
    rw [seek]
    cases before.planFor type <;> simp
  cases way with
  | waiting request => exact sought refused
  | now provider =>
    rw [prepare] at refused
    split at refused
    · cases refused
    · cases refused
    · exact sought refused

/-- A validation by a plan takes the object's task. -/
theorem run_takes (validator : Validator) (plan : TypePlan) (object : Object) (request : Request)
    (mayWait : Bool) :
    let verdict := validator.run plan object request mayWait
    Heeds request.cancelled verdict.journal (Stop.of? verdict.result) ∧
      Task.Takes (validator.environment request mayWait) (.object object plan request.context)
        verdict.journal (Stop.of? verdict.result) := by
  have unfolds : Run.Unfolds validator.pools.rooms _ _ :=
    object.unfolds_run (validator.environment request mayWait) plan request.context
  obtain ⟨events, led, heeds, takes⟩ := unfolds (validator.start request)
  have journal : (validator.run plan object request mayWait).journal = events := led.journal
  rw [← journal] at heeds takes
  exact ⟨heeds, takes⟩

/-- How an answer came about: the object was refused before anything happened, or its task was
taken. -/
inductive Answers (validator : Validator) (object : Object) (way : Way) (verdict : Verdict) :
    Prop where
  | refused {stop : Stop} {cache : PlanCache}
      (prepared : validator.prepare object.type way = (.error stop, cache))
      (journal : verdict.journal = []) (result : verdict.result = .error stop)
  | taken {plan : TypePlan} {cache : PlanCache} {halt : Option Stop}
      (prepared : validator.prepare object.type way = (.ok plan, cache))
      (heeds : Heeds way.request.cancelled verdict.journal halt)
      (takes : Task.Takes (environment ⟨cache, validator.pools⟩ way.request way.mayWait)
        (.object object plan way.request.context) verdict.journal halt)
      (result : Stop.of? verdict.result = halt.map (way.stopped object.type))

theorem answers (validator : Validator) (object : Object) (way : Way) :
    validator.Answers object way (validator.answer object way) := by
  rw [answer_eq]
  rcases prepared : validator.prepare object.type way with ⟨found, cache⟩
  cases found with
  | error stop => exact .refused prepared rfl rfl
  | ok plan =>
    obtain ⟨heeds, takes⟩ :=
      run_takes ⟨cache, validator.pools⟩ plan object way.request way.mayWait
    exact .taken prepared heeds takes (Stop.of?_mapError _ _)

/-- A stop by cancellation is reported as it is, and no other stop is. -/
theorem stopped_eq_cancelled {type : TypeKey} {stop : Stop} :
    way.stopped type stop = .error .cancelled ↔ stop = .error .cancelled := by
  cases way with
  | waiting request => rfl
  | now provider => cases stop <;> simp [Way.stopped, unwaited]

/-- An answer says that the validation was cancelled exactly if that is what stopped it. -/
theorem cancelled_iff_halt {type : TypeKey} {halt : Option Stop} {result : Except Stop Outcome}
    (same : Stop.of? result = halt.map (way.stopped type)) :
    result = .error (.error .cancelled) ↔ halt = some (.error .cancelled) := by
  cases result with
  | ok outcome =>
    cases halt with
    | none => simp
    | some stop => cases same
  | error answered =>
    cases halt with
    | none => cases same
    | some stop =>
      cases same
      rw [Except.error.injEq, stopped_eq_cancelled, Option.some.injEq]

end Validator

end Assay
