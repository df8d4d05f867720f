/-
Module: Assay.Proofs.Cancellation
Purpose: Cancellation is heeded. Whenever a validation looks at its token it sees it as it is, it
  looks at it before every object, every field and every poll, and the first look that finds it
  cancelled is the end of the validation.
Main exports: Validator.answer_heeds_token
-/
import Assay.Proofs.Answers

namespace Assay

namespace Validator

/-- Every look at the token, and every rule that is handed it, sees whether the validation has been
cancelled so far; the first look that finds it cancelled ends everything, and only such a look makes
the answer that the validation was cancelled. Unless no plan was found, what happens is the object's
task, in which no object, no field and no poll is begun without a look at the token. -/
theorem answer_heeds_token (validator : Validator) (object : Object) (way : Way) :
    let verdict := validator.answer object way
    (∀ before event later, verdict.journal = before ++ event :: later →
      ∀ seen, event.sees? = some seen →
        seen = (way.request.cancelled || before.any Event.cancels)) ∧
    (∀ before place later, verdict.journal = before ++ .checkpoint place true :: later →
      later = [] ∧ verdict.result = .error (.error .cancelled)) ∧
    (verdict.result = .error (.error .cancelled) →
      ∃ before place, verdict.journal = before ++ [.checkpoint place true]) ∧
    ((∃ stop cache, validator.prepare object.type way = (.error stop, cache) ∧
        verdict.journal = [] ∧ verdict.result = .error stop) ∨
      ∃ plan cache halt, validator.prepare object.type way = (.ok plan, cache) ∧
        Task.Takes (environment ⟨cache, validator.pools⟩ way.request way.mayWait)
          (.object object plan way.request.context) verdict.journal halt ∧
        Stop.of? verdict.result = halt.map (way.stopped object.type)) := by
  intro verdict
  cases validator.answers object way with
  | refused prepared journal result =>
    have nothing {before later : List Event} {event : Event} :
        verdict.journal ≠ before ++ event :: later := by simp [verdict, journal]
    refine ⟨fun _ _ _ split => absurd split nothing, fun _ _ _ split => absurd split nothing, ?_, ?_⟩
    · intro cancelled
      exact absurd (Except.error.inj (result.symm.trans cancelled)) (ne_cancelled_of_prepare prepared)
    · exact .inl ⟨_, _, prepared, journal, result⟩
  | taken prepared heeds takes result =>
    refine ⟨heeds.sees, fun before place later split => ?_, fun cancelled => ?_, ?_⟩
    · obtain ⟨last, stopped⟩ := heeds.last before place later split
      exact ⟨last, (cancelled_iff_halt result).2 stopped⟩
    · exact heeds.cause ((cancelled_iff_halt result).1 cancelled)
    · exact .inr ⟨_, _, _, prepared, takes, result⟩

end Validator

end Assay
