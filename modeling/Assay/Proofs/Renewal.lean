/-
Module: Assay.Proofs.Renewal
Purpose: Nothing of one validation shows in a later one. Whatever a validator was used for, and whatever
  buffers its pools were given, it answers as it would if it had never been used: with the same outcome
  or the same error, and after the same course.
Main exports: Validator.Use, Validator.AsGoodAs, Validator.AsGoodAs.answer, Validator.answer_as_fresh
-/
import Assay.Proofs.Agreement
import Assay.Proofs.Replanning
import Assay.Proofs.Session

namespace Assay

namespace Validator

/-- One validator can stand in for another one: both are sound, their plans are those of one family,
and their pools serve the same rooms. -/
structure AsGoodAs (validator other : Validator) : Prop where
  cache : validator.cache.Sound
  otherCache : other.cache.Sound
  akin : validator.cache.Akin other.cache
  pools : validator.pools.Yields other.pools.rooms
  otherPools : other.pools.Sound

variable {validator other : Validator}

/-- The plan that is found is the one that a cache answers with. -/
theorem seek_fst (cache : PlanCache) (type : TypeKey) :
    (seek cache type).1 = ((cache.planFor type).map Prod.fst).mapError (.error ∘ .compile) := by
  rw [seek]
  cases cache.planFor type <;> rfl

/-- Two caches of one family find alike. -/
theorem seek_of_akin {cache otherCache : PlanCache} (sound : cache.Sound)
    (otherSound : otherCache.Sound) (akin : cache.Akin otherCache) (type : TypeKey) :
    (seek cache type).1 = (seek otherCache type).1 := by
  rw [seek_fst, seek_fst, PlanCache.planFor_of_akin sound otherSound akin]

namespace AsGoodAs

/-- Other pools may take the place of those there are, if they serve the same rooms. -/
theorem withPools (good : validator.AsGoodAs other) {pools : OutcomePools}
    (yields : pools.Yields other.pools.rooms) : AsGoodAs { validator with pools } other :=
  { good with pools := yields }

/-- Plans are found alike. -/
theorem prepare (good : validator.AsGoodAs other) (type : TypeKey) (way : Way) :
    (validator.prepare type way).1 = (other.prepare type way).1 := by
  cases way with
  | waiting request => exact seek_of_akin good.cache good.otherCache good.akin type
  | now provider =>
    have same := PlanCache.allSynchronous_of_akin good.cache good.otherCache good.akin [] [type]
    obtain ⟨sound, family⟩ := PlanCache.allSynchronous_sound good.cache [] [type]
    obtain ⟨otherSound, otherFamily⟩ := PlanCache.allSynchronous_sound good.otherCache [] [type]
    have akin := (family.akin.trans good.akin).trans otherFamily.akin.symm
    simp only [Validator.prepare, PlanCache.isSynchronous]
    rcases answered : validator.cache.allSynchronous [] [type] with ⟨answer, cache⟩
    rcases otherAnswered : other.cache.allSynchronous [] [type] with ⟨otherAnswer, otherCache⟩
    rw [answered, otherAnswered] at same akin
    rw [answered] at sound
    rw [otherAnswered] at otherSound
    cases same
    rcases answer with _ | _ | _
    · rfl
    · rfl
    · exact seek_of_akin sound otherSound akin type

/-- Validations by the same plan go alike. -/
theorem run (good : validator.AsGoodAs other) (plan : TypePlan) (object : Object) (request : Request)
    (mayWait : Bool) :
    (validator.run plan object request mayWait).result =
        (other.run plan object request mayWait).result ∧
      (validator.run plan object request mayWait).journal =
        (other.run plan object request mayWait).journal := by
  have environments : validator.environment request mayWait = other.environment request mayWait := by
    rw [environment, environment, Environment.mk.injEq]
    refine ⟨funext fun type => ?_, rfl, rfl⟩
    exact PlanCache.planFor_of_akin good.cache good.otherCache good.akin type
  have start : (validator.start request).Alike other.pools.rooms (other.start request) :=
    ⟨rfl, rfl, good.pools, good.otherPools.yields⟩
  obtain ⟨result, after⟩ := object.agrees_run (other.environment request mayWait) plan request.context
    (validator.start request) (other.start request) start
  constructor
  · change (object.run (validator.environment request mayWait) plan request.context
      (validator.start request)).1 = _
    rw [environments]
    exact result
  · change (object.run (validator.environment request mayWait) plan request.context
      (validator.start request)).2.journal = _
    rw [environments]
    exact after.journal

/-- Answers are alike. -/
theorem answer (good : validator.AsGoodAs other) (object : Object) (way : Way) :
    (validator.answer object way).result = (other.answer object way).result ∧
      (validator.answer object way).journal = (other.answer object way).journal := by
  have same := good.prepare object.type way
  rw [answer_eq, answer_eq]
  rcases prepared : validator.prepare object.type way with ⟨found, cache⟩
  rcases otherPrepared : other.prepare object.type way with ⟨otherFound, otherCache⟩
  rw [prepared, otherPrepared] at same
  cases same
  cases found with
  | error stop => exact ⟨rfl, rfl⟩
  | ok plan =>
    have sound : validator.Sound := ⟨good.cache, good.pools.sound⟩
    have otherSound : other.Sound := ⟨good.otherCache, good.otherPools⟩
    obtain ⟨soundAfter, family, _⟩ := sound.prepare prepared
    obtain ⟨otherSoundAfter, otherFamily, _⟩ := otherSound.prepare otherPrepared
    have akin := (family.akin.trans good.akin).trans otherFamily.akin.symm
    have ready : AsGoodAs ⟨cache, validator.pools⟩ ⟨otherCache, other.pools⟩ :=
      ⟨soundAfter, otherSoundAfter, akin, good.pools, good.otherPools⟩
    obtain ⟨result, journal⟩ := ready.run plan object way.request way.mayWait
    exact ⟨congrArg (Except.mapError (way.stopped object.type)) result, journal⟩

end AsGoodAs

/-! ### Use -/

/-- What may be done with a validator and its pools. -/
inductive Use where
  | operation (operation : Operation)
  /-- Drops an outcome that was made out of the pools elsewhere. -/
  | discard (outcome : Outcome)
  /-- Gives a buffer of any origin to the pool of buffers for messages. -/
  | giveMessages (buffer : Buffer Message)
  /-- Gives a buffer of any origin to the pool of buffers for fields; what is in it is dropped. -/
  | giveFields (buffer : Buffer FieldOutcome)

namespace Session

def use (session : Session) : Use → Session
  | .operation operation => session.perform operation
  | .discard outcome => { session with validator := session.validator.discard outcome }
  | .giveMessages buffer =>
    let pools := session.validator.pools
    { session with validator := { session.validator with
      pools := { pools with messages := pools.messages.giveBack buffer } } }
  | .giveFields buffer =>
    let pools := session.validator.pools.releaseFields buffer.items
    { session with validator := { session.validator with
      pools := { pools with fields := pools.fields.giveBack buffer } } }

variable {session : Session} {fresh : Validator}

/-- No operation wears a validator out. -/
theorem asGoodAs_perform (good : session.validator.AsGoodAs fresh) (operation : Operation) :
    (session.perform operation).validator.AsGoodAs fresh := by
  have sound : session.validator.Sound := ⟨good.cache, good.pools.sound⟩
  cases operation with
  | plan type =>
    rw [perform]
    cases planned : session.validator.plan type with
    | error error => exact good
    | ok found =>
      obtain ⟨asked, kept⟩ := plan_eq_ok.1 planned
      obtain ⟨soundAfter, family, _⟩ := PlanCache.planFor_eq_ok good.cache asked
      refine ⟨soundAfter, good.otherCache, family.akin.trans good.akin, ?_, good.otherPools⟩
      rw [kept]
      exact good.pools
  | answer object way =>
    have origin := sound.origin object way
    obtain ⟨soundAfter, rooms⟩ := origin.validator_sound sound
    have akin := origin.validator_extends.akin.trans good.akin
    have yields : OutcomePools.Yields _ fresh.pools.rooms :=
      ⟨soundAfter.pools, rooms.trans good.pools.rooms_eq⟩
    exact ⟨soundAfter.cache, good.otherCache, akin, yields, good.otherPools⟩
  | drop index =>
    rw [perform]
    cases session.held[index]? with
    | none => exact good
    | some outcome => exact good.withPools (good.pools.release outcome)

theorem asGoodAs_use (good : session.validator.AsGoodAs fresh) (use : Use) :
    (session.use use).validator.AsGoodAs fresh := by
  cases use with
  | operation operation => exact asGoodAs_perform good operation
  | discard outcome => exact good.withPools (good.pools.release outcome)
  | giveMessages buffer =>
    -- A pool empties what it keeps, and what it keeps fits the class it is kept in.
    exact good.withPools (good.pools.withMessages (good.pools.sound.messages.giveBack buffer)
      (ArrayPool.sameClasses_giveBack _ buffer))
  | giveFields buffer =>
    have emptied := good.pools.releaseTrees buffer.items
    exact good.withPools (emptied.withFields (emptied.sound.fields.giveBack buffer)
      (ArrayPool.sameClasses_giveBack _ buffer))

theorem asGoodAs_uses (good : session.validator.AsGoodAs fresh) (uses : List Use) :
    (uses.foldl use session).validator.AsGoodAs fresh := by
  induction uses generalizing session with
  | nil => exact good
  | cons first uses ih => exact ih (asGoodAs_use good first)

end Session

/-- A validator that was never used is as good as itself. -/
theorem asGoodAs_configured (schema : Schema) (catalog : RuleCatalog) (options : Options)
    (shells : PoolConfig) (messages fields : ArrayPoolConfig)
    (globalMessageCapacity fieldMessageCapacity : Nat) :
    let fresh : Validator := ⟨{ schema, catalog, options },
      .configured shells messages fields globalMessageCapacity fieldMessageCapacity⟩
    fresh.AsGoodAs fresh := by
  intro fresh
  have sound := OutcomePools.sound_configured shells messages fields globalMessageCapacity
    fieldMessageCapacity
  exact ⟨fresh.cache.sound_cold, fresh.cache.sound_cold, ⟨rfl, rfl, rfl⟩, sound.yields, sound⟩

/-- Nothing of what a validator was used for shows in its answers. After any plans asked for, objects
validated with or without success, outcomes held or dropped, and buffers of any capacity and content
given to the pools, it answers as if it were new: the outcomes agree in every part, their capacities
included, or the errors are the same, and the same was looked up and evaluated in the same order. -/
theorem answer_as_fresh (schema : Schema) (catalog : RuleCatalog) (options : Options)
    (shells : PoolConfig) (messages fields : ArrayPoolConfig)
    (globalMessageCapacity fieldMessageCapacity : Nat) (uses : List Use) (object : Object) (way : Way) :
    let fresh : Validator := ⟨{ schema, catalog, options },
      .configured shells messages fields globalMessageCapacity fieldMessageCapacity⟩
    let used := (uses.foldl Session.use ⟨fresh, []⟩).validator
    (used.answer object way).result = (fresh.answer object way).result ∧
      (used.answer object way).journal = (fresh.answer object way).journal := by
  intro fresh used
  have good := asGoodAs_configured schema catalog options shells messages fields
    globalMessageCapacity fieldMessageCapacity
  exact (Session.asGoodAs_uses good uses).answer object way

end Validator

end Assay
