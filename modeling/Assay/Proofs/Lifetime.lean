/-
Module: Assay.Proofs.Lifetime
Purpose: What holds of a validator whatever it was used for before. To answer, it finds the plan of
  the object's type, and makes sure that it will not have to wait where it may not. Its plans are those
  of its family, its pools are as good as new, and a verdict with an outcome comes from a validation of
  the object by the plan of its type.
Main exports: Validator.Way, Validator.answer, Validator.prepare, Validator.answer_eq,
  Validator.Reachable, Validator.Origin, Validator.Sound.origin, Validator.Reachable.sound,
  Validator.Course
-/
import Assay.Proofs.Course
import Assay.Proofs.Family
import Assay.Validator

namespace Assay

/-- Renaming what stops something does not change what comes of it otherwise. -/
theorem mapError_eq_ok {ε ε' α : Type} {result : Except ε α} {change : ε → ε'} {value : α} :
    result.mapError change = .ok value ↔ result = .ok value := by
  constructor
  · intro same
    cases result with
    | ok found =>
      cases same
      rfl
    | error stop => cases same
  · rintro rfl
    rfl

namespace Validator

/-- A way of validating. -/
inductive Way where
  /-- Waiting for outputs where that is needed. -/
  | waiting (request : Request)
  | now (provider : Provider)

/-- The verdict on an object. -/
def answer (validator : Validator) (object : Object) : Way → Verdict
  | .waiting request => validator.validate object request
  | .now provider => validator.validateNow object provider

/-- What a validation of that way is given. -/
def Way.request : Way → Request
  | .waiting request => request
  | .now provider => { provider }

/-- Whether outputs may be waited for. -/
def Way.mayWait : Way → Bool
  | .waiting _ => true
  | .now _ => false

/-- How a validation answers that was stopped. -/
def Way.stopped (type : TypeKey) : Way → Stop → Stop
  | .waiting _ => id
  | .now _ => unwaited type

/-- Finds a plan among those kept or makes it, or says why there is none, and leaves the plans kept after
that. -/
def seek (cache : PlanCache) (type : TypeKey) : Except Stop TypePlan × PlanCache :=
  match cache.planFor type with
  | .error error => (.error (.error (.compile error)), cache)
  | .ok (plan, cache) => (.ok plan, cache)

/-- Finds the plan for a validation, which may have to be one that never waits. -/
def prepare (validator : Validator) (type : TypeKey) : Way → Except Stop TypePlan × PlanCache
  | .waiting _ => seek validator.cache type
  | .now _ =>
    match validator.cache.isSynchronous type with
    | (.error error, cache) => (.error (.error (.compile error)), cache)
    | (.ok false, cache) => (.error (unwaited type .waiting), cache)
    | (.ok true, cache) => seek cache type

/-- An answer is a refusal, or a validation by the plan that was found. -/
theorem answer_eq (validator : Validator) (object : Object) (way : Way) :
    validator.answer object way =
      match validator.prepare object.type way with
      | (.error stop, cache) => { result := .error stop, validator := { validator with cache } }
      | (.ok plan, cache) =>
        let verdict := Validator.run ⟨cache, validator.pools⟩ plan object way.request way.mayWait
        { verdict with result := verdict.result.mapError (way.stopped object.type) } := by
  cases way with
  | waiting request =>
    rw [answer, validate, Validator.plan, prepare, seek]
    cases validator.cache.planFor object.type with
    | error error => rfl
    | ok found =>
      simp only [Way.stopped, Way.request, Way.mayWait]
      generalize Validator.run _ _ object request true = verdict
      rcases verdict with ⟨_ | _, _⟩ <;> rfl
  | now provider =>
    rw [answer, validateNow, prepare]
    rcases validator.cache.isSynchronous object.type with ⟨_ | _ | _, cache⟩
    · rfl
    · rfl
    · simp only [Validator.plan, seek]
      cases cache.planFor object.type <;> rfl

/-- Plans that are kept are found in a validation. -/
theorem planOf_of_get? {cache : PlanCache} {pools : OutcomePools} {request : Request} {mayWait : Bool}
    {type : TypeKey} {plan : TypePlan} (kept : cache.get? type = some plan) :
    (environment ⟨cache, pools⟩ request mayWait).planOf type = .ok plan := by
  simp only [environment, PlanCache.planFor_of_get? kept]
  rfl

/-- The validators with pools of the usual kind, in any state that they can be brought into: plans
were asked for, objects were validated, outcomes were released, and arrays of any origin were given
to the pools. -/
inductive Reachable : Validator → Prop where
  | fresh (schema : Schema) (catalog : RuleCatalog) (options poolOptions : Options)
      (config : ArrayPoolConfig) :
    Reachable ⟨{ schema, catalog, options }, .ofOptions poolOptions config⟩
  | plan {validator after : Validator} (reachable : Reachable validator) (type : TypeKey)
      (plan : TypePlan) (planned : validator.plan type = .ok (plan, after)) : Reachable after
  | answer {validator : Validator} (reachable : Reachable validator) (object : Object)
      (way : Way) : Reachable (validator.answer object way).validator
  | discard {validator : Validator} (reachable : Reachable validator) (outcome : Outcome) :
    Reachable (validator.discard outcome)
  | giveMessages {validator : Validator} (reachable : Reachable validator)
      (buffer : Buffer Message) :
    Reachable { validator with
      pools := { validator.pools with messages := validator.pools.messages.giveBack buffer } }
  | giveFields {validator : Validator} (reachable : Reachable validator)
      (buffer : Buffer FieldOutcome) :
    Reachable { validator with
      pools := { validator.pools with fields := validator.pools.fields.giveBack buffer } }

/-- Plans and pools are as they should be. -/
structure Sound (validator : Validator) : Prop where
  cache : validator.cache.Sound
  pools : validator.pools.Sound

variable {validator : Validator} {object : Object} {way : Way} {verdict : Verdict} {outcome : Outcome}

/-! ### Validating keeps a validator sound -/

theorem yields_run {rooms : Rooms} (yields : validator.pools.Yields rooms) (plan : TypePlan)
    (object : Object) (request : Request) (mayWait : Bool) :
    (validator.run plan object request mayWait).validator.pools.Yields rooms := by
  obtain ⟨events, led⟩ := object.regular_run (validator.environment request mayWait) plan
    request.context (validator.start request)
  exact led.pools yields

/-- Asking for a plan changes nothing but the cache. -/
theorem plan_eq_ok {type : TypeKey} {plan : TypePlan} {after : Validator} :
    validator.plan type = .ok (plan, after) ↔
      validator.cache.planFor type = .ok (plan, after.cache) ∧ after.pools = validator.pools := by
  rcases after with ⟨cacheAfter, poolsAfter⟩
  rw [Validator.plan]
  cases validator.cache.planFor type with
  | error error => simp
  | ok found =>
    rcases found with ⟨made, cache⟩
    simp only [Except.ok.injEq, Prod.mk.injEq, Validator.mk.injEq, and_assoc, eq_comm]

/-- What is found is the plan of the type, which is kept from then on. -/
theorem sound_of_seek {cache after : PlanCache} (sound : cache.Sound) {type : TypeKey}
    {found : Except Stop TypePlan} (sought : seek cache type = (found, after)) :
    after.Sound ∧ after.Extends cache ∧ ∀ plan, found = .ok plan → after.get? type = some plan := by
  rw [seek] at sought
  cases asked : cache.planFor type with
  | error error =>
    rw [asked] at sought
    cases sought
    exact ⟨sound, .refl _, fun plan same => by simp at same⟩
  | ok made =>
    rw [asked] at sought
    cases sought
    obtain ⟨soundAfter, family, kept⟩ := PlanCache.planFor_eq_ok sound asked
    exact ⟨soundAfter, family, fun plan same => Except.ok.inj same ▸ kept⟩

/-- What is prepared for is the plan of the type, in a cache of the same family. -/
theorem Sound.prepare (sound : validator.Sound) {type : TypeKey} {found : Except Stop TypePlan}
    {cache : PlanCache} (prepared : validator.prepare type way = (found, cache)) :
    cache.Sound ∧ cache.Extends validator.cache ∧
      ∀ plan, found = .ok plan → cache.get? type = some plan := by
  cases way with
  | waiting request => exact sound_of_seek sound.cache prepared
  | now provider =>
    have asked := PlanCache.allSynchronous_sound sound.cache [] [type]
    rw [Validator.prepare, PlanCache.isSynchronous] at prepared
    rcases answered : validator.cache.allSynchronous [] [type] with ⟨answer, between⟩
    rw [answered] at asked prepared
    rcases asked with ⟨soundBetween, family⟩
    rcases answer with _ | _ | _
    · cases prepared
      exact ⟨soundBetween, family, fun plan same => by simp at same⟩
    · cases prepared
      exact ⟨soundBetween, family, fun plan same => by simp at same⟩
    · obtain ⟨soundAfter, familyAfter, kept⟩ := sound_of_seek soundBetween prepared
      exact ⟨soundAfter, familyAfter.trans family, kept⟩

/-- Where the validator of a verdict comes from: either nothing was validated, and the pools are as they
were; or an object was validated by a plan, on these pools and from an empty journal. -/
inductive Origin (validator : Validator) (object : Object) (verdict : Verdict) : Prop where
  | refused {cache : PlanCache} (sound : cache.Sound) (family : cache.Extends validator.cache)
      (validated : verdict.validator = ⟨cache, validator.pools⟩)
  | ran {cache : PlanCache} {plan : TypePlan} {request : Request} {mayWait : Bool}
      (sound : cache.Sound) (family : cache.Extends validator.cache)
      (validated : verdict.validator =
        (Validator.run ⟨cache, validator.pools⟩ plan object request mayWait).validator)

theorem Sound.origin (sound : validator.Sound) (object : Object) (way : Way) :
    validator.Origin object (validator.answer object way) := by
  rw [answer_eq]
  rcases prepared : validator.prepare object.type way with ⟨found, cache⟩
  obtain ⟨soundAfter, family, kept⟩ := sound.prepare prepared
  cases found with
  | error stop => exact .refused soundAfter family rfl
  | ok plan => exact .ran soundAfter family rfl

/-- A validator stays sound, and its pools keep their rooms. -/
theorem Origin.validator_sound (origin : validator.Origin object verdict)
    (sound : validator.Sound) :
    verdict.validator.Sound ∧ verdict.validator.pools.rooms = validator.pools.rooms := by
  cases origin with
  | refused soundAfter _ validated =>
    rw [validated]
    exact ⟨⟨soundAfter, sound.pools⟩, rfl⟩
  | @ran cache plan request mayWait soundAfter _ validated =>
    rw [validated]
    have start : OutcomePools.Yields (Validator.mk cache validator.pools).pools
        validator.pools.rooms := sound.pools.yields
    have yields := yields_run start plan object request mayWait
    exact ⟨⟨soundAfter, yields.sound⟩, yields.rooms_eq⟩

/-- A validator keeps its family, and it forgets no plan. -/
theorem Origin.validator_extends (origin : validator.Origin object verdict) :
    verdict.validator.cache.Extends validator.cache := by
  cases origin with
  | refused _ family validated => exact validated ▸ family
  | ran _ family validated => exact validated ▸ family

theorem Reachable.sound (reachable : validator.Reachable) : validator.Sound := by
  induction reachable with
  | fresh schema catalog options poolOptions config =>
    refine ⟨⟨?_, ?_⟩, OutcomePools.sound_ofOptions poolOptions config⟩
    · intro type plan found
      cases found
    · intro type found
      cases found
  | plan _ type plan planned sound =>
    obtain ⟨asked, pools⟩ := plan_eq_ok.1 planned
    exact ⟨(PlanCache.planFor_eq_ok sound.cache asked).1, pools ▸ sound.pools⟩
  | answer _ object way sound => exact ((sound.origin object way).validator_sound sound).1
  | discard _ outcome sound => exact ⟨sound.cache, (sound.pools.yields.release outcome).sound⟩
  | giveMessages _ buffer sound =>
    have given := sound.pools.messages.giveBack buffer
    exact ⟨sound.cache, { sound.pools with messages := given }⟩
  | giveFields _ buffer sound =>
    have given := sound.pools.fields.giveBack buffer
    exact ⟨sound.cache, { sound.pools with fields := given }⟩

/-! ### Verdicts with an outcome -/

/-- How an answer with an outcome came about: the plan of the object's type was found, and the object was
validated by it. -/
inductive Course (validator : Validator) (object : Object) (way : Way) (outcome : Outcome) : Prop where
  | intro {cache : PlanCache} {plan : TypePlan} {finish : RunState}
      (prepared : validator.prepare object.type way = (.ok plan, cache))
      (sound : cache.Sound) (family : cache.Extends validator.cache)
      (kept : cache.get? object.type = some plan)
      (ended : object.run (environment ⟨cache, validator.pools⟩ way.request way.mayWait) plan
        way.request.context (validator.start way.request) = (.ok outcome, finish))
      (journal : (validator.answer object way).journal = finish.journal)

/-- An answer with an outcome comes from a validation that ended. -/
theorem Sound.course (sound : validator.Sound)
    (ended : (validator.answer object way).result = .ok outcome) :
    validator.Course object way outcome := by
  have same := answer_eq validator object way
  rcases prepared : validator.prepare object.type way with ⟨found, cache⟩
  obtain ⟨soundAfter, family, kept⟩ := sound.prepare prepared
  rw [prepared] at same
  cases found with
  | error stop =>
    rw [same] at ended
    cases ended
  | ok plan =>
    rw [same] at ended
    have finished := mapError_eq_ok.1 ended
    exact .intro prepared soundAfter family (kept plan rfl) (Prod.ext finished rfl)
      (congrArg Verdict.journal same)

/-- An object whose type leads to no other one is validated by the plan of its type alone. -/
theorem validate_of_alone (missing : validator.cache.get? object.type = none)
    (alone : ∀ nested ∈ validator.cache.schema.nestedTypes object.type, nested = object.type)
    (request : Request) :
    validator.validate object request =
      match validator.cache.compile object.type with
      | .error error => { result := .error (.error (.compile error)), validator }
      | .ok plan =>
        let plans := validator.cache.plans ++ [(object.type, plan)]
        Validator.run ⟨{ validator.cache with plans }, validator.pools⟩ plan object request true := by
  rw [validate, Validator.plan, PlanCache.planFor_of_alone missing alone]
  cases validator.cache.compile object.type <;> rfl

end Validator

/-! ### A family with one type -/

/-- The one type of a small family. -/
def TypeKey.sample : TypeKey := ⟨"Sample"⟩

/-- A message against something. -/
def Message.refused : Message := { text := "refused", key := "refused" }

/-- A rule that refuses whatever it is asked about. -/
def Rule.refuses : Rule :=
  .ofValue "Message" fun _ => .message Message.refused

/-- A rule that gives back an outcome, whatever it is asked about. -/
def Rule.drafts (draft : Draft) : Rule :=
  .ofValue "Outcome" fun _ => .outcome draft

namespace Validator

/-- A declared field. -/
def declaredField : FieldDescriptor := { name := "declared", type := "String" }

/-- A validator of one type with these fields and that hook before them. -/
def sampled (failFast : Bool) (fields : List FieldDescriptor) (hook : Rule) : Validator :=
  let descriptor : TypeDescriptor := {
    name := "Sample", fields, routines := [{ name := TypeModel.beforeName, rule := hook }] }
  .ofOptions ⟨[(.sample, descriptor)]⟩ ∅ { failFast }

variable {failFast : Bool} {fields : List FieldDescriptor} {hook : Rule}

theorem reachable_sampled (failFast : Bool) (fields : List FieldDescriptor) (hook : Rule) :
    (sampled failFast fields hook).Reachable :=
  .fresh _ _ _ _ _

theorem validate_sampled (leaf : fields.filterMap FieldDescriptor.nested = []) (request : Request) :
    (sampled failFast fields hook).validate (.mk .sample []) request =
      match (sampled failFast fields hook).cache.compile .sample with
      | .error error =>
        { result := .error (.error (.compile error)), validator := sampled failFast fields hook }
      | .ok plan =>
        let cache := { (sampled failFast fields hook).cache with plans := [(.sample, plan)] }
        Validator.run ⟨cache, (sampled failFast fields hook).pools⟩ plan (.mk .sample []) request
          true := by
  have leads : (sampled failFast fields hook).cache.schema.nestedTypes
      (Object.mk .sample []).type = [] := leaf
  have alone : ∀ nested ∈ (sampled failFast fields hook).cache.schema.nestedTypes
      (Object.mk .sample []).type, nested = (Object.mk .sample []).type := by simp [leads]
  exact validate_of_alone rfl alone request

/-- The one type leads to itself only, if its fields hold no objects. -/
theorem eq_sample_of_leadsTo (leaf : fields.filterMap FieldDescriptor.nested = []) {type : TypeKey}
    (leads : (sampled failFast fields hook).cache.schema.LeadsTo .sample type) : type = .sample := by
  apply leads.eq_of_alone
  intro nested member
  have direct : nested ∈ fields.filterMap FieldDescriptor.nested := member
  rw [leaf] at direct
  cases direct

end Validator

end Assay
