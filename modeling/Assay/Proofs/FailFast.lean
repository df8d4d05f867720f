/-
Module: Assay.Proofs.FailFast
Purpose: Two validators of one family, of which one leaves every object at its first failure and the
  other none. What happens in a validation by the strict one is the beginning of what happens in a
  validation by the lenient one; they agree on success, and on the whole outcome if it is one.
Main exports: PlanCache.Twins, PlanCache.Twins.compile, Validator.strict_truncates
-/
import Assay.Proofs.Lifetime
import Assay.Proofs.Planning
import Assay.Proofs.Truncation

namespace Assay

/-! ### Descriptions -/

/-- The description of a type, with nothing said about leaving objects at their first failure. -/
def TypeDescriptor.undecided (descriptor : TypeDescriptor) : TypeDescriptor :=
  { descriptor with settings := { descriptor.settings with failFast := none } }

theorem TypeModel.fieldsOf_settings (descriptor : TypeDescriptor) (settings : TypeSettings)
    (catalog : RuleCatalog) (autoRules : Bool) (seen : List String)
    (fields : List FieldDescriptor) :
    fieldsOf { descriptor with settings } catalog autoRules seen fields =
      fieldsOf descriptor catalog autoRules seen fields :=
  fieldsOf_congr descriptor { descriptor with settings } rfl rfl catalog autoRules seen fields

theorem TypeModel.hook_settings (descriptor : TypeDescriptor) (settings : TypeSettings)
    (name : String) : hook { descriptor with settings } name = hook descriptor name := rfl

/-- Reading a description does not depend on whether objects are left at their first failure. -/
theorem TypeModel.ofDescriptor_failFast (descriptor : TypeDescriptor) (catalog : RuleCatalog)
    (options : Options) (setting : Option Bool) (default : Bool) :
    ofDescriptor { descriptor with settings := { descriptor.settings with failFast := setting } }
        catalog { options with failFast := default } =
      (ofDescriptor descriptor catalog options).map
        fun model => { model with failFast := setting.getD default } := by
  simp only [ofDescriptor, fieldsOf_settings, hook_settings]
  cases fieldsOf descriptor catalog (descriptor.settings.autoRules.getD options.autoRules) []
    descriptor.fields with
  | error error => rfl
  | ok fields =>
    simp only [bind, Except.bind]
    cases hook descriptor beforeName with
    | error error => rfl
    | ok before =>
      simp only
      cases hook descriptor afterName <;> rfl

theorem TypePlan.ofModel_failFast (model : TypeModel) (type : TypeKey) (room : Nat)
    (failFast : Bool) :
    ofModel { model with failFast } type room =
      (ofModel model type room).map fun plan => { plan with failFast } := by
  have same : ({ model with failFast } : TypeModel).fault? = model.fault? := rfl
  rw [ofModel_eq, ofModel_eq, same]
  cases model.fault? <;> rfl

/-! ### Families -/

namespace PlanCache

/-- Two caches of the same family, except that objects are left at their first failure by the plans
of the one and never by those of the other. -/
structure Twins (strict lenient : PlanCache) : Prop where
  types : ∀ type, (strict.schema.describe type).undecided = (lenient.schema.describe type).undecided
  catalog : strict.catalog = lenient.catalog
  options : { strict.options with failFast := false } = { lenient.options with failFast := false }
  strict : ∀ type, strict.failFastOf type = true
  lenient : ∀ type, lenient.failFastOf type = false

namespace Twins

variable {strict lenient strictAfter lenientAfter : PlanCache} {type : TypeKey}

/-- What comes out of twins are twins. -/
theorem extend (twins : strict.Twins lenient) (strictly : strictAfter.Extends strict)
    (leniently : lenientAfter.Extends lenient) : strictAfter.Twins lenientAfter where
  types type := by rw [strictly.schema, leniently.schema]; exact twins.types type
  catalog := by rw [strictly.catalog, leniently.catalog]; exact twins.catalog
  options := by rw [strictly.options, leniently.options]; exact twins.options
  strict type := by
    rw [failFastOf, strictly.schema, strictly.options]
    exact twins.strict type
  lenient type := by
    rw [failFastOf, leniently.schema, leniently.options]
    exact twins.lenient type

theorem nestedTypes (twins : strict.Twins lenient) :
    strict.schema.nestedTypes = lenient.schema.nestedTypes := by
  funext type
  have same := congrArg TypeDescriptor.nestedTypes (twins.types type)
  exact same

theorem leadsTo (twins : strict.Twins lenient) : strict.schema.LeadsTo = lenient.schema.LeadsTo := by
  rw [Schema.LeadsTo, Schema.LeadsTo, twins.nestedTypes]

theorem describe (twins : strict.Twins lenient) (type : TypeKey) :
    strict.schema.describe type = { lenient.schema.describe type with
      settings := { (lenient.schema.describe type).settings with
        failFast := (strict.schema.describe type).settings.failFast } } := by
  have same := twins.types type
  generalize strict.schema.describe type = one at same ⊢
  generalize lenient.schema.describe type = other at same ⊢
  rcases one with ⟨name, fields, routines, ⟨autoRules, failFast⟩⟩
  rcases other with ⟨otherName, otherFields, otherRoutines, ⟨otherAutoRules, otherFailFast⟩⟩
  cases same
  rfl

theorem strictOptions (twins : strict.Twins lenient) :
    strict.options = { lenient.options with failFast := strict.options.failFast } := by
  have same := twins.options
  generalize strict.options = one at same ⊢
  generalize lenient.options = other at same ⊢
  rcases one with ⟨autoRules, failFast, globalCapacity, fieldCapacity, poolSize⟩
  rcases other with ⟨otherAutoRules, otherFailFast, otherGlobal, otherField, otherPool⟩
  cases same
  rfl

/-- The plans of twins differ in nothing else. -/
theorem compile (twins : strict.Twins lenient) (type : TypeKey) :
    strict.compile type = (lenient.compile type).map TypePlan.strict := by
  have always := twins.strict type
  rw [failFastOf] at always
  have capacity : strict.options.fieldMessageCapacity = lenient.options.fieldMessageCapacity := by
    rw [twins.strictOptions]
  rw [PlanCache.compile, PlanCache.compile, capacity, twins.catalog, twins.strictOptions,
    twins.describe type, TypeModel.ofDescriptor_failFast, always]
  cases TypeModel.ofDescriptor (lenient.schema.describe type) lenient.catalog lenient.options with
  | error error => rfl
  | ok model => exact TypePlan.ofModel_failFast model type _ true

/-- A type has a plan in the one cache if and only if it has one in the other. -/
theorem planFor (twins : strict.Twins lenient) (strictSound : strict.Sound)
    (lenientSound : lenient.Sound) (type : TypeKey) :
    (∃ found, strict.planFor type = .ok found) ↔ ∃ found, lenient.planFor type = .ok found := by
  have strictly := planFor_ok_iff strictSound type
  have leniently := planFor_ok_iff lenientSound type
  have compiles (reached : TypeKey) : (∃ plan, strict.compile reached = .ok plan) ↔
      ∃ plan, lenient.compile reached = .ok plan := by
    rw [twins.compile reached]
    cases lenient.compile reached <;> simp [Except.map]
  simp only [twins.leadsTo, compiles] at strictly
  rw [Prod.exists, Prod.exists, strictly, leniently]

/-- The plan of a type is the strict one of its plan in the other cache. -/
theorem planFor_strict (twins : strict.Twins lenient) (strictSound : strict.Sound)
    (lenientSound : lenient.Sound) {plan : TypePlan}
    (asked : lenient.planFor type = .ok (plan, lenientAfter)) :
    ∃ strictAfter, strict.planFor type = .ok (plan.strict, strictAfter) := by
  obtain ⟨⟨found, strictAfter⟩, askedStrict⟩ :=
    (twins.planFor strictSound lenientSound type).2 ⟨_, asked⟩
  have compiled := compile_of_planFor strictSound askedStrict
  rw [twins.compile, compile_of_planFor lenientSound asked] at compiled
  cases compiled
  exact ⟨strictAfter, askedStrict⟩

/-- Twins agree on whether a family can do without waiting. -/
theorem allSynchronous (twins : strict.Twins lenient) (strictSound : strict.Sound)
    (lenientSound : lenient.Sound) (seen pending : List TypeKey) :
    ∀ answer, (strict.allSynchronous seen pending).1 = .ok answer ↔
      (lenient.allSynchronous seen pending).1 = .ok answer := by
  induction lenient, seen, pending using allSynchronous.induct generalizing strict with
  | case1 lenient seen =>
    intro answer
    rw [PlanCache.allSynchronous, PlanCache.allSynchronous]
  | case2 lenient seen type pending isNew error failed =>
    intro answer
    rw [allSynchronous_of_error isNew failed]
    cases asked : strict.planFor type with
    | error fault => simp [allSynchronous_of_error isNew asked]
    | ok found =>
      obtain ⟨plan, same⟩ := (twins.planFor strictSound lenientSound type).1 ⟨found, asked⟩
      rw [failed] at same
      cases same
  | case3 lenient seen type pending isNew plan after asked synchronous ih =>
    intro answer
    obtain ⟨strictAfter, askedStrict⟩ := twins.planFor_strict strictSound lenientSound asked
    obtain ⟨soundStrict, strictly, _⟩ := planFor_eq_ok strictSound askedStrict
    obtain ⟨soundLenient, leniently, _⟩ := planFor_eq_ok lenientSound asked
    rw [allSynchronous_of_ok isNew asked, allSynchronous_of_ok isNew askedStrict,
      if_pos synchronous, if_pos (by exact synchronous), twins.nestedTypes]
    exact ih (twins.extend strictly leniently) soundStrict soundLenient answer
  | case4 lenient seen type pending isNew plan after asked waits =>
    intro answer
    obtain ⟨strictAfter, askedStrict⟩ := twins.planFor_strict strictSound lenientSound asked
    rw [allSynchronous_of_ok isNew asked, allSynchronous_of_ok isNew askedStrict,
      if_neg waits, if_neg (by exact waits)]
  | case5 lenient seen type pending isOld ih =>
    intro answer
    rw [PlanCache.allSynchronous, dif_neg isOld, PlanCache.allSynchronous, dif_neg isOld]
    exact ih twins strictSound lenientSound answer

end Twins

end PlanCache

/-! ### Validations -/

/-- One verdict is that of a validation that was cut short: what happened is the beginning of what
happened for the other verdict, and if that comes with an outcome, so does this one, with the same
success and, if it is one, the same outcome. -/
structure Verdict.Truncates (short full : Verdict) : Prop where
  journal : short.journal <+: full.journal
  result : ∀ outcome, full.result = .ok outcome → ∃ own, short.result = .ok own ∧
    own.isSuccess = outcome.isSuccess ∧ (outcome.isSuccess = true → own = outcome)

namespace Verdict.Truncates

variable {short full : Verdict}

/-- Where neither validation took place, there is nothing to compare. -/
theorem ofErrors {stop : Stop} (shortJournal : short.journal = []) (result : full.result = .error stop) :
    short.Truncates full where
  journal := shortJournal ▸ List.nil_prefix
  result outcome ended := by
    rw [result] at ended
    cases ended

theorem mapError (truncates : short.Truncates full) (change : Stop → Stop) :
    Truncates { short with result := short.result.mapError change }
      { full with result := full.result.mapError change } where
  journal := truncates.journal
  result outcome ended := by
    obtain ⟨own, ended, success, same⟩ := truncates.result outcome (mapError_eq_ok.1 ended)
    exact ⟨own, mapError_eq_ok.2 ended, success, same⟩

end Verdict.Truncates

namespace PlanCache.Twins

variable {strict lenient : PlanCache} {root type : TypeKey} {plan : TypePlan}

/-- The lenient plans of twins are plain if their hooks declare no outcomes. -/
theorem plain (twins : strict.Twins lenient) (leads : lenient.schema.LeadsTo root type)
    (compiled : lenient.compile type = .ok plan)
    (hooks : ∀ call ∈ plan.hooks, call.shape.contribution ≠ .outcome) :
    plan.Plain (lenient.schema.LeadsTo root) where
  lenient := (failFast_of_compile compiled).trans (twins.lenient type)
  before call found := hooks call (List.mem_append_left _ (Option.mem_toList.2 found))
  reached field member nested held := by
    apply leads.tail
    rw [← nestedTypes_of_compile compiled]
    exact List.mem_filterMap.2 ⟨field, member, held⟩
  groups field member holds := by
    obtain ⟨_, _, declares⟩ := exists_of_forall₂ (declares_of_compile compiled) member
    exact declares.groups_of_nested holds

/-- Where the plan of the root is kept, twins serve as environments of its validation. -/
theorem environment (twins : strict.Twins lenient) (strictSound : strict.Sound)
    (lenientSound : lenient.Sound) (strictKept : (strict.get? root).isSome)
    (lenientKept : (lenient.get? root).isSome)
    (hooks : ∀ type plan, lenient.schema.LeadsTo root type → lenient.compile type = .ok plan →
      ∀ call ∈ plan.hooks, call.shape.contribution ≠ .outcome)
    (strictPools lenientPools : OutcomePools) (request : Request) (mayWait : Bool) :
    Environment.Twins (lenient.schema.LeadsTo root)
      (Validator.environment ⟨strict, strictPools⟩ request mayWait)
      (Validator.environment ⟨lenient, lenientPools⟩ request mayWait) where
  services := ⟨rfl, rfl⟩
  plans := by
    intro type leads
    obtain ⟨plan, kept⟩ :=
      Option.isSome_iff_exists.1 (lenientSound.isSome_of_leadsTo lenientKept leads)
    obtain ⟨own, keptStrict⟩ := Option.isSome_iff_exists.1
      (strictSound.isSome_of_leadsTo strictKept (twins.leadsTo ▸ leads))
    have compiled := lenientSound.compiled kept
    have compiledStrict := strictSound.compiled keptStrict
    rw [twins.compile, compiled] at compiledStrict
    cases compiledStrict
    refine ⟨plan, twins.plain leads compiled (hooks type plan leads compiled), ?_, ?_⟩
    · simp only [Validator.environment, planFor_of_get? kept]
      rfl
    · simp only [Validator.environment, planFor_of_get? keptStrict]
      rfl

end PlanCache.Twins

namespace Validator

/-- Validating by the strict plan cuts a validation by the lenient plan short. -/
theorem run_truncates {strict lenient : PlanCache} {strictPools lenientPools : OutcomePools}
    {plan : TypePlan} {reached : TypeKey → Prop} {request : Request} {mayWait : Bool}
    (twinEnvs : Environment.Twins reached (environment ⟨strict, strictPools⟩ request mayWait)
      (environment ⟨lenient, lenientPools⟩ request mayWait))
    (plain : plan.Plain reached) (roomy : lenientPools.rooms.Roomy)
    (strictYields : strictPools.Yields lenientPools.rooms)
    (lenientYields : lenientPools.Yields lenientPools.rooms) (object : Object) :
    (Validator.run ⟨strict, strictPools⟩ plan.strict object request mayWait).Truncates
      (Validator.run ⟨lenient, lenientPools⟩ plan object request mayWait) := by
  have alike : (start ⟨strict, strictPools⟩ request).Alike lenientPools.rooms
      (start ⟨lenient, lenientPools⟩ request) := ⟨rfl, rfl, strictYields, lenientYields⟩
  have trailing := object.trails_run roomy twinEnvs plan plain request.context _ _ alike
  simp only [Validator.run]
  generalize object.run _ plan.strict request.context _ = short at trailing ⊢
  generalize object.run _ plan request.context _ = full at trailing ⊢
  cases trailing with
  | same alikeAfter =>
    refine ⟨⟨[], (List.append_nil _).trans alikeAfter.journal⟩, fun outcome ended => ?_⟩
    exact ⟨outcome, ended, rfl, fun _ => rfl⟩
  | @behind value _ _ _ stop journal later =>
    refine ⟨journal, fun outcome ended => ⟨value, rfl, ?_, fun success => ?_⟩⟩
    · rw [stop.1, (later outcome ended).1]
    · rw [(later outcome ended).1] at success
      cases success

/-- A validation that may not wait is refused if a rule of the family may have to be waited for. -/
theorem validateNow_of_refused {validator : Validator} {object : Object} (provider : Provider)
    (refused : (validator.cache.isSynchronous object.type).1 ≠ .ok true) :
    (validator.validateNow object provider).journal = [] ∧
      ∃ stop, (validator.validateNow object provider).result = .error stop := by
  rw [validateNow]
  generalize validator.cache.isSynchronous object.type = asked at refused
  rcases asked with ⟨answer, after⟩
  cases answer with
  | error error => exact ⟨rfl, _, rfl⟩
  | ok synchronous =>
    cases synchronous with
    | false => exact ⟨rfl, _, rfl⟩
    | true => exact absurd rfl refused

section

variable {strict lenient : Validator} {object : Object}

/-- Twins either both have no plan of a type, or what they do by their plans is cut short by the
strict one. -/
theorem plan_truncates (strictSound : strict.Sound) (lenientSound : lenient.Sound)
    (twins : strict.cache.Twins lenient.cache) (rooms : strict.pools.rooms = lenient.pools.rooms)
    (roomy : lenient.pools.rooms.Roomy)
    (hooks : ∀ type plan, lenient.cache.schema.LeadsTo object.type type →
      lenient.cache.compile type = .ok plan →
      ∀ call ∈ plan.hooks, call.shape.contribution ≠ .outcome) :
    (∃ fault error, strict.plan object.type = .error fault ∧
      lenient.plan object.type = .error error) ∨
    ∃ plan strictAfter lenientAfter, strict.plan object.type = .ok (plan.strict, strictAfter) ∧
      lenient.plan object.type = .ok (plan, lenientAfter) ∧
      ∀ request mayWait, (strictAfter.run plan.strict object request mayWait).Truncates
        (lenientAfter.run plan object request mayWait) := by
  have planned := twins.planFor strictSound.cache lenientSound.cache object.type
  rw [Validator.plan, Validator.plan]
  cases asked : lenient.cache.planFor object.type with
  | error error =>
    refine .inl ?_
    cases askedStrict : strict.cache.planFor object.type with
    | error fault => exact ⟨fault, error, rfl, rfl⟩
    | ok found =>
      obtain ⟨_, same⟩ := planned.1 ⟨found, askedStrict⟩
      rw [asked] at same
      cases same
  | ok found =>
    rcases found with ⟨plan, lenientAfter⟩
    obtain ⟨strictAfter, askedStrict⟩ :=
      twins.planFor_strict strictSound.cache lenientSound.cache asked
    rw [askedStrict]
    refine .inr ⟨plan, _, _, rfl, rfl, fun request mayWait => ?_⟩
    obtain ⟨soundStrict, strictly, keptStrict⟩ :=
      PlanCache.planFor_eq_ok strictSound.cache askedStrict
    obtain ⟨soundLenient, leniently, kept⟩ := PlanCache.planFor_eq_ok lenientSound.cache asked
    have twinsAfter := twins.extend strictly leniently
    rw [← leniently.schema, ← leniently.compile] at hooks
    have twinEnvs := twinsAfter.environment soundStrict soundLenient
      (Option.isSome_of_eq_some keptStrict) (Option.isSome_of_eq_some kept) hooks strict.pools
      lenient.pools request mayWait
    have compiled := soundLenient.compiled kept
    exact run_truncates twinEnvs (twinsAfter.plain .refl compiled (hooks _ _ .refl compiled)) roomy
      ⟨strictSound.pools, rooms⟩ lenientSound.pools.yields object

theorem validate_truncates (strictSound : strict.Sound) (lenientSound : lenient.Sound)
    (twins : strict.cache.Twins lenient.cache) (rooms : strict.pools.rooms = lenient.pools.rooms)
    (roomy : lenient.pools.rooms.Roomy)
    (hooks : ∀ type plan, lenient.cache.schema.LeadsTo object.type type →
      lenient.cache.compile type = .ok plan →
      ∀ call ∈ plan.hooks, call.shape.contribution ≠ .outcome) (request : Request) :
    (strict.validate object request).Truncates (lenient.validate object request) := by
  rw [validate, validate]
  rcases plan_truncates strictSound lenientSound twins rooms roomy hooks with
    ⟨fault, error, plannedStrict, planned⟩ | ⟨plan, _, _, plannedStrict, planned, truncates⟩
  · rw [plannedStrict, planned]
    exact .ofErrors rfl rfl
  · rw [plannedStrict, planned]
    exact truncates request true

theorem validateNow_truncates (strictSound : strict.Sound) (lenientSound : lenient.Sound)
    (twins : strict.cache.Twins lenient.cache) (rooms : strict.pools.rooms = lenient.pools.rooms)
    (roomy : lenient.pools.rooms.Roomy)
    (hooks : ∀ type plan, lenient.cache.schema.LeadsTo object.type type →
      lenient.cache.compile type = .ok plan →
      ∀ call ∈ plan.hooks, call.shape.contribution ≠ .outcome) (provider : Provider) :
    (strict.validateNow object provider).Truncates (lenient.validateNow object provider) := by
  have decides := twins.allSynchronous strictSound.cache lenientSound.cache [] [object.type] true
  by_cases synchronous : (lenient.cache.isSynchronous object.type).1 = .ok true
  · have strictly := decides.2 synchronous
    have fromStrict := PlanCache.allSynchronous_sound strictSound.cache [] [object.type]
    have fromLenient := PlanCache.allSynchronous_sound lenientSound.cache [] [object.type]
    rw [← PlanCache.isSynchronous] at strictly fromStrict fromLenient
    rw [validateNow, validateNow]
    generalize strict.cache.isSynchronous object.type = answerStrict at strictly fromStrict ⊢
    generalize lenient.cache.isSynchronous object.type = answerLenient at synchronous fromLenient ⊢
    rcases answerStrict with ⟨_, cacheStrict⟩
    rcases answerLenient with ⟨_, cacheLenient⟩
    rcases fromStrict with ⟨soundStrict, extendsStrict⟩
    rcases fromLenient with ⟨soundLenient, extendsLenient⟩
    cases strictly
    cases synchronous
    rw [← extendsLenient.schema, ← extendsLenient.compile] at hooks
    -- Both families can do without waiting; what follows is a validation by the plans kept so far.
    have strictAfter : Sound ⟨cacheStrict, strict.pools⟩ := ⟨soundStrict, strictSound.pools⟩
    have lenientAfter : Sound ⟨cacheLenient, lenient.pools⟩ := ⟨soundLenient, lenientSound.pools⟩
    have twinsAfter := twins.extend extendsStrict extendsLenient
    rcases plan_truncates strictAfter lenientAfter twinsAfter rooms roomy hooks with
      ⟨fault, error, plannedStrict, planned⟩ | ⟨plan, _, _, plannedStrict, planned, truncates⟩
    · simp only [plannedStrict, planned]
      exact .ofErrors rfl rfl
    · simp only [plannedStrict, planned]
      exact (truncates { provider } false).mapError (unwaited object.type)
  · have strictly : (strict.cache.isSynchronous object.type).1 ≠ .ok true :=
      fun answered => synchronous (decides.1 answered)
    obtain ⟨_, stop, result⟩ := validateNow_of_refused provider synchronous
    exact .ofErrors (validateNow_of_refused provider strictly).1 result

end

/-- A strict validator cuts the validations of a lenient one short. -/
theorem strict_truncates {strict lenient : Validator} (strictReachable : strict.Reachable)
    (lenientReachable : lenient.Reachable) (twins : strict.cache.Twins lenient.cache)
    (rooms : strict.pools.rooms = lenient.pools.rooms)
    (objectRoom : 1 ≤ lenient.pools.globalMessageCapacity)
    (fieldRoom : 1 ≤ lenient.pools.fieldMessageCapacity) (object : Object)
    (hooks : ∀ type plan, lenient.cache.schema.LeadsTo object.type type →
      lenient.cache.compile type = .ok plan →
      ∀ call ∈ plan.hooks, call.shape.contribution ≠ .outcome) (way : Way) :
    (strict.answer object way).Truncates (lenient.answer object way) := by
  have roomy := OutcomePools.roomy objectRoom fieldRoom
  cases way with
  | waiting request =>
    exact validate_truncates strictReachable.sound lenientReachable.sound twins rooms roomy hooks
      request
  | now provider =>
    exact validateNow_truncates strictReachable.sound lenientReachable.sound twins rooms roomy hooks
      provider

theorem failFastOf_sampled (failFast : Bool) (fields : List FieldDescriptor) (hook : Rule)
    (type : TypeKey) : (sampled failFast fields hook).cache.failFastOf type = failFast := by
  by_cases same : type = .sample
  · subst same
    rfl
  · have unknown : (sampled failFast fields hook).cache.schema.types.lookup type = none := by
      simp [sampled, ofOptions, List.lookup_cons, beq_eq_false_iff_ne.2 same]
    rw [PlanCache.failFastOf, Schema.describe, unknown]
    rfl

/-- A strict validator leaves an object behind that is refused at once; a lenient one goes on to its
field. -/
theorem strict_truncates_refused :
    ((sampled true [declaredField] .refuses).answer (.mk .sample []) (.waiting {})).Truncates
      ((sampled false [declaredField] .refuses).answer (.mk .sample []) (.waiting {})) := by
  have plain : ((sampled false [declaredField] .refuses).cache.compile .sample).toOption.all
      (fun plan => plan.hooks.all fun call => call.shape.contribution != .outcome) = true := by
    decide +kernel
  have strictly := reachable_sampled true [declaredField] .refuses
  have leniently := reachable_sampled false [declaredField] .refuses
  refine strict_truncates strictly leniently ?_ rfl (by decide) (by decide) _ ?_ _
  · exact ⟨fun _ => rfl, rfl, rfl, failFastOf_sampled true _ _, failFastOf_sampled false _ _⟩
  · intro type plan leads compiled call member
    cases eq_sample_of_leadsTo rfl leads
    rw [compiled] at plain
    exact bne_iff_ne.1 (List.all_eq_true.1 plain call member)

end Validator

end Assay
