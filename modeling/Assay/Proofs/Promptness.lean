/-
Module: Assay.Proofs.Promptness
Purpose: Validating at once against validating with time to wait. A type that cannot be compiled, or that
  leads to one that cannot, has the same fault either way. A type that leads to a call whose output may
  have to be waited for is refused at once, before anything happens. Any other type is validated at once
  exactly as it would be with time to wait, and no output is ever polled.
Main exports: Validator.run_prompt, Validator.validateNow_of_faulty, Validator.validateNow_of_delayed,
  Validator.validateNow_of_synchronous, Validator.validateNow_agrees
-/
import Assay.Proofs.Immediacy
import Assay.Proofs.Meetings

namespace Assay

namespace Validator

variable {validator : Validator} {cache after : PlanCache} {plan : TypePlan} {type : TypeKey}
  {object : Object}

/-- All types that a type leads to have their plans, and these do without waiting. -/
def AllSynchronous (cache : PlanCache) (type : TypeKey) : Prop :=
  ∀ reached, cache.schema.LeadsTo type reached →
    ∃ plan, cache.compile reached = .ok plan ∧ plan.isSynchronous = true

/-- What is kept of types that do without waiting does so as well. -/
theorem AllSynchronous.kept (all : AllSynchronous cache type) (sound : cache.Sound) {reached : TypeKey}
    (leads : cache.schema.LeadsTo type reached) (kept : cache.get? reached = some plan) :
    plan.isSynchronous = true := by
  obtain ⟨found, compiled, synchronous⟩ := all reached leads
  rw [sound.compiled kept] at compiled
  cases compiled
  exact synchronous

theorem AllSynchronous.extend (all : AllSynchronous cache type) (family : after.Extends cache) :
    AllSynchronous after type := by
  rw [AllSynchronous, family.schema, family.compile]
  exact all

/-! ### Validating by plans that do without waiting -/

/-- Where waiting is not needed, it makes no difference whether it is allowed. -/
theorem run_of_synchronous (sound : cache.Sound) (kept : cache.get? type = some plan)
    (all : AllSynchronous cache type) (pools : OutcomePools) (object : Object) (request : Request) :
    Validator.run ⟨cache, pools⟩ plan object request false =
      Validator.run ⟨cache, pools⟩ plan object request true := by
  let plans (inner : TypePlan) : Prop :=
    ∃ reached, cache.schema.LeadsTo type reached ∧ cache.get? reached = some inner
  have immediate : Immediate (environment ⟨cache, pools⟩ request true) plans := by
    constructor
    case calls =>
      rintro inner ⟨reached, leads, known⟩
      exact inner.isSynchronous_iff.1 (all.kept sound leads known)
    case nested =>
      rintro outer ⟨reached, leads, known⟩ nested member inner planned
      obtain ⟨step, found, keptNested⟩ := sound.get?_of_mem_nestedTypes known member
      rw [planOf_of_get? keptNested] at planned
      cases planned
      exact ⟨nested, leads.tail step, keptNested⟩
  have same := object.run_allowing immediate false plan ⟨type, .refl, kept⟩ request.context
  have allowing : (environment ⟨cache, pools⟩ request true).allowing false =
      environment ⟨cache, pools⟩ request false := rfl
  rw [allowing] at same
  rw [Validator.run, Validator.run, same]

/-- Where waiting is not needed, no output is polled, and nothing is waited for. -/
theorem run_prompt (sound : cache.Sound) (kept : cache.get? type = some plan)
    (all : AllSynchronous cache type) (pools : OutcomePools) (object : Object) (request : Request)
    (mayWait : Bool) :
    let verdict := Validator.run ⟨cache, pools⟩ plan object request mayWait
    (∀ cancelled, .checkpoint .poll cancelled ∉ verdict.journal) ∧
      verdict.result ≠ .error .waiting ∧
      ∀ name, verdict.result ≠ .error (.error (.requiresSuspension name)) := by
  intro verdict
  have traced := run_traced ⟨cache, pools⟩ plan object request mayWait
  have prompt : ¬Delays (environment ⟨cache, pools⟩ request mayWait).planOf object plan := by
    intro delays
    obtain ⟨reached, inner, leads, known, delayed⟩ := exists_of_delays sound kept delays
    rw [all.kept sound leads known] at delayed
    cases delayed
  refine ⟨fun cancelled polled => prompt (traced.polled cancelled polled), ?_, ?_⟩
  · intro waiting
    cases traced.halts .waiting (by rw [waiting]; rfl) with
    | waiting delays => exact prompt delays
  · intro name refused
    cases traced.halts _ (by rw [refused]; rfl)

/-! ### Validating at once -/

/-- A fault keeps an object from being validated either way, and is the answer. -/
theorem validateNow_of_faulty (sound : validator.cache.Sound)
    (faulty : ∃ reached error, validator.cache.schema.LeadsTo object.type reached ∧
      validator.cache.compile reached = .error error) (provider : Provider) :
    ∃ reached error, validator.cache.schema.LeadsTo object.type reached ∧
      validator.cache.compile reached = .error error ∧
      validator.validateNow object provider = { result := .error (.error (.compile error)), validator } ∧
      validator.validate object { provider } =
        { result := .error (.error (.compile error)), validator } := by
  cases asked : validator.cache.planFor object.type with
  | ok found =>
    obtain ⟨reached, error, leads, failed⟩ := faulty
    obtain ⟨plan, compiled⟩ :=
      (PlanCache.planFor_ok_iff sound object.type).1 ⟨found.1, found.2, asked⟩ reached leads
    rw [failed] at compiled
    cases compiled
  | error error =>
    obtain ⟨reached, leads, failed⟩ := PlanCache.planFor_eq_error asked
    refine ⟨reached, error, leads, failed, ?_, ?_⟩
    · rw [validateNow, PlanCache.isSynchronous_of_error asked]
    · rw [validate, Validator.plan, asked]

/-- A type that leads to a call whose output may have to be waited for is refused at once. -/
theorem validateNow_of_delayed (sound : validator.cache.Sound)
    (compiles : ∀ reached, validator.cache.schema.LeadsTo object.type reached →
      ∃ plan, validator.cache.compile reached = .ok plan)
    (delayed : ¬AllSynchronous validator.cache object.type) (provider : Provider) :
    ∃ after, validator.validateNow object provider =
      { result := .error (.error (.requiresSuspension object.type.name))
        validator := { validator with cache := after } } := by
  obtain ⟨plan, after, asked⟩ := (PlanCache.planFor_ok_iff sound object.type).2 compiles
  obtain ⟨answer, answered, synchronous⟩ := PlanCache.isSynchronous_of_ok sound asked
  have no : answer = false := Bool.eq_false_iff.2 fun yes => delayed (synchronous.1 yes)
  refine ⟨after, ?_⟩
  rw [validateNow, answered, no]
  rfl

/-- Any other type is validated at once as it would be with time to wait, and nothing is polled. -/
theorem validateNow_of_synchronous (sound : validator.cache.Sound)
    (all : AllSynchronous validator.cache object.type) (provider : Provider) :
    let verdict := validator.validate object { provider }
    validator.validateNow object provider = verdict ∧
      (∀ cancelled, .checkpoint .poll cancelled ∉ verdict.journal) ∧
      verdict.result ≠ .error .waiting ∧
      ∀ name, verdict.result ≠ .error (.error (.requiresSuspension name)) := by
  have compiles : ∀ reached, validator.cache.schema.LeadsTo object.type reached →
      ∃ plan, validator.cache.compile reached = .ok plan := by
    intro reached leads
    obtain ⟨plan, compiled, _⟩ := all reached leads
    exact ⟨plan, compiled⟩
  obtain ⟨plan, after, asked⟩ := (PlanCache.planFor_ok_iff sound object.type).2 compiles
  obtain ⟨answer, answered, synchronous⟩ := PlanCache.isSynchronous_of_ok sound asked
  obtain ⟨soundAfter, family, kept⟩ := PlanCache.planFor_eq_ok sound asked
  have again : after.planFor object.type = .ok (plan, after) := PlanCache.planFor_of_get? kept
  have allAfter := all.extend family
  have same := run_of_synchronous soundAfter kept allAfter validator.pools object { provider }
  have prompt := run_prompt soundAfter kept allAfter validator.pools object { provider } true
  rw [synchronous.2 all] at answered
  rw [validateNow, answered, validate]
  simp only [Validator.plan, asked, again, same]
  refine ⟨?_, prompt⟩
  -- The only stop that would be renamed is waiting, which does not happen.
  generalize Validator.run _ plan object _ true = verdict at prompt
  rcases verdict with ⟨result, left, journal, cancelled⟩
  cases result with
  | ok outcome => rfl
  | error stop =>
    cases stop with
    | error error => rfl
    | waiting => exact absurd rfl prompt.2.1

/-- Types do without waiting exactly if none of their calls may have to be waited for. -/
theorem allSynchronous_iff_calls :
    AllSynchronous cache type ↔ ∀ reached, cache.schema.LeadsTo type reached →
      ∃ plan, cache.compile reached = .ok plan ∧
        ∀ call ∈ plan.calls, call.shape.delivery = .immediate := by
  simp only [AllSynchronous, TypePlan.isSynchronous_iff]

/-- Validating at once agrees with validating with time to wait. If a type that is led to cannot be
compiled, both say so, with the same fault. Otherwise, if such a type has a call whose output may have to
be waited for, the object is refused before anything happens. Otherwise both give the same verdict, in
which no output was polled and which is no refusal for waiting, whatever the rules answer. The question
whether a type can do without waiting is answered accordingly. -/
theorem validateNow_agrees (reachable : validator.Reachable) (object : Object) (provider : Provider) :
    let cache := validator.cache
    let leads := cache.schema.LeadsTo object.type
    let now := validator.validateNow object provider
    let patient := validator.validate object { provider }
    ((∃ reached error, leads reached ∧ cache.compile reached = .error error) →
      now = patient ∧ now.journal = [] ∧
        ∃ reached error, leads reached ∧ cache.compile reached = .error error ∧
          now.result = .error (.error (.compile error))) ∧
    ((∀ reached, leads reached → ∃ plan, cache.compile reached = .ok plan) →
      (∃ reached plan call, leads reached ∧ cache.compile reached = .ok plan ∧ call ∈ plan.calls ∧
        call.shape.delivery ≠ .immediate) →
      now.result = .error (.error (.requiresSuspension object.type.name)) ∧ now.journal = []) ∧
    ((∀ reached, leads reached → ∃ plan, cache.compile reached = .ok plan ∧
        ∀ call ∈ plan.calls, call.shape.delivery = .immediate) →
      now = patient ∧ (∀ cancelled, .checkpoint .poll cancelled ∉ now.journal) ∧
        now.result ≠ .error .waiting ∧
        ∀ name, now.result ≠ .error (.error (.requiresSuspension name))) ∧
    ((cache.isSynchronous object.type).1 = .ok true ↔
      ∀ reached, leads reached → ∃ plan, cache.compile reached = .ok plan ∧
        ∀ call ∈ plan.calls, call.shape.delivery = .immediate) := by
  intro cache leads now patient
  have sound := reachable.sound.cache
  refine ⟨?faulty, ?delayed, ?prompt, ?answer⟩
  case faulty =>
    intro faulty
    obtain ⟨reached, error, led, failed, atOnce, inTime⟩ := validateNow_of_faulty sound faulty provider
    have same : now = _ := atOnce
    refine ⟨atOnce.trans inTime.symm, ?_, reached, error, led, failed, ?_⟩ <;> rw [same]
  case delayed =>
    rintro compiles ⟨reached, plan, call, led, compiled, member, delayed⟩
    have delays : ¬AllSynchronous cache object.type := by
      intro all
      obtain ⟨other, same, calls⟩ := allSynchronous_iff_calls.1 all reached led
      rw [compiled] at same
      cases same
      exact delayed (calls call member)
    obtain ⟨after, refused⟩ := validateNow_of_delayed sound compiles delays provider
    have same : now = _ := refused
    constructor <;> rw [same]
  case prompt =>
    intro calls
    obtain ⟨same, prompt⟩ :=
      validateNow_of_synchronous sound (allSynchronous_iff_calls.2 calls) provider
    have alike : now = patient := same
    rw [alike]
    exact ⟨rfl, prompt⟩
  case answer =>
    exact (PlanCache.isSynchronous_eq_true_iff sound _).trans allSynchronous_iff_calls

/-- A rule that declares that it may have to be waited for, though it answers at once. -/
def deferredHook : Rule :=
  { Rule.refuses with signature := { returns := "BoxFuture<'a, Message>" } }

/-- A type with such a hook is refused at once. -/
theorem validateNow_refuses_deferred :
    let validator := sampled false [] deferredHook
    let now := validator.validateNow (.mk .sample []) noServices
    now.result = .error (.error (.requiresSuspension "Sample")) ∧ now.journal = [] := by
  intro validator
  have delayed : (validator.cache.compile .sample).toOption.any
      (fun plan => plan.calls.any (·.shape.isSuspendable)) = true := by decide +kernel
  have agrees := validateNow_agrees (reachable_sampled false [] deferredHook) (.mk .sample []) noServices
  cases compiled : validator.cache.compile .sample with
  | error error =>
    rw [compiled] at delayed
    cases delayed
  | ok plan =>
    rw [compiled] at delayed
    obtain ⟨call, member, waits⟩ := List.any_eq_true.1 delayed
    refine agrees.2.1 ?_ ⟨.sample, plan, call, .refl, compiled, member, ?_⟩
    · intro reached leads
      rw [eq_sample_of_leadsTo rfl leads]
      exact ⟨plan, compiled⟩
    · exact bne_iff_ne.1 waits

end Validator

end Assay
