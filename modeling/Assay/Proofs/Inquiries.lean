/-
Module: Assay.Proofs.Inquiries
Purpose: A cache that is asked for plans and for what can be validated without waiting, in any order.
  Whatever it was asked before, it keeps each plan once, the right one, and with it those of all types
  that the plan leads to; it answers as if it were new; and an answer either adds the plans that were
  missing for it or, if it is a fault, changes nothing.
Main exports: PlanCache.Inquiry, PlanCache.inquire, PlanCache.Orderly, PlanCache.inquire_cases,
  PlanCache.inquiries_keep
-/
import Mathlib.Data.List.Nodup
import Assay.Proofs.Faults
import Assay.Proofs.Meetings
import Assay.Proofs.Replanning
import Assay.Proofs.Walks

namespace Assay

namespace PlanCache

/-- What a cache is asked. -/
inductive Inquiry where
  | plan (type : TypeKey)
  /-- Whether objects of the type can be validated without waiting. -/
  | synchrony (type : TypeKey)

def Inquiry.type : Inquiry → TypeKey
  | .plan type | .synchrony type => type

/-- What a cache answers. -/
inductive Reply where
  | plan (plan : TypePlan)
  | synchrony (answer : Bool)

/-- The answer, and the cache that is left. -/
def inquire (cache : PlanCache) : Inquiry → Except CompileError Reply × PlanCache
  | .plan type =>
    match cache.planFor type with
    | .error error => (.error error, cache)
    | .ok (plan, after) => (.ok (.plan plan), after)
  | .synchrony type =>
    match cache.isSynchronous type with
    | (answer, after) => (answer.map .synchrony, after)

/-- The cache that is left by one inquiry after the other. -/
def inquireAll (cache : PlanCache) (inquiries : List Inquiry) : PlanCache :=
  inquiries.foldl (fun cache inquiry => (cache.inquire inquiry).2) cache

variable {cache other after : PlanCache} {type : TypeKey} {plan : TypePlan}

/-- The keys of the plans that are kept. -/
def keys (cache : PlanCache) : List TypeKey :=
  cache.plans.map Prod.fst

theorem get?_eq_none_iff : cache.get? type = none ↔ type ∉ cache.keys := by
  rw [get?, List.lookup_eq_none_iff, keys, List.mem_map]
  constructor
  · rintro absent ⟨entry, member, rfl⟩
    exact bne_iff_ne.1 (absent entry member) rfl
  · intro absent entry member
    exact bne_iff_ne.2 fun same => absent ⟨entry, member, same.symm⟩

theorem mem_keys_iff : type ∈ cache.keys ↔ (cache.get? type).isSome := by
  rw [Option.isSome_iff_ne_none, ne_eq, get?_eq_none_iff, Decidable.not_not]

/-- The right plans are kept, each once, and none is missing that they lead to. -/
structure Orderly (cache : PlanCache) : Prop extends cache.Sound where
  nodup : cache.keys.Nodup

/-- A cache that keeps nothing is in order. -/
theorem orderly_fresh (schema : Schema) (catalog : RuleCatalog) (options : Options) :
    Orderly { schema, catalog, options } where
  compiled found := by cases found
  closed found := by cases found
  nodup := List.nodup_nil

/-- In an orderly cache a plan is found under its key. -/
theorem Orderly.get?_of_mem (orderly : cache.Orderly) (member : (type, plan) ∈ cache.plans) :
    cache.get? type = some plan := by
  obtain ⟨before, later, split⟩ := List.append_of_mem member
  refine List.lookup_eq_some_iff.2 ⟨before, later, split, fun entry earlier => ?_⟩
  have nodup := orderly.nodup
  rw [keys, split, List.map_append, List.nodup_append] at nodup
  refine bne_iff_ne.2 fun same => ?_
  exact nodup.2.2 _ (List.mem_map_of_mem earlier) type (by simp) same.symm

/-- Asking for a plan keeps a cache in order. -/
theorem Orderly.planFor (orderly : cache.Orderly) (asked : cache.planFor type = .ok (plan, after)) :
    after.Orderly := by
  obtain ⟨soundAfter, _, _⟩ := planFor_eq_ok orderly.toSound asked
  obtain ⟨made, compiled, _, rfl, keys_made, nodup, added⟩ := planFor_adds orderly.toSound asked
  refine ⟨soundAfter, ?_⟩
  rw [keys, List.map_append, keys_made, List.nodup_append]
  refine ⟨orderly.nodup, List.nodup_reverse.2 nodup, ?_⟩
  rintro known old _ isNew rfl
  exact get?_eq_none_iff.1 ((added known).1 (List.mem_reverse.1 isNew)).2 old

/-! ### One inquiry -/

/-- An inquiry is answered with the fault that keeps the type from having a plan, and then nothing
changes, or it leaves the cache that asking for the plan leaves. -/
theorem inquire_cases (sound : cache.Sound) (inquiry : Inquiry) :
    (∃ error, cache.planFor inquiry.type = .error error ∧
        cache.inquire inquiry = (.error error, cache)) ∨
      ∃ plan after reply, cache.planFor inquiry.type = .ok (plan, after) ∧
        cache.inquire inquiry = (.ok reply, after) := by
  cases asked : cache.planFor inquiry.type with
  | error error =>
    refine .inl ⟨error, rfl, ?_⟩
    cases inquiry with
    | plan type => rw [inquire, show cache.planFor type = _ from asked]
    | synchrony type =>
      rw [inquire, isSynchronous_of_error (show cache.planFor type = _ from asked)]
      rfl
  | ok found =>
    rcases found with ⟨plan, after⟩
    refine .inr ⟨plan, after, ?_⟩
    cases inquiry with
    | plan type => exact ⟨.plan plan, rfl, by rw [inquire, show cache.planFor type = _ from asked]⟩
    | synchrony type =>
      obtain ⟨answer, answered, _⟩ := isSynchronous_of_ok sound asked
      refine ⟨.synchrony answer, rfl, ?_⟩
      rw [inquire, show cache.isSynchronous type = _ from answered]
      rfl

/-- An inquiry keeps a cache in order. -/
theorem Orderly.inquire (orderly : cache.Orderly) (inquiry : Inquiry) :
    (cache.inquire inquiry).2.Orderly ∧ (cache.inquire inquiry).2.Akin cache := by
  rcases inquire_cases orderly.toSound inquiry with ⟨error, _, same⟩ | ⟨plan, after, reply, asked, same⟩
  · rw [same]
    exact ⟨orderly, rfl, rfl, rfl⟩
  · rw [same]
    exact ⟨orderly.planFor asked, (planFor_eq_ok orderly.toSound asked).2.1.akin⟩

/-- Any inquiries keep a cache in order. -/
theorem Orderly.inquireAll (orderly : cache.Orderly) (inquiries : List Inquiry) :
    (cache.inquireAll inquiries).Orderly ∧ (cache.inquireAll inquiries).Akin cache := by
  induction inquiries generalizing cache with
  | nil => exact ⟨orderly, rfl, rfl, rfl⟩
  | cons inquiry inquiries ih =>
    obtain ⟨orderlyAfter, akin⟩ := orderly.inquire inquiry
    obtain ⟨orderlyEnd, akinEnd⟩ := ih orderlyAfter
    exact ⟨orderlyEnd, akinEnd.trans akin⟩

/-- An answer does not depend on the plans that are kept. -/
theorem inquire_of_akin (sound : cache.Sound) (otherSound : other.Sound) (akin : cache.Akin other)
    (inquiry : Inquiry) : (cache.inquire inquiry).1 = (other.inquire inquiry).1 := by
  cases inquiry with
  | plan type =>
    have plans (cache : PlanCache) :
        (cache.inquire (.plan type)).1 = ((cache.planFor type).map Prod.fst).map .plan := by
      rw [PlanCache.inquire]
      cases cache.planFor type <;> rfl
    rw [plans, plans, planFor_of_akin sound otherSound akin]
  | synchrony type =>
    have same := allSynchronous_of_akin sound otherSound akin [] [type]
    exact congrArg (Except.map Reply.synchrony) same

/-- What is kept is right, and what it leads to is kept. -/
theorem Orderly.entry (orderly : cache.Orderly) (member : (type, plan) ∈ cache.plans) :
    cache.compile type = .ok plan ∧ ∀ nested ∈ plan.nestedTypes, nested ∈ cache.keys := by
  have found := orderly.get?_of_mem member
  refine ⟨orderly.compiled found, fun nested leads => ?_⟩
  obtain ⟨_, inner, kept⟩ := orderly.toSound.get?_of_mem_nestedTypes found leads
  exact mem_keys_iff.2 (Option.isSome_of_eq_some kept)

/-- An inquiry that is answered with a fault changes nothing. The fault is that of a type that is led to,
and it speaks of a missing nested type only if the catalog did. -/
theorem inquire_eq_error (sound : cache.Sound) {inquiry : Inquiry} {error : CompileError}
    (failed : (cache.inquire inquiry).1 = .error error) :
    (cache.inquire inquiry).2 = cache ∧
      (∃ reached, cache.schema.LeadsTo inquiry.type reached ∧ cache.compile reached = .error error) ∧
      ∀ field, error = .nestedTypeMissing field →
        ∃ rule args, cache.catalog.make? rule args = .error error := by
  rcases inquire_cases sound inquiry with ⟨fault, asked, same⟩ | ⟨_, _, _, _, same⟩
  · rw [same] at failed ⊢
    cases failed
    obtain ⟨reached, leads, faulty⟩ := planFor_eq_error asked
    refine ⟨rfl, ⟨reached, leads, faulty⟩, fun field missing => ?_⟩
    subst missing
    cases cache.faults_compile reached _ faulty with
    | refused made => exact ⟨_, _, made⟩
  · rw [same] at failed
    cases failed

/-- Any other inquiry adds the plans that were missing for it, compiling each of these types once. -/
theorem inquire_eq_ok (sound : cache.Sound) {inquiry : Inquiry} {reply : Reply}
    (answered : (cache.inquire inquiry).1 = .ok reply) :
    ∃ made compiled, cache.Walks [] [inquiry.type] compiled (.ok made) ∧
      (cache.inquire inquiry).2 = { cache with plans := cache.plans ++ made } ∧
      made.map Prod.fst = compiled.reverse ∧ compiled.Nodup ∧
      ∀ type, type ∈ compiled ↔ cache.schema.LeadsTo inquiry.type type ∧ type ∉ cache.keys := by
  rcases inquire_cases sound inquiry with ⟨_, _, same⟩ | ⟨plan, after, _, asked, same⟩
  · rw [same] at answered
    cases answered
  · obtain ⟨made, compiled, walks, left, keys, nodup, added⟩ := planFor_adds sound asked
    rw [same]
    refine ⟨made, compiled, walks, left, keys, nodup, fun type => ?_⟩
    rw [added, get?_eq_none_iff]

/-- An object validated by a plan that was asked for does not end with a plan missing. -/
theorem run_ne_compile_of_inquire (sound : cache.Sound)
    (answered : cache.inquire (.plan type) = (.ok (.plan plan), after)) (pools : OutcomePools)
    (object : Object) (request : Request) (mayWait : Bool) (error : CompileError) :
    (Validator.run ⟨after, pools⟩ plan object request mayWait).result ≠
      .error (.error (.compile error)) := by
  rw [inquire] at answered
  split at answered
  · cases answered
  · rename_i asked
    cases answered
    obtain ⟨soundAfter, _, kept⟩ := planFor_eq_ok sound asked
    exact Validator.run_ne_compile soundAfter kept pools object request mayWait error

/-! ### The law of the cache -/

/-- After any inquiries, the plans kept are those that the descriptions give, each once, and with every
plan those of the types it leads to. An inquiry that is answered with a fault changes nothing; the fault
is that of a type that is led to, and it speaks of a missing nested type only if the catalog did. Another
inquiry adds exactly the plans that were missing, compiling each of these types once. Every answer is
that of the fresh cache. And an object validated by the plan that was asked for does not end with a plan
missing. -/
theorem inquiries_keep (schema : Schema) (catalog : RuleCatalog) (options : Options)
    (inquiries : List Inquiry) :
    let fresh : PlanCache := { schema, catalog, options }
    let cache := fresh.inquireAll inquiries
    (∀ type plan, (type, plan) ∈ cache.plans → fresh.compile type = .ok plan ∧
      ∀ nested ∈ plan.nestedTypes, nested ∈ cache.keys) ∧
    cache.keys.Nodup ∧
    (∀ inquiry error, (cache.inquire inquiry).1 = .error error →
      (cache.inquire inquiry).2 = cache ∧
      (∃ reached, schema.LeadsTo inquiry.type reached ∧ fresh.compile reached = .error error) ∧
      ∀ field, error = .nestedTypeMissing field →
        ∃ rule args, catalog.make? rule args = .error error) ∧
    (∀ inquiry reply, (cache.inquire inquiry).1 = .ok reply →
      ∃ made compiled, cache.Walks [] [inquiry.type] compiled (.ok made) ∧
        (cache.inquire inquiry).2 = { cache with plans := cache.plans ++ made } ∧
        made.map Prod.fst = compiled.reverse ∧ compiled.Nodup ∧
        ∀ type, type ∈ compiled ↔ schema.LeadsTo inquiry.type type ∧ type ∉ cache.keys) ∧
    (∀ inquiry, (cache.inquire inquiry).1 = (fresh.inquire inquiry).1) ∧
    ∀ type plan after, cache.inquire (.plan type) = (.ok (.plan plan), after) →
      ∀ pools object request mayWait error,
        (Validator.run ⟨after, pools⟩ plan object request mayWait).result ≠
          .error (.error (.compile error)) := by
  intro fresh cache
  have start := orderly_fresh schema catalog options
  obtain ⟨orderly, akin⟩ := start.inquireAll inquiries
  have sound := orderly.toSound
  have compile : cache.compile = fresh.compile := by
    funext type
    rw [PlanCache.compile, PlanCache.compile, akin.schema, akin.catalog, akin.options]
  rw [← compile]
  refine ⟨fun _ _ => orderly.entry, orderly.nodup, fun inquiry error failed => ?_,
    fun inquiry reply answered => ?_, inquire_of_akin sound start.toSound akin,
    fun _ _ _ => run_ne_compile_of_inquire sound⟩
  · have faulty := inquire_eq_error sound failed
    rwa [akin.schema, akin.catalog] at faulty
  · obtain ⟨made, compiled, walks, left, keys, nodup, added⟩ := inquire_eq_ok sound answered
    rw [akin.schema] at added
    exact ⟨made, compiled, walks, left, keys, nodup, added⟩

end PlanCache

end Assay
