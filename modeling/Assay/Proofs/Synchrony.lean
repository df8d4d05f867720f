/-
Module: Assay.Proofs.Synchrony
Purpose: What is answered to the question whether objects of a type can be validated without waiting.
  The first type that is looked at brings along the plans of all others, or the fault of one of them,
  which is the answer then. Otherwise the answer is yes exactly if no plan of a type that is led to has
  a call that may have to be waited for.
Main exports: TypePlan.isSynchronous_iff, PlanCache.isSynchronous_of_error,
  PlanCache.isSynchronous_of_ok, PlanCache.isSynchronous_eq_true_iff
-/
import Assay.Proofs.Family

namespace Assay

/-- All calls of a plan: the hooks, and the calls of the fields. -/
def TypePlan.calls (plan : TypePlan) : List PlannedCall :=
  plan.hooks ++ plan.fields.flatMap FieldPlan.calls

theorem ReturnShape.isSuspendable_eq_false {shape : ReturnShape} :
    shape.isSuspendable = false ↔ shape.delivery = .immediate := by
  rw [isSuspendable, bne_eq_false_iff_eq]

/-- A plan does without waiting if all its calls have their output at once. -/
theorem TypePlan.isSynchronous_iff (plan : TypePlan) :
    plan.isSynchronous = true ↔ ∀ call ∈ plan.calls, call.shape.delivery = .immediate := by
  simp only [isSynchronous, FieldPlan.isSuspendable, calls, Bool.and_eq_true, Bool.not_eq_true',
    List.any_eq_false, List.all_eq_true, Bool.not_eq_true, ReturnShape.isSuspendable_eq_false,
    List.forall_mem_append, List.mem_flatMap]
  constructor
  · rintro ⟨fields, hooks⟩
    refine ⟨hooks, fun call ⟨field, member, inside⟩ => ?_⟩
    exact fields field member call inside
  · rintro ⟨hooks, fields⟩
    exact ⟨fun field member call inside => fields call ⟨field, member, inside⟩, hooks⟩

namespace PlanCache

variable {cache after : PlanCache} {start type : TypeKey} {plan : TypePlan}
  {seen pending : List TypeKey}

/-- How far the question has come: the plans of the types seen do without waiting, and what they lead to
at once is seen or pending. -/
structure Surveyed (cache : PlanCache) (start : TypeKey) (seen pending : List TypeKey) : Prop where
  synchronous : ∀ type ∈ seen, ∃ plan, cache.get? type = some plan ∧ plan.isSynchronous = true
  leads : ∀ type ∈ pending, cache.schema.LeadsTo start type
  closed : ∀ type ∈ seen, ∀ nested ∈ cache.schema.nestedTypes type,
    nested ∈ seen ∨ nested ∈ pending
  start : start ∈ seen ∨ start ∈ pending

namespace Surveyed

theorem begin (cache : PlanCache) (start : TypeKey) : cache.Surveyed start [] [start] where
  start := .inr (List.mem_singleton.2 rfl)
  synchronous type member := by cases member
  leads type member := by
    rw [List.mem_singleton.1 member]
    exact .refl
  closed type member := by cases member

/-- A type that was seen need not be looked at again. -/
theorem skip (surveyed : cache.Surveyed start seen (type :: pending)) (old : type ∈ seen) :
    cache.Surveyed start seen pending := by
  have settle : ∀ other, other ∈ seen ∨ other ∈ type :: pending →
      other ∈ seen ∨ other ∈ pending := by
    rintro other (known | waits)
    · exact .inl known
    · rcases List.mem_cons.1 waits with rfl | waits
      · exact .inl old
      · exact .inr waits
  constructor
  case start => exact settle start surveyed.start
  case synchronous => exact surveyed.synchronous
  case leads => exact (List.forall_mem_cons.1 surveyed.leads).2
  case closed =>
    intro other member nested leads
    exact settle nested (surveyed.closed other member nested leads)

/-- Looking at a type adds what it leads to at once. -/
theorem visit (surveyed : cache.Surveyed start seen (type :: pending))
    (kept : cache.get? type = some plan) (synchronous : plan.isSynchronous = true) :
    cache.Surveyed start (type :: seen) ((cache.schema.nestedTypes type).reverse ++ pending) := by
  have settle : ∀ other, other ∈ seen ∨ other ∈ type :: pending →
      other ∈ type :: seen ∨ other ∈ (cache.schema.nestedTypes type).reverse ++ pending := by
    rintro other (known | waits)
    · exact .inl (List.mem_cons_of_mem _ known)
    · rcases List.mem_cons.1 waits with rfl | waits
      · exact .inl List.mem_cons_self
      · exact .inr (List.mem_append_right _ waits)
  obtain ⟨own, others⟩ := List.forall_mem_cons.1 surveyed.leads
  constructor
  case start => exact settle start surveyed.start
  case synchronous => exact List.forall_mem_cons.2 ⟨⟨plan, kept, synchronous⟩, surveyed.synchronous⟩
  case leads =>
    refine List.forall_mem_append.2 ⟨fun nested member => ?_, others⟩
    exact own.tail (List.mem_reverse.1 member)
  case closed =>
    intro other member nested leads
    rcases List.mem_cons.1 member with rfl | member
    · exact .inr (List.mem_append_left _ (List.mem_reverse.2 leads))
    · exact settle nested (surveyed.closed other member nested leads)

/-- Where nothing is pending, everything that is led to was seen. -/
theorem mem_seen (surveyed : cache.Surveyed start seen []) {reached : TypeKey}
    (leads : cache.schema.LeadsTo start reached) : reached ∈ seen := by
  induction leads with
  | refl => exact surveyed.start.resolve_right List.not_mem_nil
  | tail _ step ih => exact (surveyed.closed _ ih _ step).resolve_right List.not_mem_nil

end Surveyed

/-- The plan of a pending type is kept, since the start leads to the type. -/
theorem Surveyed.asks (surveyed : cache.Surveyed start seen (type :: pending)) (sound : cache.Sound)
    (kept : (cache.get? start).isSome) :
    ∃ plan, cache.get? type = some plan ∧ cache.planFor type = .ok (plan, cache) := by
  have leads := (List.forall_mem_cons.1 surveyed.leads).1
  obtain ⟨plan, found⟩ := Option.isSome_iff_exists.1 (sound.isSome_of_leadsTo kept leads)
  exact ⟨plan, found, planFor_of_get? found⟩

/-- Where all plans are kept, the question is answered without a change. -/
theorem allSynchronous_of_surveyed (sound : cache.Sound) (kept : (cache.get? start).isSome)
    (surveyed : cache.Surveyed start seen pending) :
    ∃ answer, cache.allSynchronous seen pending = (.ok answer, cache) ∧
      (answer = true ↔ ∀ reached, cache.schema.LeadsTo start reached →
        ∃ plan, cache.get? reached = some plan ∧ plan.isSynchronous = true) := by
  induction cache, seen, pending using allSynchronous.induct with
  | case1 cache seen =>
    rw [allSynchronous]
    refine ⟨true, rfl, iff_of_true rfl fun reached leads => ?_⟩
    exact surveyed.synchronous reached (surveyed.mem_seen leads)
  | case2 cache seen type pending isNew error failed =>
    obtain ⟨plan, _, asked⟩ := surveyed.asks sound kept
    rw [failed] at asked
    cases asked
  | case3 cache seen type pending isNew plan after asked synchronous ih =>
    obtain ⟨_, found, same⟩ := surveyed.asks sound kept
    rw [asked] at same
    cases same
    rw [allSynchronous_of_ok isNew asked, if_pos synchronous]
    exact ih sound kept (surveyed.visit found synchronous)
  | case4 cache seen type pending isNew plan after asked waits =>
    obtain ⟨_, found, same⟩ := surveyed.asks sound kept
    rw [asked] at same
    cases same
    rw [allSynchronous_of_ok isNew asked, if_neg waits]
    refine ⟨false, rfl, iff_of_false Bool.false_ne_true fun all => ?_⟩
    obtain ⟨_, again, synchronous⟩ := all type (List.forall_mem_cons.1 surveyed.leads).1
    rw [found] at again
    cases again
    exact waits synchronous
  | case5 cache seen type pending isOld ih =>
    rw [allSynchronous, dif_neg isOld]
    exact ih sound kept (surveyed.skip (Decidable.not_not.1 isOld))

/-! ### The answer -/

/-- The fault that keeps a type from having a plan answers the question. -/
theorem isSynchronous_of_error {error : CompileError} (failed : cache.planFor type = .error error) :
    cache.isSynchronous type = (.error error, cache) :=
  allSynchronous_of_error List.not_mem_nil failed

/-- Where a type has a plan, the question is answered by the plans that are kept with it. -/
theorem isSynchronous_of_ok (sound : cache.Sound) (asked : cache.planFor type = .ok (plan, after)) :
    ∃ answer, cache.isSynchronous type = (.ok answer, after) ∧
      (answer = true ↔ ∀ reached, cache.schema.LeadsTo type reached →
        ∃ plan, cache.compile reached = .ok plan ∧ plan.isSynchronous = true) := by
  obtain ⟨soundAfter, family, kept⟩ := planFor_eq_ok sound asked
  have isKept : (after.get? type).isSome := Option.isSome_of_eq_some kept
  obtain ⟨answer, answered, synchronous⟩ :=
    allSynchronous_of_surveyed soundAfter isKept (.begin after type)
  refine ⟨answer, ?_, ?_⟩
  · have again : after.planFor type = .ok (plan, after) := planFor_of_get? kept
    rw [← answered, isSynchronous, allSynchronous_of_ok List.not_mem_nil asked,
      allSynchronous_of_ok List.not_mem_nil again, family.schema]
  · rw [synchronous, family.schema]
    refine forall₂_congr fun reached leads => exists_congr fun found => and_congr_left fun _ => ?_
    rw [← family.compile]
    constructor
    · exact soundAfter.compiled
    · intro compiled
      rw [← family.schema] at leads
      obtain ⟨other, known⟩ := Option.isSome_iff_exists.1 (soundAfter.isSome_of_leadsTo isKept leads)
      rw [soundAfter.compiled known] at compiled
      cases compiled
      exact known

/-- The answer is yes exactly if all types that are led to have plans, and these do without waiting. -/
theorem isSynchronous_eq_true_iff (sound : cache.Sound) (type : TypeKey) :
    (cache.isSynchronous type).1 = .ok true ↔ ∀ reached, cache.schema.LeadsTo type reached →
      ∃ plan, cache.compile reached = .ok plan ∧ plan.isSynchronous = true := by
  cases asked : cache.planFor type with
  | error error =>
    rw [isSynchronous_of_error asked]
    refine iff_of_false nofun fun all => ?_
    obtain ⟨reached, leads, failed⟩ := planFor_eq_error asked
    obtain ⟨plan, compiled, _⟩ := all reached leads
    rw [failed] at compiled
    cases compiled
  | ok found =>
    obtain ⟨answer, answered, synchronous⟩ := isSynchronous_of_ok sound asked
    rw [answered, Except.ok.injEq, synchronous]

end PlanCache

end Assay
