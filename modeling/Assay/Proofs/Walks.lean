/-
Module: Assay.Proofs.Walks
Purpose: Which types a walk over a family compiles. It compiles none whose plan is kept, none twice,
  and none that the start does not lead to; a walk without a fault has compiled all the others. With
  that, asking for a plan adds the plans that were missing for it and no more.
Main exports: PlanCache.Walks, PlanCache.walks_compileAll, PlanCache.planFor_adds
-/
import Assay.Proofs.Family

namespace Assay

namespace PlanCache

variable {cache after : PlanCache} {start type : TypeKey} {plan : TypePlan}
  {made plans : List (TypeKey × TypePlan)} {pending compiled : List TypeKey}
  {result : Except CompileError (List (TypeKey × TypePlan))}

/-- A walk over pending types compiles these types, one after the other, and comes to this result.
Types whose plans are kept, or were made on the way, are passed over. -/
inductive Walks (cache : PlanCache) : List (TypeKey × TypePlan) → List TypeKey → List TypeKey →
    Except CompileError (List (TypeKey × TypePlan)) → Prop where
  | done {made : List (TypeKey × TypePlan)} : Walks cache made [] [] (.ok made)
  | pass {made : List (TypeKey × TypePlan)} {type : TypeKey} {pending compiled : List TypeKey}
      {result : Except CompileError (List (TypeKey × TypePlan))} (covered : cache.Covers made type)
      (rest : Walks cache made pending compiled result) :
    Walks cache made (type :: pending) compiled result
  | fault {made : List (TypeKey × TypePlan)} {type : TypeKey} {pending : List TypeKey}
      {error : CompileError} (isNew : ¬cache.Covers made type)
      (failed : cache.compile type = .error error) :
    Walks cache made (type :: pending) [type] (.error error)
  | plan {made : List (TypeKey × TypePlan)} {type : TypeKey} {pending compiled : List TypeKey}
      {plan : TypePlan} {result : Except CompileError (List (TypeKey × TypePlan))}
      (isNew : ¬cache.Covers made type) (planned : cache.compile type = .ok plan)
      (rest : Walks cache ((type, plan) :: made)
        ((cache.schema.nestedTypes type).reverse ++ pending) compiled result) :
    Walks cache made (type :: pending) (type :: compiled) result

/-- The plans for pending types are made by a walk over them. -/
theorem walks_compileAll (cache : PlanCache) (made : List (TypeKey × TypePlan))
    (pending : List TypeKey) :
    ∃ compiled, cache.Walks made pending compiled (cache.compileAll made pending) := by
  induction made, pending using compileAll.induct cache with
  | case1 made =>
    rw [compileAll]
    exact ⟨[], .done⟩
  | case2 made type pending isNew kept ih =>
    obtain ⟨compiled, walks⟩ := ih
    rw [compileAll, dif_pos isNew, if_pos kept]
    exact ⟨compiled, .pass (.inl kept) walks⟩
  | case3 made type pending isNew missing error failed =>
    rw [compileAll, dif_pos isNew, if_neg missing, failed]
    exact ⟨[type], .fault (not_or.2 ⟨missing, isNew⟩) failed⟩
  | case4 made type pending isNew missing plan planned ih =>
    obtain ⟨compiled, walks⟩ := ih
    rw [compileAll, dif_pos isNew, if_neg missing, planned]
    exact ⟨type :: compiled, .plan (not_or.2 ⟨missing, isNew⟩) planned walks⟩
  | case5 made type pending isOld ih =>
    obtain ⟨compiled, walks⟩ := ih
    rw [compileAll, dif_neg isOld]
    exact ⟨compiled, .pass (.inr (Decidable.not_not.1 isOld)) walks⟩

namespace Walks

/-- Only types without a plan are compiled. -/
theorem not_covers (walks : cache.Walks made pending compiled result) :
    ∀ type ∈ compiled, ¬cache.Covers made type := by
  induction walks with
  | done => simp
  | pass _ _ ih => exact ih
  | fault isNew _ => simpa using isNew
  | plan isNew _ _ ih =>
    intro other member
    rcases List.mem_cons.1 member with rfl | later
    · exact isNew
    · -- What is not covered once more plans are made was not covered before.
      intro covered
      exact ih other later (covered.imp_right (List.mem_cons_of_mem _))

/-- No type is compiled twice. -/
theorem nodup (walks : cache.Walks made pending compiled result) : compiled.Nodup := by
  induction walks with
  | done => simp
  | pass _ _ ih => exact ih
  | fault _ _ => simp
  | plan _ _ rest ih =>
    refine List.nodup_cons.2 ⟨fun again => ?_, ih⟩
    exact rest.not_covers _ again (.inr (by simp))

/-- Only types are compiled that the start leads to. -/
theorem leadsTo (walks : cache.Walks made pending compiled result)
    (leads : ∀ type ∈ pending, cache.schema.LeadsTo start type) :
    ∀ type ∈ compiled, cache.schema.LeadsTo start type := by
  induction walks with
  | done => simp
  | pass _ _ ih => exact ih (List.forall_mem_cons.1 leads).2
  | fault _ _ => simpa using (List.forall_mem_cons.1 leads).1
  | plan _ _ _ ih =>
    obtain ⟨own, others⟩ := List.forall_mem_cons.1 leads
    refine List.forall_mem_cons.2 ⟨own, ih (List.forall_mem_append.2 ⟨fun nested member => ?_, others⟩)⟩
    exact own.tail (List.mem_reverse.1 member)

/-- A walk without a fault makes one plan for each type that it compiles, the last one first. -/
theorem keys_eq (walks : cache.Walks made pending compiled (.ok plans)) :
    plans.map Prod.fst = compiled.reverse ++ made.map Prod.fst := by
  generalize ended : (Except.ok plans : Except CompileError _) = result at walks
  induction walks with
  | done =>
    cases ended
    simp
  | pass _ _ ih => exact ih ended
  | fault _ _ => cases ended
  | plan _ _ _ ih => simp [ih ended]

end Walks

/-! ### Asking for a plan -/

/-- Where a plan is found, a walk made what was missing for it, if anything was. -/
theorem exists_compileAll_of_planFor (asked : cache.planFor type = .ok (plan, after)) :
    ∃ made, cache.compileAll [] [type] = .ok made ∧
      after = { cache with plans := cache.plans ++ made } := by
  rw [planFor] at asked
  cases found : cache.get? type with
  | some kept =>
    rw [found] at asked
    cases asked
    refine ⟨[], ?_, by simp⟩
    simp [compileAll, found]
  | none =>
    simp only [found] at asked
    cases walked : cache.compileAll [] [type] with
    | error error =>
      rw [walked] at asked
      cases asked
    | ok made =>
      simp only [walked, bind, Except.bind] at asked
      split at asked
      · cases asked
        exact ⟨made, rfl, rfl⟩
      · cases asked

/-- Asking for a plan compiles the types that its type leads to and whose plans are missing, each of
them once; their plans are added, and nothing else changes. -/
theorem planFor_adds (sound : cache.Sound) (asked : cache.planFor type = .ok (plan, after)) :
    ∃ made compiled, cache.Walks [] [type] compiled (.ok made) ∧
      after = { cache with plans := cache.plans ++ made } ∧
      made.map Prod.fst = compiled.reverse ∧ compiled.Nodup ∧
      ∀ other, other ∈ compiled ↔ cache.schema.LeadsTo type other ∧ cache.get? other = none := by
  obtain ⟨made, walked, rfl⟩ := exists_compileAll_of_planFor asked
  obtain ⟨compiled, walks⟩ := walks_compileAll cache [] [type]
  rw [walked] at walks
  have keys : made.map Prod.fst = compiled.reverse := by simpa using walks.keys_eq
  refine ⟨made, compiled, walks, rfl, keys, walks.nodup, fun other => ?_⟩
  constructor
  · intro member
    have leads : ∀ reached ∈ compiled, cache.schema.LeadsTo type reached :=
      walks.leadsTo (List.forall_mem_singleton.2 .refl)
    have isNew := walks.not_covers other member
    exact ⟨leads other member, by simpa [Covers] using isNew⟩
  · rintro ⟨leads, missing⟩
    obtain ⟨soundAfter, _, found⟩ := planFor_eq_ok sound asked
    have reached := soundAfter.isSome_of_leadsTo (Option.isSome_of_eq_some found) leads
    rw [isSome_get?_append_iff, Covers, missing, keys] at reached
    simpa using reached

end PlanCache

end Assay
