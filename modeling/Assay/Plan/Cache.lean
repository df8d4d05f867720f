/-
Module: Assay.Plan.Cache
Purpose: The plans of a family of types, made when they are first asked for and kept. With the plan
  of a type those of all types that it leads to are made; they are kept only if none of them has a
  fault. A type that leads back to itself is planned once, which is why the walk over a family ends.
Main exports: Schema.unvisited, PlanCache, PlanCache.compile, PlanCache.planFor,
  PlanCache.isSynchronous
-/
import Assay.Plan.Basic

namespace Assay

namespace Schema

/-- The number of described types that are not among those seen. -/
def unvisited (schema : Schema) (seen : List TypeKey) : Nat :=
  schema.types.countP fun entry => !seen.contains entry.1

/-- The types that a described type leads to at once. -/
def nestedTypes (schema : Schema) (type : TypeKey) : List TypeKey :=
  (schema.describe type).nestedTypes

/-- A type that is not described leads nowhere. -/
theorem nestedTypes_of_lookup_eq_none {schema : Schema} {type : TypeKey}
    (unknown : schema.types.lookup type = none) : schema.nestedTypes type = [] := by
  simp [nestedTypes, describe, unknown, TypeDescriptor.nestedTypes]

theorem unvisited_cons_le (schema : Schema) (seen : List TypeKey) (type : TypeKey) :
    schema.unvisited (type :: seen) ≤ schema.unvisited seen := by
  refine List.countP_mono_left fun entry _ isNew => ?_
  simp only [List.contains_cons, Bool.not_or, Bool.and_eq_true] at isNew
  exact isNew.2

/-- Seeing a described type for the first time leaves fewer to be seen. -/
theorem unvisited_cons_lt {schema : Schema} {seen : List TypeKey} {type : TypeKey}
    {descriptor : TypeDescriptor} (known : schema.types.lookup type = some descriptor)
    (isNew : type ∉ seen) : schema.unvisited (type :: seen) < schema.unvisited seen := by
  obtain ⟨types⟩ := schema
  simp only [unvisited] at *
  induction types with
  | nil => simp at known
  | cons entry types ih =>
    obtain ⟨name, description⟩ := entry
    have others := unvisited_cons_le ⟨types⟩ seen type
    simp only [unvisited] at others
    simp only [List.lookup_cons] at known
    by_cases same : type = name
    · subst same
      have taken : (!(type :: seen).contains type) = false := by simp
      have free : (!seen.contains type) = true := by simp [isNew]
      rw [List.countP_cons, List.countP_cons, taken, free]
      simp only [Bool.false_eq_true, if_false, if_true]
      omega
    · have later := ih (by simpa [beq_eq_false_iff_ne.2 same] using known)
      have unchanged : ((type :: seen).contains name) = seen.contains name := by
        simp [Ne.symm same]
      simp only [List.countP_cons, unchanged]
      omega

/-- Taking a new type off the list of those still to visit, and putting the types that it leads to
onto the list, makes progress: fewer types are new, or the list is shorter. -/
theorem visit_progress (schema : Schema) {seen : List TypeKey} {type : TypeKey}
    (isNew : type ∉ seen) (pending : List TypeKey) :
    Prod.Lex (· < ·) (· < ·)
      (schema.unvisited (type :: seen), ((schema.nestedTypes type).reverse ++ pending).length)
      (schema.unvisited seen, (type :: pending).length) := by
  cases known : schema.types.lookup type with
  | some descriptor => exact .left _ _ (unvisited_cons_lt known isNew)
  | none =>
    rw [nestedTypes_of_lookup_eq_none known]
    rcases Nat.lt_or_eq_of_le (unvisited_cons_le schema seen type) with fewer | same
    · exact .left _ _ fewer
    · rw [same]
      exact .right _ (by simp)

end Schema

structure PlanCache where
  schema : Schema
  /-- The rules that fields are declared with. -/
  catalog : RuleCatalog
  options : Options
  plans : List (TypeKey × TypePlan) := []

namespace PlanCache

def size (cache : PlanCache) : Nat :=
  cache.plans.length

def get? (cache : PlanCache) (type : TypeKey) : Option TypePlan :=
  cache.plans.lookup type

/-- Makes the plan of one type, without those it leads to. -/
def compile (cache : PlanCache) (type : TypeKey) : Except CompileError TypePlan := do
  let model ← TypeModel.ofDescriptor (cache.schema.describe type) cache.catalog cache.options
  TypePlan.ofModel model type cache.options.fieldMessageCapacity

/-- Makes the plans that are missing for the `pending` types and all that they lead to, in addition
to those in `made`. The type to go on with is the last one that was met. -/
def compileAll (cache : PlanCache) (made : List (TypeKey × TypePlan)) :
    (pending : List TypeKey) → Except CompileError (List (TypeKey × TypePlan))
  | [] => .ok made
  | type :: pending =>
    if _isNew : type ∉ made.map Prod.fst then
      if (cache.get? type).isSome then cache.compileAll made pending
      else
        match cache.compile type with
        | .error error => .error error
        | .ok plan =>
          cache.compileAll ((type, plan) :: made)
            ((cache.schema.nestedTypes type).reverse ++ pending)
    else cache.compileAll made pending
termination_by pending => (cache.schema.unvisited (made.map Prod.fst), pending.length)
decreasing_by
  · exact .right _ (by simp)
  · exact cache.schema.visit_progress _isNew pending
  · exact .right _ (by simp)

/-- The plan of a type, made if it is missing, and the plans kept after that. -/
def planFor (cache : PlanCache) (type : TypeKey) : Except CompileError (TypePlan × PlanCache) :=
  match cache.get? type with
  | some plan => .ok (plan, cache)
  | none => do
    let made ← cache.compileAll [] [type]
    let cache := { cache with plans := cache.plans ++ made }
    match cache.get? type with
    | some plan => return (plan, cache)
    | none => throw (.nestedTypeMissing type.name)

/-- Whether no rule of the `pending` types, and of those they lead to, may have to be waited for.
The first type with such a rule settles it. -/
def allSynchronous (cache : PlanCache) (seen : List TypeKey) :
    (pending : List TypeKey) → Except CompileError Bool × PlanCache
  | [] => (.ok true, cache)
  | type :: pending =>
    if _isNew : type ∉ seen then
      match _planned : cache.planFor type with
      | .error error => (.error error, cache)
      | .ok (plan, cache') =>
        if plan.isSynchronous then
          cache'.allSynchronous (type :: seen)
            ((cache.schema.nestedTypes type).reverse ++ pending)
        else (.ok false, cache')
    else cache.allSynchronous seen pending
termination_by pending => (cache.schema.unvisited seen, pending.length)
decreasing_by
  · have kept : cache'.schema = cache.schema := by
      unfold planFor at _planned
      split at _planned
      · cases _planned; rfl
      · cases made : cache.compileAll [] [type] with
        | error error => simp [made, bind, Except.bind] at _planned
        | ok plans =>
          simp only [made, bind, Except.bind] at _planned
          split at _planned <;> cases _planned
          rfl
    rw [kept]
    exact cache.schema.visit_progress _isNew pending
  · exact .right _ (by simp)

/-- Whether objects of a type can be validated without waiting. -/
def isSynchronous (cache : PlanCache) (type : TypeKey) : Except CompileError Bool × PlanCache :=
  cache.allSynchronous [] [type]

end PlanCache

end Assay
