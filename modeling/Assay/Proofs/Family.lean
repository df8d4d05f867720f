/-
Module: Assay.Proofs.Family
Purpose: The plans of a family of types are those that its descriptions give, whatever was asked for
  before. A type has a plan exactly if all types that it leads to can be compiled, and where the plan
  of a type is kept, the plans of all those types are.
Main exports: Schema.LeadsTo, PlanCache.Sound, PlanCache.planFor_eq_ok, PlanCache.planFor_ok_iff
-/
import Mathlib.Logic.Relation
import Assay.Plan.Cache

namespace Assay

/-- The types that a type leads to through fields that hold objects, and the type itself. -/
def Schema.LeadsTo (schema : Schema) : TypeKey → TypeKey → Prop :=
  Relation.ReflTransGen fun type nested => nested ∈ schema.nestedTypes type

/-- A type whose fields hold objects of no other type leads to itself only. -/
theorem Schema.LeadsTo.eq_of_alone {schema : Schema} {start type : TypeKey}
    (leads : schema.LeadsTo start type)
    (alone : ∀ nested ∈ schema.nestedTypes start, nested = start) : type = start := by
  induction leads with
  | refl => rfl
  | tail _ nested ih =>
    rw [ih] at nested
    exact alone _ nested

namespace PlanCache

variable {cache after : PlanCache} {start type : TypeKey} {plan : TypePlan}
  {made : List (TypeKey × TypePlan)} {pending : List TypeKey}

/-- The plans kept are those that the descriptions give, and nothing that they lead to is missing. -/
structure Sound (cache : PlanCache) : Prop where
  compiled : ∀ {type plan}, cache.get? type = some plan → cache.compile type = .ok plan
  closed : ∀ {type}, (cache.get? type).isSome → ∀ nested ∈ cache.schema.nestedTypes type,
    (cache.get? nested).isSome

/-- A cache that has come out of another one: it is of the same family and keeps what was kept. -/
structure Extends (after cache : PlanCache) : Prop where
  schema : after.schema = cache.schema
  catalog : after.catalog = cache.catalog
  options : after.options = cache.options
  kept : ∀ {type plan}, cache.get? type = some plan → after.get? type = some plan

theorem Extends.refl (cache : PlanCache) : cache.Extends cache :=
  ⟨rfl, rfl, rfl, id⟩

theorem Extends.trans {middle : PlanCache} (later : after.Extends middle)
    (earlier : middle.Extends cache) : after.Extends cache where
  schema := later.schema.trans earlier.schema
  catalog := later.catalog.trans earlier.catalog
  options := later.options.trans earlier.options
  kept := later.kept ∘ earlier.kept

theorem Extends.compile (extends_ : after.Extends cache) : after.compile = cache.compile := by
  funext type
  rw [PlanCache.compile, PlanCache.compile, extends_.schema, extends_.catalog, extends_.options]

/-- A plan that is kept is the one that every cache of the family gives. -/
theorem Extends.compile_of_get? (extends_ : after.Extends cache) (sound : after.Sound)
    (kept : after.get? type = some plan) : cache.compile type = .ok plan := by
  rw [← extends_.compile]
  exact sound.compiled kept

/-- A type whose plan is kept or has just been made. -/
def Covers (cache : PlanCache) (made : List (TypeKey × TypePlan)) (type : TypeKey) : Prop :=
  (cache.get? type).isSome ∨ type ∈ made.map Prod.fst

/-- The plans made so far are right, and what the start and the types of these plans lead to at once
is covered or pending. -/
structure Underway (cache : PlanCache) (start : TypeKey) (made : List (TypeKey × TypePlan))
    (pending : List TypeKey) : Prop where
  compiled : ∀ entry ∈ made, cache.compile entry.1 = .ok entry.2
  start : cache.Covers made start ∨ start ∈ pending
  closed : ∀ entry ∈ made, ∀ nested ∈ cache.schema.nestedTypes entry.1,
    cache.Covers made nested ∨ nested ∈ pending

namespace Underway

/-- At the start nothing is made. -/
theorem begin (cache : PlanCache) (start : TypeKey) : cache.Underway start [] [start] where
  compiled entry member := by cases member
  start := .inr (List.mem_singleton.2 rfl)
  closed entry member := by cases member

/-- A type that is covered need not be pending. -/
theorem skip (underway : cache.Underway start made (type :: pending))
    (covered : cache.Covers made type) : cache.Underway start made pending := by
  have settle : ∀ other, cache.Covers made other ∨ other ∈ type :: pending →
      cache.Covers made other ∨ other ∈ pending := by
    intro other found
    rcases found with known | waits
    · exact .inl known
    · rcases List.mem_cons.1 waits with rfl | waits
      · exact .inl covered
      · exact .inr waits
  constructor
  case compiled => exact underway.compiled
  case start => exact settle start underway.start
  case closed =>
    intro entry member nested leads
    exact settle nested (underway.closed entry member nested leads)

/-- Making the plan of a pending type covers it, and adds what it leads to at once. -/
theorem visit (underway : cache.Underway start made (type :: pending))
    (compiled : cache.compile type = .ok plan) :
    cache.Underway start ((type, plan) :: made)
      ((cache.schema.nestedTypes type).reverse ++ pending) := by
  have settle : ∀ other, cache.Covers made other ∨ other ∈ type :: pending →
      cache.Covers ((type, plan) :: made) other ∨
        other ∈ (cache.schema.nestedTypes type).reverse ++ pending := by
    intro other found
    rcases found with (kept | known) | waits
    · exact .inl (.inl kept)
    · exact .inl (.inr (List.mem_cons_of_mem _ known))
    · rcases List.mem_cons.1 waits with rfl | waits
      · exact .inl (.inr List.mem_cons_self)
      · exact .inr (List.mem_append_right _ waits)
  constructor
  case compiled => exact List.forall_mem_cons.2 ⟨compiled, underway.compiled⟩
  case start => exact settle start underway.start
  case closed =>
    intro entry member nested leads
    rcases List.mem_cons.1 member with rfl | member
    · exact .inr (List.mem_append_left _ (List.mem_reverse.2 leads))
    · exact settle nested (underway.closed entry member nested leads)

end Underway

/-- A walk that ends has nothing pending. -/
theorem underway_compileAll {plans : List (TypeKey × TypePlan)}
    (underway : cache.Underway start made pending)
    (ended : cache.compileAll made pending = .ok plans) : cache.Underway start plans [] := by
  induction made, pending using compileAll.induct cache with
  | case1 made =>
    rw [compileAll] at ended
    cases ended
    exact underway
  | case2 made type pending isNew kept ih =>
    rw [compileAll, dif_pos isNew, if_pos kept] at ended
    exact ih (underway.skip (.inl kept)) ended
  | case3 made type pending isNew missing error failed =>
    rw [compileAll, dif_pos isNew, if_neg missing, failed] at ended
    cases ended
  | case4 made type pending isNew missing plan compiled ih =>
    rw [compileAll, dif_pos isNew, if_neg missing, compiled] at ended
    exact ih (underway.visit compiled) ended
  | case5 made type pending isOld ih =>
    rw [compileAll, dif_neg isOld] at ended
    exact ih (underway.skip (.inr (Decidable.not_not.1 isOld))) ended

/-- A walk fails only at a type that one of the pending types leads to. -/
theorem compileAll_eq_error {error : CompileError}
    (failed : cache.compileAll made pending = .error error) :
    ∃ root ∈ pending, ∃ reached, cache.schema.LeadsTo root reached ∧
      cache.compile reached = .error error := by
  induction made, pending using compileAll.induct cache with
  | case1 made =>
    rw [compileAll] at failed
    cases failed
  | case2 made type pending isNew kept ih =>
    rw [compileAll, dif_pos isNew, if_pos kept] at failed
    obtain ⟨root, member, reached, leads, fault⟩ := ih failed
    exact ⟨root, List.mem_cons_of_mem _ member, reached, leads, fault⟩
  | case3 made type pending isNew missing fault faulty =>
    rw [compileAll, dif_pos isNew, if_neg missing, faulty] at failed
    cases failed
    exact ⟨type, List.mem_cons_self, type, .refl, faulty⟩
  | case4 made type pending isNew missing plan compiled ih =>
    rw [compileAll, dif_pos isNew, if_neg missing, compiled] at failed
    obtain ⟨root, member, reached, leads, fault⟩ := ih failed
    rcases List.mem_append.1 member with nested | member
    · have step := List.mem_reverse.1 nested
      exact ⟨type, List.mem_cons_self, reached, .head step leads, fault⟩
    · exact ⟨root, List.mem_cons_of_mem _ member, reached, leads, fault⟩
  | case5 made type pending isOld ih =>
    rw [compileAll, dif_neg isOld] at failed
    obtain ⟨root, member, reached, leads, fault⟩ := ih failed
    exact ⟨root, List.mem_cons_of_mem _ member, reached, leads, fault⟩

/-! ### Asking for a plan -/

theorem get?_append (cache : PlanCache) (made : List (TypeKey × TypePlan)) (type : TypeKey) :
    get? { cache with plans := cache.plans ++ made } type =
      (cache.get? type).or (made.lookup type) :=
  List.lookup_append

theorem isSome_get?_append_iff (cache : PlanCache) (made : List (TypeKey × TypePlan))
    (type : TypeKey) :
    (get? { cache with plans := cache.plans ++ made } type).isSome ↔ cache.Covers made type := by
  rw [get?_append, Option.isSome_or, Bool.or_eq_true, List.lookup_isSome_iff, Covers, List.mem_map]
  refine or_congr_right ⟨?_, ?_⟩
  · rintro ⟨entry, member, same⟩
    exact ⟨entry, member, (eq_of_beq same).symm⟩
  · rintro ⟨entry, member, same⟩
    exact ⟨entry, member, beq_iff_eq.2 same.symm⟩

/-- Keeping the plans of a walk that ended keeps a cache sound. -/
theorem Sound.append (sound : cache.Sound) (underway : cache.Underway start made []) :
    Sound { cache with plans := cache.plans ++ made } where
  compiled := by
    intro type plan found
    rw [get?_append] at found
    rcases Option.or_eq_some_iff.1 found with kept | ⟨_, fresh⟩
    · exact sound.compiled kept
    · obtain ⟨front, back, rfl, _⟩ := List.lookup_eq_some_iff.1 fresh
      exact underway.compiled (type, plan) (by simp)
  closed := by
    intro type found nested leads
    rw [isSome_get?_append_iff] at found ⊢
    rcases found with kept | fresh
    · exact .inl (sound.closed kept nested leads)
    · obtain ⟨entry, member, rfl⟩ := List.mem_map.1 fresh
      exact (underway.closed entry member nested leads).resolve_right List.not_mem_nil

/-- A plan that is asked for is kept from then on. -/
theorem planFor_eq_ok (sound : cache.Sound) (asked : cache.planFor type = .ok (plan, after)) :
    after.Sound ∧ after.Extends cache ∧ after.get? type = some plan := by
  rw [planFor] at asked
  cases found : cache.get? type with
  | some kept =>
    rw [found] at asked
    cases asked
    exact ⟨sound, .refl cache, found⟩
  | none =>
    simp only [found] at asked
    cases walked : cache.compileAll [] [type] with
    | error error =>
      rw [walked] at asked
      cases asked
    | ok made =>
      have underway := underway_compileAll (.begin cache type) walked
      have extended : Extends { cache with plans := cache.plans ++ made } cache := by
        refine ⟨rfl, rfl, rfl, fun found => ?_⟩
        rw [get?_append, found, Option.some_or]
      simp only [walked, bind, Except.bind] at asked
      split at asked
      · rename_i known
        cases asked
        exact ⟨sound.append underway, extended, known⟩
      · cases asked

/-- A plan that is asked for is the one that the description of its type gives. -/
theorem compile_of_planFor (sound : cache.Sound) (asked : cache.planFor type = .ok (plan, after)) :
    cache.compile type = .ok plan := by
  obtain ⟨soundAfter, extended, kept⟩ := planFor_eq_ok sound asked
  rw [← extended.compile]
  exact soundAfter.compiled kept

/-- Asking for a plan fails only if the walk over the family does. -/
theorem compileAll_of_planFor {error : CompileError} (asked : cache.planFor type = .error error) :
    cache.compileAll [] [type] = .error error := by
  rw [planFor] at asked
  cases found : cache.get? type with
  | some kept =>
    rw [found] at asked
    cases asked
  | none =>
    simp only [found] at asked
    cases walked : cache.compileAll [] [type] with
    | error fault =>
      rw [walked] at asked
      cases asked
      rfl
    | ok made =>
      have underway := underway_compileAll (.begin cache type) walked
      have covered := underway.start.resolve_right List.not_mem_nil
      rw [← isSome_get?_append_iff] at covered
      obtain ⟨plan, known⟩ := Option.isSome_iff_exists.1 covered
      simp only [walked, bind, Except.bind, known] at asked
      cases asked

/-- Asking for a plan fails only with the fault of a type that the type leads to. -/
theorem planFor_eq_error {error : CompileError} (asked : cache.planFor type = .error error) :
    ∃ reached, cache.schema.LeadsTo type reached ∧ cache.compile reached = .error error := by
  obtain ⟨root, member, faulty⟩ := compileAll_eq_error (compileAll_of_planFor asked)
  rw [List.mem_singleton.1 member] at faulty
  exact faulty

/-- Where a plan is kept, so are those of all types that its type leads to. -/
theorem Sound.isSome_of_leadsTo (sound : cache.Sound) {reached : TypeKey}
    (kept : (cache.get? type).isSome) (leads : cache.schema.LeadsTo type reached) :
    (cache.get? reached).isSome := by
  induction leads with
  | refl => exact kept
  | tail _ step ih => exact sound.closed ih _ step

/-- A type has a plan exactly if all types that it leads to can be compiled. -/
theorem planFor_ok_iff (sound : cache.Sound) (type : TypeKey) :
    (∃ plan after, cache.planFor type = .ok (plan, after)) ↔
      ∀ reached, cache.schema.LeadsTo type reached → ∃ plan, cache.compile reached = .ok plan := by
  constructor
  · rintro ⟨plan, after, asked⟩ reached leads
    obtain ⟨soundAfter, extended, kept⟩ := planFor_eq_ok sound asked
    rw [← extended.schema] at leads
    have known := soundAfter.isSome_of_leadsTo (Option.isSome_of_eq_some kept) leads
    obtain ⟨found, known⟩ := Option.isSome_iff_exists.1 known
    exact ⟨found, extended.compile ▸ soundAfter.compiled known⟩
  · intro compiles
    cases asked : cache.planFor type with
    | ok found => exact ⟨found.1, found.2, rfl⟩
    | error error =>
      obtain ⟨reached, leads, failed⟩ := planFor_eq_error asked
      obtain ⟨plan, compiled⟩ := compiles reached leads
      rw [failed] at compiled
      cases compiled

theorem planFor_of_get? (kept : cache.get? type = some plan) :
    cache.planFor type = .ok (plan, cache) := by
  rw [planFor, kept]

/-- Types whose plans are made are passed over. -/
theorem compileAll_of_made {made : List (TypeKey × TypePlan)}
    (known : ∀ type ∈ pending, type ∈ made.map Prod.fst) :
    cache.compileAll made pending = .ok made := by
  induction pending with
  | nil => rw [compileAll]
  | cons type pending ih =>
    obtain ⟨own, others⟩ := List.forall_mem_cons.1 known
    rw [compileAll, dif_neg (not_not_intro own), ih others]

/-- A type that leads to no other one is planned on its own. -/
theorem planFor_of_alone (missing : cache.get? type = none)
    (alone : ∀ nested ∈ cache.schema.nestedTypes type, nested = type) :
    cache.planFor type =
      (cache.compile type).map fun plan =>
        (plan, { cache with plans := cache.plans ++ [(type, plan)] }) := by
  have unknown : ¬(cache.get? type).isSome = true := by rw [missing]; exact Bool.false_ne_true
  rw [planFor, missing]
  simp only
  rw [compileAll, List.map_nil, dif_pos List.not_mem_nil, if_neg unknown]
  cases cache.compile type with
  | error error => rfl
  | ok plan =>
    have made : cache.compileAll [(type, plan)] ((cache.schema.nestedTypes type).reverse ++ []) =
        .ok [(type, plan)] := by
      apply compileAll_of_made
      simpa using alone
    simp only [made, bind, Except.bind, get?_append, missing, Option.none_or, List.lookup_cons_self]
    rfl

/-! ### Asking whether waiting is needed -/

theorem allSynchronous_of_error {seen : List TypeKey} {error : CompileError} (isNew : type ∉ seen)
    (failed : cache.planFor type = .error error) :
    cache.allSynchronous seen (type :: pending) = (.error error, cache) := by
  rw [allSynchronous, dif_pos isNew]
  split
  · rename_i asked
    rw [failed] at asked
    cases asked
    rfl
  · rename_i asked
    rw [failed] at asked
    cases asked

theorem allSynchronous_of_ok {seen : List TypeKey} (isNew : type ∉ seen)
    (asked : cache.planFor type = .ok (plan, after)) :
    cache.allSynchronous seen (type :: pending) =
      if plan.isSynchronous then
        after.allSynchronous (type :: seen) ((cache.schema.nestedTypes type).reverse ++ pending)
      else (.ok false, after) := by
  rw [allSynchronous, dif_pos isNew]
  split
  · rename_i failed
    rw [asked] at failed
    cases failed
  · rename_i same
    rw [asked] at same
    cases same
    rfl

/-- Asking whether a family can do without waiting keeps a cache sound. -/
theorem allSynchronous_sound (sound : cache.Sound) (seen pending : List TypeKey) :
    (cache.allSynchronous seen pending).2.Sound ∧
      (cache.allSynchronous seen pending).2.Extends cache := by
  induction cache, seen, pending using allSynchronous.induct with
  | case1 cache seen =>
    rw [allSynchronous]
    exact ⟨sound, .refl cache⟩
  | case2 cache seen type pending isNew error failed =>
    rw [allSynchronous_of_error isNew failed]
    exact ⟨sound, .refl cache⟩
  | case3 cache seen type pending isNew plan after asked synchronous ih =>
    obtain ⟨soundAfter, extended, _⟩ := planFor_eq_ok sound asked
    obtain ⟨soundEnd, extendedEnd⟩ := ih soundAfter
    rw [allSynchronous_of_ok isNew asked, if_pos synchronous]
    exact ⟨soundEnd, extendedEnd.trans extended⟩
  | case4 cache seen type pending isNew plan after asked waits =>
    obtain ⟨soundAfter, extended, _⟩ := planFor_eq_ok sound asked
    rw [allSynchronous_of_ok isNew asked, if_neg waits]
    exact ⟨soundAfter, extended⟩
  | case5 cache seen type pending isOld ih =>
    rw [allSynchronous, dif_neg isOld]
    exact ih sound

end PlanCache

end Assay
