/-
Module: Assay.Proofs.Replanning
Purpose: What a cache keeps does not change what it answers. A walk over a family with plans at hand
  passes over the types whose plans are kept, and meets the others in the same order as a walk without
  any; since all that leads from a kept plan is kept as well, it finds the same plans and the same first
  fault.
Main exports: PlanCache.Akin, PlanCache.Abreast, PlanCache.planFor_of_akin,
  PlanCache.allSynchronous_of_akin
-/
import Assay.Proofs.Family

namespace Assay

namespace PlanCache

variable {cache other : PlanCache} {type : TypeKey} {plan : TypePlan}
  {made plans : List (TypeKey × TypePlan)} {pending rest : List TypeKey}

/-- Two caches of one family, whatever they keep. -/
structure Akin (cache other : PlanCache) : Prop where
  schema : cache.schema = other.schema
  catalog : cache.catalog = other.catalog
  options : cache.options = other.options

theorem Akin.symm (akin : cache.Akin other) : other.Akin cache :=
  ⟨akin.schema.symm, akin.catalog.symm, akin.options.symm⟩

theorem Akin.trans {third : PlanCache} (first : cache.Akin other) (second : other.Akin third) :
    cache.Akin third :=
  ⟨first.schema.trans second.schema, first.catalog.trans second.catalog,
    first.options.trans second.options⟩

theorem Extends.akin {after : PlanCache} (family : after.Extends cache) : after.Akin cache :=
  ⟨family.schema, family.catalog, family.options⟩

theorem Akin.compile_eq (akin : cache.Akin other) : cache.compile = other.compile := by
  funext type
  rw [compile, compile, akin.schema, akin.catalog, akin.options]

/-- The cache of the same family that keeps nothing. -/
def cold (cache : PlanCache) : PlanCache :=
  { cache with plans := [] }

theorem Akin.cold_eq (akin : cache.Akin other) : cache.cold = other.cold := by
  rcases cache with ⟨schema, catalog, options, plans⟩
  rcases other with ⟨otherSchema, otherCatalog, otherOptions, otherPlans⟩
  rcases akin with ⟨rfl, rfl, rfl⟩
  rfl

/-- Whether no plan of the type is kept. -/
def misses (cache : PlanCache) (type : TypeKey) : Bool :=
  (cache.get? type).isNone

theorem misses_iff : cache.misses type = true ↔ ¬(cache.get? type).isSome = true := by
  rw [misses, Option.isNone_iff_eq_none, Option.not_isSome_iff_eq_none]

theorem isSome_of_not_misses (kept : ¬cache.misses type = true) : (cache.get? type).isSome = true :=
  Decidable.not_not.1 (mt misses_iff.2 kept)

/-- Pending types whose plans are kept are passed over. -/
theorem compileAll_append_of_kept {skipped : List TypeKey}
    (kept : ∀ type ∈ skipped, ¬cache.misses type = true) (made : List (TypeKey × TypePlan)) :
    cache.compileAll made (skipped ++ rest) = cache.compileAll made rest := by
  induction skipped with
  | nil => rfl
  | cons type skipped ih =>
    rw [List.forall_mem_cons] at kept
    have known := isSome_of_not_misses kept.1
    rw [List.cons_append, compileAll]
    by_cases isNew : type ∉ made.map Prod.fst
    · rw [dif_pos isNew, if_pos known, ih kept.2]
    · rw [dif_neg isNew, ih kept.2]

/-- A walk without plans and one with plans at hand that have come equally far: of the types whose plans
are not kept, they have planned the same ones, and the same ones are pending in the same order. -/
structure Abreast (cache : PlanCache) (made : List (TypeKey × TypePlan)) (pending : List TypeKey)
    (planned : List (TypeKey × TypePlan)) (waiting : List TypeKey) : Prop where
  made : ∀ type, cache.misses type = true →
    (type ∈ made.map Prod.fst ↔ type ∈ planned.map Prod.fst)
  pending : pending.filter cache.misses = waiting.filter cache.misses

namespace Abreast

variable {planned : List (TypeKey × TypePlan)} {waiting : List TypeKey}

/-- A walk without plans may go on alone where the other one has a plan. -/
theorem pass (abreast : cache.Abreast made (type :: pending) planned waiting)
    (kept : ¬cache.misses type = true) : cache.Abreast made pending planned waiting where
  made := abreast.made
  pending := by rw [← abreast.pending, List.filter_cons_of_neg kept]

/-- What comes next without plans comes next with plans at hand, once those that are kept are passed. -/
theorem next (abreast : cache.Abreast made (type :: pending) planned waiting)
    (missing : cache.misses type = true) :
    ∃ later, cache.compileAll planned waiting = cache.compileAll planned (type :: later) ∧
      cache.Abreast made pending planned later := by
  have same := abreast.pending
  rw [List.filter_cons_of_pos missing] at same
  obtain ⟨skipped, later, rfl, kept, _, others⟩ := List.filter_eq_cons_iff.1 same.symm
  exact ⟨later, compileAll_append_of_kept kept planned, abreast.made, others.symm⟩

/-- Both walks plan a type and go on to those it leads to. -/
theorem visit (abreast : cache.Abreast made pending planned waiting) (type : TypeKey)
    (plan otherPlan : TypePlan) (nested : List TypeKey) :
    cache.Abreast ((type, plan) :: made) (nested ++ pending) ((type, otherPlan) :: planned)
      (nested ++ waiting) where
  made other missing := by
    rw [List.map_cons, List.map_cons, List.mem_cons, List.mem_cons, abreast.made other missing]
  pending := by rw [List.filter_append, List.filter_append, abreast.pending]

/-- A walk without plans makes one that the other walk has, and goes on to types whose plans it has as
well. -/
theorem catchUp (abreast : cache.Abreast made pending planned waiting)
    (kept : ¬cache.misses type = true) (plan : TypePlan) {nested : List TypeKey}
    (closed : ∀ other ∈ nested, ¬cache.misses other = true) :
    cache.Abreast ((type, plan) :: made) (nested ++ pending) planned waiting where
  made other missing := by
    have different : other ≠ type := fun same => kept (same ▸ missing)
    rw [List.map_cons, List.mem_cons, ← abreast.made other missing]
    exact or_iff_right different
  pending := by
    have none : nested.filter cache.misses = [] := List.filter_eq_nil_iff.2 closed
    rw [List.filter_append, none, List.nil_append, abreast.pending]

end Abreast

/-- Walks that are abreast end alike: with plans, or with the same fault. -/
theorem compileAll_of_abreast (sound : cache.Sound) {planned : List (TypeKey × TypePlan)}
    {waiting : List TypeKey} (abreast : cache.Abreast made pending planned waiting) :
    match cache.cold.compileAll made pending with
    | .error error => cache.compileAll planned waiting = .error error
    | .ok _ => ∃ plans, cache.compileAll planned waiting = .ok plans := by
  induction made, pending using compileAll.induct cache.cold generalizing planned waiting with
  | case1 made =>
    have none := List.filter_eq_nil_iff.1 abreast.pending.symm
    have ended : cache.compileAll planned (waiting ++ []) = cache.compileAll planned [] :=
      compileAll_append_of_kept none planned
    rw [List.append_nil, compileAll] at ended
    rw [compileAll]
    exact ⟨planned, ended⟩
  | case2 made type pending isNew kept ih => cases kept
  | case3 made type pending isNew missing error failed =>
    have faulty : cache.compile type = .error error := failed
    have unknown : ¬(cache.get? type).isSome = true := by
      intro known
      obtain ⟨plan, found⟩ := Option.isSome_iff_exists.1 known
      rw [sound.compiled found] at faulty
      cases faulty
    have absent := misses_iff.2 unknown
    obtain ⟨later, same, _⟩ := abreast.next absent
    have isNewThere : type ∉ planned.map Prod.fst := mt (abreast.made type absent).2 isNew
    rw [compileAll, dif_pos isNew, if_neg missing, failed, same, compileAll, dif_pos isNewThere,
      if_neg unknown, faulty]
  | case4 made type pending isNew missing plan compiled ih =>
    have compiledThere : cache.compile type = .ok plan := compiled
    rw [compileAll, dif_pos isNew, if_neg missing, compiled]
    by_cases absent : cache.misses type = true
    · obtain ⟨later, same, abreast'⟩ := abreast.next absent
      have isNewThere : type ∉ planned.map Prod.fst := mt (abreast.made type absent).2 isNew
      rw [same, compileAll, dif_pos isNewThere, if_neg (misses_iff.1 absent), compiledThere]
      exact ih (abreast'.visit type plan plan _)
    · have closed : ∀ other ∈ (cache.schema.nestedTypes type).reverse,
          ¬cache.misses other = true := by
        intro other member
        have known := sound.closed (isSome_of_not_misses absent) other (List.mem_reverse.1 member)
        exact fun misses => misses_iff.1 misses known
      exact ih ((abreast.pass absent).catchUp absent plan closed)
  | case5 made type pending isOld ih =>
    rw [compileAll, dif_neg isOld]
    by_cases absent : cache.misses type = true
    · obtain ⟨later, same, abreast'⟩ := abreast.next absent
      have isOldThere : ¬type ∉ planned.map Prod.fst :=
        fun isNew => isNew ((abreast.made type absent).1 (Decidable.not_not.1 isOld))
      rw [same, compileAll, dif_neg isOldThere]
      exact ih abreast'
    · exact ih (abreast.pass absent)

/-! ### Asking for a plan -/

theorem sound_cold (cache : PlanCache) : cache.cold.Sound where
  compiled found := by cases found
  closed found := by cases found

/-- A type has the same plan, or the same fault, whatever plans are kept. -/
theorem planFor_cold (sound : cache.Sound) (type : TypeKey) :
    (cache.planFor type).map Prod.fst = (cache.cold.planFor type).map Prod.fst := by
  have compiles := planFor_ok_iff sound type
  have compilesCold := planFor_ok_iff cache.sound_cold type
  cases asked : cache.planFor type with
  | ok found =>
    rcases found with ⟨plan, after⟩
    obtain ⟨planCold, afterCold, askedCold⟩ := compilesCold.2 (compiles.1 ⟨plan, after, asked⟩)
    have same := compile_of_planFor sound asked
    have sameCold : cache.cold.compile type = .ok planCold :=
      compile_of_planFor cache.sound_cold askedCold
    rw [askedCold]
    exact same.symm.trans sameCold
  | error error =>
    cases askedCold : cache.cold.planFor type with
    | ok found =>
      obtain ⟨plan, after, same⟩ := compiles.2 (compilesCold.1 ⟨found.1, found.2, askedCold⟩)
      rw [asked] at same
      cases same
    | error errorCold =>
      have start : cache.Abreast [] [type] [] [type] := ⟨fun _ _ => Iff.rfl, rfl⟩
      have walks := compileAll_of_abreast sound start
      rw [compileAll_of_planFor askedCold, compileAll_of_planFor asked] at walks
      cases walks
      rfl

theorem planFor_of_akin (sound : cache.Sound) (otherSound : other.Sound) (akin : cache.Akin other)
    (type : TypeKey) : (cache.planFor type).map Prod.fst = (other.planFor type).map Prod.fst := by
  rw [planFor_cold sound, planFor_cold otherSound, akin.cold_eq]

/-- Where one cache has a plan, so has the other, and both stay of one family. -/
theorem planFor_eq_ok_of_akin {after : PlanCache} (sound : cache.Sound) (otherSound : other.Sound)
    (akin : cache.Akin other) (asked : cache.planFor type = .ok (plan, after)) :
    ∃ otherAfter, other.planFor type = .ok (plan, otherAfter) ∧ after.Sound ∧ otherAfter.Sound ∧
      after.Akin otherAfter := by
  have same := planFor_of_akin sound otherSound akin type
  rw [asked] at same
  cases askedOther : other.planFor type with
  | error error =>
    rw [askedOther] at same
    cases same
  | ok found =>
    rcases found with ⟨otherPlan, otherAfter⟩
    rw [askedOther] at same
    cases same
    obtain ⟨soundAfter, family, _⟩ := planFor_eq_ok sound asked
    obtain ⟨otherSoundAfter, otherFamily, _⟩ := planFor_eq_ok otherSound askedOther
    exact ⟨otherAfter, rfl, soundAfter, otherSoundAfter,
      (family.akin.trans akin).trans otherFamily.akin.symm⟩

/-- Whether a family can do without waiting does not depend on the plans that are kept. -/
theorem allSynchronous_of_akin (sound : cache.Sound) (otherSound : other.Sound)
    (akin : cache.Akin other) (seen pending : List TypeKey) :
    (cache.allSynchronous seen pending).1 = (other.allSynchronous seen pending).1 := by
  induction cache, seen, pending using allSynchronous.induct generalizing other with
  | case1 cache seen => rw [allSynchronous, allSynchronous]
  | case2 cache seen type pending isNew error failed =>
    have asked := planFor_of_akin sound otherSound akin type
    cases askedOther : other.planFor type with
    | ok found =>
      rw [failed, askedOther] at asked
      cases asked
    | error otherError =>
      rw [failed, askedOther] at asked
      cases asked
      rw [allSynchronous_of_error isNew failed, allSynchronous_of_error isNew askedOther]
  | case3 cache seen type pending isNew plan after asked synchronous ih =>
    obtain ⟨otherAfter, askedOther, soundAfter, otherSoundAfter, akinAfter⟩ :=
      planFor_eq_ok_of_akin sound otherSound akin asked
    rw [allSynchronous_of_ok isNew asked, allSynchronous_of_ok isNew askedOther, if_pos synchronous,
      if_pos synchronous, akin.schema]
    rw [akin.schema] at ih
    exact ih soundAfter otherSoundAfter akinAfter
  | case4 cache seen type pending isNew plan after asked waits =>
    obtain ⟨otherAfter, askedOther, _⟩ := planFor_eq_ok_of_akin sound otherSound akin asked
    rw [allSynchronous_of_ok isNew asked, allSynchronous_of_ok isNew askedOther, if_neg waits,
      if_neg waits]
  | case5 cache seen type pending isOld ih =>
    rw [allSynchronous, allSynchronous, dif_neg isOld, dif_neg isOld]
    exact ih sound otherSound akin

end PlanCache

end Assay
