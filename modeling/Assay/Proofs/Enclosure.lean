/-
Module: Assay.Proofs.Enclosure
Purpose: What comes of an object that a field holds is in the outcome of the field, and nothing of it is
  lost. The field is given the room that the object was given, so that all field outcomes of the object
  find room in it, also those that hooks added to the declared ones; and as a message finds room, the
  field fails if the object does.
Main exports: OutcomePools.Move, Outcome.absorb_of_room, Run.onField_eq_ok_of_held,
  Validator.held_outcome_kept
-/
import Assay.Proofs.Invocation
import Assay.Proofs.Labels
import Assay.Proofs.Provision
import Assay.Proofs.Renewal

namespace Assay

/-! ### Pools in use -/

namespace OutcomePools

/-- What is done with pools: a part of an outcome is rented, or one of any origin is given back. -/
inductive Move where
  | rentShell
  | rentMessages (capacity : Nat)
  | rentFields (capacity : Nat)
  | returnShell
  | returnMessages (buffer : Buffer Message)
  | returnFields (buffer : Buffer FieldOutcome)

def move (pools : OutcomePools) : Move → OutcomePools
  | .rentShell => pools.rentShell.2
  | .rentMessages capacity => (pools.equipMessages .bare capacity).2
  | .rentFields capacity => (pools.equipFields .bare capacity).2
  | .returnShell => pools.returnShell
  | .returnMessages buffer => pools.returnMessages buffer
  | .returnFields buffer => pools.returnFields buffer

variable {pools : OutcomePools} {rooms : Rooms}

theorem Yields.move (yields : pools.Yields rooms) (move : Move) : (pools.move move).Yields rooms := by
  cases move with
  | rentShell => exact yields.rentShell
  | rentMessages capacity => exact yields.equipMessages _ _
  | rentFields capacity => exact yields.equipFields _ _
  | returnShell => exact yields.returnShell
  | returnMessages buffer => exact yields.returnMessages buffer
  | returnFields buffer => exact yields.returnFields buffer

/-- Pools serve the same rooms, whatever is done with them. -/
theorem Yields.moves (yields : pools.Yields rooms) (moves : List Move) :
    (moves.foldl OutcomePools.move pools).Yields rooms := by
  induction moves generalizing pools with
  | nil => exact yields
  | cons first moves ih => exact ih (yields.move first)

end OutcomePools

/-! ### Room for what is merged -/

namespace Outcome

variable {into child : Outcome}

/-- An outcome that has no field outcomes takes all those of a child, if there is room for them. -/
theorem absorb_of_room (fresh : into.fields.items = [])
    (room : child.fields.size ≤ into.fields.capacity) (name : String) :
    (into.absorb child (some name)).refused = [] ∧
      (into.absorb child (some name)).into.fields.items =
        child.fields.items.map (FieldOutcome.under name) := by
  have free : into.fields.room = into.fields.capacity := by
    rw [Buffer.room, Buffer.size, fresh, List.length_nil, Nat.sub_zero]
  have enough : (child.moved (some name)).length ≤ into.fields.room := by
    rw [length_moved, free]
    exact room
  constructor
  · rw [absorb_refused, Buffer.overflow, List.drop_of_length_le enough]
  · rw [absorb_into, addFields, fields_addMessages, Buffer.offer, fresh, List.nil_append,
      List.take_of_length_le enough, moved, fieldsUnder_eq_map]

/-- An outcome that has nothing in it, and room for a message, then succeeds if the child does. -/
theorem isSuccess_absorb_of_room (success : into.isSuccess = true)
    (messageRoom : 1 ≤ into.messages.capacity) (fresh : into.fields.items = [])
    (room : child.fields.size ≤ into.fields.capacity) (name : String) :
    (into.absorb child (some name)).into.isSuccess = child.isSuccess := by
  have lossless : ∀ field ∈ (into.absorb child (some name)).refused, field.isSuccess = true := by
    rw [(absorb_of_room fresh room name).1]
    exact List.forall_mem_nil _
  rw [Bool.eq_iff_iff, isSuccess_absorb messageRoom lossless]
  exact and_iff_right success

end Outcome

namespace Run

variable {rooms : Rooms} {env : Environment} {scope : Scope} {field : FieldPlan} {inner : TypePlan}
  {child : Object} {start : RunState}

/-- A field that holds an object and has no call of its own is given the room that the object needs, and
has an outcome if the object has one, which is merged into that room. -/
theorem onField_eq_ok_of_held (planned : nestedPlan env field = pure (some inner))
    (uncalled : ∀ group ∈ field.groups, group = [])
    (holds : scope.target.field field.name = .object child) (yields : start.pools.Yields rooms)
    (strict : Bool) (seen : Outcome) (own : FieldOutcome) (finish : RunState) :
    let into := rooms.field inner.fields.length
    let begun := { start with
      pools := (start.pools.createField field.name inner.fields.length).2 }
    onField env scope strict seen ((scope.target.field field.name).run? env) field start =
        (.ok own, finish) ↔
      ∃ nested after, child.run env inner scope.context begun = (.ok nested, after) ∧
        ⟨field.name, (into.absorb nested (some field.name)).into⟩ = own ∧
        { after with
          pools := (after.pools.merge into nested (some field.name)).2
          journal := after.journal ++
            (into.absorb nested (some field.name)).refused.map .refusal } = finish := by
  intro into begun
  have created : withPools (·.createField field.name inner.fields.length) start =
      (.ok ⟨field.name, into⟩, begun) := by
    rw [withPools_apply, yields.createField_fst]
  have success : into.isSuccess = true := rfl
  have opened : onField env scope strict seen ((scope.target.field field.name).run? env) field start =
      (do
        let nested ← holding into (child.run env inner scope.context)
        let content ← merge into nested (some field.name)
        return FieldOutcome.mk field.name content : Run FieldOutcome) begun := by
    rw [onField_of_nestedPlan planned, bind_apply, Option.map_some, Option.getD_some, created]
    simp only [onGroups_of_empty env scope strict _ seen _ uncalled, pure_bind, success, holds,
      Value.run?, onNested, bind_assoc, Bool.not_true, Bool.and_false, Bool.false_eq_true, if_false]
  rw [opened, bind_eq_ok]
  simp only [holding_eq_ok, bind_eq_ok, pure_eq_ok, merge_apply]
  constructor
  · intro ⟨nested, after, ran, content, _, merged, same, last⟩
    cases merged
    exact ⟨nested, after, ran, same, last⟩
  · intro ⟨nested, after, ran, same, last⟩
    exact ⟨nested, after, ran, _, _, rfl, same, last⟩

end Run

/-! ### Fields that hold objects -/

namespace Validator

/-- A field is given the room that the object needs which it holds. Whatever a validator and its pools
were used for, however many fields the object declares and whatever hooks add to them: the field has an
outcome exactly if the object has one; all field outcomes of the object are in it, under the name of the
field and in their order, and none is dropped; and it succeeds exactly if the outcome of the object
does. -/
theorem held_outcome_kept (schema : Schema) (catalog : RuleCatalog) (options : Options)
    (shells : PoolConfig) (messages fields : ArrayPoolConfig)
    {globalMessageCapacity fieldMessageCapacity : Nat} (room : 1 ≤ fieldMessageCapacity)
    (uses : List Use) (request : Request) (mayWait : Bool) (moves : List OutcomePools.Move)
    (outer type : TypeKey) (plan inner : TypePlan) (field : FieldPlan) (child : Object) (scope : Scope)
    (start : RunState) :
    let fresh : Validator := ⟨{ schema, catalog, options },
      .configured shells messages fields globalMessageCapacity fieldMessageCapacity⟩
    let used := (uses.foldl Session.use ⟨fresh, []⟩).validator
    let env := used.environment request mayWait
    env.planOf outer = .ok plan → field ∈ plan.fields →
    field.nested = some type → env.planOf type = .ok inner →
    scope.target.field field.name = .object child →
    start.pools = moves.foldl .move used.pools →
    ∀ (strict : Bool) (seen : Outcome),
      let step := Run.onField env scope strict seen ((scope.target.field field.name).run? env) field start
      let created := start.pools.createField field.name inner.fields.length
      let run := child.run env inner scope.context { start with pools := created.2 }
      (∀ own finish, step = (.ok own, finish) → ∃ nested after, run = (.ok nested, after)) ∧
      ∀ nested after, run = (.ok nested, after) →
        let merged := created.1.outcome.absorb nested (some field.name)
        (∃ finish, step = (.ok ⟨field.name, merged.into⟩, finish) ∧ finish.journal = after.journal) ∧
          merged.refused = [] ∧
          merged.into.fields.items = nested.fields.items.map (.under field.name) ∧
          merged.into.isSuccess = nested.isSuccess := by
  intro fresh used env planned declared holdsType plannedInner holds reached strict seen
    step created run
  let rooms := fresh.pools.rooms
  let into := rooms.field inner.fields.length
  have good : used.AsGoodAs fresh := Session.asGoodAs_uses
    (asGoodAs_configured schema catalog options shells messages fields _ _) uses
  have yields : start.pools.Yields rooms := reached ▸ good.pools.moves moves
  have compiled : used.cache.compile outer = .ok plan :=
    compile_of_planOf good.cache (.refl _) planned
  -- No rules are read for a field that holds an object, so that what is merged into is still empty.
  have uncalled : ∀ group ∈ field.groups, group = [] := by
    obtain ⟨_, _, declares⟩ := exists_of_forall₂ (PlanCache.declares_of_compile compiled) declared
    exact declares.groups_of_nested (by rw [holdsType]; rfl)
  have found : Run.nestedPlan env field = pure (some inner) := by
    simp only [Run.nestedPlan, holdsType, plannedInner]
  have given : created.1.outcome = into :=
    congrArg FieldOutcome.outcome (yields.createField_fst field.name inner.fields.length)
  have steps := Run.onField_eq_ok_of_held found uncalled holds yields strict seen
  constructor
  · intro own finish ended
    obtain ⟨nested, after, ran, _⟩ := (steps own finish).1 ended
    exact ⟨nested, after, ran⟩
  · intro nested after ran merged
    -- The object was given room for as many fields, and no hook fills it beyond that.
    have fits : nested.fields.size ≤ into.fields.capacity := by
      obtain ⟨_, _, fits⟩ := child.tracks_run_fits env inner scope.context _ nested after
        (yields.createField field.name inner.fields.length) ran
      exact fits
    have messageRoom : 1 ≤ into.messages.capacity :=
      Nat.le_trans room (fresh.pools.messages.le_partRoom fieldMessageCapacity)
    have same : merged = into.absorb nested (some field.name) := by simp only [merged, given]
    obtain ⟨whole, moved⟩ := Outcome.absorb_of_room rfl fits field.name
    have success := Outcome.isSuccess_absorb_of_room rfl messageRoom rfl fits field.name
    rw [same]
    refine ⟨⟨_, (steps _ _).2 ⟨nested, after, ran, rfl, rfl⟩, ?_⟩, whole, moved, success⟩
    rw [whole, List.map_nil, List.append_nil]

/-- A family with one type whose objects may hold another one, and whose hook finds two fields more. -/
def crowded : Schema :=
  let found : Draft := ⟨0, [Message.refused], []⟩
  let descriptor : TypeDescriptor := {
    name := "Sample"
    fields := [.ofNested "next" .sample]
    routines := [{
      name := TypeModel.beforeName
      rule := .drafts ⟨2, [], [⟨"early", found⟩, ⟨"late", found⟩]⟩ }] }
  ⟨[(.sample, descriptor)]⟩

/-- An object that declares one field comes to three field outcomes, and the field that holds it has all
of them and fails. -/
theorem crowded_outcome_kept :
    let fresh : Validator := ⟨{ schema := crowded, catalog := ∅, options := {} },
      .configured {} {} {} 1 1⟩
    let env := fresh.environment {} true
    let object : Object := .mk .sample [("next", .object (.mk .sample []))]
    ∃ plan field own finish, env.planOf .sample = .ok plan ∧ field ∈ plan.fields ∧
      Run.onField env ⟨object, [], {}⟩ false .bare ((object.field field.name).run? env) field
        { pools := fresh.pools } = (.ok own, finish) ∧
      own.outcome.fields.items.length = 3 ∧ own.outcome.isSuccess = false := by
  intro fresh env object
  let child : Object := .mk .sample []
  have planned : env.planOf = fresh.cache.compile := by
    funext type
    have alone : ∀ nested ∈ crowded.nestedTypes type, nested = type := by
      by_cases known : type = .sample
      · subst known
        decide +kernel
      · have unknown : crowded.types.lookup type = none := by
          simp [crowded, known, List.lookup_cons, beq_eq_false_iff_ne.2]
        simp [Schema.nestedTypes_of_lookup_eq_none unknown]
    simp only [env, environment]
    rw [PlanCache.planFor_of_alone rfl alone]
    cases fresh.cache.compile type <;> rfl
  have served : env = ⟨fresh.cache.compile, noServices, true⟩ := by
    rw [← planned]
    rfl
  have evaluated : (fresh.cache.compile .sample).toOption.any (fun plan =>
      let begun := (fresh.pools.createField "next" plan.fields.length).2
      (child.run ⟨fresh.cache.compile, noServices, true⟩ plan {} { pools := begun }).1.toOption.any
        fun nested => nested.fields.items.length == 3 && !nested.isSuccess) = true := by
    decide +kernel
  rw [← served] at evaluated
  cases compiled : fresh.cache.compile .sample with
  | error error => rw [compiled] at evaluated; cases evaluated
  | ok plan =>
    rw [compiled] at evaluated
    have declared := PlanCache.declares_of_compile compiled
    generalize fields : plan.fields = fields at declared
    cases declared with
    | @cons _ field _ _ declares _ =>
      have name : field.name = "next" := declares.name
      have member : field ∈ plan.fields := by rw [fields]; exact List.mem_cons_self
      have holds : object.field field.name = .object child := by rw [name]; rfl
      have known : env.planOf .sample = .ok plan := by rw [planned, compiled]
      obtain ⟨_, kept⟩ := held_outcome_kept crowded ∅ {} {} {} {} (Nat.le_refl 1) [] {} true []
        .sample .sample plan plan field child ⟨object, [], {}⟩ { pools := fresh.pools } known member
        declares.nested known holds rfl false .bare
      rw [← name] at evaluated
      rcases ran : child.run env plan {}
        { pools := (fresh.pools.createField field.name plan.fields.length).2 } with ⟨result, after⟩
      simp only [Except.toOption, Option.any, ran] at evaluated
      cases result with
      | error stop => cases evaluated
      | ok nested =>
        obtain ⟨⟨finish, ended, _⟩, _, moved, success⟩ := kept nested after ran
        simp only [Bool.and_eq_true, beq_iff_eq, Bool.not_eq_true'] at evaluated
        refine ⟨plan, field, _, finish, known, member, ended, ?_, ?_⟩
        · rw [moved, List.length_map]
          exact evaluated.1
        · rw [success]
          exact evaluated.2

end Validator

end Assay
