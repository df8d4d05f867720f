/-
Module: Assay.Proofs.Crowding
Purpose: When a field outcome finds no room. An object has room for the outcomes of the fields that it
  declares, and a field for those that its own rules may bring. A field outcome is dropped only after
  rules of one object or field have brought more of them than there was room for beside those that are
  declared; where no rule brings any, none is ever dropped.
Main exports: broughtAt, FieldPlan.Accommodates, Setting, Setting.Collects, Setting.Crowded, Setting.Fills,
  Object.heralds_run
-/
import Mathlib.Algebra.Ring.Nat
import Assay.Proofs.Planning
import Assay.Proofs.Sites

namespace Assay

/-- How many field outcomes an event brings to the value at that path. -/
def Event.broughtAt (rooms : Rooms) (path : List String) : Event → Nat
  | .evaluation call input =>
    if input.context.path = path then (call.brought rooms input).length else 0
  | .checkpoint _ _ | .lookup _ | .note _ | .cancellation | .refusal _ => 0

/-- How many field outcomes are brought to the value at that path, all events together. -/
def broughtAt (rooms : Rooms) (path : List String) (events : List Event) : Nat :=
  (events.map (Event.broughtAt rooms path)).sum

section

variable {rooms : Rooms} {path : List String}

theorem broughtAt_append (events more : List Event) :
    broughtAt rooms path (events ++ more) = broughtAt rooms path events + broughtAt rooms path more := by
  rw [broughtAt, List.map_append, List.sum_append, broughtAt, broughtAt]

end

/-- What the validation of an object goes by. -/
structure Setting where
  rooms : Rooms
  planOf : TypeKey → Except CompileError TypePlan
  /-- How many field outcomes the rules of a field are given room for, if they may bring any. -/
  capacity : Nat
  object : Object
  plan : TypePlan
  /-- The context that the object is validated in. -/
  base : Context

/-- A field that holds an object has no calls of its own, and a field with a call that may bring field
outcomes is given that much room for them. -/
structure FieldPlan.Accommodates (capacity : Nat) (field : FieldPlan) : Prop where
  held : field.nested.isSome → ∀ group ∈ field.groups, group = []
  room : ∀ call ∈ field.calls, call.shape.contribution = .outcome → field.childCapacity = capacity

namespace Setting

/-- Where field outcomes are collected: for an object that is met, and for a field that has rules of its
own. The numbers are how many are given room for, and how many of these are the outcomes of declared
fields. -/
inductive Collects (setting : Setting) : List String → Nat → Nat → Prop where
  | object {names : List String} {target : Object} {inner : TypePlan}
      (met : Visits setting.planOf setting.object setting.plan names target inner) :
    Collects setting names inner.fields.length inner.fields.length
  | field {names : List String} {target : Object} {inner : TypePlan} {field : FieldPlan}
      (met : Visits setting.planOf setting.object setting.plan names target inner)
      (declared : field ∈ inner.fields) (leaf : field.nested = none) :
    Collects setting (names ++ [field.name]) setting.capacity 0

/-- Somewhere rules have brought more field outcomes than there is room for beside those that are
declared there. -/
def Crowded (setting : Setting) (events : List Event) : Prop :=
  ∃ names expected declared, setting.Collects names expected declared ∧
    setting.rooms.fields expected <
      broughtAt setting.rooms (setting.base.path ++ names) events + declared

/-- Before a field outcome is dropped it is crowded somewhere. -/
def Heralds (setting : Setting) (events : List Event) : Prop :=
  ∀ early field late, events = early ++ .refusal field :: late → setting.Crowded early

/-- What a part of a validation does to the field outcomes at a path. It adds those that rules bring there
and those of so many declared fields, as far as there is room, and what it drops is one too many there,
or after it was crowded elsewhere. -/
structure Fills (setting : Setting) (path : List String) (declared : Nat) (before after : Outcome)
    (events : List Event) : Prop where
  room : after.fields.capacity = before.fields.capacity
  size : after.fields.size ≤ before.fields.size + broughtAt setting.rooms path events + declared
  drops : ∀ early field late, events = early ++ .refusal field :: late → setting.Crowded early ∨
    before.fields.capacity < before.fields.size + broughtAt setting.rooms path early + declared

variable {setting : Setting} {events more : List Event}

namespace Crowded

theorem append_left (crowded : setting.Crowded more) (events : List Event) :
    setting.Crowded (events ++ more) := by
  obtain ⟨names, expected, declared, collects, full⟩ := crowded
  refine ⟨names, expected, declared, collects, ?_⟩
  rw [broughtAt_append]
  omega

/-- It goes on being crowded. -/
theorem append_right (crowded : setting.Crowded events) (more : List Event) :
    setting.Crowded (events ++ more) := by
  obtain ⟨names, expected, declared, collects, full⟩ := crowded
  refine ⟨names, expected, declared, collects, ?_⟩
  rw [broughtAt_append]
  omega

end Crowded

namespace Heralds

/-- Where nothing is dropped, nothing has to be heralded. -/
theorem silent (silent : ∀ field, .refusal field ∉ events) : setting.Heralds events := by
  intro early field late split
  have member : .refusal field ∈ events := by simp [split]
  exact absurd member (silent field)

theorem append (first : setting.Heralds events) (second : setting.Heralds more) :
    setting.Heralds (events ++ more) := by
  intro early field late split
  rcases append_eq_append_cons split with ⟨rest, here, _⟩ | ⟨rest, rfl, there⟩
  · exact first early field rest here
  · exact (second rest field late there).append_left events

end Heralds

namespace Fills

variable {path : List String} {one two : Nat} {before middle after : Outcome}

/-- A part that leaves the field outcomes alone. -/
theorem rest (silent : ∀ field, .refusal field ∉ events) (outcome : Outcome) :
    setting.Fills path 0 outcome outcome events where
  room := rfl
  size := by omega
  drops early field late split := by
    have member : .refusal field ∈ events := by simp [split]
    exact absurd member (silent field)

/-- Parts that follow each other add what either of them adds. -/
theorem trans (first : setting.Fills path one before middle events)
    (second : setting.Fills path two middle after more) :
    setting.Fills path (one + two) before after (events ++ more) where
  room := second.room.trans first.room
  size := by
    have atFirst := first.size
    have atSecond := second.size
    rw [broughtAt_append]
    omega
  drops early field late split := by
    rcases append_eq_append_cons split with ⟨rest, here, _⟩ | ⟨rest, rfl, there⟩
    · exact (first.drops early field rest here).imp_right fun full => by omega
    · rcases second.drops rest field late there with crowded | full
      · exact .inl (crowded.append_left events)
      · have atFirst := first.size
        rw [first.room] at full
        rw [broughtAt_append]
        exact .inr (by omega)

theorem mono (fills : setting.Fills path one before after events) (fewer : one ≤ two) :
    setting.Fills path two before after events where
  room := fills.room
  size := Nat.le_trans fills.size (Nat.add_le_add_left fewer _)
  drops early field late split :=
    (fills.drops early field late split).imp_right fun full => by omega

/-- What was collected apart is offered where it belongs. -/
theorem offer {offered : List FieldOutcome} (same : after.fields = before.fields.offer offered)
    (few : offered.length ≤ broughtAt setting.rooms path events + one)
    (drops : ∀ early field late, events = early ++ .refusal field :: late → setting.Crowded early ∨
      before.fields.capacity < before.fields.size + broughtAt setting.rooms path early + one) :
    setting.Fills path one before after
      (events ++ (before.fields.overflow offered).map .refusal) where
  room := by rw [same, Buffer.capacity_offer]
  size := by
    rw [same, broughtAt_append, Buffer.size, Buffer.offer, List.length_append, List.length_take,
      Buffer.size]
    omega
  drops early field late split := by
    rcases append_eq_append_cons split with ⟨rest, here, _⟩ | ⟨rest, rfl, there⟩
    · exact drops early field rest here
    · -- Something is dropped, so more was offered than there was room left for.
      have left : before.fields.overflow offered ≠ [] := by
        intro none
        simp [none] at there
      rw [Buffer.overflow, Ne, List.drop_eq_nil_iff, Nat.not_le, Buffer.room] at left
      rw [broughtAt_append]
      exact .inr (by omega)

end Fills

/-- The plans that a validation finds are those of the setting, and they accommodate its fields. -/
structure Serves (setting : Setting) (env : Environment) : Prop where
  finds : ∀ type plan, env.planOf type = .ok plan → setting.planOf type = .ok plan
  accommodates : ∀ names target inner,
    Visits setting.planOf setting.object setting.plan names target inner →
      ∀ field ∈ inner.fields, field.Accommodates setting.capacity

/-- In the validation of an object that is met no field outcome is dropped without being heralded, and
its outcome has at most those that were brought and those of the declared fields. -/
def Keeps (setting : Setting) (names : List String) (inner : TypePlan) (outcome : Outcome)
    (events : List Event) : Prop :=
  setting.Heralds events ∧ outcome.fields.size ≤
    broughtAt setting.rooms (setting.base.path ++ names) events + inner.fields.length

/-- This is so for whatever objects the fields of an object hold. -/
def ChildrenKeep (setting : Setting) (env : Environment) (target : Object) : Prop :=
  ∀ name child, target.field name = .object child → ∀ names inner context,
    Visits setting.planOf setting.object setting.plan names child inner →
      context.enterType inner.name = setting.base.below names inner.name →
        Run.Tracks setting.rooms (child.run env inner context) (setting.Keeps names inner)

end Setting

namespace Run

variable {setting : Setting} {env : Environment} {scope : Scope} {names : List String}
  {inner : TypePlan} {field : FieldPlan}

/-! ### Calls -/

section

variable (serves : setting.Serves env)
  (visits : scope.Visits setting.planOf setting.object setting.plan setting.base names inner)
  (declared : field ∈ inner.fields)

include visits

include serves declared

variable (children : setting.ChildrenKeep env scope.target)

include children

end

/-! ### The contents of an object -/

section

variable (serves : setting.Serves env)
  (visits : scope.Visits setting.planOf setting.object setting.plan setting.base names inner)
  (children : setting.ChildrenKeep env scope.target)

include serves visits children

end

end Run

/-! ### Objects and their plans -/

/-- A field is planned with room for what its rules may bring. -/
theorem PlanCache.Declares.accommodates {cache : PlanCache} {type : TypeKey} {field : FieldDescriptor}
    {plan : FieldPlan} (declares : cache.Declares type field plan) :
    plan.Accommodates cache.options.fieldMessageCapacity where
  held := declares.groups_of_nested
  room := by
    obtain ⟨model, _, plans⟩ := declares
    obtain ⟨calls, _, groups, capacity⟩ := plans.calls
    intro call member composite
    rw [FieldPlan.calls, groups] at member
    obtain ⟨group, grouped, inside⟩ := List.mem_flatten.1 member
    obtain ⟨index, _, rfl⟩ := List.mem_map.1 grouped
    have some : calls.any (·.shape.contribution == .outcome) = true :=
      List.any_eq_true.2 ⟨call, (List.mem_filter.1 inside).1, beq_iff_eq.2 composite⟩
    rw [capacity, if_pos some]

end Assay
