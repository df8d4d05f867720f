/-
Module: Assay.Proofs.SuccessFlag
Purpose: What the success of an outcome tells about the calls that were made. Where no call contributes a
  message, the outcome succeeds. Where one does, the outcome fails, unless what became of the message is
  dropped later on: a failing field outcome that finds no room, where rules brought too many of them.
Main exports: Event.IsQuiet, Event.IsRegular, Run.Silenced, Run.Reflects, Run.Reports,
  Validator.setting, Validator.isSuccess_reflects_contributions
-/
import Assay.Proofs.Crowding
import Assay.Proofs.Meetings
import Assay.Proofs.Provision

namespace Assay

namespace Event

/-- An event is quiet unless a call is evaluated whose output agrees with what was declared and
contributes a message. -/
def IsQuiet (rooms : Rooms) : Event → Prop
  | .evaluation call input =>
    (call.rule.evaluate input).output.Agrees call.shape → call.contributed rooms input = []
  | _ => True

/-- An event is regular unless a call is evaluated whose output is a stream that strays. -/
def IsRegular : Event → Prop
  | .evaluation call input => ¬(call.rule.evaluate input).output.Strays call.shape
  | _ => True

variable {rooms : Rooms}

instance : DecidablePred (IsQuiet rooms) := fun
  | .evaluation call input =>
    decidable_of_iff ((call.rule.evaluate input).output.Agrees call.shape →
      (call.contributed rooms input).isEmpty = true) (imp_congr_right fun _ => List.isEmpty_iff)
  | .checkpoint .. | .lookup _ | .note _ | .cancellation | .refusal _ => .isTrue trivial

instance : DecidablePred IsRegular := fun
  | .evaluation call input =>
    inferInstanceAs (Decidable (¬(call.rule.evaluate input).output.Strays call.shape))
  | .checkpoint .. | .lookup _ | .note _ | .cancellation | .refusal _ => .isTrue trivial

theorem isQuiet_of_isAside {event : Event} (aside : event.isAside = true) :
    event.IsQuiet rooms := by
  cases event with
  | evaluation => cases aside
  | _ => trivial

theorem isQuiet_refusals (fields : List FieldOutcome) :
    ∀ event ∈ fields.map refusal, event.IsQuiet rooms := by
  intro event member
  obtain ⟨field, _, rfl⟩ := List.mem_map.1 member
  trivial

/-- A call that is quiet, and does not stray, contributes nothing at all. -/
theorem IsQuiet.contributed_eq_nil {call : PlannedCall} {input : Call}
    (quiet : (evaluation call input).IsQuiet rooms) (regular : (evaluation call input).IsRegular) :
    call.contributed rooms input = [] := by
  by_cases agrees : (call.rule.evaluate input).output.Agrees call.shape
  · exact quiet agrees
  · exact RuleOutput.contribution_eq_nil agrees regular

end Event

/-- A failing child leaves a success only if a failing field outcome of it is dropped. -/
theorem Outcome.exists_refused {into child : Outcome} {label : Option String}
    (room : 1 ≤ into.messages.capacity) (success : (into.absorb child label).into.isSuccess = true)
    (fails : child.isSuccess = false) :
    ∃ field ∈ (into.absorb child label).refused, field.isSuccess = false := by
  by_contra none
  have lossless : ∀ field ∈ (into.absorb child label).refused, field.isSuccess = true :=
    fun field member => Bool.of_not_eq_false fun failure => none ⟨field, member, failure⟩
  rw [isSuccess_absorb room lossless] at success
  cases fails.symm.trans success.2

namespace Run

variable {rooms : Rooms}

/-- After every event that is not quiet a failing field outcome is dropped. -/
def Silenced (rooms : Rooms) (events : List Event) : Prop :=
  ∀ before event later, events = before ++ event :: later → ¬event.IsQuiet rooms →
    ∃ between field rest, later = between ++ .refusal field :: rest ∧ field.isSuccess = false

namespace Silenced

variable {events more : List Event}

theorem quiet (quiet : ∀ event ∈ events, event.IsQuiet rooms) : Silenced rooms events := by
  intro before event later split loud
  exact absurd (quiet event (by simp [split])) loud

theorem append (first : Silenced rooms events) (second : Silenced rooms more) :
    Silenced rooms (events ++ more) := by
  intro before event later split loud
  rcases append_eq_append_cons split with ⟨rest, here, rfl⟩ | ⟨rest, rfl, there⟩
  · obtain ⟨between, field, rest, rfl, failure⟩ := first before event rest here loud
    exact ⟨between, field, rest ++ more, by simp, failure⟩
  · exact second rest event later there loud

/-- Whatever came before is silenced where a failing field outcome is dropped in the end. -/
theorem loss (events : List Event) {refused : List FieldOutcome}
    (lost : ∃ field ∈ refused, field.isSuccess = false) :
    Silenced rooms (events ++ refused.map .refusal) := by
  intro before event later split loud
  rcases append_eq_append_cons split with ⟨rest, here, rfl⟩ | ⟨rest, rfl, there⟩
  · obtain ⟨field, member, failure⟩ := lost
    obtain ⟨first, last, rfl⟩ := List.append_of_mem member
    exact ⟨rest ++ first.map .refusal, field, last.map .refusal, by simp, failure⟩
  · exact absurd (Event.isQuiet_refusals refused event (by simp [there])) loud

end Silenced

/-- How a part of a validation changed the success of an outcome is what its events say about it. -/
structure Reflects (rooms : Rooms) (before after : Outcome) (events : List Event) : Prop where
  capacity : after.messages.capacity = before.messages.capacity
  /-- A failure is never taken back. -/
  stays : after.isSuccess = true → before.isSuccess = true
  quiet : (∀ event ∈ events, event.IsQuiet rooms ∧ event.IsRegular) → before.isSuccess = true →
    after.isSuccess = true
  loud : rooms.Roomy → 1 ≤ before.messages.capacity → after.isSuccess = true → Silenced rooms events

/-- The success of what a part of a validation found is what its events say about it. -/
structure Reports (rooms : Rooms) (found : Outcome) (events : List Event) : Prop where
  quiet : (∀ event ∈ events, event.IsQuiet rooms ∧ event.IsRegular) → found.isSuccess = true
  loud : rooms.Roomy → found.isSuccess = true → Silenced rooms events

/-! ### Putting parts together -/

namespace Reflects

variable {before middle after : Outcome} {events more : List Event}

/-- Events that contribute nothing leave an outcome as it is. -/
theorem rest (quiet : ∀ event ∈ events, event.IsQuiet rooms) (outcome : Outcome) :
    Reflects rooms outcome outcome events where
  capacity := rfl
  stays := id
  quiet _ := id
  loud _ _ _ := .quiet quiet

theorem refl (outcome : Outcome) : Reflects rooms outcome outcome [] :=
  .rest (by simp) outcome

theorem trans (first : Reflects rooms before middle events)
    (second : Reflects rooms middle after more) : Reflects rooms before after (events ++ more) where
  capacity := second.capacity.trans first.capacity
  stays := first.stays ∘ second.stays
  quiet all success := by
    rw [List.forall_mem_append] at all
    exact second.quiet all.2 (first.quiet all.1 success)
  loud roomy room success := by
    have roomLater : 1 ≤ middle.messages.capacity := first.capacity ▸ room
    exact (first.loud roomy room (second.stays success)).append (second.loud roomy roomLater success)

/-- What fails goes on failing. -/
theorem fails (reflects : Reflects rooms before after events) (failure : before.isSuccess = false) :
    after.isSuccess = false := by
  cases success : after.isSuccess with
  | false => rfl
  | true => rw [reflects.stays success] at failure; exact failure

/-- What filled an outcome that was empty before reports what it found. -/
theorem reports (reflects : Reflects rooms before after events) (success : before.isSuccess = true)
    (room : rooms.Roomy → 1 ≤ before.messages.capacity) : Reports rooms after events where
  quiet all := reflects.quiet all success
  loud roomy := reflects.loud roomy (room roomy)

end Reflects

/-- Merging what was found elsewhere passes on what was reported there. -/
theorem Reports.merge {child : Outcome} {events : List Event} (reports : Reports rooms child events)
    (into : Outcome) (label : Option String) :
    Reflects rooms into (into.absorb child label).into
      (events ++ (into.absorb child label).refused.map .refusal) where
  capacity := by rw [Outcome.absorb_into]; rfl
  stays := Outcome.isSuccess_of_absorb
  quiet all success := by
    rw [List.forall_mem_append] at all
    exact Outcome.isSuccess_absorb_of_isSuccess success (reports.quiet all.1) label
  loud roomy room success := by
    cases passed : child.isSuccess with
    | true => exact (reports.loud roomy passed).append (.quiet (Event.isQuiet_refusals _))
    | false => exact .loss events (Outcome.exists_refused room success passed)

/-- Attaching a field outcome passes on what was reported of the field. -/
theorem Reports.attach {field : FieldOutcome} {events : List Event}
    (reports : Reports rooms field.outcome events) (outcome : Outcome) :
    Reflects rooms outcome (outcome.addFields [field])
      (events ++ (outcome.fields.overflow [field]).map .refusal) where
  capacity := rfl
  stays success := ((Outcome.isSuccess_addFields _ _).1 success).1
  quiet all success := by
    rw [List.forall_mem_append] at all
    refine (Outcome.isSuccess_addFields _ _).2 ⟨success, fun other member => ?_⟩
    rw [List.mem_singleton.1 (List.mem_of_mem_take member)]
    exact reports.quiet all.1
  loud roomy _ success := by
    have kept := ((Outcome.isSuccess_addFields _ _).1 success).2
    cases passed : field.outcome.isSuccess with
    | true => exact (reports.loud roomy passed).append (.quiet (Event.isQuiet_refusals _))
    | false =>
      refine .loss events ⟨field, ?_, passed⟩
      have offered : field ∈ [field] := List.mem_singleton.2 rfl
      rw [← List.take_append_drop outcome.fields.room [field], List.mem_append] at offered
      rcases offered with taken | dropped
      · cases passed.symm.trans (kept field taken)
      · exact dropped

namespace Adds

variable {declared : Contribution} {into after : Outcome} {found : List Message}
  {brought : List FieldOutcome} {events : List Event}

/-- What a call adds makes an outcome fail, unless a failing field outcome is dropped of it. -/
theorem exists_lost (adds : Adds declared into found brought after events)
    (room : 1 ≤ into.messages.capacity) (success : after.isSuccess = true) (something : found ≠ []) :
    ∃ refused : List FieldOutcome, events = refused.map .refusal ∧
      ∃ field ∈ refused, field.isSuccess = false := by
  cases adds with
  | messages => exact absurd ((Outcome.isSuccess_addMessages room found).1 success).2 something
  | tree _ child =>
    rw [Ne, ← Outcome.isSuccess_iff_allMessages, Bool.not_eq_true] at something
    exact ⟨_, rfl, Outcome.exists_refused room success something⟩

theorem capacity_eq (adds : Adds declared into found brought after events) :
    after.messages.capacity = into.messages.capacity := by
  cases adds with
  | messages => rfl
  | tree => rw [Outcome.absorb_into]; rfl

theorem isSuccess_of_isSuccess (adds : Adds declared into found brought after events)
    (success : after.isSuccess = true) : into.isSuccess = true := by
  cases adds with
  | messages => exact Outcome.isSuccess_of_addMessages success
  | tree => exact Outcome.isSuccess_of_absorb success

/-- A call that contributes nothing leaves a success as it is, also without room for messages. -/
theorem isSuccess_of_nothing (adds : Adds declared into found brought after events)
    (nothing : found = []) (success : into.isSuccess = true) : after.isSuccess = true := by
  cases adds with
  | messages => rwa [nothing, Outcome.addMessages_nil]
  | tree _ child =>
    have silent := (Outcome.isSuccess_iff_allMessages child).2 nothing
    exact Outcome.isSuccess_absorb_of_isSuccess success silent none

theorem isQuiet (adds : Adds declared into found brought after events) :
    ∀ event ∈ events, event.IsQuiet rooms := by
  rw [adds.offers.2]
  exact Event.isQuiet_refusals _

end Adds

/-! ### The parts of a validation -/

theorem reflects_invoke (env : Environment) (scope : Scope) (value : Value) (outcome : Outcome)
    (call : PlannedCall) (into : Outcome) :
    Tracks rooms (invoke env scope value outcome call into) (Reflects rooms into) := by
  apply (tracks_invoke env scope value outcome call into).mono
  intro after events invoked
  rcases invoked with ⟨cancelled, asides, more, rfl, aside, adds⟩
  have calm : ∀ event ∈ asides, event.IsQuiet rooms :=
    fun event member => Event.isQuiet_of_isAside (aside event member)
  constructor
  case capacity => exact adds.capacity_eq
  case stays => exact adds.isSuccess_of_isSuccess
  case quiet =>
    intro all success
    obtain ⟨quiet, regular⟩ := all _ List.mem_cons_self
    exact adds.isSuccess_of_nothing (quiet.contributed_eq_nil regular) success
  case loud =>
    intro _ room success
    by_cases nothing : call.contributed rooms (scope.input value outcome call cancelled) = []
    · refine .quiet (List.forall_mem_cons.2 ⟨fun _ => nothing, ?_⟩)
      exact List.forall_mem_append.2 ⟨calm, adds.isQuiet⟩
    · obtain ⟨refused, rfl, lost⟩ := adds.exists_lost room success nothing
      rw [← List.cons_append]
      exact .loss _ lost

theorem reflects_onGroups (env : Environment) (scope : Scope) (failFast : Bool) (value : Value)
    (outcome : Outcome) (groups : List (List PlannedCall)) (into : Outcome) :
    Tracks rooms (onGroups env scope failFast value outcome groups into) (Reflects rooms into) :=
  tracks_onGroups .refl .trans (reflects_invoke env scope value outcome) failFast groups into

theorem reflects_onNested (field : FieldPlan) (context : Context) (plan : Option TypePlan)
    {descent : Option Descent} (tracked : TracksDescent rooms descent (Reports rooms))
    (into : Outcome) :
    Tracks rooms (onNested field context plan descent into) (Reflects rooms into) := by
  cases plan with
  | none => exact .pure (.refl into)
  | some plan =>
    cases descent with
    | none => exact .pure (.refl into)
    | some run =>
      apply ((tracked run rfl plan context).holding _).bind
      intro child events reports
      apply (tracks_merge _ _ _).mono
      intro after more merged
      rcases merged with ⟨rfl, rfl⟩
      exact reports.merge into _

theorem reports_onField (env : Environment) (scope : Scope) (failFast : Bool) (outcome : Outcome)
    {descent : Option Descent} (tracked : TracksDescent rooms descent (Reports rooms))
    (field : FieldPlan) :
    Tracks rooms (onField env scope failFast outcome descent field) fun result events =>
      Reports rooms result.outcome events := by
  apply (tracks_nestedPlan env field).bind
  intro nested _ planned
  rcases planned with ⟨_, _, rfl⟩
  apply (tracks_createField _ _).bind
  intro fresh _ created
  rcases created with ⟨rfl, rfl⟩
  apply (reflects_onGroups env scope failFast _ outcome _ _).bind
  intro content events first
  refine .ite (fun _ => ?_) fun _ => ?_
  · exact .pure (by simpa using first.reports rfl Rooms.Roomy.field)
  · apply (reflects_onNested field _ nested tracked content).bind
    intro all more second
    exact .pure (by simpa using (first.trans second).reports rfl Rooms.Roomy.field)

theorem reports_onNext (env : Environment) (scope : Scope) (failFast : Bool) (outcome : Outcome)
    {descent : String → Option Descent}
    (tracked : ∀ name, TracksDescent rooms (descent name) (Reports rooms)) (field : FieldPlan) :
    Tracks rooms (onNext env scope failFast outcome descent field) fun result events =>
      Reports rooms result.outcome events := by
  refine Tracks.holding ?_ _
  apply (tracks_checkpoint _).bind
  intro _ _ looked
  rw [looked]
  apply (reports_onField env _ failFast outcome (tracked _) field).mono
  intro result events reports
  have looks : ∀ event ∈ [Event.checkpoint (.field field.name) false], event.IsQuiet rooms :=
    List.forall_mem_singleton.2 trivial
  constructor
  · intro all
    exact reports.quiet (List.forall_mem_cons.1 all).2
  · intro roomy success
    exact Silenced.append (.quiet looks) (reports.loud roomy success)

theorem reflects_onFields (env : Environment) (scope : Scope) (failFast : Bool)
    {descent : String → Option Descent}
    (tracked : ∀ name, TracksDescent rooms (descent name) (Reports rooms))
    (fields : List FieldPlan) (outcome : Outcome) :
    Tracks rooms (onFields env scope failFast descent fields outcome) fun result events =>
      Reflects rooms outcome result.1 events := by
  induction fields generalizing outcome with
  | nil => exact .pure (.refl outcome)
  | cons field fields ih =>
    apply (reports_onNext env scope failFast outcome tracked field).bind
    intro result events own
    apply (tracks_attach _ _).bind
    intro middle _ attached
    rcases attached with ⟨rfl, rfl⟩
    have first := own.attach outcome
    refine .ite (fun _ => ?_) fun _ => ?_
    · exact .pure (by simpa using first)
    · apply (ih _).mono
      intro after more second
      rw [← List.append_assoc]
      exact first.trans second

theorem reflects_onHook (env : Environment) (scope : Scope) (plan : TypePlan)
    (hook : Option PlannedCall) (outcome : Outcome) :
    Tracks rooms (onHook env scope plan hook outcome) (Reflects rooms outcome) := by
  cases hook with
  | none => exact .pure (.refl outcome)
  | some call =>
    apply (tracks_hooked plan (reflects_invoke env scope _ outcome call _)).mono
    intro after events hooked
    obtain ⟨found, own, made, rfl, rfl⟩ := hooked
    exact (made.reports rfl Rooms.Roomy.object).merge outcome none

theorem reflects_onContents (env : Environment) (scope : Scope) {descent : String → Option Descent}
    (tracked : ∀ name, TracksDescent rooms (descent name) (Reports rooms)) (plan : TypePlan)
    (outcome : Outcome) :
    Tracks rooms (onContents env scope descent plan outcome) (Reflects rooms outcome) := by
  apply (reflects_onHook env scope plan plan.before outcome).bind
  intro first events early
  refine .ite (fun _ => .pure ?_) fun _ => ?_
  · rwa [List.append_nil]
  · refine (reflects_onFields env _ _ tracked _ first).bind fun ⟨last, ended⟩ more walked => ?_
    refine .ite (fun _ => .pure ?_) fun _ => ?_
    · rw [List.append_nil]
      exact early.trans walked
    · apply (reflects_onHook env scope plan plan.after last).mono
      intro final rest late
      rw [← List.append_assoc]
      exact (early.trans walked).trans late

theorem reports_onObject (env : Environment) (descent : String → Option Descent) (target : Object)
    (plan : TypePlan) (context : Context)
    (tracked : ∀ name, TracksDescent rooms (descent name) (Reports rooms)) :
    Tracks rooms (onObject env descent target plan context) (Reports rooms) := by
  apply (tracks_checkpoint _).bind
  intro _ _ looked
  apply (tracks_lookups env _).bind
  intro services _ asked
  rcases asked with ⟨_, rfl⟩
  apply (tracks_create _).bind
  intro empty _ created
  rcases created with ⟨rfl, rfl⟩
  have start : Reflects rooms (rooms.object plan.fields.length) (rooms.object plan.fields.length)
      ([.checkpoint (.object plan.type) false] ++ plan.dependencies.map .lookup) := by
    refine .rest (List.forall_mem_append.2 ⟨?_, fun event member => ?_⟩) _
    · exact List.forall_mem_singleton.2 trivial
    · obtain ⟨dependency, _, rfl⟩ := List.mem_map.1 member
      trivial
  rw [looked]
  apply (reflects_onContents env _ tracked plan _).mono
  intro outcome events reflects
  simpa using (start.trans reflects).reports rfl Rooms.Roomy.object

end Run

/-- The success of the outcome of an object is what the events of its validation say about it. -/
theorem Object.reports_run {rooms : Rooms} (env : Environment) (object : Object) (plan : TypePlan)
    (context : Context) : Run.Tracks rooms (object.run env plan context) (Run.Reports rooms) :=
  Object.tracks_run env (Run.reports_onObject env) object plan context

namespace Validator

variable {validator : Validator} {object : Object} {way : Way} {outcome : Outcome}

/-- What the validation of an object goes by whose plan is this one. -/
def setting (validator : Validator) (object : Object) (way : Way) (plan : TypePlan) : Setting where
  rooms := validator.pools.rooms
  planOf := validator.cache.compile
  capacity := validator.cache.options.fieldMessageCapacity
  object := object
  plan := plan
  base := way.request.context

end Validator

end Assay
