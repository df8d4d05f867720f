/-
Module: Assay.Proofs.Truncation
Purpose: Leaving an object at its first failure only cuts a validation short. A strict validation does
  what a lenient one does, until it stops with a failure that the lenient one will report as well.
Main exports: Run.Trailing, Run.Trails, Environment.Twins, Object.trails_run
-/
import Assay.Proofs.Agreement
import Assay.Proofs.SuccessFlag

namespace Assay

namespace Run

variable {rooms : Rooms} {α β : Type}

/-- How the end of a strict part compares to that of the lenient one: either both end alike, or the
strict one has stopped with a failure, and the lenient one can at best end with one. -/
inductive Trailing (rooms : Rooms) (stopped failed : α → Prop) :
    Except Stop α × RunState → Except Stop α × RunState → Prop where
  | same {result : Except Stop α} {state other : RunState} (alike : state.Alike rooms other) :
    Trailing rooms stopped failed (result, state) (result, other)
  | behind {value : α} {result : Except Stop α} {state other : RunState} (stop : stopped value)
      (journal : state.journal <+: other.journal) (later : ∀ value, result = .ok value → failed value) :
    Trailing rooms stopped failed (.ok value, state) (result, other)

/-- A strict part trails a lenient one. -/
def Trails (rooms : Rooms) (stopped failed : α → Prop) (strict lenient : Run α) : Prop :=
  ∀ state other : RunState, state.Alike rooms other →
    Trailing rooms stopped failed (strict state) (lenient other)

/-- A part that ends at once, without an event. -/
def Quits (stopped : α → Prop) (action : Run α) : Prop :=
  ∀ state : RunState, ∃ value after, action state = (.ok value, after) ∧ stopped value ∧
    after.journal = state.journal

theorem Quits.pure {stopped : α → Prop} {value : α} (stop : stopped value) :
    Quits stopped (Pure.pure value) :=
  fun state => ⟨value, state, rfl, stop, rfl⟩

/-- What is regular only adds to the journal. -/
theorem Regular.journal_grows {action : Run α} (regular : Regular rooms action)
    (state : RunState) : state.journal <+: (action state).2.journal := by
  obtain ⟨events, led⟩ := regular state
  rw [led.journal]
  exact List.prefix_append _ _

namespace Trails

variable {stopped failed : α → Prop} {stoppedNext failedNext : β → Prop}
  {strict lenient : Run α} {next lenientNext : α → Run β}

theorem ofAgrees (agrees : Agrees rooms strict lenient) : Trails rooms stopped failed strict lenient := by
  intro state other alike
  obtain ⟨same, alikeAfter⟩ := agrees state other alike
  cases ended : strict state with
  | mk result after =>
    cases endedOther : lenient other with
    | mk otherResult otherAfter =>
      rw [ended, endedOther] at same alikeAfter
      cases same
      exact .same alikeAfter

theorem pure (value : α) : Trails rooms stopped failed (Pure.pure value) (Pure.pure value) :=
  .ofAgrees (.pure value)

/-- As long as both parts do the same, what comes next decides. -/
theorem agrees_bind {mid : α → Prop} (first : Agrees rooms strict lenient)
    (tracked : Tracks rooms lenient fun value _ => mid value)
    (second : ∀ value, mid value →
      Trails rooms stoppedNext failedNext (next value) (lenientNext value)) :
    Trails rooms stoppedNext failedNext (strict >>= next) (lenient >>= lenientNext) := by
  intro state other alike
  obtain ⟨same, alikeMiddle⟩ := first state other alike
  rw [bind_apply, bind_apply]
  cases ended : strict state with
  | mk result middle =>
    cases endedOther : lenient other with
    | mk otherResult otherMiddle =>
      rw [ended, endedOther] at same alikeMiddle
      cases same
      cases result with
      | error stop => exact .same alikeMiddle
      | ok value =>
        obtain ⟨_, _, holds⟩ := tracked other value otherMiddle alike.otherYields endedOther
        exact second value holds middle otherMiddle alikeMiddle

/-- Where the strict part has stopped, it quits; where the lenient one has failed, it cannot recover. -/
theorem bind (first : Trails rooms stopped failed strict lenient)
    (regular : Regular rooms lenient) (regularNext : ∀ value, Regular rooms (lenientNext value))
    (quits : ∀ value, stopped value → Quits stoppedNext (next value))
    (fails : ∀ value, failed value →
      Tracks rooms (lenientNext value) fun result _ => failedNext result)
    (second : ∀ value, Trails rooms stoppedNext failedNext (next value) (lenientNext value)) :
    Trails rooms stoppedNext failedNext (strict >>= next) (lenient >>= lenientNext) := by
  intro state other alike
  have trailing := first state other alike
  rw [bind_apply, bind_apply]
  cases ended : strict state with
  | mk result middle =>
    cases endedOther : lenient other with
    | mk otherResult otherMiddle =>
      have yields := regular.yields alike.otherYields endedOther
      rw [ended, endedOther] at trailing
      cases trailing with
      | same alikeMiddle =>
        cases result with
        | error stop => exact .same alikeMiddle
        | ok value => exact second value middle otherMiddle alikeMiddle
      | @behind value _ _ _ stop journal later =>
        obtain ⟨final, after, quit, stopFinal, unchanged⟩ := quits value stop middle
        simp only [quit]
        cases otherResult with
        | error halted => exact .behind stopFinal (unchanged ▸ journal) (by simp)
        | ok found =>
          have grown := (regularNext found).journal_grows otherMiddle
          refine .behind stopFinal (unchanged ▸ journal.trans grown) fun outcome finished => ?_
          obtain ⟨_, _, failure⟩ := fails found (later found rfl) otherMiddle outcome _ yields
            (Prod.ext finished rfl)
          exact failure

theorem holding (trails : Trails rooms stopped failed strict lenient) (outcome : Outcome) :
    Trails rooms stopped failed (Run.holding outcome strict) (Run.holding outcome lenient) := by
  intro state other alike
  have trailing := trails state other alike
  rw [holding_apply, holding_apply]
  cases ended : strict state with
  | mk result after =>
    cases endedOther : lenient other with
    | mk otherResult otherAfter =>
      rw [ended, endedOther] at trailing
      cases trailing with
      | same alikeAfter =>
        cases result with
        | ok value => exact .same alikeAfter
        | error stop =>
          refine .same ⟨alikeAfter.journal, alikeAfter.cancelled, ?_, ?_⟩
          · exact alikeAfter.yields.release outcome
          · exact alikeAfter.otherYields.release outcome
      | behind stop journal later =>
        cases otherResult with
        | ok value => exact .behind stop journal later
        | error halted => exact .behind stop journal (by simp)

/-- A strict part that quits on a failure trails a lenient one that cannot recover from it. -/
theorem quit (quits : Quits stopped strict) (regular : Regular rooms lenient)
    (fails : Tracks rooms lenient fun value _ => failed value) :
    Trails rooms stopped failed strict lenient := by
  intro state other alike
  obtain ⟨value, after, ended, stop, unchanged⟩ := quits state
  have grown := regular.journal_grows other
  rw [ended]
  refine .behind stop ?_ fun outcome finished => ?_
  · rw [unchanged, alike.journal]
    exact grown
  · obtain ⟨_, _, failure⟩ := fails other outcome _ alike.otherYields (Prod.ext finished rfl)
    exact failure

/-- What both parts track can be added to what is known of their ends. -/
theorem and_tracks {info : α → Prop} (trails : Trails rooms stopped failed strict lenient)
    (tracked : Tracks rooms strict fun value _ => info value)
    (trackedOther : Tracks rooms lenient fun value _ => info value) :
    Trails rooms (fun value => stopped value ∧ info value) (fun value => failed value ∧ info value)
      strict lenient := by
  intro state other alike
  have trailing := trails state other alike
  cases ended : strict state with
  | mk result after =>
    cases endedOther : lenient other with
    | mk otherResult otherAfter =>
      rw [ended, endedOther] at trailing
      cases trailing with
      | same alikeAfter => exact .same alikeAfter
      | @behind value _ _ _ stop journal later =>
        obtain ⟨_, _, known⟩ := tracked state value after alike.yields ended
        refine .behind ⟨stop, known⟩ journal fun final finished => ⟨later final finished, ?_⟩
        rw [finished] at endedOther
        obtain ⟨_, _, knownOther⟩ := trackedOther other final otherAfter alike.otherYields endedOther
        exact knownOther

end Trails

end Run

/-! ### Strict plans and environments -/

/-- The plan by which an object is left at its first failure. -/
def TypePlan.strict (plan : TypePlan) : TypePlan :=
  { plan with failFast := true }

/-- A lenient plan whose hook before the fields declares no outcome, and whose fields that hold
objects of the types `reached` have no calls. -/
structure TypePlan.Plain (reached : TypeKey → Prop) (plan : TypePlan) : Prop where
  lenient : plan.failFast = false
  before : ∀ call, plan.before = some call → call.shape.contribution ≠ .outcome
  reached : ∀ field ∈ plan.fields, ∀ type, field.nested = some type → reached type
  groups : ∀ field ∈ plan.fields, field.nested.isSome → ∀ group ∈ field.groups, group = []

/-- Two environments whose plans of the types `reached` are strict in the one and lenient in the
other. -/
structure Environment.Twins (reached : TypeKey → Prop) (strict lenient : Environment) : Prop where
  services : strict.SameServices lenient
  plans : ∀ type, reached type → ∃ plan : TypePlan, plan.Plain reached ∧
    lenient.planOf type = .ok plan ∧ strict.planOf type = .ok plan.strict

namespace Run

variable {rooms : Rooms} {reached : TypeKey → Prop} {strict lenient : Environment}

/-- An outcome that fails, with no more field outcomes than there is room for where it goes. -/
def Failing (rooms : Rooms) (plan : TypePlan) (outcome : Outcome) : Prop :=
  outcome.isSuccess = false ∧ outcome.fields.size ≤ rooms.fields plan.fields.length

/-- The validations of the object in a field, in two environments. -/
inductive TwinDescents (rooms : Rooms) (reached : TypeKey → Prop) :
    Option Descent → Option Descent → Prop where
  | none : TwinDescents rooms reached none none
  | some {strict lenient : Descent}
      (trails : ∀ plan : TypePlan, plan.Plain reached → ∀ context,
        Trails rooms (Failing rooms plan) (Failing rooms plan) (strict plan.strict context)
          (lenient plan context))
      (regular : ∀ plan context, Regular rooms (lenient plan context))
      (reports : ∀ plan context, Tracks rooms (lenient plan context) (Reports rooms)) :
    TwinDescents rooms reached (some strict) (some lenient)

theorem TwinDescents.regularDescent {one other : Option Descent}
    (twins : TwinDescents rooms reached one other) : RegularDescent rooms other := by
  cases twins with
  | none => exact fun _ found => by cases found
  | some _ regular _ =>
    intro run found
    cases found
    exact regular

theorem TwinDescents.tracksDescent {one other : Option Descent}
    (twins : TwinDescents rooms reached one other) : TracksDescent rooms other (Reports rooms) := by
  cases twins with
  | none => exact fun _ found => by cases found
  | some _ _ reports =>
    intro run found
    cases found
    exact reports

/-! ### Fields -/

theorem trails_onGroups (same : strict.SameServices lenient) (scope : Scope) (value : Value)
    (outcome : Outcome) (groups : List (List PlannedCall)) (into : Outcome) :
    Trails rooms (fun found => found.isSuccess = false) (fun found => found.isSuccess = false)
      (onGroups strict scope true value outcome groups into)
      (onGroups lenient scope false value outcome groups into) := by
  induction groups generalizing into with
  | nil => exact .pure into
  | cons group groups ih =>
    have regular : Regular rooms (onGroup lenient scope value outcome group into) :=
      regular_onGroup lenient scope value outcome group into
    refine .agrees_bind (agrees_onGroup same scope value outcome group into) (.ofRegular regular)
      fun middle _ => ?_
    cases success : middle.isSuccess with
    | true => exact ih middle
    | false =>
      refine .quit (.pure success) (regular_onGroups _ _ _ _ _ _ _) ?_
      exact (reflects_onGroups _ _ _ _ _ _ _).mono fun _ _ reflects => reflects.fails success

/-- A failing child that finds room makes the field fail that it is merged into. -/
theorem merge_fails (roomy : rooms.Roomy) {plan : TypePlan} {child : Outcome}
    (failing : Failing rooms plan child) (label : Option String) :
    ((rooms.field plan.fields.length).absorb child label).refused = [] ∧
      ((rooms.field plan.fields.length).absorb child label).into.isSuccess = false := by
  have refused : ((rooms.field plan.fields.length).absorb child label).refused = [] := by
    rw [Outcome.absorb_refused]
    apply List.drop_eq_nil_of_le
    rw [Outcome.length_moved]
    exact failing.2
  refine ⟨refused, Bool.eq_false_iff.2 fun success => ?_⟩
  rw [Outcome.isSuccess_absorb roomy.field (by simp [refused])] at success
  rw [failing.1] at success
  exact Bool.false_ne_true success.2

/-- An object in a field is validated strictly or leniently, and merged either way. -/
theorem trails_onNested (roomy : rooms.Roomy) (field : FieldPlan) (context : Context)
    {plan : TypePlan} (plain : plan.Plain reached) {one other : Option Descent}
    (twins : TwinDescents rooms reached one other) :
    Trails rooms (fun found => found.isSuccess = false) (fun found => found.isSuccess = false)
      (onNested field context (some plan.strict) one (rooms.field plan.fields.length))
      (onNested field context (some plan) other (rooms.field plan.fields.length)) := by
  cases twins with
  | none => exact .pure _
  | some trails regular reports =>
    refine .bind ((trails plan plain context).holding _) (.holding _ (regular plan context))
      (fun child => regular_merge _ _ _) ?_ ?_ fun child => .ofAgrees (agrees_merge _ _ _)
    · intro child failing state
      obtain ⟨refused, failure⟩ := merge_fails roomy failing (some field.name)
      refine ⟨_, _, merge_apply _ _ _ state, failure, ?_⟩
      simp [refused]
    · intro child failing
      apply (tracks_merge _ _ _).mono
      intro found _ merged
      rw [merged.1]
      exact (merge_fails roomy failing (some field.name)).2

theorem trails_onField (roomy : rooms.Roomy) (twinEnvs : strict.Twins reached lenient)
    (scope : Scope) (outcome : Outcome) {one other : Option Descent}
    (twins : TwinDescents rooms reached one other) {field : FieldPlan}
    (leads : ∀ type, field.nested = some type → reached type)
    (groups : field.nested.isSome → ∀ group ∈ field.groups, group = []) :
    Trails rooms (fun result => result.isSuccess = false) (fun result => result.isSuccess = false)
      (onField strict scope true outcome one field)
      (onField lenient scope false outcome other field) := by
  cases nested : field.nested with
  | none =>
    have planned (env : Environment) : nestedPlan env field = pure none := by
      rw [nestedPlan, nested]
    rw [onField_of_nestedPlan (planned strict), onField_of_nestedPlan (planned lenient)]
    refine .agrees_bind (agrees_createField _ _) (.ofRegular ?_) fun fresh _ => ?_
    · exact regular_createField _ _
    refine .bind (trails_onGroups twinEnvs.services scope _ outcome _ _)
      (regular_onGroups _ _ _ _ _ _ _) (fun content => .pure _) ?_ ?_ fun content => ?_
    · intro content failure
      rw [if_pos (by simp [failure])]
      exact .pure failure
    · intro content failure
      exact .pure failure
    · cases success : content.isSuccess with
      | true => exact .pure _
      | false => exact .quit (.pure success) (.pure _) (.pure success)
  | some type =>
    obtain ⟨plan, plain, planLenient, planStrict⟩ := twinEnvs.plans type (leads type nested)
    have plannedStrict : nestedPlan strict field = pure (some plan.strict) := by
      rw [nestedPlan, nested]
      simp only [planStrict]
    have plannedLenient : nestedPlan lenient field = pure (some plan) := by
      rw [nestedPlan, nested]
      simp only [planLenient]
    rw [onField_of_nestedPlan plannedStrict, onField_of_nestedPlan plannedLenient]
    have created : Tracks rooms
        (withPools (·.createField field.name plan.fields.length)) fun fresh _ =>
          fresh = ⟨field.name, rooms.field plan.fields.length⟩ :=
      (tracks_createField _ _).mono fun _ _ created => created.1
    refine .agrees_bind (agrees_createField _ _) created fun fresh same => ?_
    have none := groups (by rw [nested]; rfl)
    rw [same, onGroups_of_empty _ _ _ _ _ _ none, onGroups_of_empty _ _ _ _ _ _ none, pure_bind,
      pure_bind]
    refine .bind (trails_onNested roomy field _ plain twins)
      (regular_onNested _ _ _ twins.regularDescent _) (fun content => .pure _) ?_ ?_
      fun content => .pure _
    · intro content failure
      exact .pure failure
    · intro content failure
      exact .pure failure

/-- What is known of the fields of a plain plan. -/
structure PlainFields (reached : TypeKey → Prop) (fields : List FieldPlan) : Prop where
  reached : ∀ field ∈ fields, ∀ type, field.nested = some type → reached type
  groups : ∀ field ∈ fields, field.nested.isSome → ∀ group ∈ field.groups, group = []

theorem trails_onNext (roomy : rooms.Roomy) (twinEnvs : strict.Twins reached lenient)
    (scope : Scope) (outcome : Outcome) {one other : String → Option Descent}
    (twins : ∀ name, TwinDescents rooms reached (one name) (other name)) {field : FieldPlan}
    (leads : ∀ type, field.nested = some type → reached type)
    (groups : field.nested.isSome → ∀ group ∈ field.groups, group = []) :
    Trails rooms (fun result => result.isSuccess = false) (fun result => result.isSuccess = false)
      (onNext strict scope true outcome one field) (onNext lenient scope false outcome other field) := by
  refine .holding (.agrees_bind (agrees_checkpoint _) (.ofRegular (regular_checkpoint _)) ?_) _
  intro _ _
  exact trails_onField roomy twinEnvs _ outcome (twins field.name) leads groups

/-- Where there is room for a field outcome, attaching it refuses nothing and keeps its failure. -/
theorem attach_fails {outcome : Outcome} {field : FieldOutcome}
    (room : outcome.fields.size < outcome.fields.capacity) (failure : field.isSuccess = false) :
    outcome.fields.overflow [field] = [] ∧ (outcome.addFields [field]).isSuccess = false := by
  have refused : outcome.fields.overflow [field] = [] := by
    apply List.drop_eq_nil_of_le
    rw [List.length_singleton, Buffer.room]
    omega
  refine ⟨refused, Bool.eq_false_iff.2 fun success => ?_⟩
  rw [Outcome.isSuccess_addFields_of_overflow (by simp [refused])] at success
  rw [success.2 field (List.mem_singleton.2 rfl)] at failure
  cases failure

theorem trails_onFields (roomy : rooms.Roomy) (twinEnvs : strict.Twins reached lenient)
    (scope : Scope) {one other : String → Option Descent}
    (twins : ∀ name, TwinDescents rooms reached (one name) (other name)) {fields : List FieldPlan}
    (plain : PlainFields reached fields) (outcome : Outcome)
    (room : outcome.fields.size + fields.length ≤ outcome.fields.capacity) :
    Trails rooms (fun result => result.1.isSuccess = false ∧ result.2 = true)
      (fun result => result.1.isSuccess = false) (onFields strict scope true one fields outcome)
      (onFields lenient scope false other fields outcome) := by
  induction fields generalizing outcome with
  | nil => exact .pure _
  | cons field fields ih =>
    have plainLater : PlainFields reached fields :=
      ⟨fun other member => plain.reached other (List.mem_cons_of_mem _ member),
        fun other member => plain.groups other (List.mem_cons_of_mem _ member)⟩
    have here := List.mem_cons_self (a := field) (l := fields)
    have regular (name : String) := (twins name).regularDescent
    have reports (name : String) := (twins name).tracksDescent
    rw [List.length_cons] at room
    have vacant : outcome.fields.size < outcome.fields.capacity := by omega
    refine .bind (trails_onNext roomy twinEnvs scope outcome twins (plain.reached field here)
      (plain.groups field here)) (regular_onNext _ _ _ _ regular _) ?_ ?_ ?_ ?_
    · exact fun result => .bind (regular_attach _ _) fun next => regular_onFields _ _ _ regular _ _
    · intro result failure state
      obtain ⟨refused, failing⟩ := attach_fails vacant failure
      rw [bind_apply, attach_apply, refused]
      simp only [failure]
      exact ⟨_, _, rfl, ⟨failing, rfl⟩, List.append_nil _⟩
    · intro result failure
      obtain ⟨refused, failing⟩ := attach_fails vacant failure
      apply (tracks_attach _ _).bind
      intro next _ attached
      rcases attached with ⟨rfl, _⟩
      exact (reflects_onFields _ _ _ reports _ _).mono fun _ _ reflects => reflects.fails failing
    · intro result
      have attached : Tracks rooms (attach outcome result) fun next _ =>
          next = outcome.addFields [result] :=
        (tracks_attach _ _).mono fun _ _ attached => attached.1
      refine .agrees_bind (agrees_attach _ _) attached fun next same => ?_
      rw [same]
      cases success : result.isSuccess with
      | false =>
        obtain ⟨_, failing⟩ := attach_fails vacant success
        refine .quit (.pure ⟨failing, rfl⟩) (regular_onFields _ _ _ regular _ _) ?_
        exact (reflects_onFields _ _ _ reports _ _).mono fun _ _ reflects => reflects.fails failing
      | true =>
        apply ih plainLater _
        simp only [Buffer.size, Outcome.addFields, Buffer.offer, List.length_append,
          List.length_take, List.length_singleton] at room ⊢
        omega

/-- The strict validation of the contents of an object trails the lenient one. It stops after the
hook, after a field, or not at all before the second hook. -/
theorem trails_onContents (roomy : rooms.Roomy) (twinEnvs : strict.Twins reached lenient)
    {one other : String → Option Descent}
    (twins : ∀ name, TwinDescents rooms reached (one name) (other name)) (scope : Scope)
    {plan : TypePlan} (plain : plan.Plain reached) :
    Trails rooms (fun outcome => outcome.isSuccess = false)
      (fun outcome => outcome.isSuccess = false)
      (onContents strict scope one plan.strict (rooms.object plan.fields.length))
      (onContents lenient scope other plan (rooms.object plan.fields.length)) := by
  have regular (name : String) := (twins name).regularDescent
  have reports (name : String) := (twins name).tracksDescent
  have opened : Tracks rooms (onHook lenient scope plan plan.before
      (rooms.object plan.fields.length)) fun first _ =>
        first.fields = (rooms.object plan.fields.length).fields := by
    apply (tracks_onHook _ _ _ _ _).mono
    intro first _ hooks
    obtain ⟨found, brought, rfl, none⟩ := hooks.eq_add
    rw [none plain.before, Outcome.addFields_nil, Outcome.fields_addMessages]
  refine .agrees_bind (agrees_onHook twinEnvs.services _ rfl _ _) opened fun first empty => ?_
  rw [plain.lenient]
  have closes (walked : Outcome × Bool) (failure : walked.1.isSuccess = false) :
      Tracks rooms (if walked.2 then pure walked.1 else
        onHook lenient scope plan plan.after walked.1) fun outcome _ => outcome.isSuccess = false :=
    .ite (fun _ => .pure failure) fun _ =>
      (reflects_onHook _ _ _ _ _).mono fun _ _ reflects => reflects.fails failure
  have closing (walked : Outcome × Bool) : Regular rooms (if walked.2 then pure walked.1 else
      onHook lenient scope plan plan.after walked.1) :=
    .ite (.pure _) (regular_onHook _ _ _ _ _)
  have fields : Regular rooms (onFields lenient scope false other plan.fields first) :=
    regular_onFields lenient _ false regular plan.fields first
  cases success : first.isSuccess with
  | false =>
    refine .quit (.pure success) (.bind fields closing) ?_
    apply (reflects_onFields _ _ _ reports _ _).bind
    intro walked _ reflects
    exact closes walked (reflects.fails success)
  | true =>
    have room : first.fields.size + plan.fields.length ≤ first.fields.capacity := by
      rw [empty]
      exact Nat.le_trans (Nat.le_of_eq (Nat.zero_add _)) (roomy.fields _)
    refine .bind (trails_onFields roomy twinEnvs _ twins ⟨plain.reached, plain.groups⟩ first room)
      fields closing ?_ closes fun walked => ?_
    · rintro ⟨outcome, ended⟩ ⟨failure, rfl⟩
      exact .pure failure
    · exact .ofAgrees (.ite (.pure _) (agrees_onHook twinEnvs.services _ rfl _ _))

theorem trails_onObject (roomy : rooms.Roomy) (twinEnvs : strict.Twins reached lenient)
    {one other : String → Option Descent}
    (twins : ∀ name, TwinDescents rooms reached (one name) (other name)) (target : Object)
    {plan : TypePlan} (plain : plan.Plain reached) (context : Context) :
    Trails rooms (fun outcome => outcome.isSuccess = false)
      (fun outcome => outcome.isSuccess = false) (onObject strict one target plan.strict context)
      (onObject lenient other target plan context) := by
  have created : Tracks rooms (withPools (·.create plan.fields.length)) fun fresh _ =>
      fresh = rooms.object plan.fields.length :=
    (tracks_create _).mono fun _ _ created => created.1
  refine .agrees_bind (agrees_checkpoint _) (.ofRegular (regular_checkpoint _)) fun _ _ => ?_
  refine .agrees_bind (.mapM (agrees_lookup twinEnvs.services) _)
    (.ofRegular (.mapM (regular_lookup lenient) _)) fun services _ => ?_
  refine .agrees_bind (agrees_create _) created fun fresh same => ?_
  rw [same]
  exact trails_onContents roomy twinEnvs twins _ plain

end Run

/-- The strict validation of an object trails the lenient one. -/
theorem Object.trails_run {rooms : Rooms} {reached : TypeKey → Prop} {strict lenient : Environment}
    (roomy : rooms.Roomy) (twinEnvs : strict.Twins reached lenient) (object : Object) :
    ∀ plan : TypePlan, plan.Plain reached → ∀ context,
      Run.Trails rooms (Run.Failing rooms plan) (Run.Failing rooms plan)
        (object.run strict plan.strict context) (object.run lenient plan context) := by
  intro plan plain context
  have twins (name : String) : Run.TwinDescents rooms reached ((object.field name).run? strict)
      ((object.field name).run? lenient) := by
    cases held : object.field name with
    | object child =>
      exact .some (Object.trails_run roomy twinEnvs child) (child.regular_run lenient)
        (child.reports_run lenient)
    | _ => exact .none
  have trails := Run.trails_onObject roomy twinEnvs twins object plain context
  rw [← Object.run_eq, ← Object.run_eq] at trails
  exact trails.and_tracks (object.tracks_run_fits strict plan.strict context)
    (object.tracks_run_fits lenient plan context)
termination_by sizeOf object
decreasing_by exact Object.sizeOf_lt_of_field_eq_object held

end Assay
