/-
Module: Assay.Proofs.Track
Purpose: What a part of a validation that ends has done: which answer it gives and which events it
  takes for that. The rules follow the parts through their steps, so that a statement about a whole
  validation is put together from statements about its parts.
Main exports: Run.Tracks, Run.tracks_evaluate, Run.tracks_attach, Run.tracks_merge
-/
import Assay.Proofs.Course

namespace Assay

/-- Whether an event goes along with an evaluation: a note, a cancellation, or a look at an output
that is yet to come. -/
def Event.isAside : Event → Bool
  | .note _ | .cancellation | .checkpoint .poll _ => true
  | _ => false

namespace Run

variable {rooms : Rooms} {α β : Type}

/-- Whenever a part ends on sound pools, its answer and its events are as `post` says. -/
def Tracks (rooms : Rooms) (action : Run α) (post : α → List Event → Prop) : Prop :=
  ∀ (state : RunState) (value : α) (after : RunState), state.pools.Yields rooms →
    action state = (.ok value, after) →
      ∃ events, state.Leads rooms after events ∧ post value events

namespace Tracks

variable {action : Run α} {next : α → Run β} {post : α → List Event → Prop}
  {postNext : β → List Event → Prop}

theorem pure {value : α} (holds : post value []) : Tracks rooms (Pure.pure value) post := by
  intro state result after _ ended
  obtain ⟨rfl, rfl⟩ := pure_eq_ok.1 ended
  exact ⟨[], .refl _, holds⟩

theorem throw (stop : Stop) : Tracks rooms (MonadExcept.throw stop) post := by
  intro state result after _ ended
  cases ended

theorem bind {mid : α → List Event → Prop} (first : Tracks rooms action mid)
    (second : ∀ value events, mid value events →
      Tracks rooms (next value) fun result more => postNext result (events ++ more)) :
    Tracks rooms (action >>= next) postNext := by
  intro state result after yields ended
  obtain ⟨value, middle, endedFirst, endedSecond⟩ := bind_eq_ok.1 ended
  obtain ⟨events, led, holds⟩ := first state value middle yields endedFirst
  obtain ⟨more, ledOn, holdsAll⟩ :=
    second value events holds middle result after (led.pools yields) endedSecond
  exact ⟨events ++ more, led.trans ledOn, holdsAll⟩

theorem get {next : RunState → Run α} (tracked : ∀ state, Tracks rooms (next state) post) :
    Tracks rooms (MonadState.get >>= next) post := by
  intro state value after yields ended
  obtain ⟨_, _, got, ended⟩ := bind_eq_ok.1 ended
  cases got
  exact tracked state state value after yields ended

theorem holding (tracked : Tracks rooms action post) (outcome : Outcome) :
    Tracks rooms (Run.holding outcome action) post :=
  fun state value after yields ended =>
    tracked state value after yields (holding_eq_ok.1 ended)

theorem ite {condition : Prop} [Decidable condition] {one two : Run α}
    (first : condition → Tracks rooms one post) (second : ¬condition → Tracks rooms two post) :
    Tracks rooms (if condition then one else two) post := by
  split
  · exact first ‹_›
  · exact second ‹_›

theorem mono {weaker : α → List Event → Prop} (tracked : Tracks rooms action post)
    (weaken : ∀ value events, post value events → weaker value events) :
    Tracks rooms action weaker := by
  intro state value after yields ended
  obtain ⟨events, led, holds⟩ := tracked state value after yields ended
  exact ⟨events, led, weaken value events holds⟩

/-- A part that ends does all that is known of it at once. -/
theorem and {other : α → List Event → Prop} (one : Tracks rooms action post)
    (two : Tracks rooms action other) :
    Tracks rooms action fun value events => post value events ∧ other value events := by
  intro state value after yields ended
  obtain ⟨events, led, holds⟩ := one state value after yields ended
  obtain ⟨same, ledAgain, holdsToo⟩ := two state value after yields ended
  cases led.unique ledAgain
  exact ⟨events, led, holds, holdsToo⟩

/-- What is regular is tracked, if nothing is asked of it. -/
theorem ofRegular (regular : Regular rooms action) : Tracks rooms action fun _ _ => True := by
  intro state value after _ ended
  obtain ⟨events, led⟩ := regular state
  rw [ended] at led
  exact ⟨events, led, trivial⟩

/-- What every step keeps or makes, all steps together do, if it adds up. -/
theorem foldlM {ι : Type} {body : α → ι → Run α} {relates : α → α → List Event → Prop}
    (refl : ∀ value, relates value value [])
    (trans : ∀ {first second third events more}, relates first second events →
      relates second third more → relates first third (events ++ more))
    (tracked : ∀ value item, Tracks rooms (body value item) (relates value))
    (items : List ι) (value : α) :
    Tracks rooms (items.foldlM body value) (relates value) := by
  induction items generalizing value with
  | nil => exact .pure (refl value)
  | cons item items ih =>
    rw [List.foldlM_cons]
    apply (tracked value item).bind
    intro middle events first
    exact (ih middle).mono fun result more second => trans first second

/-- If every step takes events of one kind only, so do all steps together. -/
theorem forM {ι : Type} {body : ι → Run PUnit} {kind : Event → Prop}
    (tracked : ∀ item, Tracks rooms (body item) fun _ events => ∀ event ∈ events, kind event)
    (items : List ι) :
    Tracks rooms (items.forM body) fun _ events => ∀ event ∈ events, kind event := by
  induction items with
  | nil => exact .pure (by simp)
  | cons item items ih =>
    refine (tracked item).bind fun _ events first => ih.mono fun _ more second => ?_
    intro event member
    exact (List.mem_append.1 member).elim (first event) (second event)

end Tracks

theorem tracks_record {event : Event} (calm : event.cancels = false) :
    Tracks rooms (record event) fun _ events => events = [event] := by
  intro state value after _ ended
  have led : state.Leads rooms (record event state).2 [event] := leads_record calm state
  rw [ended] at led
  exact ⟨_, led, rfl⟩

theorem tracks_cancel : Tracks rooms cancel fun _ events => events = [.cancellation] := by
  intro state value after _ ended
  have led : state.Leads rooms (cancel state).2 [.cancellation] := leads_cancel state
  rw [ended] at led
  exact ⟨_, led, rfl⟩

theorem tracks_checkpoint (place : Checkpoint) :
    Tracks rooms (checkpoint place) fun _ events => events = [.checkpoint place false] := by
  intro state value after _ ended
  have led : state.Leads rooms (checkpoint place state).2 [.checkpoint place state.cancelled] :=
    leads_checkpoint place state
  cases cancelled : state.cancelled with
  | true =>
    rw [checkpoint_apply, cancelled] at ended
    cases ended
  | false =>
    rw [ended, cancelled] at led
    exact ⟨_, led, rfl⟩

theorem tracks_release (outcome : Outcome) :
    Tracks rooms (release outcome) fun _ events => events = [] := by
  intro state value after _ ended
  have led : state.Leads rooms (release outcome state).2 [] := leads_release outcome state
  rw [ended] at led
  exact ⟨_, led, rfl⟩

theorem tracks_withPools {use : OutcomePools → α × OutcomePools} {made : α}
    (kept : ∀ {pools : OutcomePools}, pools.Yields rooms → (use pools).2.Yields rooms)
    (makes : ∀ {pools : OutcomePools}, pools.Yields rooms → (use pools).1 = made) :
    Tracks rooms (withPools use) fun value events => value = made ∧ events = [] := by
  intro state value after yields ended
  have led := leads_withPools kept state
  rw [ended] at led
  rw [withPools_apply] at ended
  cases ended
  exact ⟨_, led, makes yields, rfl⟩

theorem tracks_create (expected : Nat) :
    Tracks rooms (withPools (·.create expected)) fun outcome events =>
      outcome = rooms.object expected ∧ events = [] :=
  tracks_withPools (fun yields => yields.create _) fun yields => yields.create_fst _

theorem tracks_createField (path : String) (expected : Nat) :
    Tracks rooms (withPools (·.createField path expected)) fun field events =>
      field = ⟨path, rooms.field expected⟩ ∧ events = [] :=
  tracks_withPools (fun yields => yields.createField _ _) fun yields => yields.createField_fst _ _

theorem tracks_build (draft : Draft) :
    Tracks rooms (withPools (·.build draft)) fun outcome events =>
      outcome = rooms.build draft ∧ events = [] :=
  tracks_withPools (fun yields => yields.build _) fun yields => yields.build_fst _

theorem tracks_attach (outcome : Outcome) (field : FieldOutcome) :
    Tracks rooms (attach outcome field) fun after events =>
      after = outcome.addFields [field] ∧
        events = (outcome.fields.overflow [field]).map .refusal := by
  intro state value after _ ended
  have led : state.Leads rooms (attach outcome field state).2
      ((outcome.fields.overflow [field]).map .refusal) := leads_attach outcome field state
  rw [ended] at led
  rw [attach_apply] at ended
  cases ended
  exact ⟨_, led, rfl, rfl⟩

theorem tracks_merge (into child : Outcome) (label : Option String) :
    Tracks rooms (merge into child label) fun after events =>
      after = (into.absorb child label).into ∧
        events = (into.absorb child label).refused.map .refusal := by
  intro state value after _ ended
  have led : state.Leads rooms (merge into child label state).2
      ((into.absorb child label).refused.map .refusal) := leads_merge into child label state
  rw [ended] at led
  rw [merge_apply] at ended
  cases ended
  exact ⟨_, led, rfl, rfl⟩

theorem tracks_lookup (env : Environment) (dependency : Dependency) :
    Tracks rooms (lookup env dependency) fun service events =>
      env.provider dependency = .ok service ∧ events = [.lookup dependency] := by
  apply (tracks_record rfl).bind
  intro _ events recorded
  rw [recorded]
  split
  · rename_i service found
    exact .pure ⟨found, rfl⟩
  · exact .throw _

/-- Services are asked for in order, and those that a part goes on with are the answers. -/
theorem tracks_lookups (env : Environment) (dependencies : List Dependency) :
    Tracks rooms (dependencies.mapM (lookup env)) fun services events =>
      services.map .ok = dependencies.map env.provider ∧ events = dependencies.map .lookup := by
  induction dependencies with
  | nil => exact .pure ⟨rfl, rfl⟩
  | cons dependency dependencies ih =>
    rw [List.mapM_cons]
    apply (tracks_lookup env dependency).bind
    intro service _ asked
    rcases asked with ⟨answered, rfl⟩
    apply ih.bind
    intro services _ rest
    rcases rest with ⟨others, rfl⟩
    refine .pure ⟨?_, by simp⟩
    rw [List.map_cons, List.map_cons, others, answered]

theorem tracks_evaluate (scope : Scope) (value : Value) (outcome : Outcome) (call : PlannedCall) :
    Tracks rooms (evaluate scope value outcome call) fun output events =>
      ∃ cancelled asides,
        output = (call.rule.evaluate (scope.input value outcome call cancelled)).output ∧
        events = .evaluation call (scope.input value outcome call cancelled) :: asides ∧
        ∀ event ∈ asides, event.isAside = true := by
  refine .get fun state => (tracks_record rfl).bind fun _ _ recorded => ?_
  rw [recorded]
  have noting (note : String) : Tracks rooms (record (.note note)) fun _ events =>
      ∀ event ∈ events, event.isAside = true :=
    (tracks_record rfl).mono fun _ _ noted => by simp [noted, Event.isAside]
  refine .bind (.forM noting _) fun _ notes aside => ?_
  refine .ite (fun _ => ?_) fun _ => ?_
  · apply tracks_cancel.bind
    intro _ _ cancelled
    rw [cancelled]
    refine .pure ⟨state.cancelled, notes ++ [.cancellation], rfl, by simp, ?_⟩
    intro event member
    rcases List.mem_append.1 member with note | cancellation
    · exact aside event note
    · rw [List.mem_singleton.1 cancellation]
      rfl
  · exact .pure ⟨state.cancelled, notes, rfl, by simp, aside⟩

theorem tracks_suspend (env : Environment) :
    Tracks rooms (suspend env) fun _ events => events = [] :=
  .ite (fun _ => .pure rfl) fun _ => .throw _

/-- The steps of an output that is yet to come go along with its evaluation. -/
theorem tracks_perform (env : Environment) (step : Step) :
    Tracks rooms (perform env step) fun _ events => ∀ event ∈ events, event.isAside = true := by
  cases step with
  | wait =>
    refine (tracks_suspend env).bind fun _ _ suspended => (tracks_checkpoint _).mono ?_
    intro _ _ looked
    simp [suspended, looked, Event.isAside]
  | cancel => exact tracks_cancel.mono fun _ _ cancelled => by simp [cancelled, Event.isAside]
  | hang =>
    refine (tracks_suspend env).bind fun _ _ _ => .get fun state => ?_
    refine .ite (fun _ => ?_) fun _ => .throw _
    exact (tracks_checkpoint _).bind fun _ _ _ => .throw _

theorem tracks_nestedPlan (env : Environment) (field : FieldPlan) :
    Tracks rooms (nestedPlan env field) fun plan events =>
      (∀ found, plan = some found → ∃ type, field.nested = some type ∧ env.planOf type = .ok found) ∧
        (plan = none → field.nested = none) ∧ events = [] := by
  rw [nestedPlan]
  split
  · rename_i none
    exact .pure ⟨by simp, fun _ => none, rfl⟩
  · rename_i type nested
    split
    · rename_i plan planned
      refine .pure ⟨fun found same => ?_, by simp, rfl⟩
      cases same
      exact ⟨type, nested, planned⟩
    · exact .throw _

/-- What every call on a value keeps or makes, all its calls together do, if it adds up. -/
theorem tracks_onGroups {env : Environment} {scope : Scope} {value : Value} {outcome : Outcome}
    {relates : Outcome → Outcome → List Event → Prop} (refl : ∀ into, relates into into [])
    (trans : ∀ {first second third events more}, relates first second events →
      relates second third more → relates first third (events ++ more))
    (each : ∀ call into, Tracks rooms (invoke env scope value outcome call into) (relates into))
    (failFast : Bool) (groups : List (List PlannedCall)) (into : Outcome) :
    Tracks rooms (onGroups env scope failFast value outcome groups into) (relates into) := by
  induction groups generalizing into with
  | nil => exact .pure (refl into)
  | cons group groups ih =>
    have calls : Tracks rooms (onGroup env scope value outcome group into) (relates into) :=
      .foldlM refl trans (fun into call => (each call into).holding _) group into
    apply calls.bind
    intro middle events first
    refine .ite (fun _ => ?_) fun _ => ?_
    · exact .pure (by rwa [List.append_nil])
    · exact (ih middle).mono fun after more second => trans first second

/-- What the call of a hook makes of an empty outcome is merged into the outcome of its object. -/
theorem tracks_hooked {env : Environment} {scope : Scope} {outcome : Outcome} {call : PlannedCall}
    (plan : TypePlan) {made : Outcome → List Event → Prop}
    (calls : Tracks rooms
      (invoke env scope (.object scope.target) outcome call (rooms.object plan.fields.length)) made) :
    Tracks rooms (onHook env scope plan (some call) outcome) fun after events =>
      ∃ scratch own, made scratch own ∧ after = (outcome.absorb scratch none).into ∧
        events = own ++ (outcome.absorb scratch none).refused.map .refusal := by
  have scratched : Tracks rooms
      (withPools (·.create plan.fields.length) >>= fun scratch =>
        holding scratch (invoke env scope (.object scope.target) outcome call scratch)) made := by
    apply (tracks_create _).bind
    intro scratch _ created
    obtain ⟨rfl, rfl⟩ := created
    exact calls.holding _
  apply (scratched.holding _).bind
  intro scratch own made
  apply (tracks_merge _ _ _).mono
  intro after more merged
  obtain ⟨rfl, rfl⟩ := merged
  exact ⟨scratch, own, made, rfl, rfl⟩

/-- What the validations of objects do that fields hold. -/
def TracksDescent (rooms : Rooms) (descent : Option Descent)
    (post : Outcome → List Event → Prop) : Prop :=
  ∀ run, descent = some run → ∀ plan context, Tracks rooms (run plan context) post

end Run

/-- What the validation of an object does if those of the objects in its fields do it, the validation
of every object does. -/
theorem Object.tracks_run {rooms : Rooms} (env : Environment)
    {post : Outcome → List Event → Prop}
    (step : ∀ descent target plan context, (∀ name, Run.TracksDescent rooms (descent name) post) →
      Run.Tracks rooms (Run.onObject env descent target plan context) post)
    (object : Object) (plan : TypePlan) (context : Context) :
    Run.Tracks rooms (object.run env plan context) post := by
  revert plan context
  refine Object.run_of_descents env
    (motive := fun run => ∀ plan context, Run.Tracks rooms (run plan context) post) ?_ object
  intro descent target tracked plan context
  exact step descent target plan context tracked

end Assay
