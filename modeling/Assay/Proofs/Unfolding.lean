/-
Module: Assay.Proofs.Unfolding
Purpose: Validations take their tasks. The rules follow a part of a validation through its steps
  whether it ends or stops; with them every function of the executor is shown to take the events of
  the task it is for, and to heed the token.
Main exports: Run.Unfolds, Run.unfolds_receive, Run.unfolds_onField, Run.unfolds_onContents,
  Object.unfolds_run
-/
import Assay.Proofs.Tasks

namespace Assay

namespace Run

variable {rooms : Rooms} {α β : Type}

/-- Whatever comes of a part, its events heed the token, and events and result are as `post` says. -/
def Unfolds (rooms : Rooms) (action : Run α) (post : List Event → Except Stop α → Prop) : Prop :=
  ∀ state : RunState, ∃ events, state.Leads rooms (action state).2 events ∧
    Heeds state.cancelled events (Stop.of? (action state).1) ∧ post events (action state).1

namespace Unfolds

variable {action : Run α} {next : α → Run β} {post : List Event → Except Stop α → Prop}
  {postNext : List Event → Except Stop β → Prop}

theorem pure {value : α} (holds : post [] (.ok value)) :
    Unfolds rooms (Pure.pure value) post :=
  fun state => ⟨[], .refl state, .blind (by simp) nofun, holds⟩

theorem throw {stop : Stop} (other : stop ≠ .error .cancelled) (holds : post [] (.error stop)) :
    Unfolds rooms (MonadExcept.throw stop) post :=
  fun state => ⟨[], .refl state, .blind (by simp) fun same => other (Option.some.inj same), holds⟩

theorem mono {weaker : List Event → Except Stop α → Prop} (unfolds : Unfolds rooms action post)
    (weaken : ∀ events result, post events result → weaker events result) :
    Unfolds rooms action weaker := by
  intro state
  obtain ⟨events, led, heeded, holds⟩ := unfolds state
  exact ⟨events, led, heeded, weaken _ _ holds⟩

/-- A sequence unfolds into its parts, or into the first of them if that stops. -/
theorem bind {mid : List Event → Except Stop α → Prop} (first : Unfolds rooms action mid)
    (stops : ∀ events stop, mid events (.error stop) → postNext events (.error stop))
    (second : ∀ events value, mid events (.ok value) →
      Unfolds rooms (next value) fun more result => postNext (events ++ more) result) :
    Unfolds rooms (action >>= next) postNext := by
  intro state
  obtain ⟨events, led, heeded, holds⟩ := first state
  rw [bind_apply]
  split
  · rename_i value middle ended
    rw [ended] at led heeded holds
    obtain ⟨more, ledOn, heededOn, holdsOn⟩ := second events value holds middle
    rw [led.cancelled] at heededOn
    exact ⟨events ++ more, led.trans ledOn, heeded.append heededOn, holdsOn⟩
  · rename_i stop after stopped
    rw [stopped] at led heeded holds
    exact ⟨events, led, heeded, stops _ _ holds⟩

/-- What follows an action that cannot stop. -/
theorem after {events : List Event} {value : α}
    (first : Unfolds rooms action fun own result => own = events ∧ result = .ok value)
    (second : Unfolds rooms (next value) fun more result => postNext (events ++ more) result) :
    Unfolds rooms (action >>= next) postNext := by
  apply first.bind
  case stops =>
    rintro _ _ ⟨_, same⟩
    cases same
  case second =>
    rintro _ _ ⟨rfl, same⟩
    cases same
    exact second

theorem holding (unfolds : Unfolds rooms action post) (outcome : Outcome) :
    Unfolds rooms (Run.holding outcome action) post := by
  intro state
  obtain ⟨events, led, heeded, holds⟩ := unfolds state
  rw [holding_apply]
  split
  · rename_i ended
    rw [ended] at led heeded holds
    exact ⟨events, led, heeded, holds⟩
  · rename_i stop after stopped
    rw [stopped] at led heeded holds
    have released := led.trans (.ofPools fun yields => yields.release outcome)
    rw [List.append_nil] at released
    exact ⟨events, released, heeded, holds⟩

theorem ite {condition : Prop} [Decidable condition] {one two : Run α}
    (first : condition → Unfolds rooms one post) (second : ¬condition → Unfolds rooms two post) :
    Unfolds rooms (if condition then one else two) post := by
  split
  · exact first ‹_›
  · exact second ‹_›

end Unfolds

/-! ### The steps of a validation -/

theorem unfolds_record {event : Event} (calm : event.cancels = false) (blind : event.sees? = none) :
    Unfolds rooms (record event) fun events result => events = [event] ∧ result = .ok () :=
  fun state => ⟨[event], leads_record calm state, .blind (by simpa using blind) nofun, rfl, rfl⟩

theorem unfolds_cancel :
    Unfolds rooms cancel fun events result => events = [.cancellation] ∧ result = .ok () :=
  fun state => ⟨_, leads_cancel state, .blind (by simp [Event.sees?]) nofun, rfl, rfl⟩

/-- A look at the token ends the validation if it finds it cancelled. -/
theorem unfolds_checkpoint (place : Checkpoint) :
    Unfolds rooms (checkpoint place) fun events result =>
      (events = [.checkpoint place true] ∧ result = .error (.error .cancelled)) ∨
        (events = [.checkpoint place false] ∧ result = .ok ()) := by
  intro state
  refine ⟨_, leads_checkpoint place state, ?_, ?_⟩
  · have heeded := Heeds.checkpoint place state.cancelled
    rw [checkpoint_apply]
    cases cancelled : state.cancelled <;> simpa [cancelled, Stop.of?] using heeded
  · rw [checkpoint_apply]
    cases state.cancelled <;> simp

/-- What follows a look at the token goes ahead only if that finds it uncancelled. -/
theorem unfolds_after_checkpoint {place : Checkpoint} {next : Run α}
    {post : List Event → Except Stop α → Prop}
    (forbidden : post [.checkpoint place true] (.error (.error .cancelled)))
    (allowed : Unfolds rooms next fun events result => post (.checkpoint place false :: events) result) :
    Unfolds rooms (checkpoint place >>= fun _ => next) post := by
  apply (unfolds_checkpoint place).bind
  case stops =>
    rintro events stop (⟨rfl, same⟩ | ⟨_, same⟩)
    · cases same
      exact forbidden
    · cases same
  case second =>
    rintro events value (⟨_, same⟩ | ⟨rfl, _⟩)
    · cases same
    · exact allowed

/-- The pools take no part in what happens. -/
theorem unfolds_withPools {use : OutcomePools → α × OutcomePools}
    (kept : ∀ {pools : OutcomePools}, pools.Yields rooms → (use pools).2.Yields rooms) :
    Unfolds rooms (withPools use) fun events result => events = [] ∧ Stop.of? result = none :=
  fun state => ⟨[], leads_withPools kept state, .blind (by simp) nofun, rfl, rfl⟩

/-- What is done with something from the pools is all that happens. -/
theorem unfolds_after_withPools {use : OutcomePools → α × OutcomePools} {next : α → Run β}
    {post : List Event → Except Stop β → Prop}
    (kept : ∀ {pools : OutcomePools}, pools.Yields rooms → (use pools).2.Yields rooms)
    (unfolds : ∀ value, Unfolds rooms (next value) post) :
    Unfolds rooms (withPools use >>= next) post := by
  apply (unfolds_withPools kept).bind
  case stops =>
    rintro events stop ⟨_, same⟩
    cases same
  case second =>
    rintro events value ⟨rfl, _⟩
    exact unfolds value

/-- Events that only tell what found no room. -/
def OnlyRefusals (events : List Event) (result : Except Stop α) : Prop :=
  (∃ refused : List FieldOutcome, events = refused.map .refusal) ∧ Stop.of? result = none

theorem heeds_refusals {token : Bool} (refused : List FieldOutcome) :
    Heeds token (refused.map .refusal) none :=
  .blind (by simp [Event.sees?]) nofun

theorem unfolds_attach (outcome : Outcome) (field : FieldOutcome) :
    Unfolds rooms (attach outcome field) OnlyRefusals :=
  fun state => ⟨_, leads_attach outcome field state, heeds_refusals _, ⟨_, rfl⟩, rfl⟩

theorem unfolds_merge (into child : Outcome) (label : Option String) :
    Unfolds rooms (merge into child label) OnlyRefusals :=
  fun state => ⟨_, leads_merge into child label state, heeds_refusals _, ⟨_, rfl⟩, rfl⟩

theorem unfolds_release (outcome : Outcome) :
    Unfolds rooms (release outcome) fun events result => events = [] ∧ result = .ok () :=
  fun state => ⟨[], leads_release outcome state, .blind (by simp) nofun, rfl, rfl⟩

/-! ### Services -/

theorem unfolds_lookup (env : Environment) (dependency : Dependency) :
    Unfolds rooms (lookup env dependency) fun events result =>
      events = [.lookup dependency] ∧
        ((∃ service, env.provider dependency = .ok service ∧ result = .ok service) ∨
          ∃ error, env.provider dependency = .error error ∧
            result = .error (.error (.configuration error))) := by
  apply (unfolds_record rfl rfl).after
  cases answer : env.provider dependency with
  | ok service => exact .pure ⟨rfl, .inl ⟨service, rfl, rfl⟩⟩
  | error error => exact .throw nofun ⟨rfl, .inr ⟨error, rfl, rfl⟩⟩

/-- Services are asked for in order, up to the first one that cannot be had. -/
theorem unfolds_lookups (env : Environment) (dependencies : List Dependency) :
    Unfolds rooms (dependencies.mapM (lookup env)) fun events result =>
      (∃ services, services.map .ok = dependencies.map env.provider ∧
        events = dependencies.map .lookup ∧ result = .ok services) ∨
      ∃ asked missing unasked error, dependencies = asked ++ missing :: unasked ∧
        (∀ dependency ∈ asked, (env.provider dependency).isOk) ∧
        env.provider missing = .error error ∧ events = (asked ++ [missing]).map .lookup ∧
        result = .error (.error (.configuration error)) := by
  induction dependencies with
  | nil => exact .pure (.inl ⟨[], rfl, rfl, rfl⟩)
  | cons dependency dependencies ih =>
    rw [List.mapM_cons]
    apply (unfolds_lookup env dependency).bind
    case stops =>
      rintro _ stop ⟨rfl, ⟨_, _, same⟩ | ⟨error, failed, same⟩⟩
      · cases same
      · cases same
        exact .inr ⟨[], dependency, dependencies, error, rfl, by simp, failed, rfl, rfl⟩
    case second =>
      rintro _ service ⟨rfl, ⟨_, answer, same⟩ | ⟨_, _, same⟩⟩
      · cases same
        apply ih.bind
        case stops =>
          rintro events stop (⟨_, _, _, same⟩ | ⟨asked, missing, unasked, error, rfl, others⟩)
          · cases same
          · obtain ⟨provided, failed, rfl, same⟩ := others
            refine .inr ⟨dependency :: asked, missing, unasked, error, rfl, ?_, failed, rfl, same⟩
            rw [List.forall_mem_cons, answer]
            exact ⟨rfl, provided⟩
        case second =>
          rintro events services (⟨_, others, rfl, same⟩ | ⟨_, _, _, _, _, _, _, _, same⟩)
          · cases same
            refine .pure (.inl ⟨service :: services, ?_, by simp, rfl⟩)
            rw [List.map_cons, List.map_cons, others, answer]
          · cases same
      · cases same

/-! ### Calls -/

theorem forM_record_apply (notes : List String) (state : RunState) :
    (notes.forM fun note => record (.note note)) state =
      (.ok (), { state with journal := state.journal ++ notes.map .note }) := by
  induction notes generalizing state with
  | nil =>
    rw [List.map_nil, List.append_nil]
    rfl
  | cons note notes ih =>
    change (record (.note note) >>= fun _ => notes.forM fun note => record (.note note)) state = _
    rw [bind_apply, record_apply]
    simp only [ih, List.map_cons, List.append_assoc, List.singleton_append]

/-- A rule is evaluated on what the call gives it and on the token as it is. -/
theorem evaluate_apply (scope : Scope) (value : Value) (outcome : Outcome) (call : PlannedCall)
    (state : RunState) :
    evaluate scope value outcome call state =
      let input := scope.input value outcome call state.cancelled
      let evaluation := call.rule.evaluate input
      (.ok evaluation.output, { state with
        cancelled := state.cancelled || evaluation.cancels
        journal := state.journal ++ .evaluation call input :: evaluation.asides }) := by
  have got : (get : Run RunState) state = (.ok state, state) := rfl
  rw [evaluate, bind_apply, got]
  simp only
  rw [bind_apply, record_apply]
  simp only
  rw [bind_apply, forM_record_apply]
  simp only
  cases cancels : (call.rule.evaluate (scope.input value outcome call state.cancelled)).cancels with
  | true =>
    rw [if_pos rfl, bind_apply, cancel_apply]
    simp [pure_apply, Evaluation.asides, cancels]
  | false =>
    rw [if_neg Bool.false_ne_true]
    simp [pure_apply, Evaluation.asides, cancels]

/-- What a rule does besides answering tells nothing of the token, and whether it cancels. -/
theorem heeds_asides {token : Bool} (evaluation : Evaluation) : Heeds token evaluation.asides none := by
  refine .blind (fun event aside => ?_) nofun
  rcases Evaluation.mem_asides aside with ⟨note, rfl⟩ | rfl <;> rfl

theorem any_cancels_asides (evaluation : Evaluation) :
    evaluation.asides.any Event.cancels = evaluation.cancels := by
  have notes : (evaluation.notes.map Event.note).any Event.cancels = false := by
    simp [Event.cancels]
  rw [Evaluation.asides, List.any_append, notes, Bool.false_or]
  cases evaluation.cancels <;> rfl

theorem unfolds_evaluate (scope : Scope) (value : Value) (outcome : Outcome) (call : PlannedCall) :
    Unfolds rooms (evaluate scope value outcome call) fun events result =>
      ∃ cancelled,
        let input := scope.input value outcome call cancelled
        events = .evaluation call input :: (call.rule.evaluate input).asides ∧
          result = .ok (call.rule.evaluate input).output := by
  intro state
  rw [evaluate_apply]
  refine ⟨_, ⟨rfl, ?_, id⟩, ?_, state.cancelled, rfl, rfl⟩
  · rw [List.any_cons, any_cancels_asides]
    rfl
  · have seeing : Heeds state.cancelled
        [.evaluation call (scope.input value outcome call state.cancelled)] none := by
      apply Heeds.single
      · intro seen saw
        cases saw
        rfl
      · simp
    exact seeing.append (heeds_asides _)

/-! ### Waiting -/

theorem unfolds_suspend (env : Environment) :
    Unfolds rooms (suspend env) fun events result =>
      events = [] ∧ (result = .ok () ∨ result = .error .waiting) :=
  .ite (fun _ => .pure ⟨rfl, .inl rfl⟩) fun _ => .throw nofun ⟨rfl, .inr rfl⟩

theorem perform_hang_apply (env : Environment) (state : RunState) :
    perform env .hang state =
      if env.mayWait && state.cancelled then
        (.error (.error .cancelled),
          { state with journal := state.journal ++ [.checkpoint .poll true] })
      else (.error .waiting, state) := by
  rcases env with ⟨planOf, provider, mayWait⟩
  rcases state with ⟨pools, cancelled, journal⟩
  cases mayWait <;> cases cancelled <;> rfl

/-- Waiting in vain ends, if the validation is cancelled or waiting is not allowed. -/
theorem unfolds_hang (env : Environment) :
    Unfolds rooms (perform env .hang) fun events result =>
      (events = [] ∧ result = .error .waiting) ∨
        (events = [.checkpoint .poll true] ∧ result = .error (.error .cancelled)) := by
  intro state
  rw [perform_hang_apply]
  split
  · rename_i freed
    rw [Bool.and_eq_true] at freed
    refine ⟨[.checkpoint .poll true], ⟨rfl, by simp [Event.cancels], id⟩, ?_, .inr ⟨rfl, rfl⟩⟩
    rw [freed.2]
    exact .checkpoint .poll true
  · exact ⟨[], .refl state, .blind (by simp) (by simp [Stop.of?]), .inl ⟨rfl, rfl⟩⟩

/-- Output that is yet to come is polled, after a look at the token and so many cancellations. -/
theorem unfolds_drain (env : Environment) (wanted : Bool) (items : List StreamItem)
    (cancels : Nat) (into : Outcome) :
    Unfolds rooms (drain env wanted items into) fun events result =>
      Polled (.replicate cancels (.step .cancel) ++ items)
        (.checkpoint .poll false :: (.replicate cancels .cancellation ++ events))
        (Stop.of? result) := by
  induction items generalizing cancels into with
  | nil =>
    apply Unfolds.pure
    rw [List.append_nil, List.append_nil]
    exact .last cancels
  | cons item items ih =>
    cases item with
    | message finding =>
      apply unfolds_after_checkpoint
      · exact .again cancels rfl (.forbidden items)
      · exact (ih 0 _).mono fun _ _ polled => .again cancels rfl polled
    | step step =>
      cases step with
      | cancel =>
        apply unfolds_cancel.after
        refine (ih (cancels + 1) into).mono fun events result polled => ?_
        simpa [List.replicate_succ'] using polled
      | wait =>
        rw [drain, perform, bind_assoc]
        apply (unfolds_suspend env).bind
        case stops =>
          rintro _ _ ⟨rfl, same | same⟩
          · cases same
          · cases same
            rw [List.append_nil]
            exact .vain cancels nofun
        case second =>
          rintro _ _ ⟨rfl, _⟩
          apply unfolds_after_checkpoint
          · exact .again cancels rfl (.forbidden items)
          · exact (ih 0 into).mono fun _ _ polled => .again cancels rfl polled
      | hang =>
        apply (unfolds_hang env).bind
        case stops =>
          rintro _ _ (⟨rfl, same⟩ | ⟨rfl, same⟩)
          · cases same
            rw [List.append_nil]
            exact .vain cancels nofun
          · cases same
            exact .freed cancels
        case second =>
          rintro _ _ (⟨_, same⟩ | ⟨_, same⟩)
          · cases same
          · cases same

/-- An output is polled from its first look at the token on. -/
theorem unfolds_polls (env : Environment) (wanted : Bool) (items : List StreamItem)
    (into : Outcome) :
    Unfolds rooms (checkpoint .poll >>= fun _ => drain env wanted items into) fun events result =>
      Polled items events (Stop.of? result) :=
  unfolds_after_checkpoint (.forbidden items) (unfolds_drain env wanted items 0 into)

/-- The steps of an output are gone through like a stream of steps. -/
theorem drain_map_step (env : Environment) (wanted : Bool) (steps : List Step) (into : Outcome) :
    drain env wanted (steps.map .step) into = steps.forM (perform env) >>= fun _ => pure into := by
  induction steps with
  | nil => rfl
  | cons step steps ih =>
    change (perform env step >>= fun _ => drain env wanted (steps.map .step) into) =
      (perform env step >>= fun _ => steps.forM (perform env)) >>= fun _ => pure into
    rw [ih, bind_assoc]

/-! ### Adding -/

theorem unfolds_fold (declared : Contribution) (output : RuleOutput) (into : Outcome) :
    Unfolds rooms (fold declared output into) OnlyRefusals := by
  cases output with
  | nothing | message | messages | pending | streaming => exact .pure ⟨⟨[], rfl⟩, rfl⟩
  | outcome draft =>
    refine unfolds_after_withPools (fun yields => yields.build draft) fun child => .ite ?_ ?_
    · exact fun _ => unfolds_merge _ _ _
    · exact fun _ => (unfolds_release child).after (.pure ⟨⟨[], rfl⟩, rfl⟩)

/-- What is added of an output that has come is all that happens after its coming. -/
theorem unfolds_comes {shape : ReturnShape} {output : RuleOutput} {events : List Event}
    {next : Run Outcome} (comes : Comes shape output events none)
    (unfolds : Unfolds rooms next OnlyRefusals) :
    Unfolds rooms next fun more result =>
      ∃ own refused, events ++ more = own ++ refused.map .refusal ∧
        Comes shape output own (Stop.of? result) ∧ (Stop.of? result ≠ none → refused = []) := by
  refine unfolds.mono fun more result ⟨⟨refused, only⟩, ended⟩ => ?_
  rw [ended, only]
  exact ⟨events, refused, rfl, comes, fun stopped => absurd rfl stopped⟩

theorem unfolds_receive (env : Environment) (call : PlannedCall) (output : RuleOutput)
    (into : Outcome) :
    Unfolds rooms (receive env call output into) fun events result =>
      ∃ own refused, events = own ++ refused.map .refusal ∧
        Comes call.shape output own (Stop.of? result) ∧
          (Stop.of? result ≠ none → refused = []) := by
  refine .ite (fun immediate => ?_) fun delayed => ?_
  · exact unfolds_comes (.there (.inl immediate)) (unfolds_fold _ _ _)
  cases output with
  | nothing | message | messages | outcome =>
    exact unfolds_comes (.there (.inr rfl)) (unfolds_fold _ _ _)
  | streaming items =>
    refine (unfolds_polls env _ items into).mono fun events result polled => ?_
    exact ⟨events, [], by rw [List.map_nil, List.append_nil], .streaming delayed polled, fun _ => rfl⟩
  | pending steps output =>
    have polls : Unfolds rooms _ _ := unfolds_polls env false (steps.map .step) into
    have same : (checkpoint .poll >>= fun _ =>
        steps.forM (perform env) >>= fun _ => fold call.shape.contribution output into) =
        (checkpoint .poll >>= fun _ => drain env false (steps.map .step) into) >>= fun _ =>
          fold call.shape.contribution output into := by
      rw [drain_map_step, bind_assoc]
      simp only [bind_assoc, pure_bind]
    change Unfolds rooms (checkpoint .poll >>= fun _ =>
      steps.forM (perform env) >>= fun _ => fold call.shape.contribution output into) _
    rw [same]
    apply polls.bind
    case stops =>
      intro events stop polled
      exact ⟨events, [], by rw [List.map_nil, List.append_nil], .pending delayed polled, fun _ => rfl⟩
    case second =>
      intro events into' polled
      exact unfolds_comes (.pending delayed polled) (unfolds_fold _ _ _)

/-- A rule is called: it is evaluated, and its output is waited for and added. -/
theorem unfolds_invoke (env : Environment) (scope : Scope) (value : Value) (outcome : Outcome)
    (call : PlannedCall) (into : Outcome) :
    Unfolds rooms (invoke env scope value outcome call into) fun events result =>
      Task.Takes env (.call scope value call) events (Stop.of? result) := by
  apply (unfolds_evaluate scope value outcome call).bind
  case stops =>
    rintro _ _ ⟨_, _, same⟩
    cases same
  case second =>
    rintro _ output ⟨cancelled, rfl, same⟩
    cases same
    refine (unfolds_receive env call _ into).mono ?_
    rintro _ result ⟨own, refused, rfl, comes, stops⟩
    have taken : Task.Takes env (.call scope value call) _ _ :=
      (Task.Takes.call comes).refuse stops
    simpa only [List.cons_append, List.append_assoc] using taken

/-! ### Fields -/

/-- The calls of a group are made one after the other. -/
theorem unfolds_onGroup (env : Environment) (scope : Scope) (value : Value) (outcome : Outcome)
    (calls : List PlannedCall) (into : Outcome) :
    Unfolds rooms (onGroup env scope value outcome calls into) fun events result =>
      Task.Takes env (.sequence false (calls.map (.call scope value))) events (Stop.of? result) := by
  rw [onGroup]
  induction calls generalizing into with
  | nil => exact .pure .done
  | cons call calls ih =>
    rw [List.foldlM_cons]
    apply ((unfolds_invoke env scope value outcome call into).holding into).bind
    · exact fun events stop stopped => .stop stopped
    · exact fun events into taken => (ih into).mono fun more result rest => .next taken rest

theorem strict_of_left {failFast : Bool} (into : Outcome)
    (left : (failFast && !into.isSuccess) = true) : failFast = true :=
  (Bool.and_eq_true_iff.1 left).1

/-- The groups are gone through in order, up to the first failing one if the field is strict. -/
theorem unfolds_onGroups (env : Environment) (scope : Scope) (failFast : Bool) (value : Value)
    (outcome : Outcome) (groups : List (List PlannedCall)) (into : Outcome) :
    Unfolds rooms (onGroups env scope failFast value outcome groups into)
      (Task.Passes env failFast
        (groups.map fun group => .sequence false (group.map (.call scope value)))
        fun into => failFast && !into.isSuccess) := by
  induction groups generalizing into with
  | nil => exact .pure (.nil (strict_of_left _))
  | cons group groups ih =>
    apply (unfolds_onGroup env scope value outcome group into).bind
    · exact fun events stop stopped => .stopped fun _ => .stop stopped
    · intro events into taken
      refine .ite (fun failed => .pure ?_) fun _ => ?_
      · rw [List.append_nil]
        exact .leave (strict_of_left into) failed taken
      · exact (ih into).mono fun more result rest => .cons taken rest

/-- The plan of the object that a field holds, if the field has one. -/
inductive Planned (env : Environment) (field : FieldPlan) : Option TypePlan → Prop where
  | none (plain : field.nested = none) : Planned env field none
  | some {type : TypeKey} {plan : TypePlan} (nested : field.nested = some type)
      (planned : env.planOf type = .ok plan) : Planned env field (some plan)

/-- What goes before a field that holds an object: its type has a plan, or the field stops. -/
theorem unfolds_after_nestedPlan {env : Environment} {field : FieldPlan}
    {next : Option TypePlan → Run α} {post : List Event → Except Stop α → Prop}
    (unplanned : ∀ type error, field.nested = some type → env.planOf type = .error error →
      post [] (.error (.error (.compile error))))
    (unfolds : ∀ nested, Planned env field nested → Unfolds rooms (next nested) post) :
    Unfolds rooms (nestedPlan env field >>= next) post := by
  rw [nestedPlan]
  cases nested : field.nested with
  | none => exact unfolds none (.none nested)
  | some type =>
    cases planned : env.planOf type with
    | ok plan =>
      simp only [planned, pure_bind]
      exact unfolds (some plan) (.some nested planned)
    | error error =>
      simp only [planned]
      exact .throw (by simp) (unplanned type error nested planned)

/-- Objects in fields take their tasks, and nothing is done with other values. -/
inductive Descends (rooms : Rooms) (env : Environment) : Value → Option Descent → Prop where
  | object {child : Object} {run : Descent}
      (unfolds : ∀ plan context, Unfolds rooms (run plan context) fun events result =>
        Task.Takes env (.object child plan context) events (Stop.of? result)) :
    Descends rooms env (.object child) (some run)
  | other {value : Value} (plain : ∀ child, value ≠ .object child) : Descends rooms env value none

theorem unfolds_onNested {env : Environment} (scope : Scope) {field : FieldPlan}
    {nested : Option TypePlan} {descent : Option Descent} (planned : Planned env field nested)
    (descends : Descends rooms env (scope.target.field field.name) descent) (into : Outcome) :
    Unfolds rooms (onNested field scope.context nested descent into) fun events result =>
      Task.Takes env (.held scope field) events (Stop.of? result) := by
  cases planned with
  | none plain => exact .pure (.vacant (.inl plain))
  | @some type plan nested planned =>
    generalize held : scope.target.field field.name = value at descends
    cases descends with
    | other plain => exact .pure (.vacant (.inr (held ▸ plain)))
    | @object child run unfolds =>
      apply ((unfolds plan scope.context).holding into).bind
      · exact fun events stop stopped => .held nested planned held stopped
      · intro events into taken
        refine (unfolds_merge _ _ _).mono ?_
        rintro _ result ⟨⟨refused, rfl⟩, ended⟩
        rw [ended]
        exact .refusing refused (.held nested planned held taken)

/-- A field that has been begun goes through its groups and the object that it holds. -/
theorem unfolds_onField {env : Environment} {scope : Scope} {field : FieldPlan} (failFast : Bool)
    (outcome : Outcome) {descent : Option Descent}
    (descends : Descends rooms env (scope.target.field field.name) descent) :
    Unfolds rooms (onField env (scope.inside field) failFast outcome descent field)
      fun events result => Task.Takes env (.field scope failFast field)
        (.checkpoint (.field field.name) false :: events) (Stop.of? result) := by
  apply unfolds_after_nestedPlan
  · exact fun type error nested failed => .unplanned nested failed
  intro nested planned
  refine unfolds_after_withPools (fun yields => yields.createField _ _) fun fresh => ?_
  apply (unfolds_onGroups env (scope.inside field) failFast _ outcome field.groups fresh.outcome).bind
  · exact fun events stop passes => .field passes.takes_of_stop
  intro events content passes
  refine .ite (fun failed => .pure ?_) fun stays => ?_
  · rw [List.append_nil]
    exact .field (passes.takes_of_left failed)
  · apply (unfolds_onNested (scope.inside field) planned descends content).bind
    · exact fun more stop stopped => .field (passes.takes_of_next stays (.alone stopped))
    · intro more content taken
      apply Unfolds.pure
      rw [List.append_nil]
      exact .field (passes.takes_of_next stays (.alone taken))

theorem unfolds_onNext {env : Environment} {scope : Scope} (failFast : Bool) (outcome : Outcome)
    {descent : String → Option Descent} (field : FieldPlan)
    (descends : Descends rooms env (scope.target.field field.name) (descent field.name)) :
    Unfolds rooms (onNext env scope failFast outcome descent field) fun events result =>
      Task.Takes env (.field scope failFast field) events (Stop.of? result) :=
  .holding (unfolds_after_checkpoint .forbiddenField (unfolds_onField failFast outcome descends)) _

theorem unfolds_onFields {env : Environment} {scope : Scope} (failFast : Bool)
    {descent : String → Option Descent}
    (descends : ∀ name, Descends rooms env (scope.target.field name) (descent name))
    (fields : List FieldPlan) (outcome : Outcome) :
    Unfolds rooms (onFields env scope failFast descent fields outcome)
      (Task.Passes env failFast (fields.map (.field scope failFast)) Prod.snd) := by
  induction fields generalizing outcome with
  | nil => exact .pure (.nil nofun)
  | cons field fields ih =>
    apply (unfolds_onNext failFast outcome field (descends field.name)).bind
    · exact fun events stop stopped => .stopped fun _ => .stop stopped
    intro events result taken
    apply (unfolds_attach outcome result).bind
    · rintro _ _ ⟨_, same⟩
      cases same
    rintro _ outcome ⟨⟨refused, rfl⟩, _⟩
    have attached := Task.Takes.refusing refused taken
    refine .ite (fun failed => .pure ?_) fun _ => ?_
    · rw [List.append_nil]
      exact .leave (fun _ => (Bool.and_eq_true_iff.1 failed).1) rfl attached
    · refine (ih outcome).mono fun more result rest => ?_
      rw [← List.append_assoc]
      exact .cons attached rest

/-! ### Objects -/

theorem unfolds_onHook (env : Environment) (scope : Scope) (plan : TypePlan) (strict : Bool)
    (hook : Option PlannedCall) (outcome : Outcome) :
    Unfolds rooms (onHook env scope plan hook outcome)
      (Task.Passes env strict (hook.toList.map (.hook scope))
        fun outcome => strict && !outcome.isSuccess) := by
  cases hook with
  | none => exact .pure (.nil (strict_of_left _))
  | some call =>
    have called : Unfolds rooms (withPools (·.create plan.fields.length) >>= fun scratch =>
        holding scratch (invoke env scope (.object scope.target) outcome call scratch))
        fun events result => Task.Takes env (.hook scope call) events (Stop.of? result) :=
      unfolds_after_withPools (fun yields => yields.create _) fun scratch =>
        (unfolds_invoke env scope _ outcome call scratch).holding scratch
    apply (called.holding outcome).bind
    · exact fun events stop stopped => .single strict_of_left stopped
    intro events scratch taken
    refine (unfolds_merge _ _ _).mono ?_
    rintro _ result ⟨⟨refused, rfl⟩, ended⟩
    apply Task.Passes.single strict_of_left
    rw [ended]
    exact .refusing refused taken

/-- What there is to do on an object is done in order. -/
theorem unfolds_onContents {env : Environment} {scope : Scope} {descent : String → Option Descent}
    (descends : ∀ name, Descends rooms env (scope.target.field name) (descent name))
    (plan : TypePlan) (outcome : Outcome) :
    Unfolds rooms (onContents env scope descent plan outcome) fun events result =>
      Task.Takes env (.sequence plan.failFast (plan.tasks scope)) events (Stop.of? result) := by
  apply (unfolds_onHook env scope plan plan.failFast plan.before outcome).bind
  · exact fun events stop before => before.takes_of_stop
  intro events outcome before
  refine .ite (fun failed => .pure ?_) fun stays => ?_
  · rw [List.append_nil]
    exact before.takes_of_left failed
  apply (unfolds_onFields plan.failFast descends plan.fields outcome).bind
  · exact fun more stop fields => before.takes_of_next stays fields.takes_of_stop
  rintro more ⟨outcome, ended⟩ fields
  refine .ite (fun isOver => .pure ?_) fun goesOn => ?_
  · rw [List.append_nil]
    exact before.takes_of_next stays (fields.takes_of_left isOver)
  · refine (unfolds_onHook env scope plan plan.failFast plan.after outcome).mono ?_
    intro last result after
    exact before.takes_of_next stays (fields.takes_of_next goesOn after.takes)

theorem unfolds_onObject {env : Environment} {descent : String → Option Descent} {target : Object}
    (descends : ∀ name, Descends rooms env (target.field name) (descent name)) (plan : TypePlan)
    (context : Context) :
    Unfolds rooms (onObject env descent target plan context) fun events result =>
      Task.Takes env (.object target plan context) events (Stop.of? result) := by
  refine unfolds_after_checkpoint .forbidden ((unfolds_lookups env plan.dependencies).bind ?_ ?_)
  · rintro _ stop (⟨_, _, _, same⟩ | ⟨asked, missing, unasked, error, split, provided, failed, rfl, same⟩)
    · cases same
    · cases same
      exact .unprovided split provided failed
  · rintro _ services (⟨_, provided, rfl, same⟩ | ⟨_, _, _, _, _, _, _, _, same⟩)
    · cases same
      refine unfolds_after_withPools (fun yields => yields.create _) fun outcome => ?_
      refine (unfolds_onContents descends plan outcome).mono fun events result taken => ?_
      exact .object provided taken
    · cases same

end Run

/-- The validation of an object takes its task. -/
theorem Object.unfolds_run {rooms : Rooms} (env : Environment) (object : Object) (plan : TypePlan)
    (context : Context) :
    Run.Unfolds rooms (object.run env plan context) fun events result =>
      Task.Takes env (.object object plan context) events (Stop.of? result) := by
  refine Object.run_induction env (motive := fun object run => ∀ plan context,
    Run.Unfolds rooms (run plan context) fun events result =>
      Task.Takes env (.object object plan context) events (Stop.of? result)) ?_ object plan context
  intro object ih plan context
  refine Run.unfolds_onObject (fun name => ?_) plan context
  cases held : object.field name with
  | object child => exact .object (ih name child held)
  | _ => exact .other nofun

end Assay
