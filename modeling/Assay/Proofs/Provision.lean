/-
Module: Assay.Proofs.Provision
Purpose: Services are asked for when an object is begun: each service of the object's type once, in
  the order of the slots, and before anything is evaluated on the object. What cannot be had ends the
  validation. In every evaluation a rule gets the provider's answer for each service that it declares,
  and nothing for its other parameters.
Main exports: PlannedCall.Supplied, TypePlan.Asked, Provides, Task.Takes.provides,
  Validator.answer_provides
-/
import Assay.Proofs.Answers
import Assay.Proofs.Slots

namespace Assay

/-- What a rule gets for a parameter, as the type that it expects there. -/
def Call.service? {σ : Type} (call : Call) (view : Payload → Option σ) (index : Nat) : Option σ :=
  (call.dependency? index).bind view

/-- A rule gets the services that it declares, each for its own parameter, and no others. -/
def PlannedCall.Supplied (provider : Provider) (call : PlannedCall) (input : Call) : Prop :=
  ∃ signature, call.rule.signature.parse = .ok signature ∧
    ∀ {σ : Type} (view : Payload → Option σ) (index : Nat),
      match signature.parameters[index]? with
      | none => input.service? view index = none
      | some parameter =>
        match implicitParameters.lookup parameter.type.name with
        | some _ => input.service? view index = none
        | none => ∃ key service, parameter.serviceKey call.id = .ok key ∧
          provider ⟨parameter.type.name, key⟩ = .ok service ∧
          input.service? view index = view service

/-- What an object begins with: all services are asked for in order, or the first one that cannot be
had is the last thing that is asked for, and the validation ends with its error. -/
inductive TypePlan.Asked (provider : Provider) (plan : TypePlan) (later : List Event)
    (halt : Option Stop) : Prop where
  | all (provided : ∀ dependency ∈ plan.dependencies, (provider dependency).isOk)
      (asked : plan.dependencies.map .lookup <+: later)
  | upTo {asked unasked : List Dependency} {missing : Dependency} {error : ResolveError}
      (dependencies : plan.dependencies = asked ++ missing :: unasked)
      (provided : ∀ dependency ∈ asked, (provider dependency).isOk)
      (failed : provider missing = .error error)
      (last : later = (asked ++ [missing]).map .lookup)
      (halts : halt = some (.error (.configuration error)))

/-- Events in which services are provided: an object begins with asking for those of its type, nothing
else asks for any, and rules get what they declare. -/
structure Provides (plans : TypeKey → TypePlan → Prop) (provider : Provider) (events : List Event)
    (halt : Option Stop) : Prop where
  begun : ∀ before type later, events = before ++ .checkpoint (.object type) false :: later →
    ∃ plan, plans type plan ∧ plan.Asked provider later halt
  asked : ∀ before dependency later, events = before ++ .lookup dependency :: later →
    ∃ earlier type plan asked, plans type plan ∧
      before = earlier ++ .checkpoint (.object type) false :: asked.map .lookup ∧
      asked ++ [dependency] <+: plan.dependencies
  supplied : ∀ call input, .evaluation call input ∈ events → call.Supplied provider input

/-- Whether an event has nothing to do with services. -/
def Event.isIdle : Event → Bool
  | .checkpoint (.object _) false | .lookup _ | .evaluation _ _ => false
  | _ => true

namespace Provides

variable {plans : TypeKey → TypePlan → Prop} {provider : Provider} {events more : List Event}
  {halt : Option Stop}

theorem idle (idle : ∀ event ∈ events, event.isIdle = true) :
    Provides plans provider events halt where
  begun before type later split := by
    have present := idle (.checkpoint (.object type) false) (by simp [split])
    cases present
  asked before dependency later split := by
    have present := idle (.lookup dependency) (by simp [split])
    cases present
  supplied call input member := by
    have present := idle _ member
    cases present

theorem append (first : Provides plans provider events none)
    (second : Provides plans provider more halt) : Provides plans provider (events ++ more) halt := by
  constructor
  case begun =>
    intro before type later split
    rcases append_eq_append_cons split with ⟨rest, here, rfl⟩ | ⟨rest, rfl, there⟩
    · obtain ⟨plan, planned, asked⟩ := first.begun before type rest here
      refine ⟨plan, planned, ?_⟩
      cases asked with
      | all provided asked => exact .all provided (asked.trans (List.prefix_append _ _))
      | upTo _ _ _ _ halts => cases halts
    · exact second.begun rest type later there
  case asked =>
    intro before dependency later split
    rcases append_eq_append_cons split with ⟨rest, here, rfl⟩ | ⟨rest, rfl, there⟩
    · exact first.asked before dependency rest here
    · obtain ⟨earlier, type, plan, asked, planned, rfl, slots⟩ :=
        second.asked rest dependency later there
      exact ⟨events ++ earlier, type, plan, asked, planned, by rw [List.append_assoc], slots⟩
  case supplied =>
    intro call input member
    exact (List.mem_append.1 member).elim (first.supplied call input) (second.supplied call input)

/-- A rule is evaluated on what it declares. -/
theorem evaluation {call : PlannedCall} {input : Call} (supplied : call.Supplied provider input) :
    Provides plans provider [.evaluation call input] halt := by
  constructor
  case begun =>
    intro before type later split
    have present : Event.checkpoint (.object type) false ∈ [Event.evaluation call input] := by
      simp [split]
    simp at present
  case asked =>
    intro before dependency later split
    have present : Event.lookup dependency ∈ [Event.evaluation call input] := by simp [split]
    simp at present
  case supplied =>
    intro other input member
    cases List.mem_singleton.1 member
    exact supplied

/-- What an object begins with. -/
theorem block {type : TypeKey} {plan : TypePlan} {services : List Dependency}
    (planned : plans type plan) (slots : services <+: plan.dependencies)
    (asked : plan.Asked provider (services.map .lookup) halt) :
    Provides plans provider (.checkpoint (.object type) false :: services.map .lookup) halt := by
  constructor
  case begun =>
    intro before other later split
    rcases List.cons_eq_append_iff.1 split with ⟨rfl, same⟩ | ⟨rest, rfl, same⟩
    · cases same
      exact ⟨plan, planned, asked⟩
    · have present : .checkpoint (.object other) false ∈ services.map Event.lookup := by
        simp [same]
      obtain ⟨_, _, same⟩ := List.mem_map.1 present
      cases same
  case asked =>
    intro before dependency later split
    rcases List.cons_eq_append_iff.1 split with ⟨rfl, same⟩ | ⟨rest, rfl, same⟩
    · cases same
    · obtain ⟨early, late, rfl, rfl, next⟩ := List.map_eq_append_iff.1 same
      obtain ⟨first, others, rfl, one, rfl⟩ := List.map_eq_cons_iff.1 next
      cases one
      refine ⟨[], type, plan, early, planned, rfl, .trans ?_ slots⟩
      exact ⟨others, by rw [List.append_assoc, List.singleton_append]⟩
  case supplied =>
    intro call input member
    simp at member

/-- Another stop may take the place of the one there is, unless a service could not be had. -/
theorem replace {other : Option Stop} (provides : Provides plans provider events halt)
    (kept : ∀ error, halt = some (.error (.configuration error)) → other = halt) :
    Provides plans provider events other where
  begun before type later split := by
    obtain ⟨plan, planned, asked⟩ := provides.begun before type later split
    refine ⟨plan, planned, ?_⟩
    cases asked with
    | all provided asked => exact .all provided asked
    | upTo dependencies provided failed last halts =>
      exact .upTo dependencies provided failed last ((kept _ halts).trans halts)
  asked := provides.asked
  supplied := provides.supplied

end Provides

/-! ### Supplied calls -/

/-- Services that are there could be had. -/
theorem isOk_of_provided {provider : Provider} {services : List Payload}
    {dependencies : List Dependency} (provided : services.map .ok = dependencies.map provider) :
    ∀ dependency ∈ dependencies, (provider dependency).isOk := by
  intro dependency member
  have answer : provider dependency ∈ services.map Except.ok := by
    rw [provided]
    exact List.mem_map_of_mem member
  obtain ⟨service, _, same⟩ := List.mem_map.1 answer
  rw [← same]
  rfl

theorem getElem?_of_forall₂ {α β : Type} {relates : α → β → Prop} {items : List α} {others : List β}
    (related : List.Forall₂ relates items others) (index : Nat) :
    Option.Rel relates items[index]? others[index]? := by
  induction related generalizing index with
  | nil => exact .none
  | cons own _ ih =>
    cases index with
    | zero => exact .some own
    | succ index => exact ih index

/-- A call has its services at hand. -/
def Scope.Serves (provider : Provider) (scope : Scope) (call : PlannedCall) : Prop :=
  ∃ dependencies, call.Wired dependencies ∧
    scope.services.map .ok = dependencies.map provider

theorem Scope.Serves.supplied {provider : Provider} {scope : Scope} {call : PlannedCall}
    (serves : scope.Serves provider call) (value : Value) (outcome : Outcome) (cancelled : Bool) :
    call.Supplied provider (scope.input value outcome call cancelled) := by
  obtain ⟨dependencies, ⟨signature, read, filled⟩, answers⟩ := serves
  refine ⟨signature, read, fun view index => ?_⟩
  have argument := getElem?_of_forall₂ filled index
  simp only [Call.service?, Call.dependency?, Scope.input]
  generalize signature.parameters[index]? = declared at argument
  generalize call.arguments[index]? = found at argument
  cases argument with
  | none => rfl
  | @some parameter argument filled =>
    cases filled with
    | implicit known =>
      simp only [known]
      have none := implicit_ne_dependency known
      cases argument with
      | dependency slot => exact absurd rfl (none slot)
      | _ => rfl
    | @slot key slot declared keyed reserved =>
      simp only [declared]
      have answer := congrArg (·[slot]?) answers
      simp only [List.getElem?_map, reserved, Option.map_some] at answer
      obtain ⟨service, found, answered⟩ := Option.map_eq_some_iff.1 answer
      exact ⟨key, service, keyed, answered.symm, by rw [found]; rfl⟩

/-! ### Tasks -/

/-- A task whose objects are validated by the plans of their types, and whose calls have their
services at hand. -/
inductive Task.Served (plans : TypeKey → TypePlan → Prop) (provider : Provider) : Task → Prop where
  | object {target : Object} {plan : TypePlan} {context : Context}
      (planned : plans plan.type plan) : Served plans provider (.object target plan context)
  | field {scope : Scope} {strict : Bool} {field : FieldPlan}
      (serves : ∀ call ∈ field.calls, scope.Serves provider call) :
    Served plans provider (.field scope strict field)
  | held (scope : Scope) (field : FieldPlan) : Served plans provider (.held scope field)
  | call {scope : Scope} {value : Value} {call : PlannedCall} (serves : scope.Serves provider call) :
    Served plans provider (.call scope value call)
  | sequence {strict : Bool} {tasks : List Task} (all : ∀ task ∈ tasks, Served plans provider task) :
    Served plans provider (.sequence strict tasks)

namespace Task.Served

variable {plans : TypeKey → TypePlan → Prop} {provider : Provider} {scope : Scope}

theorem field_tasks {field : FieldPlan} {strict : Bool}
    (serves : ∀ call ∈ field.calls, scope.Serves provider call) :
    Served plans provider (.sequence strict (field.tasks (scope.inside field))) := by
  refine .sequence fun task member => ?_
  rcases List.mem_append.1 member with grouped | last
  · obtain ⟨group, inside, rfl⟩ := List.mem_map.1 grouped
    refine .sequence fun task member => ?_
    obtain ⟨call, present, rfl⟩ := List.mem_map.1 member
    exact .call (serves call (List.mem_flatten.2 ⟨group, inside, present⟩))
  · rw [List.mem_singleton.1 last]
    exact .held _ _

theorem plan_tasks {plan : TypePlan} {strict : Bool} (wired : plan.Wired)
    (provided : scope.services.map .ok = plan.dependencies.map provider) :
    Served plans provider (.sequence strict (plan.tasks scope)) := by
  refine .sequence fun task member => ?_
  rcases List.mem_append.1 member with early | member
  · obtain ⟨call, present, rfl⟩ := List.mem_map.1 early
    exact .call ⟨_, wired.hooks call (List.mem_append_left _ present), provided⟩
  rcases List.mem_append.1 member with middle | late
  · obtain ⟨field, present, rfl⟩ := List.mem_map.1 middle
    exact .field fun call inside => ⟨_, wired.fields field present call inside, provided⟩
  · obtain ⟨call, present, rfl⟩ := List.mem_map.1 late
    exact .call ⟨_, wired.hooks call (List.mem_append_right _ present), provided⟩

end Task.Served

theorem Polled.isIdle {items : List StreamItem} {events : List Event} {halt : Option Stop}
    (polled : Polled items events halt) : ∀ event ∈ events, event.isIdle = true := by
  have cancellations (count : Nat) :
      ∀ event ∈ List.replicate count Event.cancellation, event.isIdle = true :=
    fun event member => by rw [List.eq_of_mem_replicate member]; rfl
  induction polled with
  | forbidden => exact List.forall_mem_singleton.2 rfl
  | last cancels => exact List.forall_mem_cons.2 ⟨rfl, cancellations cancels⟩
  | again cancels pauses rest ih =>
    exact List.forall_mem_cons.2 ⟨rfl, List.forall_mem_append.2 ⟨cancellations cancels, ih⟩⟩
  | vain cancels waits => exact List.forall_mem_cons.2 ⟨rfl, cancellations cancels⟩
  | freed cancels =>
    exact List.forall_mem_cons.2 ⟨rfl,
      List.forall_mem_append.2 ⟨cancellations cancels, List.forall_mem_singleton.2 rfl⟩⟩

theorem Comes.isIdle {shape : ReturnShape} {output : RuleOutput} {events : List Event}
    {halt : Option Stop} (comes : Comes shape output events halt) :
    ∀ event ∈ events, event.isIdle = true := by
  cases comes with
  | there => exact nofun
  | pending delayed polled => exact polled.isIdle
  | streaming delayed polled => exact polled.isIdle

theorem Evaluation.isIdle_asides (evaluation : Evaluation) :
    ∀ event ∈ evaluation.asides, event.isIdle = true := by
  intro event aside
  rcases mem_asides aside with ⟨note, rfl⟩ | rfl <;> rfl

/-- In what a task takes services are provided, whatever stops it. -/
theorem Task.Takes.provides {env : Environment} {plans : TypeKey → TypePlan → Prop}
    (planned : ∀ type plan, env.planOf type = .ok plan → plans type plan)
    (wired : ∀ type plan, plans type plan → plan.type = type ∧ plan.Wired) {task : Task}
    {events : List Event} {halt : Option Stop} (taken : Takes env task events halt)
    (served : Served plans env.provider task) : Provides plans env.provider events halt := by
  induction taken with
  | forbidden | forbiddenField | unplanned => exact .idle (List.forall_mem_singleton.2 rfl)
  | vacant | done | leave => exact .idle nofun
  | @unprovided _ plan _ asked unasked missing error dependencies provided failed =>
    cases served with
    | object known =>
      refine .block known ?_ (.upTo dependencies provided failed rfl rfl)
      rw [dependencies]
      exact ⟨unasked, by rw [List.append_assoc, List.singleton_append]⟩
  | @object target plan context services events halt provided contents ih =>
    cases served with
    | object known =>
      have begins : Provides plans env.provider
          (.checkpoint (.object plan.type) false :: plan.dependencies.map .lookup) none :=
        .block known List.prefix_rfl (.all (isOk_of_provided provided) List.prefix_rfl)
      exact begins.append (ih (.plan_tasks (wired _ _ known).2 provided))
  | @field scope strict field events halt contents ih =>
    cases served with
    | field serves =>
      rw [← List.singleton_append]
      exact .append (.idle (List.forall_mem_singleton.2 rfl)) (ih (.field_tasks serves))
  | @held scope field type plan child events halt nested found holds validated ih =>
    have known := planned _ _ found
    rw [← (wired _ _ known).1] at known
    exact ih (.object known)
  | @call scope value call outcome cancelled events halt comes =>
    cases served with
    | call serves =>
      rw [← List.singleton_append]
      exact .append (.evaluation (serves.supplied value outcome cancelled))
        (.append (.idle (Evaluation.isIdle_asides _)) (.idle comes.isIdle))
  | refusing refused taken ih => exact (ih served).append (.idle (by simp [Event.isIdle]))
  | next first rest ihFirst ihRest =>
    cases served with
    | sequence all =>
      rw [List.forall_mem_cons] at all
      exact (ihFirst all.1).append (ihRest (.sequence all.2))
  | stop stopped ih =>
    cases served with
    | sequence all => exact ih (List.forall_mem_cons.1 all).1

namespace Validator

variable {validator : Validator} {object : Object} {way : Way}

/-- The plans that a prepared validation goes by are those that the descriptions give. -/
theorem compile_of_planOf {cache : PlanCache} (sound : cache.Sound)
    (family : cache.Extends validator.cache) {pools : OutcomePools} {request : Request}
    {mayWait : Bool} {type : TypeKey} {plan : TypePlan}
    (known : (environment ⟨cache, pools⟩ request mayWait).planOf type = .ok plan) :
    validator.cache.compile type = .ok plan := by
  rw [← family.compile]
  simp only [environment] at known
  cases asked : cache.planFor type with
  | error error =>
    rw [asked] at known
    cases known
  | ok found =>
    rcases found with ⟨made, after⟩
    rw [asked] at known
    cases known
    exact PlanCache.compile_of_planFor sound asked

/-- In every answer services are provided: where an object is begun, those of its type's plan are asked
for, each once and in order, and if one cannot be had, its error is the answer; nothing else is asked
for; and every rule gets what it declares. What happens otherwise is the object's task, in which the
services of an object are asked for before anything is evaluated on it. -/
theorem answer_provides (reachable : validator.Reachable) (object : Object) (way : Way) :
    let verdict := validator.answer object way
    Provides (fun type plan => validator.cache.compile type = .ok plan ∧ plan.dependencies.Nodup)
      way.request.provider verdict.journal (Stop.of? verdict.result) ∧
    ((verdict.journal = [] ∧ ∃ stop, verdict.result = .error stop) ∨
      ∃ env plan halt, env.provider = way.request.provider ∧
        (∀ type plan, env.planOf type = .ok plan → validator.cache.compile type = .ok plan) ∧
        validator.cache.compile object.type = .ok plan ∧
        Task.Takes env (.object object plan way.request.context) verdict.journal halt ∧
        Stop.of? verdict.result = halt.map (way.stopped object.type)) := by
  intro verdict
  cases validator.answers object way with
  | refused prepared journal result =>
    have none : ∀ event ∈ verdict.journal, event.isIdle = true := by simp [verdict, journal]
    exact ⟨.idle none, .inl ⟨journal, _, result⟩⟩
  | @taken plan cache halt prepared heeds takes result =>
    obtain ⟨sound, family, kept⟩ := reachable.sound.prepare prepared
    have compiled := family.compile_of_get? sound (kept plan rfl)
    have wired {type : TypeKey} {plan : TypePlan}
        (compiled : validator.cache.compile type = .ok plan) : plan.type = type ∧ plan.Wired :=
      ⟨PlanCache.type_of_compile compiled, PlanCache.wired_of_compile compiled⟩
    refine ⟨?_, .inr ⟨_, plan, halt, rfl, fun _ _ => compile_of_planOf sound family, compiled,
      takes, result⟩⟩
    have provides : Provides
        (fun type plan => validator.cache.compile type = .ok plan ∧ plan.dependencies.Nodup)
        way.request.provider verdict.journal halt := by
      refine takes.provides ?_ (fun _ _ known => wired known.1) (.object ?_)
      · intro type plan known
        have compiled := compile_of_planOf sound family known
        exact ⟨compiled, (wired compiled).2.nodup⟩
      · rw [(wired compiled).1]
        exact ⟨compiled, (wired compiled).2.nodup⟩
    refine provides.replace fun error missing => ?_
    rw [result, missing]
    cases way <;> rfl

/-- A hook that declares a clock, and after it the outcome so far. -/
def clockHook : Rule where
  signature := { parameters := [{ type := "&Clock" }, { type := "Outcome" }], returns := "Message" }
  evaluate _ := { output := .nothing }

/-- A hook gets the clock that it declares, and no service for the other parameter. -/
theorem clock_provided :
    let provider : Provider := fun _ => .ok (.clock 7)
    let verdict := (sampled false [] clockHook).answer (.mk .sample []) (.waiting { provider })
    ∃ call input, .evaluation call input ∈ verdict.journal ∧ call.Supplied provider input ∧
      input.service? Payload.clock? 0 = some 7 ∧ input.service? Payload.clock? 1 = none := by
  intro provider verdict
  have evaluated : verdict.journal.any (Event.evaluates fun _ input =>
      input.service? Payload.clock? 0 == some 7 && input.service? Payload.clock? 1 == none) := by
    simp only [verdict]
    rw [answer, validate_sampled rfl]
    decide +kernel
  obtain ⟨call, input, member, holds⟩ := exists_evaluation evaluated
  rw [Bool.and_eq_true] at holds
  refine ⟨call, input, member, ?_, eq_of_beq holds.1, eq_of_beq holds.2⟩
  exact (answer_provides (reachable_sampled _ _ _) _ _).1.supplied call input member

end Validator

end Assay
