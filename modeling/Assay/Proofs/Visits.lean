/-
Module: Assay.Proofs.Visits
Purpose: The objects that are met in the course of a validation, each below the fields that lead to it
  and with the plan it is validated by. Everything that a task takes goes back to one of them: a rule is
  evaluated because a plan that is met has it, on the object it was met with and in a context of its
  own; an output is polled because such a plan has a call for which that is declared; and only a type
  that such a plan leads to can be without a plan.
Main exports: Visits, Context.below, Scope.Visits, Evaluated, Traced, Task.Placed, Task.Takes.traced
-/
import Assay.Proofs.Synchrony
import Assay.Proofs.Tasks

namespace Assay

/-- An object is met below the fields of these names in the validation of another one, and is validated
by that plan. -/
inductive Visits (planOf : TypeKey → Except CompileError TypePlan) (object : Object)
    (plan : TypePlan) : List String → Object → TypePlan → Prop where
  | start : Visits planOf object plan [] object plan
  | nested {names : List String} {outer child : Object} {above inner : TypePlan} {field : FieldPlan}
      {type : TypeKey} (met : Visits planOf object plan names outer above)
      (member : field ∈ above.fields) (nested : field.nested = some type)
      (planned : planOf type = .ok inner) (holds : outer.field field.name = .object child) :
    Visits planOf object plan (names ++ [field.name]) child inner

/-- The same objects are met where the same plans are found. -/
theorem Visits.mono {planOf other : TypeKey → Except CompileError TypePlan} {object target : Object}
    {plan inner : TypePlan} {names : List String} (met : Visits planOf object plan names target inner)
    (found : ∀ type plan, planOf type = .ok plan → other type = .ok plan) :
    Visits other object plan names target inner := by
  induction met with
  | start => exact .start
  | nested _ member nested planned holds ih => exact ih.nested member nested (found _ _ planned) holds

/-- The context of an object that is met below these fields and goes by that name of its type. -/
def Context.below (base : Context) (names : List String) (type : String) : Context :=
  { base with typeName := some type, path := base.path ++ names }

theorem Context.below_nil (base : Context) (type : String) :
    base.below [] type = base.enterType type := by
  rw [below, enterType, List.append_nil]

theorem Context.enterType_below (base : Context) (names : List String) (outer inner field : String) :
    ((base.below names outer).enterField field).enterType inner =
      base.below (names ++ [field]) inner := by
  rw [below, below, enterField, enterType, List.append_assoc]

/-- The surroundings of the calls on an object that is met. -/
structure Scope.Visits (planOf : TypeKey → Except CompileError TypePlan) (object : Object)
    (plan : TypePlan) (base : Context) (names : List String) (inner : TypePlan) (scope : Scope) : Prop where
  met : Assay.Visits planOf object plan names scope.target inner
  context : scope.context = base.below names inner.name

section

variable (planOf : TypeKey → Except CompileError TypePlan) (object : Object) (plan : TypePlan)
  (base : Context)

/-- A call is evaluated for an object that is met: as a hook on the object itself, or on the value of a
field that has it. -/
inductive Evaluated (call : PlannedCall) : Call → Prop where
  | hook {scope : Scope} {names : List String} {inner : TypePlan}
      (visits : scope.Visits planOf object plan base names inner) (member : call ∈ inner.hooks)
      (outcome : Outcome) (cancelled : Bool) :
    Evaluated call (scope.input (.object scope.target) outcome call cancelled)
  | field {scope : Scope} {names : List String} {inner : TypePlan} {field : FieldPlan}
      (visits : scope.Visits planOf object plan base names inner) (declared : field ∈ inner.fields)
      (member : call ∈ field.calls) (outcome : Outcome) (cancelled : Bool) :
    Evaluated call
      ((scope.inside field).input (scope.target.field field.name) outcome call cancelled)

/-- A plan that is met has a call whose output may have to be waited for. -/
def Delays : Prop :=
  ∃ names target inner, Visits planOf object plan names target inner ∧
    ∃ call ∈ inner.calls, call.shape.delivery ≠ .immediate

/-- What a validation can be stopped by: its token, a service that cannot be had, an output that a plan
that is met has a call for, or a type without a plan that such a plan leads to. -/
inductive Halts : Stop → Prop where
  | cancelled : Halts (.error .cancelled)
  | configuration (error : ResolveError) : Halts (.error (.configuration error))
  | waiting (delays : Delays planOf object plan) : Halts .waiting
  | compile {names : List String} {target : Object} {inner : TypePlan} {type : TypeKey}
      {error : CompileError} (met : Visits planOf object plan names target inner)
      (leads : type ∈ inner.nestedTypes) (failed : planOf type = .error error) :
    Halts (.error (.compile error))

/-- These events and that stop go back to plans that are met. -/
structure Traced (events : List Event) (halt : Option Stop) : Prop where
  evaluated : ∀ call input, .evaluation call input ∈ events →
    Evaluated planOf object plan base call input
  polled : ∀ cancelled, .checkpoint .poll cancelled ∈ events → Delays planOf object plan
  halts : ∀ stop, halt = some stop → Halts planOf object plan stop

/-- A task that there is to do for an object that is met. -/
inductive Task.Placed : Task → Prop where
  | object {names : List String} {target : Object} {inner : TypePlan} {context : Context}
      (met : Visits planOf object plan names target inner)
      (enters : context.enterType inner.name = base.below names inner.name) :
    Placed (.object target inner context)
  | field {scope : Scope} {names : List String} {inner : TypePlan} {strict : Bool} {field : FieldPlan}
      (visits : scope.Visits planOf object plan base names inner) (declared : field ∈ inner.fields) :
    Placed (.field scope strict field)
  | held {scope : Scope} {names : List String} {inner : TypePlan} {field : FieldPlan}
      (visits : scope.Visits planOf object plan base names inner) (declared : field ∈ inner.fields) :
    Placed (.held (scope.inside field) field)
  | hook {scope : Scope} {names : List String} {inner : TypePlan} {call : PlannedCall}
      (visits : scope.Visits planOf object plan base names inner) (member : call ∈ inner.hooks) :
    Placed (.call scope (.object scope.target) call)
  | call {scope : Scope} {names : List String} {inner : TypePlan} {field : FieldPlan}
      {call : PlannedCall} (visits : scope.Visits planOf object plan base names inner)
      (declared : field ∈ inner.fields) (member : call ∈ field.calls) :
    Placed (.call (scope.inside field) (scope.target.field field.name) call)
  | sequence {strict : Bool} {tasks : List Task} (all : ∀ task ∈ tasks, Placed task) :
    Placed (.sequence strict tasks)

end

variable {planOf : TypeKey → Except CompileError TypePlan} {object : Object} {plan inner : TypePlan}
  {base : Context} {scope : Scope} {names : List String} {events more : List Event} {halt : Option Stop}

/-! ### What goes back to nothing -/

/-- Whether an event goes back to a call: a rule is evaluated, or an output is polled. -/
def Event.isCalled : Event → Bool
  | .evaluation _ _ | .checkpoint .poll _ => true
  | _ => false

/-- An object is begun without a call. -/
theorem Event.isCalled_of_begin (type : TypeKey) (dependencies : List Dependency) :
    ∀ event ∈ .checkpoint (.object type) false :: dependencies.map .lookup,
      Event.isCalled event = false :=
  List.forall_mem_cons.2 ⟨rfl, List.forall_mem_map.2 fun _ _ => rfl⟩

namespace Traced

/-- Where no call is made, only the stop has to be traced. -/
theorem stopped {stop : Stop} (uncalled : ∀ event ∈ events, event.isCalled = false)
    (halts : Halts planOf object plan stop) : Traced planOf object plan base events (some stop) where
  evaluated call input member := by cases uncalled _ member
  polled cancelled member := by cases uncalled _ member
  halts other same := Option.some.inj same ▸ halts

theorem quiet (uncalled : ∀ event ∈ events, event.isCalled = false) :
    Traced planOf object plan base events none where
  evaluated call input member := by cases uncalled _ member
  polled cancelled member := by cases uncalled _ member
  halts stop same := by cases same

/-- What follows without a stop in between is traced part by part. -/
theorem append (first : Traced planOf object plan base events none)
    (second : Traced planOf object plan base more halt) :
    Traced planOf object plan base (events ++ more) halt where
  evaluated call input member :=
    (List.mem_append.1 member).elim (first.evaluated call input) (second.evaluated call input)
  polled cancelled member :=
    (List.mem_append.1 member).elim (first.polled cancelled) (second.polled cancelled)
  halts := second.halts

end Traced

/-! ### Tasks -/

namespace Scope.Visits

variable {strict : Bool} {field : FieldPlan}

theorem mem_calls_of_field {call : PlannedCall} (declared : field ∈ inner.fields)
    (member : call ∈ field.calls) : call ∈ inner.calls :=
  List.mem_append_right _ (List.mem_flatMap.2 ⟨field, declared, member⟩)

/-- What there is to do on a field is placed at the field. -/
theorem placed_field_tasks (visits : scope.Visits planOf object plan base names inner)
    (declared : field ∈ inner.fields) :
    Task.Placed planOf object plan base (.sequence strict (field.tasks (scope.inside field))) := by
  refine .sequence fun task member => ?_
  rcases List.mem_append.1 member with grouped | last
  · obtain ⟨group, inside, rfl⟩ := List.mem_map.1 grouped
    refine .sequence fun task member => ?_
    obtain ⟨call, present, rfl⟩ := List.mem_map.1 member
    exact .call visits declared (List.mem_flatten.2 ⟨group, inside, present⟩)
  · rw [List.mem_singleton.1 last]
    exact .held visits declared

/-- What there is to do on an object is placed at the object. -/
theorem placed_plan_tasks (visits : scope.Visits planOf object plan base names inner) :
    Task.Placed planOf object plan base (.sequence strict (inner.tasks scope)) := by
  refine .sequence fun task member => ?_
  rcases List.mem_append.1 member with early | member
  · obtain ⟨call, present, rfl⟩ := List.mem_map.1 early
    exact .hook visits (List.mem_append_left _ present)
  rcases List.mem_append.1 member with middle | late
  · obtain ⟨field, present, rfl⟩ := List.mem_map.1 middle
    exact .field visits present
  · obtain ⟨call, present, rfl⟩ := List.mem_map.1 late
    exact .hook visits (List.mem_append_right _ present)

end Scope.Visits

/-- The polls of an output are polls and nothing else. -/
theorem Polled.not_evaluation {items : List StreamItem} (polled : Polled items events halt)
    (call : PlannedCall) (input : Call) : .evaluation call input ∉ events := by
  induction polled with
  | forbidden => simp
  | last cancels => simp
  | again cancels pauses rest ih => simpa using ih
  | vain cancels waits => simp
  | freed cancels => simp

/-- Polls are stopped by the token or by waiting. -/
theorem Polled.halts {items : List StreamItem} (polled : Polled items events halt) :
    ∀ stop, halt = some stop → stop = .error .cancelled ∨ stop = .waiting := by
  induction polled with
  | forbidden | last | vain | freed => simp
  | again cancels pauses rest ih => exact ih

/-- An output that is polled belongs to a call for which that is declared. -/
theorem traced_of_comes {call : PlannedCall} {output : RuleOutput}
    (member : ∃ names target inner,
      Visits planOf object plan names target inner ∧ call ∈ inner.calls)
    (comes : Comes call.shape output events halt) : Traced planOf object plan base events halt := by
  obtain ⟨names, target, inner, met, member⟩ := member
  have delays (delayed : call.shape.delivery ≠ .immediate) : Delays planOf object plan :=
    ⟨names, target, inner, met, call, member, delayed⟩
  have polls {items : List StreamItem} (delayed : call.shape.delivery ≠ .immediate)
      (polled : Polled items events halt) : Traced planOf object plan base events halt := by
    constructor
    case evaluated => exact fun call input member => absurd member (polled.not_evaluation call input)
    case polled => exact fun _ _ => delays delayed
    case halts =>
      intro stop same
      rcases polled.halts stop same with rfl | rfl
      · exact .cancelled
      · exact .waiting (delays delayed)
  cases comes with
  | there => exact .quiet (by simp)
  | pending delayed polled => exact polls delayed polled
  | streaming delayed polled => exact polls delayed polled

/-- What a call takes goes back to the plan that has the call. -/
theorem traced_call {value : Value} {call : PlannedCall} {outcome : Outcome} {cancelled : Bool}
    (member : ∃ names target inner,
      Visits planOf object plan names target inner ∧ call ∈ inner.calls)
    (evaluated : Evaluated planOf object plan base call (scope.input value outcome call cancelled))
    (comes : Comes call.shape
      (call.rule.evaluate (scope.input value outcome call cancelled)).output events halt) :
    Traced planOf object plan base
      (.evaluation call (scope.input value outcome call cancelled) ::
        ((call.rule.evaluate (scope.input value outcome call cancelled)).asides ++ events)) halt := by
  rw [← List.singleton_append]
  refine .append ?_ (.append ?_ (traced_of_comes member comes))
  · constructor
    case evaluated =>
      intro other input present
      cases List.mem_singleton.1 present
      exact evaluated
    all_goals simp
  · refine .quiet fun event present => ?_
    rcases Evaluation.mem_asides present with ⟨note, rfl⟩ | rfl <;> rfl

/-- What a task takes that is placed at an object goes back to it, or to one that is met below it. -/
theorem Task.Takes.traced {env : Environment} {task : Task} (taken : Takes env task events halt)
    (placed : Placed env.planOf object plan base task) :
    Traced env.planOf object plan base events halt := by
  induction taken with
  | forbidden | forbiddenField => exact .stopped (by simp [Event.isCalled]) .cancelled
  | vacant | done | leave => exact .quiet (by simp)
  | unprovided dependencies provided failed =>
    exact .stopped (Event.isCalled_of_begin _ _) (.configuration _)
  | @object target inner context services events halt provided contents ih =>
    cases placed with
    | object met enters =>
      have begins : Traced env.planOf object plan base
          (.checkpoint (.object inner.type) false :: inner.dependencies.map .lookup) none :=
        .quiet (Event.isCalled_of_begin _ _)
      exact begins.append (ih (Scope.Visits.placed_plan_tasks ⟨met, enters⟩))
  | @unplanned scope strict field type error nested failed =>
    cases placed with
    | field visits declared =>
      have leads : type ∈ _ := List.mem_filterMap.2 ⟨field, declared, nested⟩
      exact .stopped (by simp [Event.isCalled]) (.compile visits.met leads failed)
  | @field scope strict field events halt contents ih =>
    cases placed with
    | field visits declared =>
      rw [← List.singleton_append]
      exact .append (.quiet (by simp [Event.isCalled])) (ih (visits.placed_field_tasks declared))
  | @held scope field type inner child events halt nested planned holds validated ih =>
    cases placed with
    | held visits declared =>
      refine ih (.object (visits.met.nested declared nested planned holds) ?_)
      rw [Scope.inside, visits.context, Context.enterType_below]
  | @call scope value call outcome cancelled events halt comes =>
    cases placed with
    | hook visits member =>
      have placed := Evaluated.hook visits member outcome cancelled
      exact traced_call ⟨_, _, _, visits.met, List.mem_append_left _ member⟩ placed comes
    | call visits declared member =>
      have placed := Evaluated.field visits declared member outcome cancelled
      have known := Scope.Visits.mem_calls_of_field declared member
      exact traced_call ⟨_, _, _, visits.met, known⟩ placed comes
  | refusing refused taken ih => exact (ih placed).append (.quiet (by simp [Event.isCalled]))
  | next first rest ihFirst ihRest =>
    cases placed with
    | sequence all =>
      rw [List.forall_mem_cons] at all
      exact (ihFirst all.1).append (ihRest (.sequence all.2))
  | stop stopped ih =>
    cases placed with
    | sequence all => exact ih (List.forall_mem_cons.1 all).1

/-- What the validation of an object takes goes back to the objects that are met in it. -/
theorem Task.Takes.traced_object {env : Environment}
    (taken : Takes env (.object object plan base) events halt) :
    Traced env.planOf object plan base events halt :=
  taken.traced (.object .start (base.below_nil plan.name).symm)

end Assay
