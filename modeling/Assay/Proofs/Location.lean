/-
Module: Assay.Proofs.Location
Purpose: What a rule can tell about where it is evaluated, against where it is evaluated. In whichever
  way an object is validated, the context of an evaluation has the path of the fields that lead to the
  value, the name of the type whose plan has the rule, and the values that the caller attached. Where the
  validation has an outcome, what came of the field is labelled in it with the path that its rules saw.
Main exports: Context.ofValues, Context.Sees, Validator.Located, Validator.answer_located
-/
import Assay.Proofs.Meetings
import Assay.Proofs.Provision
import Assay.Proofs.Sites

namespace Assay

/-! ### Contexts -/

namespace Context

/-- The context of a caller who attaches these values one after the other. -/
def ofValues (attached : List (String × Payload)) : Context :=
  attached.foldl (fun context entry => context.attach entry.1 entry.2) {}

theorem value?_attach (context : Context) (name other : String) (value : Payload) :
    (context.attach name value).value? other =
      if other = name then some value else context.value? other :=
  Entries.lookup_set name other value context.values

/-- Of the values that are attached under a name the last one is found. -/
theorem value?_ofValues (attached : List (String × Payload)) (name : String) :
    (ofValues attached).value? name = attached.reverse.lookup name := by
  rw [ofValues, ← List.foldr_reverse]
  generalize attached.reverse = latest
  induction latest with
  | nil => rfl
  | cons entry latest ih =>
    rw [List.foldr_cons, value?_attach, ih, List.lookup_cons]
    by_cases same : name = entry.1 <;> simp [same, beq_eq_false_iff_ne.2]

/-- Attaching values does not move a context. -/
theorem path_ofValues (attached : List (String × Payload)) : (ofValues attached).path = [] := by
  rw [ofValues, ← List.foldr_reverse]
  induction attached.reverse with
  | nil => rfl
  | cons entry latest ih => exact ih

/-- A context shows the path along these fields, that name of the type, and the values that were
attached. -/
structure Sees (context : Context) (path : List String) (type : String)
    (attached : List (String × Payload)) : Prop where
  path : context.fieldPath = ".".intercalate path
  type : context.typeName = some type
  values : ∀ name, context.value? name = attached.reverse.lookup name

end Context

namespace Scope.Visits

variable {planOf : TypeKey → Except CompileError TypePlan} {object : Object} {plan inner : TypePlan}
  {attached : List (String × Payload)} {names : List String} {scope : Scope}
  (visits : scope.Visits planOf object plan (.ofValues attached) names inner)

include visits

/-- The calls on an object see the fields that it is met below. -/
theorem sees : scope.context.Sees names inner.name attached := by
  rw [visits.context]
  constructor
  case path => rw [Context.fieldPath, Context.below, Context.path_ofValues, List.nil_append]
  case type => rfl
  case values => exact Context.value?_ofValues attached

/-- The calls on a field see its name as well. -/
theorem sees_inside (field : FieldPlan) :
    (scope.inside field).context.Sees (names ++ [field.name]) inner.name attached := by
  have outside := visits.context
  have path : scope.context.path = names := by
    rw [outside, Context.below, Context.path_ofValues, List.nil_append]
  constructor
  case path => rw [Scope.inside, Context.fieldPath, Context.enterField, path]
  case type => exact visits.sees.type
  case values => exact visits.sees.values

end Scope.Visits

/-! ### Fields -/

/-- A call is evaluated in a step in which a field of an object is validated. What came of that step is
labelled, beneath the fields of these names, with the path that the call saw, with its messages left
alone; and it is in the tree of this outcome, or it was dropped. -/
inductive Labelled (rooms : Rooms) (env : Environment) (target : Object) (strict : Bool)
    (names : List String) (field : FieldPlan) (outcome : Outcome) (before : List Event)
    (call : PlannedCall) (input : Call) (later : List Event) : Prop where
  | intro {scope : Scope} {own : FieldOutcome} {early late : List Event}
      (on : scope.target = target) (within : input.context = (scope.inside field).context)
      (validates : Validates rooms env scope strict field (early ++ .evaluation call input :: late)
        own)
      (starts : early <:+ before) (ends : late <+: later)
      (label : (own.beneath names).path = input.context.fieldPath)
      (messages : (own.beneath names).outcome.messages = own.outcome.messages)
      (shown : own.Shown names outcome.fields.items (before ++ .evaluation call input :: later))

namespace Validator

variable {validator : Validator} {object : Object} {way : Way}

/-- A call is evaluated on an object that is met below the fields of these names and whose plan has the
call, as a hook or for one of its fields. The context says so, and if the validation has an outcome, what
came of the field is labelled accordingly. -/
inductive Located (validator : Validator) (env : Environment) (object : Object)
    (attached : List (String × Payload)) (result : Except Stop Outcome) (before : List Event)
    (call : PlannedCall) (input : Call) (later : List Event) : Prop where
  | hook {plan inner : TypePlan} {names : List String} {target : Object} {type : TypeKey}
      (compiled : validator.cache.compile object.type = .ok plan)
      (met : Visits validator.cache.compile object plan names target inner)
      (known : validator.cache.compile type = .ok inner) (member : call ∈ inner.hooks)
      (value : input.value = .object target)
      (sees : input.context.Sees names (validator.cache.schema.describe type).name attached)
  | field {plan inner : TypePlan} {names : List String} {target : Object} {type : TypeKey}
      {field : FieldPlan} (compiled : validator.cache.compile object.type = .ok plan)
      (met : Visits validator.cache.compile object plan names target inner)
      (known : validator.cache.compile type = .ok inner) (declared : field ∈ inner.fields)
      (member : call ∈ field.calls) (value : input.value = target.field field.name)
      (sees : input.context.Sees (names ++ [field.name]) (validator.cache.schema.describe type).name
        attached)
      (labelled : ∀ outcome, result = .ok outcome →
        Labelled validator.pools.rooms env target inner.failFast names field outcome before call input
          later)

/-- The outcome of a validation accounts for what was evaluated. -/
theorem run_accounts (validator : Validator) (sound : validator.pools.Sound) {plan : TypePlan}
    {request : Request} {mayWait : Bool} {outcome : Outcome}
    (ended : (validator.run plan object request mayWait).result = .ok outcome) :
    Accounts validator.pools.rooms (validator.environment request mayWait) object plan request.context []
      outcome.fields.items (validator.run plan object request mayWait).journal := by
  have yields : (validator.start request).pools.Yields validator.pools.rooms := sound.yields
  have accounts := object.accounts_run_start validator.pools.rooms
    (validator.environment request mayWait) plan request.context
  obtain ⟨events, led, accounted⟩ := accounts _ outcome _ yields (Prod.ext ended rfl)
  have journal : (validator.run plan object request mayWait).journal = events := led.journal
  rw [journal]
  exact accounted

section

variable {cache : PlanCache} {plan : TypePlan} {request : Request} {mayWait : Bool}
  {attached : List (String × Payload)} {before later : List Event} {call : PlannedCall} {input : Call}
  {result : Except Stop Outcome} (sound : cache.Sound) (family : cache.Extends validator.cache)
  (kept : cache.get? object.type = some plan)

include sound family kept

/-- The plans of the objects that are met are those that the descriptions of their types give. -/
theorem compiled_of_visits {names : List String} {target : Object} {inner : TypePlan}
    (met : Visits (environment ⟨cache, validator.pools⟩ request mayWait).planOf object plan names target
      inner) :
    validator.cache.compile object.type = .ok plan ∧
      Visits validator.cache.compile object plan names target inner ∧
        ∃ type, validator.cache.compile type = .ok inner ∧
          inner.name = (validator.cache.schema.describe type).name := by
  obtain ⟨type, _, known⟩ := kept_of_visits sound kept met
  have compiledInner := family.compile_of_get? sound known
  have found := met.mono fun type plan planned => compile_of_planOf sound family planned
  exact ⟨family.compile_of_get? sound kept, found, type, compiledInner,
    PlanCache.name_of_compile compiledInner⟩

variable (started : request.context = .ofValues attached)

include started

/-- Where a validation has no outcome, there is nothing to label. -/
theorem located_of_evaluated
    (evaluated : Evaluated (environment ⟨cache, validator.pools⟩ request mayWait).planOf object plan
      request.context call input) (stopped : ∀ outcome, result ≠ .ok outcome) :
    validator.Located (environment ⟨cache, validator.pools⟩ request mayWait) object attached result before
      call input later := by
  rw [started] at evaluated
  cases evaluated with
  | hook visits member outcome cancelled =>
    obtain ⟨compiled, met, type, known, name⟩ := compiled_of_visits sound family kept visits.met
    have sees := name ▸ visits.sees
    exact .hook compiled met known member rfl sees
  | @field scope names inner field visits declared member outcome cancelled =>
    obtain ⟨compiled, met, type, known, name⟩ := compiled_of_visits sound family kept visits.met
    have sees := name ▸ visits.sees_inside field
    exact .field compiled met known declared member rfl sees fun outcome ended =>
      absurd ended (stopped outcome)

/-- What is shown beneath the fields that lead to an object is labelled with the path that its rules
see. -/
theorem located_of_sited {outcome : Outcome}
    (sited : Sited validator.pools.rooms (environment ⟨cache, validator.pools⟩ request mayWait) object
      plan request.context [] outcome.fields.items (before ++ .evaluation call input :: later) before call
      input later)
    (ended : result = .ok outcome) :
    validator.Located (environment ⟨cache, validator.pools⟩ request mayWait) object attached result before
      call input later := by
  rw [started] at sited
  cases sited with
  | hook visits member made =>
    obtain ⟨compiled, met, type, known, name⟩ := compiled_of_visits sound family kept visits.met
    have sees := name ▸ visits.sees
    subst made
    exact .hook compiled met known member rfl sees
  | @field names scope inner field seen cancelled own early late visits declared member made validates
      starts ends shown =>
    obtain ⟨compiled, met, type, known, name⟩ := compiled_of_visits sound family kept visits.met
    have sees := name ▸ visits.sees_inside field
    have label : (own.beneath names).path = (scope.inside field).context.fieldPath := by
      rw [FieldOutcome.path_beneath, validates.path_eq]
      exact sees.path.symm
    subst made
    refine .field compiled met known declared member rfl sees fun other same => ?_
    rw [ended] at same
    cases same
    exact .intro rfl rfl validates starts ends label (own.messages_beneath names) shown

/-- Wherever a rule is evaluated in a validation whose plan is kept, its context says where that is,
whatever a stop is reported as. -/
theorem located_of_run (pools : validator.pools.Sound) (change : Stop → Stop)
    (split : (Validator.run ⟨cache, validator.pools⟩ plan object request mayWait).journal =
      before ++ .evaluation call input :: later) :
    validator.Located (environment ⟨cache, validator.pools⟩ request mayWait) object attached
      ((Validator.run ⟨cache, validator.pools⟩ plan object request mayWait).result.mapError change)
      before call input later := by
  cases ended : (Validator.run ⟨cache, validator.pools⟩ plan object request mayWait).result with
  | error stop =>
    have traced := run_traced ⟨cache, validator.pools⟩ plan object request mayWait
    have evaluated := traced.evaluated call input (by simp [split])
    apply located_of_evaluated sound family kept started evaluated
    intro outcome success
    cases mapError_eq_ok.1 success
  | ok outcome =>
    have accounts := run_accounts ⟨cache, validator.pools⟩ pools ended
    have sited := accounts before call input later split
    rw [split] at sited
    exact located_of_sited sound family kept started sited rfl

end

/-- Wherever a rule is evaluated, its context says where that is: the path leads along the fields below
which the object is met and to the rule's own field, the type is the one whose plan has the rule, and
every value that the caller attached is there, unchanged. If there is an outcome, what came of the field
is labelled with the same path in it, unless it was dropped for want of room. -/
theorem answer_located (reachable : validator.Reachable) (object : Object) (way : Way)
    {attached : List (String × Payload)} (started : way.request.context = .ofValues attached) :
    let verdict := validator.answer object way
    let env := environment ⟨(validator.prepare object.type way).2, validator.pools⟩ way.request
      way.mayWait
    ∀ before call input later, verdict.journal = before ++ .evaluation call input :: later →
      validator.Located env object attached verdict.result before call input later := by
  intro verdict env before call input later split
  have same : verdict = _ := answer_eq validator object way
  rcases prepared : validator.prepare object.type way with ⟨found, cache⟩
  obtain ⟨sound, family, kept⟩ := reachable.sound.prepare prepared
  have served : env = environment ⟨cache, validator.pools⟩ way.request way.mayWait := by
    simp only [env, prepared]
  simp only [prepared] at same
  rw [served]
  rw [same] at split ⊢
  cases found with
  | error stop => simp at split
  | ok plan => exact located_of_run sound family (kept plan rfl) started reachable.sound.pools _ split

/-- A validator of a type whose objects may hold another one, and have a field whose routine refuses. -/
def linked : Validator :=
  let descriptor : TypeDescriptor := {
    name := "Sample"
    fields := [.ofNested "next" .sample, { declaredField with custom := true }]
    routines := [{ name := "validate_declared", rule := .refuses }] }
  .ofOptions ⟨[(.sample, descriptor)]⟩ ∅ {}

/-- The routine for the field of an object that is held by another one is located there, and the
outcome has what came of it under that path. -/
theorem linked_located :
    let attached := [("limit", Payload.integer 3)]
    let request : Request := { context := .ofValues attached }
    let object : Object := .mk .sample [("next", .object (.mk .sample []))]
    let verdict := linked.answer object (.waiting request)
    let env := environment ⟨(linked.prepare object.type (.waiting request)).2, linked.pools⟩ request true
    ∃ before call input later outcome,
      verdict.journal = before ++ .evaluation call input :: later ∧
        input.context.fieldPath = "next.declared" ∧ input.context.typeName = some "Sample" ∧
          input.context.value? "limit" = some (.integer 3) ∧ verdict.result = .ok outcome ∧
            (outcome.field? "next.declared").isSome ∧
              linked.Located env object attached verdict.result before call input later := by
  intro attached request object verdict env
  have reachable : linked.Reachable := .fresh _ _ _ _ _
  have alone : ∀ nested ∈ linked.cache.schema.nestedTypes object.type, nested = object.type := by
    decide +kernel
  have evaluated : verdict.journal.any (Event.evaluates fun _ input =>
      input.context.fieldPath == "next.declared" && (input.context.typeName == some "Sample" &&
        input.context.value? "limit" == some (.integer 3))) := by
    simp only [verdict]
    rw [answer, validate_of_alone rfl alone]
    decide +kernel
  have labelled : verdict.result.toOption.any
      (fun outcome => (outcome.field? "next.declared").isSome) = true := by
    simp only [verdict]
    rw [answer, validate_of_alone rfl alone]
    decide +kernel
  obtain ⟨call, input, member, sees⟩ := exists_evaluation evaluated
  rw [Bool.and_eq_true, Bool.and_eq_true] at sees
  obtain ⟨before, later, split⟩ := List.append_of_mem member
  have located := answer_located reachable object (.waiting request) rfl before call input later split
  cases returned : verdict.result with
  | error stop =>
    rw [returned] at labelled
    cases labelled
  | ok outcome =>
    rw [returned] at labelled
    exact ⟨before, call, input, later, outcome, split, eq_of_beq sees.1, eq_of_beq sees.2.1,
      eq_of_beq sees.2.2, rfl, labelled, returned ▸ located⟩

end Validator

end Assay
