/-
Module: Assay.Proofs.Findings
Purpose: What is found of an object by plans without hooks whose rules decide by the value alone: for
  each field an outcome that depends on the field's plan and its value, and on nothing else of the
  object. The findings are computed without pools, tokens or surroundings; a validation that ends has
  found them, and one with which nothing interferes ends.
Main exports: Rule.Decides, Object.found, FieldPlan.content, TypePlan.Fieldwise, Object.finds_run,
  Validator.eq_found_of_answer, Validator.validate_ends
-/
import Assay.Proofs.Meaning

namespace Assay

/-- A rule decides by the value, and by the type of the object around it: on calls that agree in these it
gives the same output, whatever the other fields, the services, the context, the token and the outcome
so far are. -/
def Rule.Decides (rule : Rule) : Prop :=
  ∀ one two : Call, one.value = two.value → one.target.type = two.target.type →
    (rule.evaluate one).output = (rule.evaluate two).output

/-- A rule that looks at the value only decides by it. -/
theorem Rule.decides_ofValue (returns : String) (check : Value → RuleOutput) :
    (Rule.ofValue returns check).Decides :=
  fun _ _ value _ => congrArg check value

/-- What the rule of a call that decides by the value says of a value in an object of that type. -/
def PlannedCall.answer (call : PlannedCall) (type : TypeKey) (value : Value) : RuleOutput :=
  (call.rule.evaluate { (default : Call) with value, target := .mk type [] }).output

/-! ### Adding outputs -/

namespace RuleOutput

/-- An outcome after an output that is there was added to it, as far as it was declared. -/
def foldedInto (rooms : Rooms) (declared : Contribution) (into : Outcome) : RuleOutput → Outcome
  | .message finding => if declared = .message then into.addMessages finding.toList else into
  | .messages findings => if declared = .messages then into.addMessages findings else into
  | .outcome draft =>
    if declared = .outcome then (into.absorb (rooms.build draft) none).into else into
  | .nothing | .pending _ _ | .streaming _ => into

/-- An outcome after an output was added to it for a rule of that return shape, once it was there. -/
def receivedInto (rooms : Rooms) (shape : ReturnShape) (into : Outcome) (output : RuleOutput) :
    Outcome :=
  if shape.delivery = .immediate then output.foldedInto rooms shape.contribution into
  else match output with
    | .pending _ result => result.foldedInto rooms shape.contribution into
    | .streaming items =>
      into.addMessages
        (if shape.contribution != .nothing then items.filterMap StreamItem.message? else [])
    | ready => ready.foldedInto rooms shape.contribution into

end RuleOutput

/-! ### Findings -/

namespace FieldPlan

/-- An outcome after the calls of a field on a value. -/
def called (rooms : Rooms) (type : TypeKey) (value : Value) (calls : List PlannedCall)
    (into : Outcome) : Outcome :=
  calls.foldl (fun into call => (call.answer type value).receivedInto rooms call.shape into) into

theorem called_append (rooms : Rooms) (type : TypeKey) (value : Value)
    (first second : List PlannedCall) (into : Outcome) :
    called rooms type value (first ++ second) into =
      called rooms type value second (called rooms type value first into) :=
  List.foldl_append

/-- The plan for the object that a field holds. -/
def inner? (planOf : TypeKey → Except CompileError TypePlan) (field : FieldPlan) : Option TypePlan :=
  field.nested.bind fun type => (planOf type).toOption

theorem inner?_eq_some {planOf : TypeKey → Except CompileError TypePlan} {field : FieldPlan}
    {inner : TypePlan} (found : field.inner? planOf = some inner) :
    ∃ type, field.nested = some type ∧ planOf type = .ok inner := by
  obtain ⟨type, nested, planned⟩ := Option.bind_eq_some_iff.1 found
  refine ⟨type, nested, ?_⟩
  cases known : planOf type with
  | error error => simp [known, Except.toOption] at planned
  | ok plan => simpa [known, Except.toOption] using planned

/-- The outcome of a field after its own calls, with room for what is found of the object that it
holds. -/
def own (rooms : Rooms) (planOf : TypeKey → Except CompileError TypePlan) (type : TypeKey)
    (value : Value) (field : FieldPlan) : Outcome :=
  let room := ((field.inner? planOf).map (·.fields.length)).getD field.childCapacity
  called rooms type value field.calls (rooms.field room)

end FieldPlan

/-- What is found of an object by a plan, if nothing comes of the hooks and the rules decide by the
value. -/
def Object.found (rooms : Rooms) (planOf : TypeKey → Except CompileError TypePlan) (object : Object)
    (plan : TypePlan) : Outcome :=
  rooms.reported plan.fields.length [] (plan.fields.map fun field =>
    let own := field.own rooms planOf object.type (object.field field.name)
    ⟨field.name,
      match field.inner? planOf, _held : object.field field.name with
      | some inner, .object child => (own.absorb (child.found rooms planOf inner) field.name).into
      | _, _ => own⟩)
termination_by sizeOf object
decreasing_by exact Object.sizeOf_lt_of_field_eq_object _held

/-- What is found of a field with that value, in an object of that type. -/
def FieldPlan.content (rooms : Rooms) (planOf : TypeKey → Except CompileError TypePlan)
    (type : TypeKey) (value : Value) (field : FieldPlan) : Outcome :=
  match field.inner? planOf, value with
  | some inner, .object child =>
    ((field.own rooms planOf type value).absorb (child.found rooms planOf inner) field.name).into
  | _, _ => field.own rooms planOf type value

/-- The findings on an object are those on its fields. -/
theorem Object.found_eq (rooms : Rooms) (planOf : TypeKey → Except CompileError TypePlan)
    (object : Object) (plan : TypePlan) :
    object.found rooms planOf plan =
      rooms.reported plan.fields.length [] (plan.fields.map fun field =>
        ⟨field.name, field.content rooms planOf object.type (object.field field.name)⟩) := by
  rw [Object.found]
  congr 1
  refine List.map_congr_left fun field _ => ?_
  simp only [FieldPlan.content, FieldOutcome.mk.injEq, true_and]
  split <;> split <;> simp_all

/-- A plan by which fields are validated one by one: without hooks and services, to the end, and by
rules that decide by the value. -/
structure TypePlan.Fieldwise (plan : TypePlan) : Prop where
  before : plan.before = none
  after : plan.after = none
  lenient : plan.failFast = false
  alone : plan.dependencies = []
  decides : ∀ field ∈ plan.fields, ∀ call ∈ field.calls, call.rule.Decides

/-- All types that a type leads to have such plans. -/
def PlanCache.Fieldwise (cache : PlanCache) (type : TypeKey) : Prop :=
  ∀ reached, cache.schema.LeadsTo type reached →
    ∃ plan, cache.compile reached = .ok plan ∧ plan.Fieldwise

namespace Run

variable {rooms : Rooms} {env : Environment} {α β : Type}

/-! ### Finding -/

/-- A part of a validation finds what `post` says whenever it ends, and where outputs may be waited for
it ends if nothing gets in its way. -/
structure Finds (rooms : Rooms) (env : Environment) (action : Run α) (post : α → Prop) : Prop where
  regular : Regular rooms action
  tracks : Tracks rooms action fun value _ => post value
  delivers : env.mayWait = true → Delivers rooms env.provider action post

namespace Finds

variable {action : Run α} {next : α → Run β} {post : α → Prop} {postNext : β → Prop}

theorem intro (regular : Regular rooms action) (tracks : Tracks rooms action fun value _ => post value)
    (ends : env.mayWait = true → Delivers rooms env.provider action fun _ => True) :
    Finds rooms env action post :=
  ⟨regular, tracks, fun mayWait => (ends mayWait).tracked tracks⟩

theorem pure {value : α} (holds : post value) : Finds rooms env (Pure.pure value) post :=
  ⟨.pure value, .pure holds, fun _ => .pure holds⟩

theorem bind {mid : α → Prop} (first : Finds rooms env action mid)
    (regular : ∀ value, Regular rooms (next value))
    (second : ∀ value, mid value → Finds rooms env (next value) postNext) :
    Finds rooms env (action >>= next) postNext where
  regular := first.regular.bind regular
  tracks := first.tracks.bind fun value _ holds => (second value holds).tracks
  delivers mayWait := (first.delivers mayWait).bind first.regular regular
    fun value holds => (second value holds).delivers mayWait

theorem holding (finds : Finds rooms env action post) (outcome : Outcome) :
    Finds rooms env (Run.holding outcome action) post where
  regular := finds.regular.holding outcome
  tracks := finds.tracks.holding outcome
  delivers mayWait := (finds.delivers mayWait).holding finds.regular outcome

theorem mono {weaker : α → Prop} (finds : Finds rooms env action post)
    (weaken : ∀ value, post value → weaker value) : Finds rooms env action weaker where
  regular := finds.regular
  tracks := finds.tracks.mono fun value _ => weaken value
  delivers mayWait := (finds.delivers mayWait).mono weaken

end Finds

theorem finds_checkpoint (place : Checkpoint) : Finds rooms env (checkpoint place) fun _ => True :=
  .intro (regular_checkpoint place) ((tracks_checkpoint place).mono fun _ _ _ => trivial)
    fun _ => delivers_checkpoint place

theorem finds_create (expected : Nat) :
    Finds rooms env (withPools (·.create expected)) fun outcome => outcome = rooms.object expected where
  regular := regular_create expected
  tracks := (tracks_create expected).mono fun _ _ created => created.1
  delivers _ := delivers_create expected

theorem finds_createField (path : String) (expected : Nat) :
    Finds rooms env (withPools (·.createField path expected)) fun field =>
      field = ⟨path, rooms.field expected⟩ where
  regular := regular_createField path expected
  tracks := (tracks_createField path expected).mono fun _ _ created => created.1
  delivers _ := delivers_createField path expected

theorem finds_attach (outcome : Outcome) (field : FieldOutcome) :
    Finds rooms env (attach outcome field) fun after => after = outcome.addFields [field] where
  regular := regular_attach outcome field
  tracks := (tracks_attach outcome field).mono fun _ _ attached => attached.1
  delivers _ := delivers_attach outcome field

theorem finds_merge (into child : Outcome) (label : Option String) :
    Finds rooms env (merge into child label) fun after => after = (into.absorb child label).into where
  regular := regular_merge into child label
  tracks := (tracks_merge into child label).mono fun _ _ merged => merged.1
  delivers _ := delivers_merge into child label

/-! ### Calls -/

theorem tracks_fold_into (declared : Contribution) (output : RuleOutput) (into : Outcome) :
    Tracks rooms (fold declared output into) fun after _ =>
      after = output.foldedInto rooms declared into := by
  cases output with
  | nothing | pending | streaming => exact .pure rfl
  | message | messages => exact .pure rfl
  | outcome draft =>
    apply (tracks_build draft).bind
    rintro child _ ⟨rfl, rfl⟩
    rw [RuleOutput.foldedInto]
    by_cases composite : declared = .outcome
    · simp only [if_pos composite]
      exact (tracks_merge _ _ _).mono fun _ _ merged => merged.1
    · simp only [if_neg composite]
      exact (tracks_release _).bind fun _ _ _ => .pure rfl

theorem tracks_receive_into (env : Environment) (call : PlannedCall) (output : RuleOutput)
    (into : Outcome) :
    Tracks rooms (receive env call output into) fun after _ =>
      after = output.receivedInto rooms call.shape into := by
  refine .ite (fun immediate => ?_) fun delayed => ?_
  · unfold RuleOutput.receivedInto
    rw [if_pos immediate]
    exact tracks_fold_into _ _ _
  · cases output with
    | pending steps result =>
      simp only [RuleOutput.receivedInto, if_neg delayed]
      refine (tracks_checkpoint _).bind fun _ _ _ => ?_
      exact (Tracks.forM (tracks_perform env) steps).bind fun _ _ _ => tracks_fold_into _ _ _
    | streaming items =>
      simp only [RuleOutput.receivedInto, if_neg delayed]
      refine (tracks_checkpoint _).bind fun _ _ _ => ?_
      exact (tracks_drain env _ items into).mono fun _ _ drained => drained.1
    | nothing | message | messages | outcome =>
      simp only [RuleOutput.receivedInto, if_neg delayed]
      exact tracks_fold_into _ _ _

/-- What is there can always be added. -/
theorem delivers_fold_any (declared : Contribution) (output : RuleOutput) (into : Outcome) :
    Delivers rooms env.provider (fold declared output into) fun _ => True := by
  refine .ofTracks (fun state => ?_) (.ofRegular (regular_fold _ _ _))
  cases output with
  | outcome draft =>
    by_cases composite : declared = .outcome
    · simp only [fold, if_pos composite]
      exact ⟨_, rfl⟩
    · simp only [fold, if_neg composite]
      exact ⟨_, rfl⟩
  | _ => exact ⟨_, rfl⟩

theorem delivers_receive_any (mayWait : env.mayWait = true) (call : PlannedCall) {output : RuleOutput}
    (completes : output.completes = true) (into : Outcome) :
    Delivers rooms env.provider (receive env call output into) fun _ => True := by
  refine .ite (fun _ => delivers_fold_any _ _ _) fun _ => ?_
  cases output with
  | pending steps result =>
    have ends : ∀ step ∈ steps, step.ends = true := List.all_eq_true.1 completes
    have waits : Delivers rooms env.provider (steps.forM (perform env)) fun _ => True :=
      .forM (regular_perform env) steps fun step member => delivers_perform mayWait (ends step member)
    refine .bind (delivers_checkpoint _) (regular_checkpoint _) ?_ fun _ _ => ?_
    · exact fun _ => .bind (.forM (regular_perform env) _) fun _ => regular_fold _ _ _
    · exact .bind waits (.forM (regular_perform env) _) (fun _ => regular_fold _ _ _) fun _ _ =>
        delivers_fold_any _ _ _
  | streaming items =>
    have comes : ∀ item ∈ items, item.comes = true := List.all_eq_true.1 completes
    exact .bind (delivers_checkpoint _) (regular_checkpoint _) (fun _ => regular_drain _ _ _ _)
      fun _ _ => delivers_drain mayWait _ comes into
  | nothing | message | messages | outcome => exact delivers_fold_any _ _ _

/-- A call adds what its rule says of the value. -/
theorem finds_invoke {call : PlannedCall} (decides : call.rule.Decides) (scope : Scope) (value : Value)
    (outcome into : Outcome) :
    Finds rooms env (invoke env scope value outcome call into) fun after =>
      after = (call.answer scope.target.type value).receivedInto rooms call.shape into := by
  have same (cancelled : Bool) : (call.rule.evaluate (scope.input value outcome call cancelled)).output =
      call.answer scope.target.type value := decides _ _ rfl rfl
  apply Finds.intro (regular_invoke env scope value outcome call into)
  · apply (tracks_evaluate scope value outcome call).bind
    rintro output _ ⟨cancelled, _, rfl, _⟩
    rw [same]
    exact tracks_receive_into env call _ into
  · intro mayWait
    refine .bind (delivers_evaluate scope value outcome call) (regular_evaluate _ _ _ _)
      (fun output => regular_receive env call output into) fun output evaluated => ?_
    exact delivers_receive_any mayWait call evaluated.2 into

theorem finds_onGroup (scope : Scope) (value : Value) (outcome : Outcome) {calls : List PlannedCall}
    (decides : ∀ call ∈ calls, call.rule.Decides) (into : Outcome) :
    Finds rooms env (onGroup env scope value outcome calls into) fun after =>
      after = FieldPlan.called rooms scope.target.type value calls into := by
  induction calls generalizing into with
  | nil => exact .pure rfl
  | cons call calls ih =>
    obtain ⟨own, others⟩ := List.forall_mem_cons.1 decides
    rw [onGroup, List.foldlM_cons]
    refine .bind ((finds_invoke own scope value outcome into).holding into)
      (fun _ => regular_onGroup _ _ _ _ _ _) fun middle added => ?_
    subst added
    exact ih others _

theorem finds_onGroups (scope : Scope) (value : Value) (outcome : Outcome)
    {groups : List (List PlannedCall)} (decides : ∀ call ∈ groups.flatten, call.rule.Decides)
    (into : Outcome) :
    Finds rooms env (onGroups env scope false value outcome groups into) fun after =>
      after = FieldPlan.called rooms scope.target.type value groups.flatten into := by
  induction groups generalizing into with
  | nil => exact .pure rfl
  | cons group groups ih =>
    rw [List.flatten_cons] at decides ⊢
    obtain ⟨own, others⟩ := List.forall_mem_append.1 decides
    refine .bind (finds_onGroup scope value outcome own into)
      (fun _ => .ite (.pure _) (regular_onGroups _ _ _ _ _ _ _)) fun middle added => ?_
    subst added
    rw [Bool.false_and, if_neg Bool.false_ne_true, FieldPlan.called_append]
    exact ih others _

/-! ### Fields -/

section

variable {planOf : TypeKey → Except CompileError TypePlan} {reached : TypeKey → Prop}

/-- The types `reached` have plans by which fields are validated one by one, and lead to each other
only. -/
structure FieldwiseFamily (planOf : TypeKey → Except CompileError TypePlan) (reached : TypeKey → Prop) :
    Prop where
  planned : ∀ type, reached type → ∃ plan, planOf type = .ok plan ∧ plan.Fieldwise
  closed : ∀ type plan, reached type → planOf type = .ok plan →
    ∀ nested ∈ plan.nestedTypes, reached nested

theorem nestedPlan_of_agrees {field : FieldPlan}
    (known : ∀ type, field.nested = some type → ∃ plan, planOf type = .ok plan)
    (agrees : ∀ type, field.nested = some type → env.planOf type = planOf type) :
    nestedPlan env field = pure (field.inner? planOf) := by
  cases nested : field.nested with
  | none => simp [nestedPlan, FieldPlan.inner?, nested]
  | some type =>
    obtain ⟨plan, planned⟩ := known type nested
    simp [nestedPlan, FieldPlan.inner?, nested, agrees type nested, planned, Except.toOption]

/-- The objects that the fields of an object hold are found to be what they are. -/
def FindsChildren (rooms : Rooms) (env : Environment)
    (planOf : TypeKey → Except CompileError TypePlan) (reached : TypeKey → Prop) (target : Object) :
    Prop :=
  ∀ name child, target.field name = .object child →
    ∀ type plan context, reached type → planOf type = .ok plan →
      Finds rooms env (child.run env plan context) fun outcome =>
        outcome = child.found rooms planOf plan

/-- What is found of the object that a field holds is merged into what the calls of the field gave. -/
theorem finds_onNested {scope : Scope} {field : FieldPlan}
    (leads : ∀ type, field.nested = some type → reached type)
    (children : FindsChildren rooms env planOf reached scope.target) :
    Finds rooms env (onNested field scope.context (field.inner? planOf)
      ((scope.target.field field.name).run? env)
      (field.own rooms planOf scope.target.type (scope.target.field field.name))) fun content =>
        content = field.content rooms planOf scope.target.type (scope.target.field field.name) := by
  cases found : field.inner? planOf with
  | none =>
    simp only [FieldPlan.content, found]
    exact .pure rfl
  | some inner =>
    obtain ⟨type, nested, compiled⟩ := FieldPlan.inner?_eq_some found
    cases holds : scope.target.field field.name with
    | object child =>
      have runs := children _ child holds type inner scope.context (leads type nested) compiled
      refine .bind (runs.holding _) (fun _ => regular_merge _ _ _) fun below same => ?_
      subst same
      simp only [FieldPlan.content, found]
      exact finds_merge _ _ _
    | _ =>
      simp only [FieldPlan.content, found]
      exact .pure rfl

theorem finds_onField (family : FieldwiseFamily planOf reached)
    (agrees : ∀ type, reached type → env.planOf type = planOf type) (scope : Scope) (outcome : Outcome)
    {field : FieldPlan} (leads : ∀ type, field.nested = some type → reached type)
    (decides : ∀ call ∈ field.calls, call.rule.Decides)
    (children : FindsChildren rooms env planOf reached scope.target) :
    Finds rooms env (onField env scope false outcome ((scope.target.field field.name).run? env) field)
      fun own => own = ⟨field.name,
        field.content rooms planOf scope.target.type (scope.target.field field.name)⟩ := by
  have planned : nestedPlan env field = pure (field.inner? planOf) :=
    nestedPlan_of_agrees
      (fun type nested => (family.planned type (leads type nested)).imp fun _ planned => planned.1)
      fun type nested => agrees type (leads type nested)
  have descends : RegularDescent rooms ((scope.target.field field.name).run? env) :=
    regularDescent_run? env _
  have closes (content : Outcome) : Regular rooms (onNested field scope.context (field.inner? planOf)
      ((scope.target.field field.name).run? env) content >>= fun content =>
        pure (FieldOutcome.mk field.name content)) :=
    .bind (regular_onNested _ _ _ descends _) fun _ => .pure _
  rw [onField_of_nestedPlan planned]
  refine .bind (finds_createField _ _) (fun fresh =>
    .bind (regular_onGroups _ _ _ _ _ _ _) fun content => .ite (.pure _) (closes content))
    fun fresh made => ?_
  subst made
  refine .bind (finds_onGroups scope _ outcome decides _) (fun content => .ite (.pure _) (closes content))
    fun content added => ?_
  subst added
  rw [Bool.false_and, if_neg Bool.false_ne_true]
  exact .bind (finds_onNested leads children) (fun _ => .pure _) fun content found =>
    .pure (by rw [found])

/-- The fields of an object are found one after the other, and what is found of them is attached. -/
theorem finds_onFields (family : FieldwiseFamily planOf reached)
    (agrees : ∀ type, reached type → env.planOf type = planOf type) (scope : Scope)
    {fields : List FieldPlan} (leads : ∀ type ∈ fields.filterMap FieldPlan.nested, reached type)
    (decides : ∀ field ∈ fields, ∀ call ∈ field.calls, call.rule.Decides)
    (children : FindsChildren rooms env planOf reached scope.target) (outcome : Outcome) :
    Finds rooms env (onFields env scope false (fun name => (scope.target.field name).run? env) fields
      outcome) fun result => result = (outcome.addFields (fields.map fun field => ⟨field.name,
        field.content rooms planOf scope.target.type (scope.target.field field.name)⟩), false) := by
  have regular (name : String) : RegularDescent rooms ((scope.target.field name).run? env) :=
    regularDescent_run? env _
  induction fields generalizing outcome with
  | nil => exact .pure (by simp)
  | cons field fields ih =>
    obtain ⟨own, others⟩ := List.forall_mem_cons.1 decides
    have ownLeads : ∀ type, field.nested = some type → reached type := fun type nested =>
      leads type (List.mem_filterMap.2 ⟨field, List.mem_cons_self, nested⟩)
    have otherLeads : ∀ type ∈ fields.filterMap FieldPlan.nested, reached type := by
      intro type member
      obtain ⟨other, present, nested⟩ := List.mem_filterMap.1 member
      exact leads type (List.mem_filterMap.2 ⟨other, List.mem_cons_of_mem _ present, nested⟩)
    have step : Finds rooms env (onNext env scope false outcome
        (fun name => (scope.target.field name).run? env) field) fun own => own = ⟨field.name,
          field.content rooms planOf scope.target.type (scope.target.field field.name)⟩ := by
      refine .holding (.bind (finds_checkpoint _) ?_ fun _ _ => ?_) outcome
      · exact fun _ => regular_onField _ _ _ _ (regular _) _
      · exact finds_onField family agrees (scope.inside field) outcome ownLeads own children
    refine .bind step (fun result => .bind (regular_attach _ _) fun outcome =>
      .ite (.pure _) (regular_onFields _ _ _ regular _ _)) fun result found => ?_
    subst found
    refine .bind (finds_attach _ _) (fun outcome => .ite (.pure _) (regular_onFields _ _ _ regular _ _))
      fun next attached => ?_
    subst attached
    rw [Bool.false_and, if_neg Bool.false_ne_true]
    apply (ih otherLeads others _).mono
    intro result found
    rw [found, ← Outcome.addFields_append, List.map_cons, List.singleton_append]

/-! ### Objects -/

theorem addFields_object (enough : ∀ n, n ≤ rooms.fields n) (own : List FieldOutcome) :
    (rooms.object own.length).addFields own = rooms.reported own.length [] own := by
  have fits : own.take (rooms.fields own.length) = own := List.take_of_length_le (enough _)
  rw [Outcome.addFields, Buffer.offer]
  simp [Rooms.object, Rooms.reported, Buffer.room, Buffer.size, Buffer.withCapacity, fits]

theorem finds_onObject (enough : ∀ n, n ≤ rooms.fields n) (family : FieldwiseFamily planOf reached)
    (agrees : ∀ type, reached type → env.planOf type = planOf type) {target : Object}
    (children : FindsChildren rooms env planOf reached target) {type : TypeKey} {plan : TypePlan}
    (leads : reached type) (planned : planOf type = .ok plan) (context : Context) :
    Finds rooms env (onObject env (fun name => (target.field name).run? env) target plan context)
      fun outcome => outcome = target.found rooms planOf plan := by
  obtain ⟨_, same, fieldwise⟩ := family.planned type leads
  cases planned.symm.trans same
  have regular (name : String) : RegularDescent rooms ((target.field name).run? env) :=
    regularDescent_run? env _
  have contents (services : List Payload) (fresh : Outcome) : Regular rooms
      (onContents env ⟨target, services, context.enterType plan.name⟩
        (fun name => (target.field name).run? env) plan fresh) :=
    regular_onContents _ _ regular _ _
  rw [onObject, fieldwise.alone, List.mapM_nil, pure_bind]
  refine .bind (finds_checkpoint _) (fun _ => .bind (regular_create _) (contents _)) fun _ _ => ?_
  refine .bind (finds_create _) (contents _) fun fresh made => ?_
  subst made
  rw [onContents, fieldwise.before, fieldwise.after, fieldwise.lenient]
  simp only [onHook, pure_bind, Bool.false_and, Bool.false_eq_true, if_false]
  refine .bind (finds_onFields family agrees _ (family.closed type plan leads planned)
    fieldwise.decides children _) (fun walked => .ite (.pure _) (.pure _)) fun walked found => ?_
  subst found
  simp only [Bool.false_eq_true, if_false]
  apply Finds.pure
  have counted : plan.fields.length = (plan.fields.map fun field => FieldOutcome.mk field.name
      (field.content rooms planOf target.type (target.field field.name))).length := by simp
  rw [Object.found_eq, counted, addFields_object enough]

end

end Run

/-- Where the plans of a family are known by which fields are validated one by one, a validation finds
what there is to be found. -/
theorem Object.finds_run {rooms : Rooms} {env : Environment}
    {planOf : TypeKey → Except CompileError TypePlan} {reached : TypeKey → Prop}
    (enough : ∀ n, n ≤ rooms.fields n) (family : Run.FieldwiseFamily planOf reached)
    (agrees : ∀ type, reached type → env.planOf type = planOf type) (object : Object) :
    ∀ type plan context, reached type → planOf type = .ok plan →
      Run.Finds rooms env (object.run env plan context) fun outcome =>
        outcome = object.found rooms planOf plan := by
  refine Object.run_induction env (motive := fun object run => ∀ type plan context, reached type →
    planOf type = .ok plan → Run.Finds rooms env (run plan context) fun outcome =>
      outcome = object.found rooms planOf plan) ?_ object
  intro object children type plan context leads planned
  exact Run.finds_onObject enough family agrees children leads planned context

namespace Validator

variable {validator : Validator}

/-- The types that a type leads to form a family. -/
theorem fieldwiseFamily {cache : PlanCache} {type : TypeKey}
    (fieldwise : cache.Fieldwise type) :
    Run.FieldwiseFamily cache.compile (cache.schema.LeadsTo type) where
  planned := fieldwise
  closed reached plan leads compiled nested member := by
    rw [PlanCache.nestedTypes_of_compile compiled] at member
    exact leads.tail member

/-- A prepared validation goes by the plans that the descriptions give. -/
theorem planOf_environment {cache : PlanCache} (sound : cache.Sound)
    (family : cache.Extends validator.cache) {type : TypeKey} (kept : (cache.get? type).isSome)
    (pools : OutcomePools) (request : Request) (mayWait : Bool) {reached : TypeKey}
    (leads : validator.cache.schema.LeadsTo type reached) :
    (environment ⟨cache, pools⟩ request mayWait).planOf reached = validator.cache.compile reached := by
  rw [← family.schema] at leads
  obtain ⟨plan, found⟩ := Option.isSome_iff_exists.1 (sound.isSome_of_leadsTo kept leads)
  rw [family.compile_of_get? sound found]
  exact planOf_of_get? found

variable {object : Object} {way : Way} (fieldwise : validator.cache.Fieldwise object.type)

include fieldwise

/-- An answer with an outcome says what there is to be found of the object. -/
theorem eq_found_of_answer (reachable : validator.Reachable) {outcome : Outcome}
    (ended : (validator.answer object way).result = .ok outcome) :
    ∃ plan, validator.cache.compile object.type = .ok plan ∧
      outcome = object.found validator.pools.rooms validator.cache.compile plan := by
  have sound := reachable.sound
  obtain ⟨-, soundCache, family, kept, ran, -⟩ := sound.course ended
  rename_i cache plan finish
  have compiled := family.compile_of_get? soundCache kept
  have yields := sound.pools.yields
  have finds := object.finds_run yields.le_fields (fieldwiseFamily fieldwise)
    (fun _ => planOf_environment soundCache family (Option.isSome_of_eq_some kept)
      validator.pools way.request way.mayWait) object.type plan way.request.context .refl compiled
  obtain ⟨_, _, found⟩ := finds.tracks _ _ _ yields ran
  exact ⟨plan, compiled, found⟩

/-- If nobody cancels, and every output comes, a validation that waits for outputs gives an outcome. -/
theorem validate_ends (reachable : validator.Reachable) {request : Request}
    (uncancelled : (validator.validate object request).cancelled = false)
    (proceeds : ∀ event ∈ (validator.validate object request).journal,
      event.proceeds request.provider = true) :
    ∃ outcome, (validator.validate object request).result = .ok outcome := by
  have sound := reachable.sound
  obtain ⟨plan, cacheAfter, asked⟩ := (PlanCache.planFor_ok_iff sound.cache object.type).2
    fun reached leads => (fieldwise reached leads).imp fun _ planned => planned.1
  obtain ⟨soundAfter, family, kept⟩ := PlanCache.planFor_eq_ok sound.cache asked
  have compiled := PlanCache.compile_of_planFor sound.cache asked
  have planned : validator.plan object.type = .ok (plan, ⟨cacheAfter, validator.pools⟩) := by
    rw [Validator.plan, asked]
  rw [validate, planned] at uncancelled proceeds ⊢
  have yields : (start ⟨cacheAfter, validator.pools⟩ request).pools.Yields validator.pools.rooms :=
    sound.pools.yields
  have finds := object.finds_run yields.le_fields (fieldwiseFamily fieldwise)
    (fun _ => planOf_environment soundAfter family (Option.isSome_of_eq_some kept)
      validator.pools request true) object.type plan request.context .refl compiled
  obtain ⟨events, led⟩ := finds.regular (start ⟨cacheAfter, validator.pools⟩ request)
  have journal := led.journal.trans (List.nil_append events)
  have delivered := finds.delivers rfl _ _ _ events yields rfl ⟨led, uncancelled, by
    rw [← journal]
    exact proceeds⟩
  exact delivered.imp fun _ ended => ended.1

end Validator

end Assay
