/-
Module: Assay.Proofs.Meaning
Purpose: What a validation finds out, said without pools, journals or waiting. The report of an
  object has the first messages of its two hooks and one outcome for each declared field; a field has
  the first messages of its calls, group by group, or what was reported of the object that it holds.
  A validation with which nothing interferes gives this report.
Main exports: ObjectReport, ObjectReport.unique, Object.delivers_run, Validator.validate_reports
-/
import Assay.Proofs.Completion
import Assay.Proofs.Lifetime
import Assay.Proofs.Planning

namespace Assay

/-- The messages that calls on a value contribute, one call after the other. -/
def Scope.contributed (rooms : Rooms) (scope : Scope) (value : Value) (outcome : Outcome)
    (calls : List PlannedCall) : List Message :=
  calls.flatMap fun call => call.contributed rooms (scope.input value outcome call false)

namespace Rooms

/-- The outcome of an object with these field outcomes, and with the first of these messages. -/
def reported (rooms : Rooms) (expected : Nat) (messages : List Message)
    (fields : List FieldOutcome) : Outcome :=
  ⟨⟨messages.take rooms.objectMessages, rooms.objectMessages⟩, ⟨fields, rooms.fields expected⟩⟩

/-- The outcome of a field with these field outcomes below it, and with the first of these
messages. -/
def reportedField (rooms : Rooms) (expected : Nat) (messages : List Message)
    (fields : List FieldOutcome) : Outcome :=
  ⟨⟨messages.take rooms.fieldMessages, rooms.fieldMessages⟩, ⟨fields, rooms.fields expected⟩⟩

end Rooms

/-! ### Reports -/

mutual

/-- The report of an object that is validated as one of that type. It has the messages of the hook
before the fields and then those of the hook after them, and the outcomes of the declared fields in
their order. The hook after the fields sees all that was found before. -/
inductive ObjectReport (cache : PlanCache) (rooms : Rooms) (provider : Provider) :
    Object → TypeKey → Context → Outcome → Prop where
  | intro {object : Object} {type : TypeKey} {context : Context} {plan : TypePlan}
      {services : List Payload} {before after : List Message} {own : List FieldOutcome}
      (compiled : cache.compile type = .ok plan)
      (hooks : cache.DeclaresHook type TypeModel.beforeName plan.before ∧
        cache.DeclaresHook type TypeModel.afterName plan.after)
      (declared : List.Forall₂ (cache.Declares type) (cache.schema.describe type).fields plan.fields)
      (provided : services.map .ok = plan.dependencies.map provider)
      (opening : before = Scope.contributed rooms ⟨object, services, context.enterType plan.name⟩
        (.object object) (rooms.reported plan.fields.length [] []) plan.before.toList)
      (fields : FieldReports cache rooms provider ⟨object, services, context.enterType plan.name⟩
        (rooms.reported plan.fields.length before) [] plan.fields own)
      (closing : after = Scope.contributed rooms ⟨object, services, context.enterType plan.name⟩
        (.object object) (rooms.reported plan.fields.length before own) plan.after.toList) :
    ObjectReport cache rooms provider object type context
      (rooms.reported plan.fields.length (before ++ after) own)

/-- The reports of fields in their order. The rules of a field see what was found of the object
before, to which `seen` belongs. -/
inductive FieldReports (cache : PlanCache) (rooms : Rooms) (provider : Provider) :
    Scope → (List FieldOutcome → Outcome) → List FieldOutcome → List FieldPlan →
      List FieldOutcome → Prop where
  | nil {scope : Scope} {stage : List FieldOutcome → Outcome} {seen : List FieldOutcome} :
    FieldReports cache rooms provider scope stage seen [] []
  | cons {scope : Scope} {stage : List FieldOutcome → Outcome} {seen others : List FieldOutcome}
      {field : FieldPlan} {fields : List FieldPlan} {content : Outcome}
      (own : FieldReport cache rooms provider (scope.inside field) (stage seen) field content)
      (rest : FieldReports cache rooms provider scope stage (seen ++ [⟨field.name, content⟩]) fields
        others) :
    FieldReports cache rooms provider scope stage seen (field :: fields)
      (⟨field.name, content⟩ :: others)

/-- The report of a field. -/
inductive FieldReport (cache : PlanCache) (rooms : Rooms) (provider : Provider) :
    Scope → Outcome → FieldPlan → Outcome → Prop where
  /-- A field that holds no object has the messages of its calls and nothing below. -/
  | plain {scope : Scope} {outcome : Outcome} {field : FieldPlan} (leaf : field.nested = none) :
    FieldReport cache rooms provider scope outcome field
      (rooms.reportedField field.childCapacity
        (scope.contributed rooms (scope.target.field field.name) outcome field.calls) [])
  /-- A field has the messages and the field outcomes of the object that it holds, the latter under
  the name of the field. -/
  | held {scope : Scope} {outcome below : Outcome} {field : FieldPlan} {type : TypeKey}
      {plan : TypePlan} {child : Object} (nested : field.nested = some type)
      (compiled : cache.compile type = .ok plan)
      (holds : scope.target.field field.name = .object child)
      (report : ObjectReport cache rooms provider child type scope.context below) :
    FieldReport cache rooms provider scope outcome field
      (rooms.reportedField plan.fields.length below.messages.items
        (Outcome.fieldsUnder field.name below.fields.items))
  /-- Nothing is found of an object that is not there. -/
  | absent {scope : Scope} {outcome : Outcome} {field : FieldPlan} {type : TypeKey}
      {plan : TypePlan} (nested : field.nested = some type)
      (compiled : cache.compile type = .ok plan)
      (missing : ∀ child, scope.target.field field.name ≠ .object child) :
    FieldReport cache rooms provider scope outcome field
      (rooms.reportedField plan.fields.length [] [])

end

variable {cache : PlanCache} {rooms : Rooms} {provider : Provider}

/-- There is one outcome for each field, labelled with its name. -/
theorem FieldReports.paths {scope : Scope} {stage : List FieldOutcome → Outcome}
    {seen own : List FieldOutcome} {fields : List FieldPlan}
    (reports : FieldReports cache rooms provider scope stage seen fields own) :
    own.map FieldOutcome.path = fields.map FieldPlan.name := by
  induction fields generalizing seen own with
  | nil =>
    cases reports
    rfl
  | cons field fields ih =>
    cases reports with
    | cons _ rest => rw [List.map_cons, List.map_cons, ih rest]

theorem FieldReports.length_eq {scope : Scope} {stage : List FieldOutcome → Outcome}
    {seen own : List FieldOutcome} {fields : List FieldPlan}
    (reports : FieldReports cache rooms provider scope stage seen fields own) :
    own.length = fields.length := by
  have same := congrArg List.length reports.paths
  rwa [List.length_map, List.length_map] at same

/-- An object has one outcome for each field that its type declares. -/
theorem ObjectReport.paths {object : Object} {type : TypeKey} {context : Context}
    {outcome : Outcome} (report : ObjectReport cache rooms provider object type context outcome) :
    outcome.fields.items.map FieldOutcome.path =
      (cache.schema.describe type).fields.map FieldDescriptor.name := by
  cases report with
  | intro compiled _ declared _ _ fields _ =>
    exact fields.paths.trans (PlanCache.names_of_declares declared)

/-- The reports of fields are determined if those of the objects are that they hold. -/
theorem FieldReports.unique {scope : Scope} {stage : List FieldOutcome → Outcome}
    {seen own others : List FieldOutcome} {fields : List FieldPlan}
    (children : ∀ name child, scope.target.field name = .object child →
      ∀ type context one two, ObjectReport cache rooms provider child type context one →
        ObjectReport cache rooms provider child type context two → one = two)
    (one : FieldReports cache rooms provider scope stage seen fields own)
    (two : FieldReports cache rooms provider scope stage seen fields others) : own = others := by
  induction fields generalizing seen own others with
  | nil =>
    cases one
    cases two
    rfl
  | cons field fields ih =>
    cases one with
    | @cons _ _ _ _ _ _ first report rest =>
    cases two with
    | @cons _ _ _ _ _ _ second report' rest' =>
    -- The three ways in which a field is reported exclude each other.
    have same : first = second := by
      cases report with
      | plain leaf =>
        cases report' with
        | plain _ => rfl
        | held nested | absent nested => simp [leaf] at nested
      | held nested compiled holds below =>
        cases report' with
        | plain leaf => simp [leaf] at nested
        | held nested' compiled' holds' below' =>
          cases nested.symm.trans nested'
          cases compiled.symm.trans compiled'
          cases holds.symm.trans holds'
          rw [children _ _ holds _ _ _ _ below below']
        | absent _ _ missing => exact absurd holds (missing _)
      | absent nested compiled missing =>
        cases report' with
        | plain leaf => simp [leaf] at nested
        | held _ _ holds _ => exact absurd holds (missing _)
        | absent nested' compiled' _ =>
          cases nested.symm.trans nested'
          cases compiled.symm.trans compiled'
          rfl
    subst same
    rw [ih rest rest']

/-- There is one report of an object. -/
theorem ObjectReport.unique {object : Object} {type : TypeKey} {context : Context}
    {one two : Outcome} (first : ObjectReport cache rooms provider object type context one)
    (second : ObjectReport cache rooms provider object type context two) : one = two := by
  cases first with
  | intro compiled _ _ provided opening fields closing =>
  cases second with
  | intro compiled' _ _ provided' opening' fields' closing' =>
  cases compiled.symm.trans compiled'
  have services := provided.trans provided'.symm
  rw [List.map_inj_right fun _ _ same => Except.ok.inj same] at services
  subst services opening opening'
  -- The objects that fields hold are smaller than the object.
  have same := FieldReports.unique (fun name child holds type context one two =>
    ObjectReport.unique) fields fields'
  subst same closing closing'
  rfl
termination_by sizeOf object
decreasing_by exact Object.sizeOf_lt_of_field_eq_object holds

/-! ### Filling -/

namespace Rooms

theorem reported_nil (rooms : Rooms) (expected : Nat) :
    rooms.reported expected [] [] = rooms.object expected := by
  rw [reported, List.take_nil]
  rfl

theorem addMessages_reported (rooms : Rooms) (expected : Nat) (first second : List Message)
    (fields : List FieldOutcome) :
    (rooms.reported expected first fields).addMessages second =
      rooms.reported expected (first ++ second) fields := by
  have filled (messages : List Message) :
      (Buffer.withCapacity rooms.objectMessages).offer messages =
        ⟨messages.take rooms.objectMessages, rooms.objectMessages⟩ := rfl
  rw [reported, reported, Outcome.addMessages, ← filled, ← filled, Buffer.offer_append]

theorem addMessages_field (rooms : Rooms) (expected : Nat) (messages : List Message) :
    (rooms.field expected).addMessages messages = rooms.reportedField expected messages [] := rfl

theorem reportedField_nil (rooms : Rooms) (expected : Nat) :
    rooms.reportedField expected [] [] = rooms.field expected := by
  rw [reportedField, List.take_nil]
  rfl

theorem addFields_reported (rooms : Rooms) {expected : Nat} (messages : List Message)
    {fields : List FieldOutcome} (field : FieldOutcome)
    (room : fields.length < rooms.fields expected) :
    (rooms.reported expected messages fields).addFields [field] =
      rooms.reported expected messages (fields ++ [field]) := by
  have fits : [field].take (rooms.fields expected - fields.length) = [field] :=
    List.take_of_length_le (by simp only [List.length_singleton]; omega)
  rw [reported, reported, Outcome.addFields, Buffer.offer, Buffer.room, Buffer.size, fits]

end Rooms

/-- Messages beyond those that there is room for make no difference. -/
theorem Outcome.addMessages_take {outcome : Outcome} {n : Nat}
    (room : outcome.messages.capacity ≤ n) (messages : List Message) :
    outcome.addMessages (messages.take n) = outcome.addMessages messages := by
  have few : min outcome.messages.room n = outcome.messages.room :=
    Nat.min_eq_left (Nat.le_trans (Nat.sub_le _ _) room)
  rw [Outcome.addMessages, Outcome.addMessages, Buffer.offer, List.take_take, few]
  rfl

/-! ### Environments -/

/-- An environment that knows the plans of the types `reached`, which are lenient and have no call
that gives back an outcome, and in which outputs may be waited for. -/
structure Environment.Serves (cache : PlanCache) (reached : TypeKey → Prop) (env : Environment) :
    Prop where
  mayWait : env.mayWait = true
  planOf : ∀ type, reached type → ∃ plan, cache.compile type = .ok plan ∧ env.planOf type = .ok plan
  lenient : ∀ type, reached type → cache.failFastOf type = false
  plain : ∀ type plan, reached type → cache.compile type = .ok plan →
    ∀ call ∈ plan.hooks ++ plan.fields.flatMap FieldPlan.calls, call.shape.contribution ≠ .outcome
  closed : ∀ type nested, reached type → nested ∈ cache.schema.nestedTypes type → reached nested

namespace Run

variable {env : Environment}

/-! ### Calls -/

theorem delivers_onGroup (mayWait : env.mayWait = true) (scope : Scope) (value : Value)
    (outcome : Outcome) {calls : List PlannedCall}
    (plain : ∀ call ∈ calls, call.shape.contribution ≠ .outcome) (into : Outcome) :
    Delivers rooms provider (onGroup env scope value outcome calls into) fun after =>
      after = into.addMessages (scope.contributed rooms value outcome calls) := by
  induction calls generalizing into with
  | nil => exact .pure into.addMessages_nil.symm
  | cons call calls ih =>
    obtain ⟨own, others⟩ := List.forall_mem_cons.1 plain
    have invoked : Regular rooms (invoke env scope value outcome call into) :=
      regular_invoke env scope value outcome call into
    rw [onGroup, List.foldlM_cons]
    refine .bind ((delivers_invoke mayWait scope value outcome own into).holding invoked into)
      (.holding into invoked) (fun _ => regular_onGroup _ _ _ _ _ _) fun middle added => ?_
    subst added
    apply (ih others _).mono
    intro after added
    rw [added, ← Outcome.addMessages_append]
    rfl

theorem delivers_onGroups (mayWait : env.mayWait = true) (scope : Scope) (value : Value)
    (outcome : Outcome) {groups : List (List PlannedCall)}
    (plain : ∀ call ∈ groups.flatten, call.shape.contribution ≠ .outcome) (into : Outcome) :
    Delivers rooms provider (onGroups env scope false value outcome groups into) fun after =>
      after = into.addMessages (scope.contributed rooms value outcome groups.flatten) := by
  induction groups generalizing into with
  | nil => exact .pure into.addMessages_nil.symm
  | cons group groups ih =>
    rw [List.flatten_cons] at plain ⊢
    obtain ⟨own, others⟩ := List.forall_mem_append.1 plain
    refine .bind (delivers_onGroup mayWait scope value outcome own into)
      (regular_onGroup _ _ _ _ _ _) (fun _ => .ite (.pure _) (regular_onGroups _ _ _ _ _ _ _))
      fun middle added => ?_
    subst added
    refine .ite (fun strict => ?_) fun _ => (ih others _).mono fun after added => ?_
    · simp at strict
    · rw [added, ← Outcome.addMessages_append, Scope.contributed, Scope.contributed,
        Scope.contributed, List.flatMap_append]

/-- A hook adds the messages that it contributes. -/
theorem delivers_onHook (mayWait : env.mayWait = true) (scope : Scope) (plan : TypePlan)
    {hook : Option PlannedCall} (plain : ∀ call ∈ hook.toList, call.shape.contribution ≠ .outcome)
    {outcome : Outcome} (room : outcome.messages.capacity = rooms.objectMessages) :
    Delivers rooms provider (onHook env scope plan hook outcome) fun after =>
      after = outcome.addMessages
        (scope.contributed rooms (.object scope.target) outcome hook.toList) := by
  cases hook with
  | none => exact .pure outcome.addMessages_nil.symm
  | some call =>
    have own := plain call (List.mem_singleton.2 rfl)
    have invoked (scratch : Outcome) : Regular rooms
        (holding scratch (invoke env scope (.object scope.target) outcome call scratch)) :=
      .holding scratch (regular_invoke _ _ _ _ _ _)
    have scratched : Delivers rooms provider
        (withPools (·.create plan.fields.length) >>= fun scratch =>
          holding scratch (invoke env scope (.object scope.target) outcome call scratch))
        fun scratch => scratch = rooms.reported plan.fields.length
          (call.contributed rooms (scope.input (.object scope.target) outcome call false)) [] := by
      refine .bind (delivers_create _) (regular_create _) invoked fun fresh made => ?_
      subst made
      refine ((delivers_invoke mayWait scope _ outcome own _).holding
        (regular_invoke _ _ _ _ _ _) _).mono fun scratch added => ?_
      rw [added, ← Rooms.reported_nil, Rooms.addMessages_reported, List.nil_append]
    have regular := Regular.bind (regular_create plan.fields.length) invoked
    refine .bind (scratched.holding regular outcome) (regular.holding outcome)
      (fun _ => regular_merge _ _ _) fun scratch made => ?_
    subst made
    apply (delivers_merge _ _ _).mono
    intro after merged
    have found : scope.contributed rooms (.object scope.target) outcome (some call).toList =
        call.contributed rooms (scope.input (.object scope.target) outcome call false) :=
      List.append_nil _
    rw [merged, Outcome.absorb_into, found]
    exact (Outcome.addFields_nil _).trans (Outcome.addMessages_take (Nat.le_of_eq room) _)

/-! ### Fields -/

/-- The objects that the fields of an object hold are validated as reported. -/
def DeliversChildren (cache : PlanCache) (rooms : Rooms) (reached : TypeKey → Prop)
    (env : Environment) (target : Object) : Prop :=
  ∀ name child, target.field name = .object child →
    ∀ type plan context, reached type → cache.compile type = .ok plan →
      Delivers rooms env.provider (child.run env plan context)
        (ObjectReport cache rooms env.provider child type context)

variable {reached : TypeKey → Prop}

/-- What is merged of an object that a field holds finds its room. -/
theorem absorb_reported {child : Object} {type : TypeKey} {plan : TypePlan} {context : Context}
    {below : Outcome} (enough : ∀ n, n ≤ rooms.fields n) (compiled : cache.compile type = .ok plan)
    (report : ObjectReport cache rooms provider child type context below) (name : String) :
    ((rooms.field plan.fields.length).absorb below (some name)).into =
      rooms.reportedField plan.fields.length below.messages.items
        (Outcome.fieldsUnder name below.fields.items) := by
  have fits : (Outcome.fieldsUnder name below.fields.items).length ≤
      rooms.fields plan.fields.length := by
    rw [Outcome.length_fieldsUnder]
    cases report with
    | intro compiled' _ _ _ _ fields _ =>
      cases compiled.symm.trans compiled'
      exact Nat.le_trans (Nat.le_of_eq fields.length_eq) (enough _)
  have all : (Outcome.fieldsUnder name below.fields.items).take
      (rooms.fields plan.fields.length) = Outcome.fieldsUnder name below.fields.items :=
    List.take_of_length_le fits
  rw [Outcome.absorb_into, Rooms.addMessages_field, Outcome.addFields, Buffer.offer, Outcome.moved]
  simp only [Rooms.reportedField, Buffer.room, Buffer.size, List.length_nil, Nat.sub_zero,
    List.nil_append, all]

/-- The object that a field holds is reported under the name of the field. -/
theorem delivers_onNested (enough : ∀ n, n ≤ rooms.fields n) (scope : Scope) (outcome : Outcome)
    {field : FieldPlan} {type : TypeKey} {plan : TypePlan} (nested : field.nested = some type)
    (leads : reached type) (compiled : cache.compile type = .ok plan)
    (children : DeliversChildren cache rooms reached env scope.target) :
    Delivers rooms env.provider (onNested field scope.context (some plan)
      ((scope.target.field field.name).run? env) (rooms.field plan.fields.length))
      (FieldReport cache rooms env.provider scope outcome field) := by
  cases holds : scope.target.field field.name with
  | object child =>
    have runs := children _ child holds type plan scope.context leads compiled
    have regular : Regular rooms (child.run env plan scope.context) := child.regular_run env _ _
    refine .bind (runs.holding regular _) (.holding _ regular) (fun _ => regular_merge _ _ _)
      fun below report => ?_
    apply (delivers_merge _ _ _).mono
    intro content merged
    rw [merged, absorb_reported enough compiled report]
    exact .held nested compiled holds report
  | _ =>
    rw [← Rooms.reportedField_nil]
    refine .pure (.absent nested compiled fun child found => ?_)
    rw [holds] at found
    cases found

theorem delivers_onField (enough : ∀ n, n ≤ rooms.fields n) (serves : env.Serves cache reached)
    (scope : Scope) (outcome : Outcome) {field : FieldPlan}
    (leads : ∀ type, field.nested = some type → reached type)
    (groups : field.nested.isSome → ∀ group ∈ field.groups, group = [])
    (plain : ∀ call ∈ field.calls, call.shape.contribution ≠ .outcome)
    (children : DeliversChildren cache rooms reached env scope.target) :
    Delivers rooms env.provider
      (onField env scope false outcome ((scope.target.field field.name).run? env) field)
      fun result => ∃ content, result = ⟨field.name, content⟩ ∧
        FieldReport cache rooms env.provider scope outcome field content := by
  have descends : RegularDescent rooms ((scope.target.field field.name).run? env) :=
    regularDescent_run? env _
  have closes (plan : Option TypePlan) (content : Outcome) : Regular rooms (onNested field
      scope.context plan ((scope.target.field field.name).run? env) content >>= fun content =>
        pure (FieldOutcome.mk field.name content)) :=
    .bind (regular_onNested _ _ _ descends _) fun _ => .pure _
  cases nested : field.nested with
  | none =>
    have planned : nestedPlan env field = pure none := by
      rw [nestedPlan, nested]
    rw [onField_of_nestedPlan planned]
    refine .bind (delivers_createField _ _) (regular_createField _ _) (fun fresh =>
      .bind (regular_onGroups _ _ _ _ _ _ _) fun content => .ite (.pure _) (closes none content))
      fun fresh made => ?_
    subst made
    refine .bind (delivers_onGroups serves.mayWait scope _ outcome plain _)
      (regular_onGroups _ _ _ _ _ _ _) (fun content => .ite (.pure _) (closes none content))
      fun content added => ?_
    subst added
    exact .pure ⟨_, rfl, .plain nested⟩
  | some type =>
    obtain ⟨plan, compiled, kept⟩ := serves.planOf type (leads type nested)
    have planned : nestedPlan env field = pure (some plan) := by
      rw [nestedPlan, nested]
      simp only [kept]
    -- A field that holds an object has no calls of its own, so the object is all that is reported.
    have empty := groups (by rw [nested]; rfl)
    rw [onField_of_nestedPlan planned]
    simp only [onGroups_of_empty _ _ _ _ _ _ empty, pure_bind]
    refine .bind (delivers_createField _ _) (regular_createField _ _) (fun fresh =>
      .ite (.pure _) (closes (some plan) _)) fun fresh made => ?_
    subst made
    refine .ite (fun strict => by simp at strict) fun _ => ?_
    exact .bind (delivers_onNested enough scope outcome nested (leads type nested) compiled children)
      (regular_onNested _ _ _ descends _) (fun _ => .pure _) fun content report =>
        .pure ⟨content, rfl, report⟩

/-- What is asked of a field, so that it is reported. -/
structure Reportable (reached : TypeKey → Prop) (field : FieldPlan) : Prop where
  leads : ∀ type, field.nested = some type → reached type
  groups : field.nested.isSome → ∀ group ∈ field.groups, group = []
  plain : ∀ call ∈ field.calls, call.shape.contribution ≠ .outcome

/-- The fields of an object are reported one after the other, as long as there is room. -/
theorem delivers_onFields (enough : ∀ n, n ≤ rooms.fields n) (serves : env.Serves cache reached)
    (scope : Scope) (expected : Nat) (messages : List Message)
    (children : DeliversChildren cache rooms reached env scope.target) {fields : List FieldPlan}
    (reportable : ∀ field ∈ fields, Reportable reached field) (seen : List FieldOutcome)
    (room : seen.length + fields.length ≤ expected) :
    Delivers rooms env.provider (onFields env scope false
      (fun name => (scope.target.field name).run? env) fields (rooms.reported expected messages seen))
      fun result => result.2 = false ∧ ∃ own,
        FieldReports cache rooms env.provider scope (rooms.reported expected messages) seen fields own ∧
          result.1 = rooms.reported expected messages (seen ++ own) := by
  have regular (name : String) : RegularDescent rooms ((scope.target.field name).run? env) :=
    regularDescent_run? env _
  induction fields generalizing seen with
  | nil => exact .pure ⟨rfl, [], .nil, by rw [List.append_nil]⟩
  | cons field fields ih =>
    obtain ⟨own, others⟩ := List.forall_mem_cons.1 reportable
    rw [List.length_cons] at room
    have vacant : seen.length < rooms.fields expected := by
      have := enough expected
      omega
    have stepRegular : Regular rooms (onNext env scope false (rooms.reported expected messages seen)
        (fun name => (scope.target.field name).run? env) field) :=
      regular_onNext env scope false _ regular field
    have step : Delivers rooms env.provider (onNext env scope false
        (rooms.reported expected messages seen) (fun name => (scope.target.field name).run? env) field)
        fun result => ∃ content, result = ⟨field.name, content⟩ ∧ FieldReport cache rooms env.provider
          (scope.inside field) (rooms.reported expected messages seen) field content := by
      refine .holding (.bind (delivers_checkpoint _) (regular_checkpoint _) ?_ fun _ _ => ?_) ?_ _
      · exact fun _ => regular_onField _ _ _ _ (regular _) _
      · exact delivers_onField enough serves (scope.inside field) _ own.leads own.groups own.plain
          children
      · exact .bind (regular_checkpoint _) fun _ => regular_onField _ _ _ _ (regular _) _
    refine .bind step stepRegular (fun result => .bind (regular_attach _ _) fun outcome =>
      .ite (.pure _) (regular_onFields _ _ _ regular _ _)) fun result reported => ?_
    rcases reported with ⟨content, rfl, report⟩
    refine .bind (delivers_attach _ _) (regular_attach _ _) (fun outcome =>
      .ite (.pure _) (regular_onFields _ _ _ regular _ _)) fun outcome attached => ?_
    rw [attached, Rooms.addFields_reported _ _ _ vacant]
    refine .ite (fun strict => by simp at strict) fun _ => ?_
    have later : (seen ++ [FieldOutcome.mk field.name content]).length + fields.length ≤ expected := by
      rw [List.length_append, List.length_singleton]
      omega
    apply (ih others _ later).mono
    intro result reported
    rcases reported with ⟨toTheEnd, rest, reports, same⟩
    refine ⟨toTheEnd, ⟨field.name, content⟩ :: rest, .cons report reports, ?_⟩
    rw [same, List.append_assoc, List.singleton_append]

/-! ### Objects -/

/-- The fields of a plan are reportable if what it is made from is served. -/
theorem reportable_of_serves (serves : env.Serves cache reached) {type : TypeKey} {plan : TypePlan}
    (leads : reached type) (compiled : cache.compile type = .ok plan) :
    ∀ field ∈ plan.fields, Reportable reached field := by
  intro field member
  refine ⟨fun nested holds => ?_, fun holds => ?_, fun call found => ?_⟩
  · apply serves.closed type nested leads
    rw [← PlanCache.nestedTypes_of_compile compiled]
    exact List.mem_filterMap.2 ⟨field, member, holds⟩
  · obtain ⟨_, _, declares⟩ :=
      exists_of_forall₂ (PlanCache.declares_of_compile compiled) member
    exact declares.groups_of_nested holds
  · refine serves.plain type plan leads compiled call (List.mem_append_right _ ?_)
    exact List.mem_flatMap.2 ⟨field, member, found⟩

/-- On an empty outcome, the contents of an object give its report. -/
theorem delivers_onContents (enough : ∀ n, n ≤ rooms.fields n) (serves : env.Serves cache reached)
    {target : Object} (children : DeliversChildren cache rooms reached env target) {type : TypeKey}
    {plan : TypePlan} (leads : reached type) (compiled : cache.compile type = .ok plan)
    {services : List Payload} (provided : services.map .ok = plan.dependencies.map env.provider)
    (context : Context) :
    Delivers rooms env.provider (onContents env ⟨target, services, context.enterType plan.name⟩
      (fun name => (target.field name).run? env) plan (rooms.reported plan.fields.length [] []))
      (ObjectReport cache rooms env.provider target type context) := by
  have regular (name : String) : RegularDescent rooms ((target.field name).run? env) :=
    regularDescent_run? env _
  have lenient : plan.failFast = false :=
    (PlanCache.failFast_of_compile compiled).trans (serves.lenient type leads)
  have plain := serves.plain type plan leads compiled
  have plainBefore : ∀ call ∈ plan.before.toList, call.shape.contribution ≠ .outcome :=
    fun call found => plain call (List.mem_append_left _ (List.mem_append_left _ found))
  have plainAfter : ∀ call ∈ plan.after.toList, call.shape.contribution ≠ .outcome :=
    fun call found => plain call (List.mem_append_left _ (List.mem_append_right _ found))
  have closing (scope : Scope) (walked : Outcome × Bool) : Regular rooms
      (if walked.2 then pure walked.1 else onHook env scope plan plan.after walked.1) :=
    .ite (.pure _) (regular_onHook _ _ _ _ _)
  rw [onContents, lenient]
  refine .bind (delivers_onHook serves.mayWait _ plan plainBefore rfl) (regular_onHook _ _ _ _ _)
    (fun first => .ite (.pure _) (.bind (regular_onFields _ _ _ regular _ _) (closing _)))
    fun first before => ?_
  subst before
  rw [Rooms.addMessages_reported, List.nil_append]
  refine .ite (fun strict => by simp at strict) fun _ => ?_
  refine .bind (delivers_onFields enough serves _ plan.fields.length _ children
    (reportable_of_serves serves leads compiled) [] (Nat.le_of_eq (Nat.zero_add _)))
    (regular_onFields _ _ _ regular _ _) (closing _) fun walked reported => ?_
  obtain ⟨last, ended⟩ := walked
  obtain ⟨toTheEnd, own, reports, same⟩ := reported
  simp only [List.nil_append] at toTheEnd same
  subst toTheEnd same
  refine .ite (fun stopped => by cases stopped) fun _ => ?_
  apply (delivers_onHook serves.mayWait _ plan plainAfter rfl).mono
  intro outcome after
  rw [after, Rooms.addMessages_reported]
  exact .intro compiled (PlanCache.hooks_of_compile compiled)
    (PlanCache.declares_of_compile compiled) provided rfl reports rfl

theorem delivers_onObject (enough : ∀ n, n ≤ rooms.fields n) (serves : env.Serves cache reached)
    {target : Object} (children : DeliversChildren cache rooms reached env target) {type : TypeKey}
    {plan : TypePlan} (leads : reached type) (compiled : cache.compile type = .ok plan)
    (context : Context) :
    Delivers rooms env.provider
      (onObject env (fun name => (target.field name).run? env) target plan context)
      (ObjectReport cache rooms env.provider target type context) := by
  have regular (services : List Payload) (fresh : Outcome) : Regular rooms
      (onContents env ⟨target, services, context.enterType plan.name⟩
        (fun name => (target.field name).run? env) plan fresh) :=
    regular_onContents _ _ (fun name => regularDescent_run? env _) _ _
  refine .bind (delivers_checkpoint _) (regular_checkpoint _) (fun _ =>
    .bind (.mapM (regular_lookup env) _) fun services => .bind (regular_create _) (regular _))
    fun _ _ => ?_
  refine .bind (delivers_lookups env _) (.mapM (regular_lookup env) _) (fun services =>
    .bind (regular_create _) (regular _)) fun services provided => ?_
  refine .bind (delivers_create _) (regular_create _) (regular _) fun fresh made => ?_
  subst made
  rw [← Rooms.reported_nil]
  exact delivers_onContents enough serves children leads compiled provided context

end Run

/-- The validation of an object with which nothing interferes gives the report of the object. -/
theorem Object.delivers_run {env : Environment} {reached : TypeKey → Prop}
    (enough : ∀ n, n ≤ rooms.fields n) (serves : env.Serves cache reached) (object : Object) :
    ∀ type plan context, reached type → cache.compile type = .ok plan →
      Run.Delivers rooms env.provider (object.run env plan context)
        (ObjectReport cache rooms env.provider object type context) := by
  refine Object.run_induction env (motive := fun object run =>
    ∀ type plan context, reached type → cache.compile type = .ok plan →
      Run.Delivers rooms env.provider (run plan context)
        (ObjectReport cache rooms env.provider object type context)) ?_ object
  intro object children type plan context leads compiled
  exact Run.delivers_onObject enough serves children leads compiled context

namespace Validator

variable {validator : Validator}

/-- What a validator that knows the plan of a type serves. -/
theorem serves_environment {cacheAfter : PlanCache} (sound : cacheAfter.Sound)
    (family : cacheAfter.Extends cache) {root : TypeKey} (kept : (cacheAfter.get? root).isSome)
    (lenient : ∀ type, cache.schema.LeadsTo root type → cache.failFastOf type = false)
    (plain : ∀ type plan, cache.schema.LeadsTo root type → cache.compile type = .ok plan →
      ∀ call ∈ plan.hooks ++ plan.fields.flatMap FieldPlan.calls, call.shape.contribution ≠ .outcome)
    (pools : OutcomePools) (request : Request) :
    (environment ⟨cacheAfter, pools⟩ request true).Serves cache (cache.schema.LeadsTo root) where
  mayWait := rfl
  planOf type leads := by
    rw [← family.schema] at leads
    obtain ⟨plan, found⟩ := Option.isSome_iff_exists.1 (sound.isSome_of_leadsTo kept leads)
    exact ⟨plan, family.compile_of_get? sound found, planOf_of_get? found⟩
  lenient := lenient
  plain := plain
  closed type nested leads member := leads.tail member

/-- If the types that an object leads to compile, are not left at the first failure and have no
rule that gives back an outcome, and if nobody cancels, every service that is asked for is there and
every output comes, the object is validated, and what is found is its report. -/
theorem validate_reports (reachable : validator.Reachable) (object : Object) (request : Request)
    (compiles : ∀ type, validator.cache.schema.LeadsTo object.type type →
      ∃ plan, validator.cache.compile type = .ok plan)
    (lenient : ∀ type, validator.cache.schema.LeadsTo object.type type →
      validator.cache.failFastOf type = false)
    (plain : ∀ type plan, validator.cache.schema.LeadsTo object.type type →
      validator.cache.compile type = .ok plan →
        ∀ call ∈ plan.hooks ++ plan.fields.flatMap FieldPlan.calls,
          call.shape.contribution ≠ .outcome)
    (uncancelled : (validator.validate object request).cancelled = false)
    (proceeds : ∀ event ∈ (validator.validate object request).journal,
      event.proceeds request.provider = true) :
    ∃ outcome, (validator.validate object request).result = .ok outcome ∧
      ObjectReport validator.cache validator.pools.rooms request.provider object object.type
        request.context outcome := by
  have sound := reachable.sound
  obtain ⟨plan, cacheAfter, asked⟩ :=
    (PlanCache.planFor_ok_iff sound.cache object.type).2 compiles
  obtain ⟨soundAfter, family, kept⟩ := PlanCache.planFor_eq_ok sound.cache asked
  have compiled := PlanCache.compile_of_planFor sound.cache asked
  have planned : validator.plan object.type = .ok (plan, ⟨cacheAfter, validator.pools⟩) := by
    rw [Validator.plan, asked]
  rw [validate, planned] at uncancelled proceeds ⊢
  have yields : (start ⟨cacheAfter, validator.pools⟩ request).pools.Yields validator.pools.rooms :=
    sound.pools.yields
  have serves := serves_environment soundAfter family (Option.isSome_of_eq_some kept) lenient plain
    validator.pools request
  have delivers := object.delivers_run yields.le_fields serves object.type plan request.context
    .refl compiled
  have regular : Run.Regular validator.pools.rooms (object.run
      (environment ⟨cacheAfter, validator.pools⟩ request true) plan request.context) :=
    object.regular_run _ _ _
  obtain ⟨events, led⟩ := regular (start ⟨cacheAfter, validator.pools⟩ request)
  -- The journal was empty at the start, so it holds what happened since and nothing else.
  have journal := led.journal.trans (List.nil_append events)
  refine delivers _ _ _ events yields rfl ⟨led, uncancelled, ?_⟩
  rw [← journal]
  exact proceeds

/-- A validator of a type with both hooks, with a field whose rules run in four groups, declared against
the order of the groups, and with a field for another object of the type. -/
def graded : Validator :=
  let said (word : String) : Message := { text := word, key := word }
  let factory (returns : String) (output : RuleOutput) : RuleFactory :=
    fun _ => .ok (.ofValue returns fun _ => output)
  let catalog : RuleCatalog := ⟨[
    ("streaming", factory "BoxStream<'a, Message>" (.streaming [.step .wait, .message (said "streamed")])),
    ("deferred", factory "BoxFuture<'a, Message>" (.pending [.wait] (.message (said "deferred")))),
    ("listing", factory "Vec<Message>" (.messages [said "first", said "second"]))]⟩
  let attachments := [⟨"streaming", ∅⟩, ⟨"deferred", ∅⟩, ⟨"listing", ∅⟩]
  let descriptor : TypeDescriptor := {
    name := "Sample"
    fields := [{ declaredField with attachments, custom := true }, .ofNested "next" .sample]
    routines := [
      ⟨TypeModel.beforeName, .ofValue "Message" fun _ => .message (said "before")⟩,
      ⟨TypeModel.afterName, .ofValue "Message" fun _ => .message (said "after")⟩,
      ⟨"validate_declared", .refuses⟩] }
  .ofOptions ⟨[(.sample, descriptor)]⟩ catalog {}

/-- An object and the object that it holds are reported alike: the messages of both hooks, and those of
the field's rules in the order of their groups. -/
theorem graded_reports :
    let object : Object := .mk .sample [("next", .object (.mk .sample []))]
    let alike := ["before", "after", "refused", "first", "second", "deferred", "streamed"]
    ∃ outcome, (graded.validate object {}).result = .ok outcome ∧
      outcome.allMessages.map Message.key = alike ++ alike ∧
      ObjectReport graded.cache graded.pools.rooms noServices object .sample {} outcome := by
  intro object alike
  have alone : ∀ nested ∈ graded.cache.schema.nestedTypes object.type, nested = object.type := by
    decide
  have compiled : (graded.cache.compile .sample).toOption.any
      (fun plan => (plan.hooks ++ plan.fields.flatMap FieldPlan.calls).all
        fun call => call.shape.contribution != .outcome) = true := by
    decide +kernel
  have found : (graded.validate object {}).result.toOption.any
      (fun outcome => outcome.allMessages.map Message.key == alike ++ alike) = true := by
    rw [validate_of_alone rfl alone]
    decide +kernel
  have reachable : graded.Reachable := .fresh _ _ _ _ _
  have reported := validate_reports reachable object {} ?_ ?_ ?_ ?_ ?_
  · obtain ⟨outcome, ended, report⟩ := reported
    rw [ended] at found
    exact ⟨outcome, ended, beq_iff_eq.1 found, report⟩
  · intro type leads
    cases leads.eq_of_alone alone
    cases planned : graded.cache.compile .sample with
    | error error =>
      rw [planned] at compiled
      cases compiled
    | ok plan => exact ⟨plan, planned⟩
  · intro type leads
    cases leads.eq_of_alone alone
    rfl
  · intro type plan leads planned call member
    cases leads.eq_of_alone alone
    rw [show graded.cache.compile .sample = .ok plan from planned] at compiled
    exact bne_iff_ne.1 (List.all_eq_true.1 compiled call member)
  · rw [validate_of_alone rfl alone]
    decide +kernel
  · rw [validate_of_alone rfl alone]
    decide +kernel

end Validator

end Assay
