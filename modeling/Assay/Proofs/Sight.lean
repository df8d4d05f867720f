/-
Module: Assay.Proofs.Sight
Purpose: What a rule can see of the outcome under construction. While an object is validated its outcome
  holds what the hook before the fields contributed, and what came of the fields that are done; nothing of
  the field at hand, of later ones or of an object around it is there yet. This holds at every evaluation
  of every validation, whether it ends or stops.
Main exports: Opens, Walked, Sees, Object.sees_of_validated, Validator.answer_sees
-/
import Assay.Proofs.Endings
import Assay.Proofs.Location
import Assay.Proofs.Meaning

namespace Assay

section

variable (rooms : Rooms) (env : Environment) (scope : Scope) (plan : TypePlan)

/-- In these events the hook before the fields of an object is called, if there is one, while nothing has
been found of the object, and it contributes these messages. -/
inductive Opens : List Message → List Event → Prop where
  | absent (undeclared : plan.before = none) : Opens [] []
  | called {call : PlannedCall} {input : Call} {cancelled : Bool} {asides : List Event}
      (declared : plan.before = some call)
      (made : input =
        scope.input (.object scope.target) (rooms.object plan.fields.length) call cancelled)
      (aside : ∀ event ∈ asides, event.isAside = true) :
    Opens (call.contributed rooms input) (.evaluation call input :: asides)

/-- In these events fields of an object are validated one after the other, and that is what comes of
them. -/
inductive Walked : List FieldPlan → List FieldOutcome → List Event → Prop where
  | nil : Walked [] [] []
  | next {done : List FieldPlan} {own : List FieldOutcome} {events more : List Event}
      {field : FieldPlan} {result : FieldOutcome} (walked : Walked done own events)
      (validates : Validates rooms env scope plan.failFast field more result) :
    Walked (done ++ [field]) (own ++ [result]) (events ++ more)

/-- After these events since the fields of an object were begun, a call is evaluated for one of the
fields. It sees the messages that the object was opened with, and what came of the fields before. -/
inductive SeesInField (messages : List Message) (events : List Event) (call : PlannedCall)
    (input : Call) (own : List FieldOutcome) : Prop where
  | intro {done rest : List FieldPlan} {field : FieldPlan} {walked calls : List Event}
      {cancelled : Bool} (declared : plan.fields = done ++ field :: rest) (member : call ∈ field.calls)
      (walks : Walked rooms env scope plan done own walked)
      (labels : own.map FieldOutcome.path = done.map FieldPlan.name) (course : events = walked ++ calls)
      (calls : (scope.inside field).Evaluates (scope.target.field field.name)
        (rooms.reported plan.fields.length messages own) field.calls calls)
      (made : input = (scope.inside field).input (scope.target.field field.name)
        (rooms.reported plan.fields.length messages own) call cancelled)

/-- What is seen of an object stays: if there is an outcome of it, it begins with these messages, as many
as there is room for, and with these field outcomes. -/
def Stays (messages : List Message) (own : List FieldOutcome) (result : Except Stop Outcome) : Prop :=
  ∀ outcome, result = .ok outcome →
    messages.take rooms.objectMessages <+: outcome.messages.items ∧ own <+: outcome.fields.items

/-- After these events since an object was begun, a call is evaluated for it or for one of its fields, and
sees of it what was found before: nothing, if it is the hook before the fields; what this hook contributed
and the fields before, if it is a rule of a field; and what this hook contributed and all fields, if it is
the hook after them. -/
inductive Sees (events : List Event) (call : PlannedCall) (input : Call)
    (result : Except Stop Outcome) : Prop where
  | before {cancelled : Bool} (declared : plan.before = some call)
      (made : input =
        scope.input (.object scope.target) (rooms.object plan.fields.length) call cancelled)
  | field {messages : List Message} {own : List FieldOutcome} {opened since : List Event}
      (course : events = opened ++ since) (opens : Opens rooms scope plan messages opened)
      (sees : SeesInField rooms env scope plan messages since call input own)
      (stays : Stays rooms messages own result)
  | after {messages : List Message} {own : List FieldOutcome} {opened walked calls : List Event}
      {cancelled : Bool} (declared : plan.after = some call)
      (course : events = opened ++ (walked ++ calls)) (opens : Opens rooms scope plan messages opened)
      (walks : Walked rooms env scope plan plan.fields own walked)
      (labels : own.map FieldOutcome.path = plan.fields.map FieldPlan.name)
      (calls : scope.Evaluates (.object scope.target)
        (rooms.reported plan.fields.length messages own) [call] calls)
      (made : input = scope.input (.object scope.target)
        (rooms.reported plan.fields.length messages own) call cancelled)
      (stays : Stays rooms messages own result)

/-- A call is evaluated in the validation of an object that a field holds. -/
inductive Delegated (before : List Event) (call : PlannedCall) (input : Call) (later : List Event) :
    Prop where
  | intro {field : FieldPlan} {type : TypeKey} {inner : TypePlan} {child : Object}
      {early late : List Event} {result : Except Stop Outcome} (declared : field ∈ plan.fields)
      (nested : field.nested = some type) (planned : env.planOf type = .ok inner)
      (holds : scope.target.field field.name = .object child)
      (validated : child.Validated rooms env inner (scope.inside field).context
        (early ++ .evaluation call input :: late) result)
      (starts : early <:+ before) (ends : late <+: later)

/-- Every evaluation among these events is one in the validation of an object that a field holds, or sees
what `sees` says of the events before it, among which are those that happened so far. -/
def AllSee (sees : List Event → PlannedCall → Call → Prop) (sofar events : List Event) : Prop :=
  ∀ before call input later, events = before ++ .evaluation call input :: later →
    Delegated rooms env scope plan before call input later ∨ sees (sofar ++ before) call input

end

variable {rooms : Rooms} {env : Environment} {scope : Scope} {plan : TypePlan} {call : PlannedCall}
  {input : Call} {before later : List Event}

/-- The fields that are done have their outcomes in their order. -/
theorem Walked.paths {done : List FieldPlan} {own : List FieldOutcome} {events : List Event}
    (walked : Walked rooms env scope plan done own events) :
    own.map FieldOutcome.path = done.map FieldPlan.name := by
  induction walked with
  | nil => rfl
  | next _ validates ih => rw [List.map_append, List.map_append, ih]; simp [validates.path_eq]

theorem Walked.length_eq {done : List FieldPlan} {own : List FieldOutcome} {events : List Event}
    (walked : Walked rooms env scope plan done own events) : own.length = done.length := by
  simpa using congrArg List.length walked.paths

theorem Delegated.carry {before' later' : List Event}
    (delegated : Delegated rooms env scope plan before call input later) (starts : before <:+ before')
    (ends : later <+: later') : Delegated rooms env scope plan before' call input later' := by
  cases delegated with
  | intro declared nested planned holds validated first last =>
    exact .intro declared nested planned holds validated (first.trans starts) (last.trans ends)

namespace AllSee

variable {sees other : List Event → PlannedCall → Call → Prop} {sofar earlier events more : List Event}

theorem imp (all : AllSee rooms env scope plan sees sofar events)
    (each : ∀ since call input, sees (sofar ++ since) call input →
      other (earlier ++ since) call input) : AllSee rooms env scope plan other earlier events :=
  fun before call input later split =>
    (all before call input later split).imp_right (each before call input)

/-- What happens one after the other is seen part by part. -/
theorem append (first : AllSee rooms env scope plan sees sofar events)
    (second : AllSee rooms env scope plan sees (sofar ++ events) more) :
    AllSee rooms env scope plan sees sofar (events ++ more) := by
  intro before call input later split
  rcases append_eq_append_cons split with ⟨rest, here, rfl⟩ | ⟨rest, rfl, there⟩
  · apply (first before call input rest here).imp_left
    exact fun delegated => delegated.carry (List.suffix_refl _) (List.prefix_append _ _)
  · rw [← List.append_assoc]
    apply (second rest call input later there).imp_left
    exact fun delegated => delegated.carry (List.suffix_append _ _) (List.prefix_refl _)

theorem nil : AllSee rooms env scope plan sees sofar [] := by
  intro before call input later split
  simp at split

/-- Where only these calls are evaluated, it is enough that they see what they should. -/
theorem of_evaluates {value : Value} {outcome : Outcome} {calls : List PlannedCall}
    (evaluates : scope.Evaluates value outcome calls events)
    (each : ∀ before call cancelled, call ∈ calls → before <+: events →
      sees (sofar ++ before) call (scope.input value outcome call cancelled)) :
    AllSee rooms env scope plan sees sofar events := by
  intro before call input later split
  obtain ⟨known, cancelled, rfl⟩ := evaluates call input (by simp [split])
  exact .inr (each before call cancelled known (split ▸ List.prefix_append _ _))

end AllSee

/-- What is evaluated in the step of a field is evaluated for one of its calls, before which only its
calls were made, or in the validation of the object that it holds. -/
theorem StepsThrough.allSee {field : FieldPlan} {seen : Outcome} {events sofar : List Event}
    {sees : List Event → PlannedCall → Call → Prop} (declared : field ∈ plan.fields)
    (steps : StepsThrough rooms env scope field seen events)
    (each : ∀ before call cancelled, call ∈ field.calls →
      (scope.inside field).Evaluates (scope.target.field field.name) seen field.calls before →
        sees (sofar ++ before) call
          ((scope.inside field).input (scope.target.field field.name) seen call cancelled)) :
    AllSee rooms env scope plan sees sofar events := by
  obtain ⟨calls, held, rfl, evaluates, holds⟩ := steps
  intro before call input later split
  rcases append_eq_append_cons split with ⟨rest, here, _⟩ | ⟨rest, rfl, there⟩
  · obtain ⟨known, cancelled, rfl⟩ := evaluates call input (by simp [here])
    refine .inr (each before call cancelled known fun other input earlier => ?_)
    exact evaluates other input (by simp [here, earlier])
  · left
    cases holds with
    | none => simp at there
    | held nested planned holds validated refused =>
      rcases append_eq_append_cons there with ⟨last, inside, rfl⟩ | ⟨last, _, dropped⟩
      · rw [inside] at validated
        exact .intro declared nested planned holds validated (List.suffix_append _ _)
          (List.prefix_append _ _)
      · have member : .evaluation call input ∈ refused.map Event.refusal := by simp [dropped]
        exact absurd member (not_evaluation_of_refusals refused call input)

/-- The hook after the fields sees all of them. -/
theorem Opens.allSee_after {messages : List Message} {own : List FieldOutcome}
    {opened walked events : List Event} {result : Except Stop Outcome}
    (opens : Opens rooms scope plan messages opened)
    (walks : Walked rooms env scope plan plan.fields own walked)
    (evaluates : scope.Evaluates (.object scope.target)
      (rooms.reported plan.fields.length messages own) plan.after.toList events)
    (stays : Stays rooms messages own result) :
    AllSee rooms env scope plan (Sees rooms env scope plan · · · result) (opened ++ walked) events := by
  apply AllSee.of_evaluates evaluates
  intro before call cancelled known earlier
  have declared : plan.after = some call := Option.mem_toList.1 known
  have course : opened ++ walked ++ before = opened ++ (walked ++ before) := List.append_assoc _ _ _
  refine .after declared course opens walks walks.paths ?_ rfl stays
  intro other input member
  have calls := evaluates other input (earlier.subset member)
  rwa [declared] at calls

namespace Run

theorem tracks_validates (strict : Bool) (seen : Outcome) (field : FieldPlan) :
    Tracks rooms (onNext env scope strict seen (fun name => (scope.target.field name).run? env) field)
      fun own events => Validates rooms env scope strict field events own := by
  intro state own after yields ended
  have regular : Regular rooms (onNext env scope strict seen
      (fun name => (scope.target.field name).run? env) field) :=
    regular_onNext env scope strict seen (fun name => regularDescent_run? env _) field
  obtain ⟨events, led⟩ := regular state
  rw [ended] at led
  exact ⟨events, led, .intro yields ended led.journal⟩

/-- What comes of a field finds room while there are fields left. -/
theorem ensures_attach (enough : ∀ n, n ≤ rooms.fields n) (messages : List Message)
    {own : List FieldOutcome} {expected : Nat} (result : FieldOutcome) (few : own.length < expected) :
    Ensures rooms (attach (rooms.reported expected messages own) result) fun outcome events =>
      outcome = .ok (rooms.reported expected messages (own ++ [result])) ∧ events = [] := by
  have room : own.length < rooms.fields expected := Nat.lt_of_lt_of_le few (enough expected)
  have whole : (rooms.reported expected messages own).fields.overflow [result] = [] := by
    simp only [Rooms.reported, Buffer.overflow, Buffer.room, Buffer.size]
    exact List.drop_of_length_le (by simp only [List.length_singleton]; omega)
  apply ((Ensures.ofUnfolds (unfolds_attach _ result)).tracked (tracks_attach _ result)).mono
  rintro (stop | outcome) events ⟨⟨_, ended⟩, attached⟩
  · cases ended
  · obtain ⟨added, refused⟩ := attached outcome rfl
    rw [added, refused, whole, Rooms.addFields_reported rooms messages result room]
    exact ⟨rfl, rfl⟩

/-! ### Fields -/

/-- A call on a field sees what came of the fields before, and that stays in the outcome of the object as
far as the fields bring it. -/
def SeesOfFields (rooms : Rooms) (env : Environment) (scope : Scope) (plan : TypePlan)
    (messages : List Message) (result : Except Stop (Outcome × Bool)) (events : List Event)
    (call : PlannedCall) (input : Call) : Prop :=
  ∃ own, SeesInField rooms env scope plan messages events call input own ∧
    ∀ last, result = .ok last → own <+: last.1.fields.items

/-- Where fields were gone through, what came of them is there; it is what comes of all fields, unless the
object was left. -/
def BringsFields (rooms : Rooms) (env : Environment) (scope : Scope) (plan : TypePlan)
    (messages : List Message) (own : List FieldOutcome) (events : List Event)
    (result : Except Stop (Outcome × Bool)) : Prop :=
  ∀ last, result = .ok last → ∃ all, last.1 = rooms.reported plan.fields.length messages all ∧
    own <+: all ∧ (last.2 = false → Walked rooms env scope plan plan.fields all events)

/-- What is seen while the fields of an object are validated. -/
theorem ensures_onFields (enough : ∀ n, n ≤ rooms.fields n) (messages : List Message)
    {fields done : List FieldPlan} {own : List FieldOutcome} {walked : List Event}
    (declared : plan.fields = done ++ fields) (walks : Walked rooms env scope plan done own walked) :
    Ensures rooms (onFields env scope plan.failFast (fun name => (scope.target.field name).run? env)
      fields (rooms.reported plan.fields.length messages own)) fun result events =>
        AllSee rooms env scope plan (SeesOfFields rooms env scope plan messages result) walked events ∧
          BringsFields rooms env scope plan messages own (walked ++ events) result := by
  induction fields generalizing done own walked with
  | nil =>
    rw [List.append_nil] at declared
    refine .pure ⟨.nil, fun last same => ?_⟩
    cases same
    refine ⟨own, rfl, List.prefix_rfl, fun _ => ?_⟩
    rw [declared, List.append_nil]
    exact walks
  | cons field fields ih =>
    let seen := rooms.reported plan.fields.length messages own
    have few : own.length < plan.fields.length := by simp [declared, walks.length_eq]
    -- The calls of the field are made when the fields before are done.
    have called {result : Except Stop (Outcome × Bool)} {step : List Event}
        (steps : StepsThrough rooms env scope field seen step)
        (stays : ∀ last, result = .ok last → own <+: last.1.fields.items) :
        AllSee rooms env scope plan (SeesOfFields rooms env scope plan messages result) walked step :=
      steps.allSee (by simp [declared]) fun before call cancelled known earlier =>
        ⟨own, .intro declared known walks walks.paths rfl earlier rfl, stays⟩
    apply ((ensures_onNext plan.failFast seen).tracked (tracks_validates plan.failFast seen field)).bind
    case stops => exact fun stop events steps => ⟨called steps.1 nofun, nofun⟩
    rintro result step ⟨steps, validates⟩
    have further := walks.next (validates result rfl)
    have grown : own <+: own ++ [result] := List.prefix_append own [result]
    apply (ensures_attach enough messages result few).bind
    case stops => exact fun stop events attached => nomatch attached.1
    rintro _ _ ⟨same, rfl⟩
    cases same
    refine .ite (fun _ => .pure ?_) fun _ => (ih (by simp [declared]) further).mono ?_
    · rw [List.append_nil, List.append_nil]
      constructor
      · apply called steps
        rintro last same
        cases same
        exact grown
      · rintro last same
        cases same
        exact ⟨_, rfl, grown, nofun⟩
    · rintro ended more ⟨views, brings⟩
      rw [List.nil_append]
      constructor
      · refine .append (called steps fun last same => ?_) views
        obtain ⟨all, found, kept, _⟩ := brings last same
        rw [found]
        exact grown.trans kept
      · intro last same
        obtain ⟨all, found, kept, walkedAll⟩ := brings last same
        rw [List.append_assoc] at walkedAll
        exact ⟨all, found, grown.trans kept, walkedAll⟩

/-! ### Objects -/

/-- Once the hook before the fields is done, the outcome of the object holds what it contributed. -/
theorem Hooks.opens {first : Outcome} {events : List Event}
    (plain : ∀ call, plan.before = some call → call.shape.contribution ≠ .outcome)
    (hooks : Hooks rooms scope plan (rooms.object plan.fields.length) plan.before first events) :
    ∃ messages, Opens rooms scope plan messages events ∧
      first = rooms.reported plan.fields.length messages [] := by
  generalize declared : plan.before = hook at hooks
  cases hooks with
  | absent => exact ⟨[], .absent declared, (rooms.reported_nil _).symm⟩
  | @invoked call cancelled asides more scratch aside adds =>
    let input := scope.input (.object scope.target) (rooms.object plan.fields.length) call cancelled
    have added : (rooms.object plan.fields.length).addMessages (call.contributed rooms input) =
        rooms.reported plan.fields.length (call.contributed rooms input) [] := by
      rw [← Rooms.reported_nil, Rooms.addMessages_reported, List.nil_append]
    obtain ⟨rfl, rfl⟩ := adds.eq_addMessages (plain call declared)
    refine ⟨call.contributed rooms input, ?_, ?_⟩
    · have whole : ((rooms.object plan.fields.length).absorb ((rooms.object
          plan.fields.length).addMessages (call.contributed rooms input)) none).refused = [] :=
        List.drop_nil
      rw [whole, List.map_nil, List.append_nil, List.append_nil]
      exact .called declared rfl aside
    · rw [Outcome.absorb_into, added]
      exact (Outcome.addFields_nil _).trans
        ((Outcome.addMessages_take (Nat.le_refl _) _).trans added)

/-- What was found of an object before the hook after the fields stays. -/
theorem Hooks.stays {messages : List Message} {own all : List FieldOutcome} {hook : Option PlannedCall}
    {outcome : Outcome} {events : List Event} {expected : Nat} (kept : own <+: all)
    (hooks : Hooks rooms scope plan (rooms.reported expected messages all) hook outcome events) :
    Stays rooms messages own (.ok outcome) := by
  obtain ⟨found, fields, rfl, _⟩ := hooks.eq_add
  intro last same
  cases same
  exact ⟨List.prefix_append _ _, kept.trans (List.prefix_append _ _)⟩

/-- What is seen while the contents of an object are validated. -/
theorem ensures_onContents (enough : ∀ n, n ≤ rooms.fields n)
    (plain : ∀ call, plan.before = some call → call.shape.contribution ≠ .outcome) :
    Ensures rooms (onContents env scope (fun name => (scope.target.field name).run? env) plan
      (rooms.object plan.fields.length)) fun result events =>
        AllSee rooms env scope plan (Sees rooms env scope plan · · · result) [] events := by
  have opening {result : Except Stop Outcome} {events : List Event}
      (evaluates : scope.Evaluates (.object scope.target) (rooms.object plan.fields.length)
        plan.before.toList events) :
      AllSee rooms env scope plan (Sees rooms env scope plan · · · result) [] events :=
    .of_evaluates evaluates fun before call cancelled known _ =>
      .before (Option.mem_toList.1 known) rfl
  apply (ensures_onHook env scope (rooms.object plan.fields.length) plan plan.before).bind
  case stops => exact fun stop events opened => opening opened.1
  rintro first opened ⟨evaluates, hooks⟩
  obtain ⟨messages, opens, rfl⟩ := (hooks first rfl).opens plain
  refine .ite (fun _ => .pure ?_) fun _ => ?_
  · rw [List.append_nil]
    exact opening evaluates
  have fields : Ensures rooms (onFields env scope plan.failFast _ plan.fields _) _ :=
    ensures_onFields enough messages (List.nil_append _).symm .nil
  apply fields.bind
  case stops =>
    rintro stop events ⟨views, _⟩
    refine (opening evaluates).append (views.imp fun since call input sees => ?_)
    obtain ⟨own, sees, _⟩ := sees
    exact .field rfl opens sees nofun
  rintro ⟨last, ended⟩ events ⟨views, brings⟩
  obtain ⟨all, found, _, walks⟩ := brings _ rfl
  simp only at found walks
  subst found
  -- The object is left after its fields, or the hook after them is called: what was seen stays.
  have viewed {result : Except Stop Outcome}
      (stays : ∀ own, own <+: all → Stays rooms messages own result) :
      AllSee rooms env scope plan (Sees rooms env scope plan · · · result) ([] ++ opened) events := by
    refine views.imp fun since call input sees => ?_
    obtain ⟨own, sees, kept⟩ := sees
    exact .field rfl opens sees (stays own (kept _ rfl))
  refine .ite (fun _ => .pure ?_) fun goesOn => ?_
  · rw [List.append_nil]
    refine (opening evaluates).append (viewed fun own kept outcome same => ?_)
    cases same
    exact ⟨List.prefix_rfl, kept⟩
  · apply (ensures_onHook env scope _ plan plan.after).mono
    rintro result closing ⟨evaluatesLast, hooksLast⟩
    have stays (own : List FieldOutcome) (kept : own <+: all) : Stays rooms messages own result := by
      intro outcome same
      subst same
      exact (hooksLast outcome rfl).stays kept outcome rfl
    have walked := walks (by simpa using goesOn)
    have closing := opens.allSee_after walked evaluatesLast (stays all List.prefix_rfl)
    exact (opening evaluates).append ((viewed stays).append closing)

end Run

/-- Wherever a call is evaluated in the validation of an object, it is evaluated for an object that a
field holds, or it sees what was found of the object before. -/
theorem Run.ensures_onObject (enough : ∀ n, n ≤ rooms.fields n)
    (plain : ∀ call, plan.before = some call → call.shape.contribution ≠ .outcome) (target : Object)
    (context : Context) :
    Ensures rooms (onObject env (fun name => (target.field name).run? env) target plan context)
      fun result events => ∀ before call input later, events = before ++ .evaluation call input :: later →
        ∃ services, Delegated rooms env ⟨target, services, context.enterType plan.name⟩ plan before call
            input later ∨
          ∃ since, before = plan.begins ++ since ∧
            Sees rooms env ⟨target, services, context.enterType plan.name⟩ plan since call input
              result := by
  apply (ensures_begun fun services => ensures_onContents enough plain).mono
  rintro result events (silent | ⟨services, more, rfl, all⟩) before call input later split
  · have member : .evaluation call input ∈ events := by simp [split]
    exact absurd member (silent call input)
  refine ⟨services, ?_⟩
  rcases append_eq_append_cons split with ⟨rest, here, _⟩ | ⟨since, rfl, there⟩
  · have member : .evaluation call input ∈ plan.begins := by simp [here]
    exact absurd member (plan.not_evaluation_begins call input)
  · rcases all since call input later there with delegated | sees
    · exact .inl (delegated.carry (List.suffix_append _ _) (List.prefix_refl _))
    · exact .inr ⟨since, rfl, sees⟩

/-- What is seen where an object was validated. -/
theorem Object.sees_of_validated (enough : ∀ n, n ≤ rooms.fields n)
    (plain : ∀ call, plan.before = some call → call.shape.contribution ≠ .outcome) {target : Object}
    {context : Context} {events : List Event} {result : Except Stop Outcome}
    (validated : target.Validated rooms env plan context events result)
    (split : events = before ++ .evaluation call input :: later) :
    ∃ services, Delegated rooms env ⟨target, services, context.enterType plan.name⟩ plan before call
        input later ∨
      ∃ since, before = plan.begins ++ since ∧
        Sees rooms env ⟨target, services, context.enterType plan.name⟩ plan since call input result := by
  cases validated with
  | @intro start finish yields ran journal =>
    rw [Object.run_eq] at ran
    obtain ⟨same, led, all⟩ := Run.ensures_onObject enough plain target context start yields
    rw [ran] at led all
    have one : events = same := List.append_cancel_left (journal.symm.trans led.journal)
    exact all before call input later (one ▸ split)

/-- Among the events of a validation an object is validated that is met in it, and there a call is
evaluated for this object and sees what was found of it before. -/
inductive Viewed (rooms : Rooms) (env : Environment) (planOf : TypeKey → Except CompileError TypePlan)
    (object : Object) (plan : TypePlan) (before : List Event) (call : PlannedCall) (input : Call)
    (later : List Event) : Prop where
  | intro {names : List String} {target : Object} {inner : TypePlan} {context : Context}
      {services : List Payload} {since late : List Event} {result : Except Stop Outcome}
      (met : Visits planOf object plan names target inner)
      (validated : target.Validated rooms env inner context
        (inner.begins ++ since ++ .evaluation call input :: late) result)
      (starts : inner.begins ++ since <:+ before) (ends : late <+: later)
      (sees : Sees rooms env ⟨target, services, context.enterType inner.name⟩ inner since call input
        result)

/-- Wherever a call is evaluated in a validation, it is evaluated for an object that is met in it, and
sees what was found of that object before. -/
theorem Object.viewed {object : Object} (enough : ∀ n, n ≤ rooms.fields n)
    (plain : ∀ names target inner call, Visits env.planOf object plan names target inner →
      inner.before = some call → call.shape.contribution ≠ .outcome) (target : Object)
    {names : List String} {inner : TypePlan} {context : Context} {events : List Event}
    {result : Except Stop Outcome} (met : Visits env.planOf object plan names target inner)
    (validated : target.Validated rooms env inner context events result) {before later : List Event}
    (split : events = before ++ .evaluation call input :: later) :
    Viewed rooms env env.planOf object plan before call input later := by
  obtain ⟨services, seen⟩ := sees_of_validated enough (fun call => plain _ _ _ call met) validated split
  rcases seen with delegated | ⟨since, rfl, sees⟩
  · cases delegated with
    | @intro field type below child early late _ declared nested planned holds validated starts ends =>
      have inside := met.nested declared nested planned holds
      cases viewed enough plain child inside validated rfl with
      | intro met validated first last sees =>
        exact .intro met validated (first.trans starts) (last.trans ends) sees
  · rw [split] at validated
    exact .intro met validated (List.suffix_refl _) (List.prefix_refl _) sees
termination_by sizeOf target
decreasing_by exact Object.sizeOf_lt_of_field_eq_object holds

namespace Validator

variable {validator : Validator}

/-- What a rule can see of the outcome under construction, wherever it is evaluated in whichever
validation of an object in which no hook before the fields gives back an outcome of its own. The hook
before the fields of an object sees an empty outcome. A rule of a field sees the messages that this hook
contributed, as many as there is room for, and what came of the fields before, in their order and under
their names; and the hook after the fields sees the same of all fields. All that is final: where there is
an outcome of the object, it begins with what was seen. -/
theorem answer_sees (reachable : validator.Reachable) (object : Object) (way : Way)
    (plain : ∀ plan names target inner call, validator.cache.compile object.type = .ok plan →
      Visits validator.cache.compile object plan names target inner → inner.before = some call →
        call.shape.contribution ≠ .outcome) :
    let env := environment ⟨(validator.prepare object.type way).2, validator.pools⟩ way.request
      way.mayWait
    ∀ before call input later,
      (validator.answer object way).journal = before ++ .evaluation call input :: later →
        ∃ plan, validator.cache.compile object.type = .ok plan ∧
          Viewed validator.pools.rooms env validator.cache.compile object plan before call input
            later := by
  intro env before call input later split
  rw [answer_eq] at split
  rcases prepared : validator.prepare object.type way with ⟨found, cache⟩
  obtain ⟨sound, family, kept⟩ := reachable.sound.prepare prepared
  simp only [env, prepared] at split ⊢
  cases found with
  | error stop => simp at split
  | ok plan =>
    let served := environment ⟨cache, validator.pools⟩ way.request way.mayWait
    have compiled := family.compile_of_get? sound (kept plan rfl)
    have known {names : List String} {target : Object} {inner : TypePlan}
        (met : Visits served.planOf object plan names target inner) :
        Visits validator.cache.compile object plan names target inner :=
      met.mono fun _ _ planned => compile_of_planOf sound family planned
    have yields : OutcomePools.Yields (start ⟨cache, validator.pools⟩ way.request).pools
        validator.pools.rooms := reachable.sound.pools.yields
    have validated : object.Validated validator.pools.rooms served plan way.request.context
        (Validator.run ⟨cache, validator.pools⟩ plan object way.request way.mayWait).journal
        (Validator.run ⟨cache, validator.pools⟩ plan object way.request way.mayWait).result :=
      .intro yields rfl (List.nil_append _).symm
    have viewed := Object.viewed yields.le_fields
      (fun names target inner call met => plain plan names target inner call compiled (known met))
      object .start validated split
    refine ⟨plan, compiled, ?_⟩
    cases viewed with
    | intro met validated starts ends sees =>
      exact .intro (known met) validated starts ends sees

/-- A validator of a type with a hook before the fields, and with a field for another object of the type
between two fields with routines; the hook and the routines refuse. -/
def watched : Validator :=
  let descriptor : TypeDescriptor := {
    name := "Sample"
    fields := [{ declaredField with custom := true }, .ofNested "next" .sample,
      { name := "last", type := "String", custom := true }]
    routines := [⟨TypeModel.beforeName, .refuses⟩, ⟨"validate_declared", .refuses⟩,
      ⟨"validate_last", .refuses⟩] }
  .ofOptions ⟨[(.sample, descriptor)]⟩ ∅ {}

/-- The hook gives back a message. -/
theorem contribution_watched {type : TypeKey} {plan : TypePlan}
    (compiled : watched.cache.compile type = .ok plan) {call : PlannedCall}
    (declared : plan.before = some call) : call.shape.contribution ≠ .outcome := by
  by_cases same : type = .sample
  · subst same
    have checked : ((watched.cache.compile .sample).toOption.all fun plan =>
        plan.before.all fun call => call.shape.contribution != .outcome) = true := by decide +kernel
    rw [compiled] at checked
    simpa [Except.toOption, declared] using checked
  · have other : (type == TypeKey.sample) = false := beq_eq_false_iff_ne.2 same
    obtain ⟨bound, hook, plans⟩ := (PlanCache.hooks_of_compile compiled).1
    have bare : (watched.cache.schema.describe type).routines = [] := by
      simp [watched, ofOptions, Schema.describe, List.lookup_cons, other]
    simp only [TypeModel.hook, TypeDescriptor.routine?, bare, List.find?_nil, Option.map_none,
      Except.ok.injEq] at hook
    subst hook
    rw [declared] at plans
    cases plans

/-- The routine for the last field of an object that another one holds sees what the hook of its own
object contributed, and the two fields before it. -/
theorem watched_sees :
    let object : Object := .mk .sample [("next", .object (.mk .sample []))]
    let verdict := watched.answer object (.waiting {})
    let env := environment ⟨(watched.prepare object.type (.waiting {})).2, watched.pools⟩ {} true
    ∃ before call input later plan,
      verdict.journal = before ++ .evaluation call input :: later ∧
        input.context.fieldPath = "next.last" ∧
        input.outcome.messages.items.map Message.key = ["refused"] ∧
        input.outcome.fields.items.map FieldOutcome.path = ["declared", "next"] ∧
        Viewed watched.pools.rooms env watched.cache.compile object plan before call input later := by
  intro object verdict env
  have alone : ∀ nested ∈ watched.cache.schema.nestedTypes .sample, nested = .sample := by decide
  have evaluated : verdict.journal.any (Event.evaluates fun _ input =>
      input.context.fieldPath == "next.last" &&
        (input.outcome.messages.items.map Message.key == ["refused"] &&
          input.outcome.fields.items.map FieldOutcome.path == ["declared", "next"])) := by
    simp only [verdict]
    rw [answer, validate_of_alone rfl alone]
    decide +kernel
  obtain ⟨call, input, member, holds⟩ := exists_evaluation evaluated
  obtain ⟨before, later, split⟩ := List.append_of_mem member
  have reachable : watched.Reachable := .fresh _ _ _ _ _
  have plain (plan : TypePlan) (names : List String) (target : Object) (inner : TypePlan)
      (call : PlannedCall) (compiled : watched.cache.compile object.type = .ok plan)
      (met : Visits watched.cache.compile object plan names target inner)
      (declared : inner.before = some call) : call.shape.contribution ≠ .outcome := by
    cases met with
    | start => exact contribution_watched compiled declared
    | nested _ _ _ planned _ => exact contribution_watched planned declared
  obtain ⟨plan, _, viewed⟩ := answer_sees reachable object (.waiting {}) plain before call input later split
  simp only [Bool.and_eq_true, beq_iff_eq] at holds
  exact ⟨before, call, input, later, plan, split, holds.1, holds.2.1, holds.2.2, viewed⟩

end Validator

end Assay
