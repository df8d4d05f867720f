/-
Module: Assay.Proofs.Sites
Purpose: Where the evaluations of a validation that ends are in its course. Each is made for an object
  that is met: for one of its hooks, or in the step in which one of its fields is validated. What comes
  of that step is shown by the outcome of the validation, labelled beneath the fields that lead to the
  object, or it was dropped on the way there.
Main exports: Validates, Sited, Accounts, Run.accounts_onNext, Object.accounts_run
-/
import Assay.Proofs.Labels
import Assay.Proofs.Stages
import Assay.Proofs.Unfolding
import Assay.Proofs.Visits

namespace Assay

/-- In a step with these events a field of an object was validated on pools with these rooms, and that is
what came of it. -/
inductive Validates (rooms : Rooms) (env : Environment) (scope : Scope) (strict : Bool)
    (field : FieldPlan) (events : List Event) (own : FieldOutcome) : Prop where
  | intro {seen : Outcome} {start finish : RunState} (yields : start.pools.Yields rooms)
      (ended : Run.onNext env scope strict seen (fun name => (scope.target.field name).run? env) field
        start = (.ok own, finish))
      (journal : finish.journal = start.journal ++ events)

/-- The outcome of a field is labelled with the field's name. -/
theorem Validates.path_eq {rooms : Rooms} {env : Environment} {scope : Scope} {strict : Bool}
    {field : FieldPlan} {events : List Event} {own : FieldOutcome}
    (validates : Validates rooms env scope strict field events own) : own.path = field.name := by
  cases validates with
  | intro yields ended journal => exact Run.path_of_onNext ended

section

variable (rooms : Rooms) (env : Environment) (object : Object) (plan : TypePlan) (base : Context)

/-- The evaluation of a call, among events of which some were before and others later, is made for an
object that is met below the fields of these names. If it is made for a field, it happens in a step in
which the field is validated, and what comes of that is shown by these field outcomes, beneath the names
that lead on from there. -/
inductive Sited (names : List String) (fields : List FieldOutcome) (events before : List Event)
    (call : PlannedCall) (input : Call) (later : List Event) : Prop where
  | hook {below : List String} {scope : Scope} {inner : TypePlan} {outcome : Outcome} {cancelled : Bool}
      (visits : scope.Visits env.planOf object plan base (names ++ below) inner)
      (member : call ∈ inner.hooks)
      (made : input = scope.input (.object scope.target) outcome call cancelled)
  | field {below : List String} {scope : Scope} {inner : TypePlan} {field : FieldPlan}
      {outcome : Outcome} {cancelled : Bool} {own : FieldOutcome} {early late : List Event}
      (visits : scope.Visits env.planOf object plan base (names ++ below) inner)
      (declared : field ∈ inner.fields) (member : call ∈ field.calls)
      (made : input =
        (scope.inside field).input (scope.target.field field.name) outcome call cancelled)
      (validates : Validates rooms env scope inner.failFast field
        (early ++ .evaluation call input :: late) own)
      (starts : early <:+ before) (ends : late <+: later) (shown : own.Shown below fields events)

/-- Every evaluation among these events is sited, and these field outcomes show what came of it. -/
def Accounts (names : List String) (fields : List FieldOutcome) (events : List Event) : Prop :=
  ∀ before call input later, events = before ++ .evaluation call input :: later →
    Sited rooms env object plan base names fields events before call input later

/-- Whatever objects the fields of an object hold, their validations account for what they evaluate. -/
def ChildrenAccount (target : Object) : Prop :=
  ∀ name child, target.field name = .object child → ∀ names inner context,
    Visits env.planOf object plan names child inner →
      context.enterType inner.name = base.below names inner.name →
        Run.Tracks rooms (child.run env inner context) fun outcome events =>
          Accounts rooms env object plan base names outcome.fields.items events

end

variable {rooms : Rooms} {env : Environment} {object : Object} {plan : TypePlan} {base : Context}
  {names : List String} {fields more : List FieldOutcome} {events others : List Event}

namespace Sited

variable {before before' later later' : List Event} {call : PlannedCall} {input : Call}

/-- An evaluation stays sited where its surroundings grow, if what came of it is still shown. -/
theorem carry (sited : Sited rooms env object plan base names fields events before call input later)
    (shows : ∀ (own : FieldOutcome) below,
      own.Shown below fields events → own.Shown below more others)
    (starts : before <:+ before') (ends : later <+: later') :
    Sited rooms env object plan base names more others before' call input later' := by
  cases sited with
  | hook visits member made => exact .hook visits member made
  | field visits declared member made validates first last shown =>
    exact .field visits declared member made validates (first.trans starts) (last.trans ends)
      (shows _ _ shown)

/-- What is sited below a field is shown beneath its name. -/
theorem under {name : String}
    (sited : Sited rooms env object plan base (names ++ [name]) fields events before call input later) :
    Sited rooms env object plan base names (Outcome.fieldsUnder name fields) events before call input
      later := by
  have along (below : List String) : names ++ [name] ++ below = names ++ (name :: below) := by
    rw [List.append_assoc, List.singleton_append]
  cases sited with
  | hook visits member made =>
    rw [along] at visits
    exact .hook visits member made
  | field visits declared member made validates first last shown =>
    rw [along] at visits
    exact .field visits declared member made validates first last (shown.under name)

end Sited

/-! ### Accounting -/

/-- The evaluations among these events are those of these calls on a value. -/
def Scope.Evaluates (scope : Scope) (value : Value) (outcome : Outcome) (calls : List PlannedCall)
    (events : List Event) : Prop :=
  ∀ call input, .evaluation call input ∈ events →
    call ∈ calls ∧ ∃ cancelled, input = scope.input value outcome call cancelled

namespace Scope.Evaluates

variable {scope : Scope} {value : Value} {outcome : Outcome} {calls : List PlannedCall}

theorem silent (silent : ∀ call input, .evaluation call input ∉ events) :
    scope.Evaluates value outcome calls events :=
  fun call input member => absurd member (silent call input)

theorem nil : scope.Evaluates value outcome calls [] :=
  .silent fun _ _ => List.not_mem_nil

theorem append {fewer : List PlannedCall} (first : scope.Evaluates value outcome calls events)
    (second : scope.Evaluates value outcome fewer others) :
    scope.Evaluates value outcome (calls ++ fewer) (events ++ others) := by
  intro call input member
  rcases List.mem_append.1 member with early | late
  · obtain ⟨known, made⟩ := first call input early
    exact ⟨List.mem_append_left _ known, made⟩
  · obtain ⟨known, made⟩ := second call input late
    exact ⟨List.mem_append_right _ known, made⟩

theorem mono {more : List PlannedCall} (evaluates : scope.Evaluates value outcome calls events)
    (among : calls ⊆ more) : scope.Evaluates value outcome more events :=
  fun call input member => (evaluates call input member).imp_left (@among call)

end Scope.Evaluates

/-- Dropping field outcomes is no evaluation. -/
theorem not_evaluation_of_refusals (refused : List FieldOutcome) (call : PlannedCall) (input : Call) :
    .evaluation call input ∉ refused.map Event.refusal := by
  simp

/-- An output that is waited for is polled, and nothing is evaluated. -/
theorem Comes.not_evaluation {shape : ReturnShape} {output : RuleOutput} {events : List Event}
    {halt : Option Stop} (comes : Comes shape output events halt) (call : PlannedCall) (input : Call) :
    .evaluation call input ∉ events := by
  cases comes with
  | there => exact List.not_mem_nil
  | pending _ polled | streaming _ polled => exact polled.not_evaluation call input

/-- What a rule does besides answering goes along with its evaluation. -/
theorem Evaluation.isAside_asides (evaluation : Evaluation) :
    ∀ event ∈ evaluation.asides, event.isAside = true := by
  intro event aside
  rcases mem_asides aside with ⟨note, rfl⟩ | rfl <;> rfl

namespace Accounts

/-- Where nothing is evaluated, there is nothing to account for. -/
theorem silent (silent : ∀ call input, .evaluation call input ∉ events) :
    Accounts rooms env object plan base names fields events := by
  intro before call input later split
  have member : .evaluation call input ∈ events := by simp [split]
  exact absurd member (silent call input)

/-- What happens one after the other is accounted for part by part, as long as no field outcome is
taken away. -/
theorem append (first : Accounts rooms env object plan base names fields events) (kept : fields ⊆ more)
    (second : Accounts rooms env object plan base names more others) :
    Accounts rooms env object plan base names more (events ++ others) := by
  intro before call input later split
  rcases append_eq_append_cons split with ⟨rest, here, rfl⟩ | ⟨rest, rfl, there⟩
  · apply (first before call input rest here).carry
    · exact fun own below shown => shown.mono kept (List.subset_append_left events others)
    · exact List.suffix_refl before
    · exact List.prefix_append rest others
  · apply (second rest call input later there).carry
    · exact fun own below shown =>
        shown.mono (List.Subset.refl more) (List.subset_append_right events others)
    · exact List.suffix_append events rest
    · exact List.prefix_refl later

/-- What is offered to an outcome is accounted for by it. -/
theorem offer (accounts : Accounts rooms env object plan base names fields events) (outcome : Outcome) :
    Accounts rooms env object plan base names (outcome.addFields fields).fields.items
      (events ++ (outcome.fields.overflow fields).map .refusal) := by
  intro before call input later split
  rcases append_eq_append_cons split with ⟨rest, here, rfl⟩ | ⟨rest, rfl, there⟩
  · apply (accounts before call input rest here).carry
    · exact fun own below shown => shown.offer outcome
    · exact List.suffix_refl before
    · exact List.prefix_append rest _
  · have member : .evaluation call input ∈ (outcome.fields.overflow fields).map Event.refusal := by
      simp [there]
    exact absurd member (not_evaluation_of_refusals _ call input)

/-- What is accounted for below a field outcome is accounted for by it. -/
theorem held {path : String} {outcome : Outcome}
    (accounts : Accounts rooms env object plan base names outcome.fields.items events) :
    Accounts rooms env object plan base names [⟨path, outcome⟩] events := by
  intro before call input later split
  apply (accounts before call input later split).carry
  · exact fun own below shown => shown.held
  · exact List.suffix_refl before
  · exact List.prefix_refl later

/-- What is accounted for below a field is accounted for under its name. -/
theorem under {name : String}
    (accounts : Accounts rooms env object plan base (names ++ [name]) fields events) :
    Accounts rooms env object plan base names (Outcome.fieldsUnder name fields) events :=
  fun before call input later split => (accounts before call input later split).under

/-- Evaluations of the hooks of an object that is met are accounted for by that. -/
theorem of_hooks {scope : Scope} {inner : TypePlan} {outcome : Outcome} {calls : List PlannedCall}
    (visits : scope.Visits env.planOf object plan base names inner)
    (evaluates : scope.Evaluates (.object scope.target) outcome calls events)
    (hooks : calls ⊆ inner.hooks) : Accounts rooms env object plan base names fields events := by
  intro before call input later split
  have member : .evaluation call input ∈ events := by simp [split]
  obtain ⟨known, cancelled, made⟩ := evaluates call input member
  rw [← List.append_nil names] at visits
  exact .hook visits (hooks known) made

end Accounts

/-- An outcome keeps the field outcomes that it has when others are offered to it. -/
theorem Outcome.subset_addFields (outcome : Outcome) (offered : List FieldOutcome) :
    outcome.fields.items ⊆ (outcome.addFields offered).fields.items :=
  List.subset_append_left _ _

namespace Run

variable {scope : Scope} {value : Value} {outcome : Outcome}

/-! ### Calls -/

/-- What goes along with an evaluation, and what is dropped of it, is no evaluation. -/
theorem Adds.not_evaluation {declared : Contribution} {into after : Outcome} {found : List Message}
    {brought : List FieldOutcome} (adds : Adds declared into found brought after events)
    (call : PlannedCall) (input : Call) : .evaluation call input ∉ events := by
  cases adds with
  | messages => exact List.not_mem_nil
  | tree => exact not_evaluation_of_refusals _ call input

/-- A call is evaluated and nothing else is. -/
theorem evaluates_of_invoked {call : PlannedCall} {cancelled : Bool} {asides dropped : List Event}
    (aside : ∀ event ∈ asides, event.isAside = true)
    (refused : ∀ call input, .evaluation call input ∉ dropped) :
    scope.Evaluates value outcome [call]
      (.evaluation call (scope.input value outcome call cancelled) :: (asides ++ dropped)) := by
  intro other input member
  rcases List.mem_cons.1 member with same | member
  · cases same
    exact ⟨List.mem_singleton_self call, cancelled, rfl⟩
  · rcases List.mem_append.1 member with along | late
    · cases aside _ along
    · exact absurd late (refused other input)

/-- What is known of a part whatever comes of it is known where it ends. -/
theorem Tracks.ofUnfolds {α : Type} {action : Run α} {post : List Event → Except Stop α → Prop}
    (unfolds : Unfolds rooms action post) :
    Tracks rooms action fun value events => post events (.ok value) := by
  intro state value after _ ended
  obtain ⟨events, led, _, holds⟩ := unfolds state
  rw [ended] at led holds
  exact ⟨events, led, holds⟩

section

variable (env : Environment) (scope : Scope) (value : Value) (outcome : Outcome)

/-- A call is evaluated on what it is made on, even if it stops. -/
theorem evaluates_invoke (call : PlannedCall) (into : Outcome) :
    Unfolds rooms (invoke env scope value outcome call into) fun events _ =>
      scope.Evaluates value outcome [call] events := by
  apply (unfolds_evaluate scope value outcome call).bind
  case stops =>
    rintro _ _ ⟨_, _, same⟩
    cases same
  case second =>
    rintro _ output ⟨cancelled, rfl, _⟩
    refine (unfolds_receive env call output into).mono ?_
    rintro _ result ⟨own, refused, rfl, comes, _⟩
    refine evaluates_of_invoked (Evaluation.isAside_asides _) fun other input member => ?_
    rcases List.mem_append.1 member with polled | dropped
    · exact comes.not_evaluation other input polled
    · exact not_evaluation_of_refusals refused other input dropped

theorem evaluates_onGroup (calls : List PlannedCall) (into : Outcome) :
    Unfolds rooms (onGroup env scope value outcome calls into) fun events _ =>
      scope.Evaluates value outcome calls events := by
  induction calls generalizing into with
  | nil => exact .pure .nil
  | cons call calls ih =>
    rw [onGroup, List.foldlM_cons]
    apply ((evaluates_invoke env scope value outcome call into).holding into).bind
    case stops => exact fun events stop first => first.mono (by simp)
    case second => exact fun events middle first => (ih middle).mono fun _ _ rest => first.append rest

theorem evaluates_onGroups (strict : Bool) (groups : List (List PlannedCall)) (into : Outcome) :
    Unfolds rooms (onGroups env scope strict value outcome groups into) fun events _ =>
      scope.Evaluates value outcome groups.flatten events := by
  induction groups generalizing into with
  | nil => exact .pure .nil
  | cons group groups ih =>
    rw [List.flatten_cons]
    apply (evaluates_onGroup env scope value outcome group into).bind
    case stops => exact fun events stop first => first.mono (List.subset_append_left _ _)
    case second =>
      intro events middle first
      refine .ite (fun _ => .pure (first.append .nil)) fun _ => ?_
      exact (ih middle).mono fun _ _ rest => first.append rest

end

/-- A hook is called for its object, and the object's field outcomes are kept. -/
theorem Hooks.accounts {inner : TypePlan} {hook : Option PlannedCall} {after : Outcome}
    (visits : scope.Visits env.planOf object plan base names inner)
    (declared : ∀ call, hook = some call → call ∈ inner.hooks)
    (hooks : Hooks rooms scope inner outcome hook after events) :
    outcome.fields.items ⊆ after.fields.items ∧
      Accounts rooms env object plan base names after.fields.items events := by
  cases hooks with
  | absent => exact ⟨List.Subset.refl _, .silent fun _ _ => List.not_mem_nil⟩
  | @invoked call cancelled asides dropped scratch aside adds =>
    constructor
    · rw [Outcome.absorb_into]
      exact Outcome.subset_addFields _ _
    · have calls : [call] ++ [] ⊆ inner.hooks := by simpa using declared call rfl
      have evaluates : scope.Evaluates (.object scope.target) outcome [call]
          (.evaluation call (scope.input (.object scope.target) outcome call cancelled) ::
            (asides ++ dropped)) := evaluates_of_invoked aside adds.not_evaluation
      exact .of_hooks visits (evaluates.append (.silent (not_evaluation_of_refusals _))) calls

/-! ### Fields -/

section

variable {inner : TypePlan} {field : FieldPlan}
  (visits : scope.Visits env.planOf object plan base names inner)
  (children : ChildrenAccount rooms env object plan base scope.target)

include visits children

/-- The validation of the object that a field holds accounts for what it evaluates beneath the name of
the field. -/
theorem accounts_onNested (declared : field ∈ inner.fields) {nested : Option TypePlan}
    (planned : ∀ found, nested = some found →
      ∃ type, field.nested = some type ∧ env.planOf type = .ok found) (into : Outcome) :
    Tracks rooms (onNested field (scope.inside field).context nested
      ((scope.target.field field.name).run? env) into) fun after events =>
        Accounts rooms env object plan base names after.fields.items events := by
  cases nested with
  | none => exact .pure (.silent fun _ _ => List.not_mem_nil)
  | some found =>
    cases descent : (scope.target.field field.name).run? env with
    | none => exact .pure (.silent fun _ _ => List.not_mem_nil)
    | some run =>
      obtain ⟨child, holds, rfl⟩ := Value.run?_eq_some descent
      obtain ⟨type, leads, compiled⟩ := planned found rfl
      have met := visits.met.nested declared leads compiled holds
      have enters : (scope.inside field).context.enterType found.name =
          base.below (names ++ [field.name]) found.name := by
        rw [Scope.inside, visits.context, Context.enterType_below]
      apply ((children _ child holds _ found _ met enters).holding into).bind
      intro below events accounts
      apply (tracks_merge _ _ _).mono
      rintro after others ⟨rfl, rfl⟩
      rw [Outcome.absorb_into, Outcome.absorb_refused]
      exact accounts.under.offer (into.addMessages below.messages.items)

/-- A field makes its calls, and after them the object that it holds is validated. -/
theorem accounts_onField (declared : field ∈ inner.fields) (strict : Bool) (seen : Outcome) :
    Tracks rooms (onField env (scope.inside field) strict seen
      ((scope.target.field field.name).run? env) field) fun own events =>
        ∃ calls held, events = calls ++ held ∧
          (scope.inside field).Evaluates (scope.target.field field.name) seen field.calls calls ∧
            Accounts rooms env object plan base names [own] held := by
  apply (tracks_nestedPlan env field).bind
  rintro nested _ ⟨planned, _, rfl⟩
  apply (tracks_createField _ _).bind
  rintro fresh _ ⟨rfl, rfl⟩
  apply (Tracks.ofUnfolds (evaluates_onGroups env (scope.inside field) _ seen strict field.groups _)).bind
  intro content calls evaluates
  refine .ite (fun _ => .pure ?_) fun _ => ?_
  · exact ⟨calls, [], rfl, evaluates, .silent fun _ _ => List.not_mem_nil⟩
  · apply (accounts_onNested visits children declared planned content).bind
    intro after held accounts
    exact .pure ⟨calls, held, by simp, evaluates, accounts.held⟩

/-- The step in which a field is validated accounts for what is evaluated in it: for the calls of the
field by itself, and for the object that the field holds by what was merged under its name. -/
theorem accounts_onNext (declared : field ∈ inner.fields) (seen : Outcome) :
    Tracks rooms (onNext env scope inner.failFast seen
      (fun name => (scope.target.field name).run? env) field) fun own events =>
        Accounts rooms env object plan base names [own] events := by
  have parts : Tracks rooms (onNext env scope inner.failFast seen
      (fun name => (scope.target.field name).run? env) field) fun own events =>
        ∃ calls held, events = calls ++ held ∧
          (scope.inside field).Evaluates (scope.target.field field.name) seen field.calls calls ∧
            Accounts rooms env object plan base names [own] held := by
    apply Tracks.holding
    apply (tracks_checkpoint _).bind
    rintro _ _ rfl
    apply (accounts_onField visits children declared inner.failFast seen).mono
    rintro own _ ⟨calls, held, rfl, evaluates, accounts⟩
    have looks : (scope.inside field).Evaluates (scope.target.field field.name) seen []
        [.checkpoint (.field field.name) false] := .silent (by simp)
    exact ⟨_ :: calls, held, rfl, looks.append evaluates, accounts⟩
  intro start own finish yields ended
  obtain ⟨_, led, calls, held, rfl, evaluates, accounts⟩ := parts start own finish yields ended
  refine ⟨calls ++ held, led, ?_⟩
  have validates : Validates rooms env scope inner.failFast field (calls ++ held) own :=
    .intro yields ended led.journal
  intro before call input later split
  rcases append_eq_append_cons split with ⟨rest, here, _⟩ | ⟨rest, rfl, there⟩
  · -- The field's own call: the step is the one that has just ended.
    have member : .evaluation call input ∈ calls := by simp [here]
    obtain ⟨known, cancelled, made⟩ := evaluates call input member
    rw [split] at validates
    rw [← List.append_nil names] at visits
    exact .field visits declared known made validates (List.suffix_refl before)
      (List.prefix_refl later) (.alone own _)
  · apply (accounts rest call input later there).carry
    · exact fun other below shown =>
        shown.mono (List.Subset.refl _) (List.subset_append_right calls held)
    · exact List.suffix_append calls rest
    · exact List.prefix_refl later

/-- The fields of an object account for what is evaluated in them by what is attached. -/
theorem accounts_onFields {fields : List FieldPlan} (declared : fields ⊆ inner.fields)
    (outcome : Outcome) :
    Tracks rooms (onFields env scope inner.failFast (fun name => (scope.target.field name).run? env)
      fields outcome) fun result events =>
        outcome.fields.items ⊆ result.1.fields.items ∧
          Accounts rooms env object plan base names result.1.fields.items events := by
  induction fields generalizing outcome with
  | nil => exact .pure ⟨List.Subset.refl _, .silent fun _ _ => List.not_mem_nil⟩
  | cons field fields ih =>
    obtain ⟨own, others⟩ := List.cons_subset.1 declared
    apply (accounts_onNext visits children own outcome).bind
    intro result events accounts
    apply (tracks_attach outcome result).bind
    rintro middle _ ⟨rfl, rfl⟩
    have grown := outcome.subset_addFields [result]
    have attached := accounts.offer outcome
    refine .ite (fun _ => .pure ?_) fun _ => (ih others _).mono ?_
    · rw [List.append_nil]
      exact ⟨grown, attached⟩
    · rintro last rest ⟨kept, accountsRest⟩
      rw [← List.append_assoc]
      exact ⟨List.Subset.trans grown kept, attached.append kept accountsRest⟩

/-- The contents of an object account for what is evaluated in them. -/
theorem accounts_onContents (outcome : Outcome) :
    Tracks rooms (onContents env scope (fun name => (scope.target.field name).run? env) inner outcome)
      fun after events => Accounts rooms env object plan base names after.fields.items events := by
  have before : ∀ call, inner.before = some call → call ∈ inner.hooks :=
    fun call present => List.mem_append_left _ (Option.mem_toList.2 present)
  have after : ∀ call, inner.after = some call → call ∈ inner.hooks :=
    fun call present => List.mem_append_right _ (Option.mem_toList.2 present)
  apply (tracks_onHook env scope inner inner.before outcome).bind
  intro opened first hooks
  obtain ⟨_, accounts⟩ := hooks.accounts visits before
  refine .ite (fun _ => .pure ?_) fun _ => ?_
  · rw [List.append_nil]
    exact accounts
  apply (accounts_onFields visits children (List.Subset.refl _) opened).bind
  rintro ⟨walked, ended⟩ second ⟨kept, accountsFields⟩
  have together := accounts.append kept accountsFields
  refine .ite (fun _ => .pure ?_) fun _ => (tracks_onHook env scope inner inner.after walked).mono ?_
  · rw [List.append_nil]
    exact together
  · intro closed third hooks
    obtain ⟨grown, accountsLast⟩ := hooks.accounts visits after
    rw [← List.append_assoc]
    exact together.append grown accountsLast

end

end Run

/-- The validation of an object that is met accounts for what it evaluates. -/
theorem Object.accounts_run (target : Object) :
    ∀ names inner context, Visits env.planOf object plan names target inner →
      context.enterType inner.name = base.below names inner.name →
        Run.Tracks rooms (target.run env inner context) fun outcome events =>
          Accounts rooms env object plan base names outcome.fields.items events := by
  refine Object.run_induction env (motive := fun target run => ∀ names inner context,
    Visits env.planOf object plan names target inner →
      context.enterType inner.name = base.below names inner.name →
        Run.Tracks rooms (run inner context) fun outcome events =>
          Accounts rooms env object plan base names outcome.fields.items events) ?_ target
  intro target children names inner context met enters
  apply (Run.tracks_checkpoint _).bind
  rintro _ _ rfl
  apply (Run.tracks_lookups env _).bind
  rintro services _ ⟨_, rfl⟩
  apply (Run.tracks_create _).bind
  rintro fresh _ ⟨rfl, rfl⟩
  have visits : Scope.Visits env.planOf object plan base names inner
      ⟨target, services, context.enterType inner.name⟩ := ⟨met, enters⟩
  apply (Run.accounts_onContents visits children _).mono
  intro outcome events accounts
  have begins : Accounts rooms env object plan base names ([] : List FieldOutcome)
      (.checkpoint (.object inner.type) false :: inner.dependencies.map .lookup) :=
    .silent (by simp)
  rw [List.nil_append]
  exact begins.append (List.nil_subset _) accounts

/-- The validation of an object accounts for all that it evaluates. -/
theorem Object.accounts_run_start (rooms : Rooms) (env : Environment) (object : Object)
    (plan : TypePlan) (base : Context) :
    Run.Tracks rooms (object.run env plan base) fun outcome events =>
      Accounts rooms env object plan base [] outcome.fields.items events :=
  accounts_run object [] plan base .start (base.below_nil plan.name).symm

end Assay
