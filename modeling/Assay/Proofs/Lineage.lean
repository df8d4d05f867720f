/-
Module: Assay.Proofs.Lineage
Purpose: Where the field outcomes of an object come from. A hook brings those of the outcome that it
  composes. Each field has one, which has those that the rules of the field bring, and beneath the name
  of the field those of the object that it holds. So a tree is labelled well if what calls compose is,
  and no path occurs twice where calls compose no field outcomes and no name has a dot.
Main exports: PlannedCall.composed?, Call.IsFor, Event.LabelsOwn, Run.Grown, Object.grown_run,
  Validator.nodes_found_by_path
-/
import Assay.Proofs.Admission
import Assay.Proofs.Lookup
import Assay.Proofs.Provision
import Assay.Proofs.Reordering

namespace Assay

/-! ### What calls compose -/

/-- The outcome that an output is or brings in the end, for a rule of that return shape. -/
def RuleOutput.composed? (rooms : Rooms) (shape : ReturnShape) : RuleOutput → Option Outcome
  | .outcome draft => if shape.contribution = .outcome then some (rooms.build draft) else none
  | .pending _ (.outcome draft) =>
    if shape.contribution = .outcome ∧ shape.delivery ≠ .immediate then some (rooms.build draft) else none
  | _ => none

/-- The outcome that a call composes when it is made on that input. -/
def PlannedCall.composed? (rooms : Rooms) (call : PlannedCall) (input : Call) : Option Outcome :=
  (call.rule.evaluate input).output.composed? rooms call.shape

theorem RuleOutput.composed?_of_settles {shape : ReturnShape} {output : RuleOutput} {draft : Draft}
    (rooms : Rooms) (declared : shape.contribution = .outcome)
    (settles : output.Settles shape (.outcome draft)) :
    output.composed? rooms shape = some (rooms.build draft) := by
  cases settles with
  | there => exact if_pos declared
  | waited delayed => exact if_pos ⟨declared, delayed⟩

/-- A call is made for the field of that name of its object. -/
structure Call.IsFor (input : Call) (name : String) : Prop where
  inside : input.context.field = some name
  value : input.value = input.target.field name

/-- An object is no field of itself: what a hook is called for is no field. -/
theorem Call.not_isFor_of_hook {input : Call} (hook : input.value = .object input.target)
    (name : String) : ¬ input.IsFor name := by
  intro own
  have smaller := Object.sizeOf_lt_of_field_eq_object (own.value.symm.trans hook)
  exact absurd smaller (Nat.lt_irrefl _)

namespace Event

/-- What a call composes is labelled well, and beneath the name of the field that the call is for. -/
def LabelsOwn (rooms : Rooms) : Event → Prop
  | .evaluation call input => ∀ tree ∈ call.composed? rooms input, tree.WellLabelled ∧
      ∀ name, input.IsFor name → ∀ child ∈ tree.fields.items, Outcome.LeadsBelow child.path name
  | _ => True

/-- A call composes no field outcomes. -/
def ComposesNone (rooms : Rooms) : Event → Prop
  | .evaluation call input => ∀ tree ∈ call.composed? rooms input, tree.fields.items = []
  | _ => True

/-- What a call composes is labelled well, and beneath the name that the context of the call ends with.
That is more than is asked, for the context of a hook ends with the field that holds its object. -/
def LabelsInside (rooms : Rooms) : Event → Prop
  | .evaluation call input => ∀ tree ∈ call.composed? rooms input, tree.WellLabelled ∧
      ∀ name ∈ input.context.field, ∀ child ∈ tree.fields.items, Outcome.LeadsBelow child.path name
  | _ => True

instance (rooms : Rooms) : DecidablePred (LabelsInside rooms) := fun
  | .evaluation call input => inferInstanceAs (Decidable (∀ tree ∈ call.composed? rooms input,
      tree.WellLabelled ∧ ∀ name ∈ input.context.field, ∀ child ∈ tree.fields.items,
        Outcome.LeadsBelow child.path name))
  | .checkpoint .. | .lookup _ | .note _ | .cancellation | .refusal _ => .isTrue trivial

instance (rooms : Rooms) : DecidablePred (ComposesNone rooms) := fun
  | .evaluation call input => decidable_of_iff
      (∀ tree ∈ call.composed? rooms input, tree.fields.items.isEmpty = true)
      (by simp only [ComposesNone, List.isEmpty_iff])
  | .checkpoint .. | .lookup _ | .note _ | .cancellation | .refusal _ => .isTrue trivial

theorem LabelsInside.labelsOwn {rooms : Rooms} {event : Event} (inside : event.LabelsInside rooms) :
    event.LabelsOwn rooms := by
  cases event with
  | evaluation call input =>
    intro tree composed
    obtain ⟨labelled, leads⟩ := inside tree composed
    exact ⟨labelled, fun name own => leads name own.inside⟩
  | _ => trivial

/-- Where no field outcomes are composed, there is nothing to label. -/
theorem ComposesNone.labelsOwn {rooms : Rooms} {event : Event} (nothing : event.ComposesNone rooms) :
    event.LabelsOwn rooms := by
  cases event with
  | evaluation call input =>
    intro tree composed
    have empty := nothing tree composed
    constructor
    · apply Outcome.wellLabelled_iff.2
      rw [empty]
      exact fun _ member => absurd member List.not_mem_nil
    · intro name _ child member
      rw [empty] at member
      cases member
  | _ => trivial

end Event

namespace Run

open Outcome

variable {rooms : Rooms}

/-- A field outcome is among those that a call composes. -/
inductive Brought (rooms : Rooms) (made : Call → Prop) (events : List Event) (item : FieldOutcome) :
    Prop where
  | intro {call : PlannedCall} {input : Call} {tree : Outcome}
      (happened : .evaluation call input ∈ events) (own : made input)
      (composes : call.composed? rooms input = some tree) (member : item ∈ tree.fields.items)

theorem Brought.mono {made weaker : Call → Prop} {events more : List Event} {item : FieldOutcome}
    (brought : Brought rooms made events item) (weaken : ∀ input, made input → weaker input)
    (known : events ⊆ more) : Brought rooms weaker more item := by
  cases brought with
  | intro happened own composes member => exact .intro (known happened) (weaken _ own) composes member

/-- All that is new in an outcome was brought by calls. -/
def Brings (rooms : Rooms) (made : Call → Prop) (into after : Outcome) (events : List Event) : Prop :=
  ∃ brought, after.fields.items = into.fields.items ++ brought ∧
    ∀ item ∈ brought, Brought rooms made events item

namespace Brings

variable {made : Call → Prop} {into middle after : Outcome} {events more : List Event}

theorem refl (outcome : Outcome) : Brings rooms made outcome outcome [] :=
  ⟨[], by simp, by simp⟩

theorem trans (first : Brings rooms made into middle events)
    (second : Brings rooms made middle after more) : Brings rooms made into after (events ++ more) := by
  obtain ⟨early, grown, broughtEarly⟩ := first
  obtain ⟨late, grownOn, broughtLate⟩ := second
  refine ⟨early ++ late, by rw [grownOn, grown, List.append_assoc], ?_⟩
  rw [List.forall_mem_append]
  exact ⟨fun item member => (broughtEarly item member).mono (fun _ => id) (List.subset_append_left _ _),
    fun item member => (broughtLate item member).mono (fun _ => id) (List.subset_append_right _ _)⟩

end Brings

/-- The calls on a value of an object. -/
structure On (scope : Scope) (value : Value) (input : Call) : Prop where
  value : input.value = value
  target : input.target = scope.target
  context : input.context = scope.context

/-- What an output gathers to the field outcomes is in an outcome that is there in the end. -/
theorem Receives.brings {call : PlannedCall} {input : Call} {into after : Outcome} {events : List Event}
    {made : Call → Prop} (happened : .evaluation call input ∈ events) (own : made input)
    (receives : Receives rooms call.shape into (call.rule.evaluate input).output after) :
    Brings rooms made into after events := by
  generalize answered : (call.rule.evaluate input).output = output at receives
  cases receives with
  | stream items delayed wanted => exact ⟨[], by simp, by simp⟩
  | ignored => exact ⟨[], by simp, by simp⟩
  | ready settles folds =>
    generalize declared : call.shape.contribution = contribution at folds
    cases folds with
    | message | messages => exact ⟨[], by simp, by simp⟩
    | ignored => exact ⟨[], by simp, by simp⟩
    | outcome draft =>
      have composes : call.composed? rooms input = some (rooms.build draft) := by
        rw [PlannedCall.composed?, answered]
        exact RuleOutput.composed?_of_settles rooms declared settles
      refine ⟨(rooms.build draft).fields.items.take into.fields.room, by rw [absorb_into]; rfl, ?_⟩
      intro item member
      exact .intro happened own composes (List.mem_of_mem_take member)

theorem brings_invoke (env : Environment) (scope : Scope) (value : Value) (outcome : Outcome)
    (call : PlannedCall) (into : Outcome) :
    Tracks rooms (invoke env scope value outcome call into) (Brings rooms (On scope value) into) := by
  apply (tracks_evaluate scope value outcome call).bind
  intro output _ evaluated
  obtain ⟨cancelled, asides, rfl, rfl, _⟩ := evaluated
  apply (tracks_receive_receives env call _ into).mono
  intro after more receives
  exact receives.brings (by simp) ⟨rfl, rfl, rfl⟩

theorem brings_onGroups (env : Environment) (scope : Scope) (failFast : Bool) (value : Value)
    (outcome : Outcome) (groups : List (List PlannedCall)) (into : Outcome) :
    Tracks rooms (onGroups env scope failFast value outcome groups into)
      (Brings rooms (On scope value) into) :=
  tracks_onGroups .refl .trans (brings_invoke env scope value outcome) failFast groups into

/-- What a hook gathers is brought by its call. -/
theorem brings_onHook (env : Environment) (scope : Scope) (plan : TypePlan)
    (hook : Option PlannedCall) (outcome : Outcome) :
    Tracks rooms (onHook env scope plan hook outcome)
      (Brings rooms (On scope (.object scope.target)) outcome) := by
  cases hook with
  | none => exact .pure (.refl outcome)
  | some call =>
    apply (tracks_hooked plan (brings_invoke env scope _ outcome call _)).mono
    intro after events hooked
    obtain ⟨scratch, own, brings, rfl, rfl⟩ := hooked
    obtain ⟨brought, grown, bears⟩ := brings
    have all : scratch.fields.items = brought := grown
    refine ⟨scratch.fields.items.take outcome.fields.room, by rw [absorb_into]; rfl, ?_⟩
    intro item member
    rw [all] at member
    exact (bears item (List.mem_of_mem_take member)).mono (fun _ => id) (List.subset_append_left _ _)

/-! ### Where field outcomes come from -/

/-- Field outcomes as they are found for these fields of an object, in their order: those that a hook
brings, and at most one for each field, which has what the field's own rules bring, and beneath its name
what was found for the object that it holds. -/
inductive Grown (rooms : Rooms) (planOf : TypeKey → Except CompileError TypePlan)
    (events : List Event) : List FieldPlan → List FieldOutcome → Prop where
  | none (fields : List FieldPlan) : Grown rooms planOf events fields []
  | brought {fields : List FieldPlan} {item : FieldOutcome} {items : List FieldOutcome}
      (own : Brought rooms (fun _ => True) events item) (rest : Grown rooms planOf events fields items) :
    Grown rooms planOf events fields (item :: items)
  | dropped {field : FieldPlan} {fields : List FieldPlan} {items : List FieldOutcome}
      (rest : Grown rooms planOf events fields items) : Grown rooms planOf events (field :: fields) items
  | plain {field : FieldPlan} {fields : List FieldPlan} {items : List FieldOutcome} {content : Outcome}
      (own : ∀ item ∈ content.fields.items, Brought rooms (·.IsFor field.name) events item)
      (rest : Grown rooms planOf events fields items) :
    Grown rooms planOf events (field :: fields) (⟨field.name, content⟩ :: items)
  | holding {field : FieldPlan} {fields : List FieldPlan} {items brought held : List FieldOutcome}
      {content : Outcome} {type : TypeKey} {plan : TypePlan} (leads : field.nested = some type)
      (planned : planOf type = .ok plan)
      (parts : content.fields.items = brought ++ fieldsUnder field.name held)
      (own : ∀ item ∈ brought, Brought rooms (·.IsFor field.name) events item)
      (below : Grown rooms planOf events plan.fields held)
      (rest : Grown rooms planOf events fields items) :
    Grown rooms planOf events (field :: fields) (⟨field.name, content⟩ :: items)

namespace Grown

variable {planOf : TypeKey → Except CompileError TypePlan} {events more : List Event}
  {fields others : List FieldPlan} {items found : List FieldOutcome}

theorem mono (grown : Grown rooms planOf events fields items) (known : events ⊆ more) :
    Grown rooms planOf more fields items := by
  induction grown with
  | none fields => exact .none fields
  | brought own _ ih => exact .brought (own.mono (fun _ => id) known) ih
  | dropped _ ih => exact .dropped ih
  | plain own _ ih => exact .plain (fun item member => (own item member).mono (fun _ => id) known) ih
  | holding leads planned parts own _ _ below ih =>
    exact .holding leads planned parts (fun item member => (own item member).mono (fun _ => id) known)
      below ih

/-- What calls bring is there for no field. -/
theorem of_brought (own : ∀ item ∈ items, Brought rooms (fun _ => True) events item) :
    Grown rooms planOf events fields items := by
  induction items with
  | nil => exact .none fields
  | cons item items ih =>
    obtain ⟨first, rest⟩ := List.forall_mem_cons.1 own
    exact .brought first (ih rest)

theorem append (first : Grown rooms planOf events fields items)
    (second : Grown rooms planOf events others found) :
    Grown rooms planOf events (fields ++ others) (items ++ found) := by
  induction first with
  | none fields =>
    induction fields with
    | nil => exact second
    | cons field fields ih => exact .dropped ih
  | brought own _ ih => exact .brought own ih
  | dropped _ ih => exact .dropped ih
  | plain own _ ih => exact .plain own ih
  | holding leads planned parts own below _ _ ih => exact .holding leads planned parts own below ih

/-- Some of the field outcomes are found for the same fields. -/
theorem sublist (grown : Grown rooms planOf events fields items) (kept : found.Sublist items) :
    Grown rooms planOf events fields found := by
  induction grown generalizing found with
  | none fields =>
    rw [List.sublist_nil.1 kept]
    exact .none fields
  | brought own _ ih =>
    cases kept with
    | cons _ kept => exact ih kept
    | cons_cons _ kept => exact .brought own (ih kept)
  | dropped _ ih => exact .dropped (ih kept)
  | plain own _ ih =>
    cases kept with
    | cons _ kept => exact .dropped (ih kept)
    | cons_cons _ kept => exact .plain own (ih kept)
  | holding leads planned parts own below _ _ ih =>
    cases kept with
    | cons _ kept => exact .dropped (ih kept)
    | cons_cons _ kept => exact .holding leads planned parts own below (ih kept)

end Grown

/-- All that is new in an outcome is found for these fields. -/
def Gathers (rooms : Rooms) (planOf : TypeKey → Except CompileError TypePlan) (fields : List FieldPlan)
    (into after : Outcome) (events : List Event) : Prop :=
  ∃ found, after.fields.items = into.fields.items ++ found ∧ Grown rooms planOf events fields found

namespace Gathers

variable {planOf : TypeKey → Except CompileError TypePlan} {events more : List Event}
  {fields others : List FieldPlan} {into middle after : Outcome}

theorem none (fields : List FieldPlan) (outcome : Outcome) :
    Gathers rooms planOf fields outcome outcome [] :=
  ⟨[], (List.append_nil _).symm, .none fields⟩

theorem of_brings {made : Call → Prop} (brings : Brings rooms made into after events) :
    Gathers rooms planOf [] into after events := by
  obtain ⟨brought, grown, bears⟩ := brings
  have known := fun item member => (bears item member).mono (fun _ _ => trivial) (List.Subset.refl _)
  exact ⟨brought, grown, .of_brought known⟩

theorem trans (first : Gathers rooms planOf fields into middle events)
    (second : Gathers rooms planOf others middle after more) :
    Gathers rooms planOf (fields ++ others) into after (events ++ more) := by
  obtain ⟨early, gathers, grown⟩ := first
  obtain ⟨late, gathersOn, grownOn⟩ := second
  have all : after.fields.items = into.fields.items ++ (early ++ late) := by
    rw [gathersOn, gathers, List.append_assoc]
  have known := (grown.mono (List.subset_append_left events more)).append
    (grownOn.mono (List.subset_append_right events more))
  exact ⟨early ++ late, all, known⟩

end Gathers

/-! ### Following a validation -/

/-- What the validation of an object in a field finds comes from the fields of its plan. -/
def GrownDescent (rooms : Rooms) (env : Environment) (descent : Option Descent) : Prop :=
  ∀ run, descent = some run → ∀ plan context, Tracks rooms (run plan context) fun outcome events =>
    Grown rooms env.planOf events plan.fields outcome.fields.items

section

variable {env : Environment} {scope : Scope} {field : FieldPlan}

/-- The field outcomes of the object that a field holds are merged beneath the name of the field. -/
theorem grown_onNested {nested : Option TypePlan} {descent : Option Descent}
    (planned : ∀ found, nested = some found →
      ∃ type, field.nested = some type ∧ env.planOf type = .ok found)
    (grows : GrownDescent rooms env descent) (context : Context) (into : Outcome) :
    Tracks rooms (onNested field context nested descent into) fun after events =>
      after = into ∨ ∃ type plan held, field.nested = some type ∧ env.planOf type = .ok plan ∧
        after.fields.items = into.fields.items ++ fieldsUnder field.name held ∧
        Grown rooms env.planOf events plan.fields held := by
  cases nested with
  | none => exact .pure (.inl rfl)
  | some plan =>
    cases descent with
    | none => exact .pure (.inl rfl)
    | some run =>
      obtain ⟨type, leads, known⟩ := planned plan rfl
      apply ((grows run rfl plan context).holding into).bind
      intro child events grown
      apply (tracks_merge _ _ _).mono
      intro after more merged
      obtain ⟨rfl, rfl⟩ := merged
      have kept := (List.take_sublist into.fields.room child.fields.items)
      refine .inr ⟨type, plan, _, leads, known, ?_, (grown.sublist kept).mono (List.subset_append_left _ _)⟩
      rw [absorb_into, fieldsUnder_eq_map, List.map_take, ← fieldsUnder_eq_map]
      rfl

/-- A field has one outcome, with what its rules bring and what is found for the object it holds. -/
theorem grown_onField (failFast : Bool) (outcome : Outcome) {descent : Option Descent}
    (grows : GrownDescent rooms env descent) :
    Tracks rooms (onField env (scope.inside field) failFast outcome descent field) fun own events =>
      Grown rooms env.planOf events [field] [own] := by
  apply (tracks_nestedPlan env field).bind
  intro nested _ looked
  obtain ⟨planned, _, rfl⟩ := looked
  apply (tracks_createField _ _).bind
  intro fresh _ created
  obtain ⟨rfl, rfl⟩ := created
  apply (brings_onGroups env (scope.inside field) failFast _ outcome field.groups _).bind
  intro content calls brings
  obtain ⟨brought, grown, bears⟩ := brings
  have all : content.fields.items = brought := grown
  have own : ∀ item ∈ content.fields.items, Brought rooms (·.IsFor field.name) calls item := by
    intro item member
    rw [all] at member
    refine (bears item member).mono (fun input on => ⟨?_, ?_⟩) (List.Subset.refl _)
    · rw [on.context]
      exact List.getLast?_concat
    · rw [on.value, on.target]
  refine .ite (fun _ => .pure ?_) fun _ => ?_
  · simpa using Grown.plain own (.none [])
  · apply (grown_onNested planned grows _ content).bind
    intro after below merged
    have known : calls ⊆ [] ++ ([] ++ (calls ++ (below ++ []))) := by simp
    have later : below ⊆ [] ++ ([] ++ (calls ++ (below ++ []))) := by simp
    have ownLater := fun item member => (own item member).mono (fun _ => id) known
    cases merged with
    | inl same =>
      rw [same]
      exact .pure (.plain ownLater (.none []))
    | inr merged =>
      obtain ⟨type, plan, held, leads, planned, parts, grown⟩ := merged
      exact .pure (.holding leads planned parts ownLater (grown.mono later) (.none []))

theorem grown_onNext (failFast : Bool) (outcome : Outcome) {descent : String → Option Descent}
    (grows : ∀ name, GrownDescent rooms env (descent name)) (field : FieldPlan) :
    Tracks rooms (onNext env scope failFast outcome descent field) fun own events =>
      Grown rooms env.planOf events [field] [own] := by
  apply Tracks.holding
  apply (tracks_checkpoint _).bind
  intro _ looked _
  apply (grown_onField failFast outcome (grows field.name)).mono
  intro own events grown
  exact grown.mono (List.subset_append_right _ _)

/-- What is attached for the fields of an object comes from them. -/
theorem gathers_onFields (failFast : Bool) {descent : String → Option Descent}
    (grows : ∀ name, GrownDescent rooms env (descent name)) (fields : List FieldPlan)
    (outcome : Outcome) :
    Tracks rooms (onFields env scope failFast descent fields outcome) fun result events =>
      Gathers rooms env.planOf fields outcome result.1 events := by
  induction fields generalizing outcome with
  | nil => exact .pure (.none [] outcome)
  | cons field fields ih =>
    apply (grown_onNext failFast outcome grows field).bind
    intro own events grown
    apply (tracks_attach _ _).bind
    intro middle refused attached
    obtain ⟨rfl, rfl⟩ := attached
    have kept := grown.sublist (List.take_sublist outcome.fields.room [own])
    have gathers : Gathers rooms env.planOf [field] outcome (outcome.addFields [own])
        (events ++ (outcome.fields.overflow [own]).map .refusal) :=
      ⟨_, rfl, kept.mono (List.subset_append_left _ _)⟩
    refine .ite (fun _ => .pure ?_) fun _ => (ih _).mono ?_
    · rw [← List.append_assoc]
      exact gathers.trans (.none fields _)
    · intro result more rest
      rw [← List.append_assoc]
      exact gathers.trans rest

/-- What is found in an object comes from its hooks and its fields. -/
theorem gathers_onContents {descent : String → Option Descent}
    (grows : ∀ name, GrownDescent rooms env (descent name)) (plan : TypePlan) (outcome : Outcome) :
    Tracks rooms (onContents env scope descent plan outcome)
      (Gathers rooms env.planOf plan.fields outcome) := by
  apply (brings_onHook env scope plan plan.before outcome).bind
  intro first events opening
  have early : Gathers rooms env.planOf [] outcome first events := .of_brings opening
  refine .ite (fun _ => .pure (early.trans (.none plan.fields first))) fun _ => ?_
  apply (gathers_onFields _ grows plan.fields first).bind
  intro result more walked
  have thus := early.trans walked
  refine .ite (fun _ => .pure ?_) fun _ => ?_
  · rw [List.append_nil]
    exact thus
  · apply (brings_onHook env scope plan plan.after result.1).mono
    intro last rest closing
    have late : Gathers rooms env.planOf [] result.1 last rest := .of_brings closing
    have whole := thus.trans late
    rwa [List.append_nil, List.append_assoc] at whole

theorem grown_onObject (env : Environment) {descent : String → Option Descent}
    (grows : ∀ name, GrownDescent rooms env (descent name)) (target : Object) (plan : TypePlan)
    (context : Context) :
    Tracks rooms (onObject env descent target plan context) fun outcome events =>
      Grown rooms env.planOf events plan.fields outcome.fields.items := by
  apply (tracks_checkpoint _).bind
  intro _ _ _
  apply (tracks_lookups env _).bind
  intro services _ _
  apply (tracks_create _).bind
  intro empty _ created
  obtain ⟨rfl, rfl⟩ := created
  apply (gathers_onContents grows plan _).mono
  intro outcome events gathers
  obtain ⟨found, all, grown⟩ := gathers
  have whole : outcome.fields.items = found := all
  rw [whole]
  exact grown.mono (by simp)

end

/-! ### Labels of what is found -/

namespace Grown

variable {planOf : TypeKey → Except CompileError TypePlan} {events : List Event}
  {fields : List FieldPlan} {items : List FieldOutcome}

/-- What a call composes for a field is labelled well, and leads below the name of the field. -/
theorem labels_of_brought {name : String} (own : ∀ event ∈ events, event.LabelsOwn rooms)
    (brought : ∀ item ∈ items, Brought rooms (·.IsFor name) events item) :
    WellLabelledFields items ∧ ∀ item ∈ items, LeadsBelow item.path name := by
  constructor
  · apply wellLabelledFields_iff_forall.2
    intro item member
    cases brought item member with
    | intro happened _ composes inside =>
      have tree := (own _ happened _ composes).1
      exact wellLabelledFields_iff_forall.1 (wellLabelled_iff.1 tree) item inside
  · intro item member
    cases brought item member with
    | intro happened made composes inside =>
      exact (own _ happened _ composes).2 name made item inside

/-- What is found is labelled well if what calls compose is, beneath the fields that they are for. -/
theorem wellLabelled (grown : Grown rooms planOf events fields items)
    (own : ∀ event ∈ events, event.LabelsOwn rooms) : WellLabelledFields items := by
  induction grown with
  | none => exact fun _ member => absurd member List.not_mem_nil
  | brought calls _ ih =>
    cases calls with
    | intro happened _ composes inside =>
      have tree := (own _ happened _ composes).1
      have item := wellLabelledFields_iff_forall.1 (wellLabelled_iff.1 tree) _ inside
      exact wellLabelledFields_append.2 ⟨item, ih⟩
  | dropped _ ih => exact ih
  | plain calls _ ih =>
    obtain ⟨inside, children⟩ := labels_of_brought own calls
    exact wellLabelledFields_cons.2 ⟨children, inside, ih⟩
  | @holding field _ _ brought held content _ _ _ _ parts calls _ _ below ih =>
    obtain ⟨inside, children⟩ := labels_of_brought own calls
    -- Whatever the object has, the name of the field comes before its path.
    have nested : ∀ item ∈ fieldsUnder field.name held, LeadsBelow item.path field.name := by
      intro item member
      rw [fieldsUnder_eq_map] at member
      obtain ⟨lower, _, rfl⟩ := List.mem_map.1 member
      exact ⟨lower.path, rfl⟩
    apply wellLabelledFields_cons.2
    rw [parts]
    exact ⟨List.forall_mem_append.2 ⟨children, nested⟩,
      wellLabelledFields_append.2 ⟨inside, below.under field.name⟩, ih⟩

end Grown

/-- Fields have names without dots, no two the same one, and hold objects of the types reached. -/
structure Distinct (reached : TypeKey → Prop) (fields : List FieldPlan) : Prop where
  nodup : (fields.map FieldPlan.name).Nodup
  dotless : ∀ field ∈ fields, '.' ∉ field.name.toList
  closed : ∀ field ∈ fields, ∀ type, field.nested = some type → reached type

theorem Distinct.tail {reached : TypeKey → Prop} {field : FieldPlan} {fields : List FieldPlan}
    (distinct : Distinct reached (field :: fields)) : Distinct reached fields where
  nodup := (List.nodup_cons.1 distinct.nodup).2
  dotless := fun other member => distinct.dotless other (List.mem_cons_of_mem _ member)
  closed := fun other member => distinct.closed other (List.mem_cons_of_mem _ member)

/-- No path occurs twice, and each has the name of one of the fields as its root. -/
structure Single (fields : List FieldPlan) (items : List FieldOutcome) : Prop where
  nodup : (pathsOfFields items).Nodup
  rooted : ∀ path ∈ pathsOfFields items, ∃ field ∈ fields, root path = field.name.toList

namespace Single

variable {reached : TypeKey → Prop} {field : FieldPlan} {fields : List FieldPlan}
  {items held : List FieldOutcome} {content : Outcome}

theorem none (fields : List FieldPlan) : Single fields [] where
  nodup := List.nodup_nil
  rooted := fun _ member => absurd member List.not_mem_nil

theorem dropped (single : Single fields items) : Single (field :: fields) items where
  nodup := single.nodup
  rooted := by
    intro path member
    obtain ⟨other, declared, same⟩ := single.rooted path member
    exact ⟨other, List.mem_cons_of_mem field declared, same⟩

theorem cons (parts : content.fields.items = fieldsUnder field.name held)
    (distinct : Distinct reached (field :: fields)) (below : (pathsOfFields held).Nodup)
    (rest : Single fields items) : Single (field :: fields) (⟨field.name, content⟩ :: items) where
  nodup := by
    apply nodup_pathsOfFields_cons parts (distinct.dotless field List.mem_cons_self) _ below rest.nodup
    intro path member same
    obtain ⟨other, declared, root⟩ := rest.rooted path member
    have one : field.name = other.name := String.toList_inj.1 (same.symm.trans root)
    exact (List.nodup_cons.1 distinct.nodup).1 (one ▸ List.mem_map_of_mem declared)
  rooted := by
    intro path member
    rw [← List.singleton_append, pathsOfFields_append] at member
    cases List.mem_append.1 member with
    | inl own =>
      have root := root_of_mem_paths parts (distinct.dotless field List.mem_cons_self) own
      exact ⟨field, List.mem_cons_self, root⟩
    | inr later => exact rest.dropped.rooted path later

end Single

namespace Grown

variable {planOf : TypeKey → Except CompileError TypePlan} {reached : TypeKey → Prop}
  {events : List Event} {fields : List FieldPlan} {items : List FieldOutcome}

/-- Where calls compose no field outcomes, none is brought. -/
theorem not_brought {made : Call → Prop} {item : FieldOutcome}
    (nothing : ∀ event ∈ events, event.ComposesNone rooms) : ¬ Brought rooms made events item := by
  intro brought
  cases brought with
  | intro happened _ composes inside =>
    rw [nothing _ happened _ composes] at inside
    cases inside

/-- Where calls compose no field outcomes, the path of each node occurs once. -/
theorem single (grown : Grown rooms planOf events fields items)
    (nothing : ∀ event ∈ events, event.ComposesNone rooms)
    (family : ∀ type plan, reached type → planOf type = .ok plan → Distinct reached plan.fields)
    (distinct : Distinct reached fields) : Single fields items := by
  induction grown with
  | none fields => exact .none fields
  | brought calls _ _ => exact absurd calls (not_brought nothing)
  | dropped _ ih => exact (ih distinct.tail).dropped
  | @plain field _ _ content calls _ ih =>
    have empty : content.fields.items = fieldsUnder field.name [] :=
      List.eq_nil_iff_forall_not_mem.2 fun item member => not_brought nothing (calls item member)
    exact .cons empty distinct List.nodup_nil (ih distinct.tail)
  | @holding field _ _ brought held content type plan leads planned parts calls _ _ below ih =>
    have empty : brought = [] :=
      List.eq_nil_iff_forall_not_mem.2 fun item member => not_brought nothing (calls item member)
    rw [empty, List.nil_append] at parts
    -- The type of the object is reached, so the fields of its plan are distinct as well.
    have reaches := distinct.closed field List.mem_cons_self type leads
    exact .cons parts distinct (below (family type plan reaches planned)).nodup (ih distinct.tail)

end Grown

end Run

/-- What the validation of an object finds comes from the fields of its plan. -/
theorem Object.grown_run {rooms : Rooms} (env : Environment) (object : Object) (plan : TypePlan)
    (context : Context) :
    Run.Tracks rooms (object.run env plan context) fun outcome events =>
      Run.Grown rooms env.planOf events plan.fields outcome.fields.items := by
  revert plan context
  refine Object.run_of_descents env (motive := fun run => ∀ plan context,
    Run.Tracks rooms (run plan context) fun outcome events =>
      Run.Grown rooms env.planOf events plan.fields outcome.fields.items) ?_ object
  intro descent target grows plan context
  exact Run.grown_onObject env grows target plan context

/-- The fields of a plan are distinct, if the names that the descriptions give them have no dots. -/
theorem PlanCache.distinct_of_compile {cache : PlanCache} {start type : TypeKey} {plan : TypePlan}
    (dotless : ∀ type, cache.schema.LeadsTo start type →
      ∀ field ∈ (cache.schema.describe type).fields, '.' ∉ field.name.toList)
    (leads : cache.schema.LeadsTo start type) (compiled : cache.compile type = .ok plan) :
    Run.Distinct (cache.schema.LeadsTo start) plan.fields where
  nodup := nodup_of_compile compiled
  dotless := by
    intro field member
    have named : field.name ∈ plan.fields.map FieldPlan.name := List.mem_map_of_mem member
    rw [names_of_declares (declares_of_compile compiled)] at named
    obtain ⟨described, declared, same⟩ := List.mem_map.1 named
    rw [← same]
    exact dotless type leads described declared
  closed := by
    intro field member nested holds
    have listed : nested ∈ plan.nestedTypes := List.mem_filterMap.2 ⟨field, member, holds⟩
    rw [nestedTypes_of_compile compiled] at listed
    exact leads.tail listed

namespace Validator

section

variable {validator : Validator} {object : Object} {way : Way} {outcome : Outcome}
  (reachable : validator.Reachable) (ended : (validator.answer object way).result = .ok outcome)

include reachable ended

/-- What an answer has comes from the fields that the description of the type declares. -/
theorem grown_of_answer :
    ∃ planOf plan, (∀ type inner, planOf type = .ok inner → validator.cache.compile type = .ok inner) ∧
      validator.cache.compile object.type = .ok plan ∧
        Run.Grown validator.pools.rooms planOf (validator.answer object way).journal plan.fields
          outcome.fields.items := by
  have sound := reachable.sound
  obtain ⟨_, soundCache, family, kept, ran, journal⟩ := sound.course ended
  obtain ⟨events, led, grown⟩ := object.grown_run _ _ _ _ _ _ sound.pools.yields ran
  rw [journal, led.journal]
  exact ⟨_, _, fun _ _ planned => compile_of_planOf soundCache family planned,
    family.compile_of_get? soundCache kept, grown⟩

/-- An outcome is labelled well if what calls compose is. -/
theorem wellLabelled_of_answer
    (own : ∀ event ∈ (validator.answer object way).journal, event.LabelsOwn validator.pools.rooms) :
    outcome.WellLabelled := by
  obtain ⟨_, _, _, _, grown⟩ := grown_of_answer reachable ended
  exact Outcome.wellLabelled_iff.2 (grown.wellLabelled own)

/-- No path occurs twice in an outcome where calls compose no field outcomes and no name has a dot. -/
theorem nodup_paths_of_answer
    (nothing : ∀ event ∈ (validator.answer object way).journal,
      event.ComposesNone validator.pools.rooms)
    (dotless : ∀ type, validator.cache.schema.LeadsTo object.type type →
      ∀ field ∈ (validator.cache.schema.describe type).fields, '.' ∉ field.name.toList) :
    (outcome.nodes.map FieldOutcome.path).Nodup := by
  obtain ⟨planOf, plan, known, compiled, grown⟩ := grown_of_answer reachable ended
  have single := grown.single nothing
    (fun type inner leads planned =>
      PlanCache.distinct_of_compile dotless leads (known type inner planned))
    (PlanCache.distinct_of_compile dotless .refl compiled)
  rw [Outcome.nodes_eq]
  exact single.nodup

end

/-- In a tree that is labelled well, looking for a path gives what stands first in the tree of all that
has it, where a node stands before the nodes below it, and nothing if there is nothing. The outcome of
a validation is such a tree if what calls compose for a field is labelled under its name, and composed
trees are labelled well themselves: every node is found by its own path. It is the only one with that
path where calls compose no field outcomes and no name has a dot. -/
theorem nodes_found_by_path :
    (∀ tree : Outcome, tree.WellLabelled → ∀ path,
      tree.field? path = tree.nodes.find? (·.path == path)) ∧
    ∀ (validator : Validator) (object : Object) (way : Way) (outcome : Outcome), validator.Reachable →
      (validator.answer object way).result = .ok outcome →
      ((∀ event ∈ (validator.answer object way).journal, event.LabelsOwn validator.pools.rooms) →
        outcome.WellLabelled ∧ ∀ node ∈ outcome.nodes,
          ∃ found, outcome.field? node.path = some found ∧ found.path = node.path) ∧
      ((∀ event ∈ (validator.answer object way).journal,
          event.ComposesNone validator.pools.rooms) →
        (∀ type, validator.cache.schema.LeadsTo object.type type →
          ∀ field ∈ (validator.cache.schema.describe type).fields, '.' ∉ field.name.toList) →
        (outcome.nodes.map FieldOutcome.path).Nodup ∧
          ∀ node ∈ outcome.nodes, outcome.field? node.path = some node) := by
  refine ⟨fun tree labelled => Outcome.field?_eq_find? labelled, ?_⟩
  intro validator object way outcome reachable ended
  constructor
  · intro own
    have labelled := wellLabelled_of_answer reachable ended own
    refine ⟨labelled, fun node member => ?_⟩
    rw [Outcome.field?_eq_find? labelled]
    cases found : outcome.nodes.find? (·.path == node.path) with
    | none => exact absurd (beq_self_eq_true node.path) (List.find?_eq_none.1 found node member)
    | some first =>
      have same := List.find?_some found
      exact ⟨first, rfl, beq_iff_eq.1 same⟩
  · intro nothing dotless
    have single := nodup_paths_of_answer reachable ended nothing dotless
    have own : ∀ event ∈ (validator.answer object way).journal,
        event.LabelsOwn validator.pools.rooms :=
      fun event member => (nothing event member).labelsOwn
    have labelled := wellLabelled_of_answer reachable ended own
    refine ⟨single, fun node member => ?_⟩
    rw [Outcome.field?_eq_find? labelled]
    exact Outcome.find?_path_of_nodup single member

/-- A validator of a type whose objects may hold another one, and have a field with this routine. -/
def nesting (rule : Rule) : Validator :=
  let descriptor : TypeDescriptor := {
    name := "Sample"
    fields := [.ofNested "next" .sample, { declaredField with custom := true }]
    routines := [{ name := "validate_declared", rule }] }
  .ofOptions ⟨[(.sample, descriptor)]⟩ ∅ {}

/-- What a routine composes under the name of its field is found beneath the object that holds the field,
and where a routine composes nothing, every node is found by its path. -/
theorem nested_nodes_found :
    let object : Object := .mk .sample [("next", .object (.mk .sample []))]
    let composing := nesting (.drafts ⟨1, [], [⟨"declared.part", 0, [.refused], []⟩]⟩)
    let refusing := nesting .refuses
    (∃ outcome, (composing.answer object (.waiting {})).result = .ok outcome ∧
      (∀ event ∈ (composing.answer object (.waiting {})).journal,
        event.LabelsOwn composing.pools.rooms) ∧
      outcome.WellLabelled ∧ ∃ found, outcome.field? "next.declared.part" = some found ∧
        found.path = "next.declared.part") ∧
    ∃ outcome, (refusing.answer object (.waiting {})).result = .ok outcome ∧
      (∀ event ∈ (refusing.answer object (.waiting {})).journal,
        event.ComposesNone refusing.pools.rooms) ∧
      (outcome.nodes.map FieldOutcome.path).Nodup ∧
        ∀ node ∈ outcome.nodes, outcome.field? node.path = some node := by
  intro object composing refusing
  constructor
  · have alone : ∀ nested ∈ composing.cache.schema.nestedTypes object.type, nested = object.type := by
      decide +kernel
    have inside : ∀ event ∈ (composing.answer object (.waiting {})).journal,
        event.LabelsInside composing.pools.rooms := by
      rw [answer, validate_of_alone rfl alone]
      decide +kernel
    have own : ∀ event ∈ (composing.answer object (.waiting {})).journal,
        event.LabelsOwn composing.pools.rooms := fun event member => (inside event member).labelsOwn
    have held : (composing.answer object (.waiting {})).result.toOption.any
        (fun outcome => outcome.nodes.any (·.path == "next.declared.part")) = true := by
      rw [answer, validate_of_alone rfl alone]
      decide +kernel
    cases ended : (composing.answer object (.waiting {})).result with
    | error stop =>
      rw [ended] at held
      cases held
    | ok outcome =>
      rw [ended] at held
      obtain ⟨node, member, same⟩ := List.any_eq_true.1 held
      have found := nodes_found_by_path.2 composing object (.waiting {}) outcome (.fresh _ _ _ _ _) ended
      obtain ⟨labelled, all⟩ := found.1 own
      rw [← beq_iff_eq.1 same]
      exact ⟨outcome, rfl, own, labelled, all node member⟩
  · have alone : ∀ nested ∈ refusing.cache.schema.nestedTypes object.type, nested = object.type := by
      decide +kernel
    have nothing : ∀ event ∈ (refusing.answer object (.waiting {})).journal,
        event.ComposesNone refusing.pools.rooms := by
      rw [answer, validate_of_alone rfl alone]
      decide +kernel
    have ends : (refusing.answer object (.waiting {})).result.isOk = true := by
      rw [answer, validate_of_alone rfl alone]
      decide +kernel
    have dotless : ∀ field ∈ (refusing.cache.schema.describe object.type).fields,
        '.' ∉ field.name.toList := by decide +kernel
    cases ended : (refusing.answer object (.waiting {})).result with
    | error stop =>
      rw [ended] at ends
      cases ends
    | ok outcome =>
      have found := nodes_found_by_path.2 refusing object (.waiting {}) outcome (.fresh _ _ _ _ _) ended
      refine ⟨outcome, rfl, nothing, found.2 nothing fun type leads => ?_⟩
      rw [leads.eq_of_alone alone]
      exact dotless

end Validator

end Assay
