/-
Module: Assay.Proofs.Contribution
Purpose: What an evaluated rule contributes, by the return shape that it declared. An output that agrees
  with the shape contributes the messages that it carries, those of a whole tree if it is an outcome, and
  an outcome brings its field outcomes along. An output that disagrees contributes nothing, unless it is a
  stream that strays.
Main exports: RuleOutput.Settles, RuleOutput.Agrees, RuleOutput.Strays, RuleOutput.contribution,
  RuleOutput.brought, PlannedCall.contributed, PlannedCall.brought
-/
import Assay.Proofs.OutcomeTree
import Assay.Proofs.Rooms
import Assay.Run.Output

namespace Assay

/-- The message of a piece of a stream. -/
def StreamItem.message? : StreamItem → Option Message
  | .message finding => some finding
  | .step _ => none

namespace RuleOutput

/-! ### Outputs and return shapes -/

/-- An output of a rule of that return shape is there in the end, as it was given or after it was waited
for. -/
inductive Settles (shape : ReturnShape) : RuleOutput → RuleOutput → Prop where
  | there {output : RuleOutput} (ready : output.isPending = false) : Settles shape output output
  | waited {steps : List Step} {result : RuleOutput} (delayed : shape.delivery ≠ .immediate)
      (ready : result.isPending = false) : Settles shape (.pending steps result) result

/-- An output that is there is of the kind that was declared. -/
inductive Fits : Contribution → RuleOutput → Prop where
  | message (finding : Option Message) : Fits .message (.message finding)
  | messages (findings : List Message) : Fits .messages (.messages findings)
  | outcome (draft : Draft) : Fits .outcome (.outcome draft)

/-- An output agrees with the declared return shape. -/
inductive Agrees (shape : ReturnShape) : RuleOutput → Prop where
  | ready {output result : RuleOutput} (settles : output.Settles shape result)
      (fits : Fits shape.contribution result) : Agrees shape output
  | streaming {items : List StreamItem} (streamed : shape.delivery = .streamed)
      (wanted : shape.contribution ≠ .nothing) : Agrees shape (.streaming items)

/-- A rule that declared a single output that comes later, and more than nothing, gives a stream. -/
def Strays (shape : ReturnShape) (output : RuleOutput) : Prop :=
  shape.delivery = .deferred ∧ shape.contribution ≠ .nothing ∧ ∃ items, output = .streaming items

variable {shape : ReturnShape} {declared : Contribution} {output result : RuleOutput}

/-- A stream is never there. -/
theorem Settles.ne_streaming (settles : output.Settles shape result) (items : List StreamItem) :
    output ≠ .streaming items := by
  rintro rfl
  cases settles with
  | there ready => cases ready

/-- What is of a declared kind is there. -/
theorem Fits.isPending_eq (fits : Fits declared output) : output.isPending = false := by
  cases fits <;> rfl

/-- An output that is there agrees if it is of the declared kind. -/
theorem agrees_iff_fits (ready : output.isPending = false) :
    output.Agrees shape ↔ Fits shape.contribution output := by
  constructor
  · intro agrees
    cases agrees with
    | ready settles fits =>
      cases settles with
      | there => exact fits
      | waited => cases ready
    | streaming => cases ready
  · exact fun fits => .ready (.there ready) fits

/-- An output that is yet to come agrees if it may be waited for and is of the declared kind then. -/
theorem agrees_pending_iff {steps : List Step} :
    Agrees shape (.pending steps result) ↔
      shape.delivery ≠ .immediate ∧ Fits shape.contribution result := by
  constructor
  · intro agrees
    cases agrees with
    | ready settles fits =>
      cases settles with
      | there ready => cases ready
      | waited delayed => exact ⟨delayed, fits⟩
  · intro ⟨delayed, fits⟩
    exact .ready (.waited delayed fits.isPending_eq) fits

/-- A stream agrees if one was declared. -/
theorem agrees_streaming_iff {items : List StreamItem} :
    Agrees shape (.streaming items) ↔
      shape.delivery = .streamed ∧ shape.contribution ≠ .nothing := by
  constructor
  · intro agrees
    cases agrees with
    | ready settles => exact absurd rfl (settles.ne_streaming items)
    | streaming streamed wanted => exact ⟨streamed, wanted⟩
  · exact fun ⟨streamed, wanted⟩ => .streaming streamed wanted

theorem fits_message_iff {finding : Option Message} :
    Fits declared (.message finding) ↔ declared = .message := by
  constructor
  · rintro ⟨⟩
    rfl
  · rintro rfl
    exact .message finding

theorem fits_messages_iff {findings : List Message} :
    Fits declared (.messages findings) ↔ declared = .messages := by
  constructor
  · rintro ⟨⟩
    rfl
  · rintro rfl
    exact .messages findings

theorem fits_outcome_iff {draft : Draft} :
    Fits declared (.outcome draft) ↔ declared = .outcome := by
  constructor
  · rintro ⟨⟩
    rfl
  · rintro rfl
    exact .outcome draft

instance (declared : Contribution) : DecidablePred (Fits declared)
  | .message _ => decidable_of_iff _ fits_message_iff.symm
  | .messages _ => decidable_of_iff _ fits_messages_iff.symm
  | .outcome _ => decidable_of_iff _ fits_outcome_iff.symm
  | .nothing | .pending _ _ | .streaming _ => .isFalse nofun

instance (shape : ReturnShape) : DecidablePred (Agrees shape)
  | .pending _ _ => decidable_of_iff _ agrees_pending_iff.symm
  | .streaming _ => decidable_of_iff _ agrees_streaming_iff.symm
  | .nothing | .message _ | .messages _ | .outcome _ => decidable_of_iff _ (agrees_iff_fits rfl).symm

instance (shape : ReturnShape) : DecidablePred (Strays shape)
  | .streaming items =>
    decidable_of_iff (shape.delivery = .deferred ∧ shape.contribution ≠ .nothing)
      ⟨fun ⟨deferred, wanted⟩ => ⟨deferred, wanted, items, rfl⟩,
        fun ⟨deferred, wanted, _⟩ => ⟨deferred, wanted⟩⟩
  | .nothing | .message _ | .messages _ | .outcome _ | .pending _ _ => .isFalse nofun

/-! ### Contributions -/

/-- The messages of an output that is there, for a rule that declared that contribution. -/
def carried (rooms : Rooms) (declared : Contribution) : RuleOutput → List Message
  | .message finding => if declared = .message then finding.toList else []
  | .messages findings => if declared = .messages then findings else []
  | .outcome draft => if declared = .outcome then (rooms.build draft).allMessages else []
  | .nothing | .pending _ _ | .streaming _ => []

/-- The messages that an output adds for a rule of that return shape. An output that is yet to come adds
messages only for a rule that declared that it may have to be waited for; for such a rule a stream adds
its messages also where it strays. -/
def contribution (rooms : Rooms) (shape : ReturnShape) (output : RuleOutput) : List Message :=
  if shape.delivery = .immediate then output.carried rooms shape.contribution
  else match output with
    | .pending _ result => result.carried rooms shape.contribution
    | .streaming items =>
      if shape.contribution = .nothing then [] else items.filterMap StreamItem.message?
    | ready => ready.carried rooms shape.contribution

/-- The field outcomes of an output that is there, for a rule that declared that contribution. -/
def carriedFields (rooms : Rooms) (declared : Contribution) : RuleOutput → List FieldOutcome
  | .outcome draft => if declared = .outcome then (rooms.build draft).fields.items else []
  | .nothing | .message _ | .messages _ | .pending _ _ | .streaming _ => []

/-- The field outcomes that an output brings for a rule of that return shape. -/
def brought (rooms : Rooms) (shape : ReturnShape) (output : RuleOutput) : List FieldOutcome :=
  if shape.delivery = .immediate then output.carriedFields rooms shape.contribution
  else match output with
    | .pending _ result => result.carriedFields rooms shape.contribution
    | ready => ready.carriedFields rooms shape.contribution

variable {rooms : Rooms}

theorem carried_eq_nil (misfit : ¬Fits declared output) : output.carried rooms declared = [] := by
  cases output with
  | nothing | pending | streaming => rfl
  | message => exact if_neg (mt fits_message_iff.2 misfit)
  | messages => exact if_neg (mt fits_messages_iff.2 misfit)
  | outcome => exact if_neg (mt fits_outcome_iff.2 misfit)

/-- An output that disagrees with the declared shape adds no message, unless it strays. -/
theorem contribution_eq_nil (disagrees : ¬output.Agrees shape) (regular : ¬output.Strays shape) :
    output.contribution rooms shape = [] := by
  unfold contribution
  by_cases immediate : shape.delivery = .immediate
  · rw [if_pos immediate]
    refine carried_eq_nil fun fits => ?_
    exact disagrees ((agrees_iff_fits fits.isPending_eq).2 fits)
  rw [if_neg immediate]
  cases output with
  | nothing | message | messages | outcome =>
    exact carried_eq_nil (mt (agrees_iff_fits rfl).2 disagrees)
  | pending steps result =>
    have misfit : ¬Fits shape.contribution result :=
      fun fits => disagrees (agrees_pending_iff.2 ⟨immediate, fits⟩)
    exact carried_eq_nil misfit
  | streaming items =>
    refine if_pos (Decidable.not_not.1 fun wanted => ?_)
    cases delivery : shape.delivery with
    | immediate => exact immediate delivery
    | deferred => exact regular ⟨delivery, wanted, items, rfl⟩
    | streamed => exact disagrees (agrees_streaming_iff.2 ⟨delivery, wanted⟩)

end RuleOutput

/-- The messages that a call contributes when it is made on that input. -/
def PlannedCall.contributed (rooms : Rooms) (call : PlannedCall) (input : Call) : List Message :=
  (call.rule.evaluate input).output.contribution rooms call.shape

/-- The field outcomes that a call brings when it is made on that input. -/
def PlannedCall.brought (rooms : Rooms) (call : PlannedCall) (input : Call) : List FieldOutcome :=
  (call.rule.evaluate input).output.brought rooms call.shape

end Assay
