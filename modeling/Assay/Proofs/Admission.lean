/-
Module: Assay.Proofs.Admission
Purpose: What an output adds to an outcome, by the return shape that its rule declared: nothing, one
  message, messages, or the contents of an outcome. An output of another kind is passed over. There is
  one exception: a stream is gone through also if the rule declared a single output that comes later,
  and then all its messages are added.
Main exports: Run.Folds, Run.Receives, Run.Admits, Run.invoke_admits
-/
import Assay.Proofs.Lifetime
import Assay.Proofs.Invocation

namespace Assay

/-- A rule that declared a stream gives one. -/
def RuleOutput.Streams (shape : ReturnShape) (output : RuleOutput) : Prop :=
  shape.delivery = .streamed ∧ ∃ items, output = .streaming items

namespace Run

open RuleOutput

variable {rooms : Rooms} {shape : ReturnShape} {output : RuleOutput} {into after : Outcome}

/-- An output that is there is added as it was declared, or else it is passed over. -/
inductive Folds (rooms : Rooms) (into : Outcome) : Contribution → RuleOutput → Outcome → Prop where
  | message (finding : Option Message) :
    Folds rooms into .message (.message finding) (into.addMessages finding.toList)
  | messages (findings : List Message) :
    Folds rooms into .messages (.messages findings) (into.addMessages findings)
  | outcome (draft : Draft) :
    Folds rooms into .outcome (.outcome draft) (into.absorb (rooms.build draft) none).into
  | ignored {declared : Contribution} {output : RuleOutput} (misfit : ¬Fits declared output) :
    Folds rooms into declared output into

theorem tracks_fold_folds (declared : Contribution) (output : RuleOutput) (into : Outcome) :
    Tracks rooms (fold declared output into) fun after _ => Folds rooms into declared output after := by
  cases output with
  | nothing | pending | streaming => exact .pure (.ignored fun fits => by cases fits)
  | message finding =>
    rw [fold]
    by_cases fits : declared = .message
    · rw [if_pos fits, fits]
      exact .pure (.message finding)
    · rw [if_neg fits]
      exact .pure (.ignored (mt fits_message_iff.1 fits))
  | messages findings =>
    rw [fold]
    by_cases fits : declared = .messages
    · rw [if_pos fits, fits]
      exact .pure (.messages findings)
    · rw [if_neg fits]
      exact .pure (.ignored (mt fits_messages_iff.1 fits))
  | outcome draft =>
    apply (tracks_build draft).bind
    rintro child _ ⟨rfl, rfl⟩
    by_cases fits : declared = .outcome
    · rw [if_pos fits, fits]
      refine (tracks_merge _ _ _).mono ?_
      rintro after _ ⟨rfl, _⟩
      exact .outcome draft
    · rw [if_neg fits]
      exact (tracks_release _).bind fun _ _ _ => .pure (.ignored (mt fits_outcome_iff.1 fits))

/-- What comes of an output: it is added when it is there, a stream is added item by item, and what was
not declared to come later or never is there is passed over. -/
inductive Receives (rooms : Rooms) (shape : ReturnShape) (into : Outcome) :
    RuleOutput → Outcome → Prop where
  | ready {output result : RuleOutput} {after : Outcome} (settles : output.Settles shape result)
      (folds : Folds rooms into shape.contribution result after) : Receives rooms shape into output after
  | stream (items : List StreamItem) (delayed : shape.delivery ≠ .immediate)
      (wanted : shape.contribution ≠ .nothing) :
    Receives rooms shape into (.streaming items)
      (into.addMessages (items.filterMap StreamItem.message?))
  | ignored {output : RuleOutput} (disagrees : ¬output.Agrees shape) (regular : ¬output.Strays shape) :
    Receives rooms shape into output into

/-- What is folded of an output that never is there is nothing. -/
theorem Folds.eq_of_isPending {declared : Contribution} (folds : Folds rooms into declared output after)
    (pending : output.isPending = true) : after = into := by
  cases folds with
  | message | messages | outcome => cases pending
  | ignored => rfl

/-- What a rule gives that may not be waited for is there or passed over. -/
theorem Folds.receives_of_immediate (immediate : shape.delivery = .immediate)
    (folds : Folds rooms into shape.contribution output after) :
    Receives rooms shape into output after := by
  cases pending : output.isPending with
  | false => exact .ready (.there pending) folds
  | true =>
    rw [folds.eq_of_isPending pending]
    refine .ignored (fun agrees => ?_) (fun strays => ?_)
    · cases agrees with
      | ready settles fits =>
        cases settles with
        | there ready => cases ready.symm.trans pending
        | waited delayed ready => exact delayed immediate
      | streaming streamed wanted => cases streamed.symm.trans immediate
    · cases strays.1.symm.trans immediate

/-- What a rule gives after some steps is there then, or never. -/
theorem Folds.receives_of_waited {steps : List Step} (delayed : shape.delivery ≠ .immediate)
    (folds : Folds rooms into shape.contribution output after) :
    Receives rooms shape into (.pending steps output) after := by
  cases pending : output.isPending with
  | false => exact .ready (.waited delayed pending) folds
  | true =>
    rw [folds.eq_of_isPending pending]
    refine .ignored (fun agrees => ?_) nofun
    obtain ⟨_, fits⟩ := agrees_pending_iff.1 agrees
    cases fits.isPending_eq.symm.trans pending

theorem tracks_receive_receives (env : Environment) (call : PlannedCall) (output : RuleOutput)
    (into : Outcome) :
    Tracks rooms (receive env call output into) fun after _ =>
      Receives rooms call.shape into output after := by
  refine .ite (fun immediate => ?_) fun delayed => ?_
  · exact (tracks_fold_folds _ _ _).mono fun after _ folds => folds.receives_of_immediate immediate
  cases output with
  | nothing | message | messages | outcome =>
    exact (tracks_fold_folds _ _ _).mono fun after _ folds => .ready (.there rfl) folds
  | pending steps result =>
    apply (tracks_checkpoint _).bind
    intro _ _ _
    apply (Tracks.forM (tracks_perform env) steps).bind
    intro _ _ _
    exact (tracks_fold_folds _ _ _).mono fun after _ folds => folds.receives_of_waited delayed
  | streaming items =>
    apply (tracks_checkpoint _).bind
    intro _ _ _
    apply (tracks_drain env _ items into).mono
    rintro after _ ⟨rfl, _⟩
    by_cases wanted : call.shape.contribution = .nothing
    · rw [wanted, bne_self_eq_false, if_neg Bool.false_ne_true, Outcome.addMessages_nil]
      exact .ignored (fun agrees => (agrees_streaming_iff.1 agrees).2 wanted)
        fun strays => strays.2.1 wanted
    · rw [bne_iff_ne.2 wanted, if_pos rfl]
      exact .stream items delayed wanted

/-! ### The law of contributions -/

/-- What an output may add, by the declared return shape. Nothing is added to a rule that declares
nothing, and nothing by an output that disagrees with the shape, unless it is a stream that strays; that
one adds all its messages. What is said of a single value holds for a rule that declared a stream as well,
as long as it does not give one. -/
structure Admits (rooms : Rooms) (shape : ReturnShape) (output : RuleOutput) (into after : Outcome) :
    Prop where
  nothing : shape.contribution = .nothing → after = into
  message : shape.contribution = .message → ¬output.Streams shape → ¬output.Strays shape →
    ∃ finding : Option Message, after = into.addMessages finding.toList
  messages : shape.contribution = .messages → ¬output.Streams shape → ¬output.Strays shape →
    after = into ∨
      ∃ findings, output.Settles shape (.messages findings) ∧ after = into.addMessages findings
  outcome : shape.contribution = .outcome → ¬output.Streams shape → ¬output.Strays shape →
    after = into ∨
      ∃ draft, output.Settles shape (.outcome draft) ∧
        after = (into.absorb (rooms.build draft) none).into
  streamed : ∀ items, output = .streaming items → after ≠ into →
    shape.delivery = .streamed ∨ output.Strays shape
  disagrees : ¬output.Agrees shape → ¬output.Strays shape → after = into
  strays : ∀ items, output = .streaming items → output.Strays shape →
    after = into.addMessages (items.filterMap StreamItem.message?)

/-- A rule that declares what may be waited for either declares a stream, or its stream strays. -/
theorem streamed_or_strays {items : List StreamItem} (delayed : shape.delivery ≠ .immediate)
    (wanted : shape.contribution ≠ .nothing) :
    (RuleOutput.streaming items).Streams shape ∨ (RuleOutput.streaming items).Strays shape := by
  cases delivery : shape.delivery with
  | immediate => exact absurd delivery delayed
  | deferred => exact .inr ⟨delivery, wanted, items, rfl⟩
  | streamed => exact .inl ⟨delivery, items, rfl⟩

/-- What leaves an outcome as it is adds no more than may be added, if it does not stray. -/
theorem admits_unchanged (regular : ¬output.Strays shape) : Admits rooms shape output into into where
  nothing _ := rfl
  message _ _ _ := ⟨none, into.addMessages_nil.symm⟩
  messages _ _ _ := .inl rfl
  outcome _ _ _ := .inl rfl
  streamed _ _ changed := absurd rfl changed
  disagrees _ _ := rfl
  strays _ _ strays := absurd strays regular

/-- A stream adds its messages to a rule that declared one, or it strays. -/
theorem admits_stream (items : List StreamItem) (delayed : shape.delivery ≠ .immediate)
    (wanted : shape.contribution ≠ .nothing) :
    Admits rooms shape (.streaming items) into
      (into.addMessages (items.filterMap StreamItem.message?)) where
  nothing none := absurd none wanted
  message _ single regular := ((streamed_or_strays delayed wanted).elim single regular).elim
  messages _ single regular := ((streamed_or_strays delayed wanted).elim single regular).elim
  outcome _ single regular := ((streamed_or_strays delayed wanted).elim single regular).elim
  streamed _ _ _ := (streamed_or_strays delayed wanted).imp_left And.left
  disagrees disagrees regular := by
    rcases streamed_or_strays delayed wanted with streams | strays
    · exact absurd (.streaming streams.1 wanted) disagrees
    · exact absurd strays regular
  strays _ same _ := by
    cases same
    rfl

/-- What is there and of the declared kind may be added as such. -/
theorem admits_fitting {result : RuleOutput} (settles : output.Settles shape result)
    (fits : Fits shape.contribution result)
    (message : shape.contribution = .message →
      ∃ finding : Option Message, after = into.addMessages finding.toList)
    (messages : shape.contribution = .messages →
      ∃ findings, output.Settles shape (.messages findings) ∧ after = into.addMessages findings)
    (outcome : shape.contribution = .outcome →
      ∃ draft, output.Settles shape (.outcome draft) ∧
        after = (into.absorb (rooms.build draft) none).into) :
    Admits rooms shape output into after where
  nothing none := by
    rw [none] at fits
    cases fits
  message declared _ _ := message declared
  messages declared _ _ := .inr (messages declared)
  outcome declared _ _ := .inr (outcome declared)
  streamed items stream := absurd stream (settles.ne_streaming items)
  disagrees disagrees := absurd (.ready settles fits) disagrees
  strays items stream := absurd stream (settles.ne_streaming items)

/-- An output that is there adds what was declared. -/
theorem admits_ready {result : RuleOutput} (settles : output.Settles shape result)
    (folds : Folds rooms into shape.contribution result after) :
    Admits rooms shape output into after := by
  generalize declared : shape.contribution = contribution at folds
  cases folds with
  | ignored =>
    refine admits_unchanged ?_
    rintro ⟨_, _, items, stream⟩
    exact settles.ne_streaming items stream
  | message finding =>
    apply admits_fitting settles (declared ▸ .message finding)
    · exact fun _ => ⟨finding, rfl⟩
    · simp [declared]
    · simp [declared]
  | messages findings =>
    apply admits_fitting settles (declared ▸ .messages findings)
    · simp [declared]
    · exact fun _ => ⟨findings, settles, rfl⟩
    · simp [declared]
  | outcome draft =>
    apply admits_fitting settles (declared ▸ .outcome draft)
    · simp [declared]
    · simp [declared]
    · exact fun _ => ⟨draft, settles, rfl⟩

theorem Receives.admits (receives : Receives rooms shape into output after) :
    Admits rooms shape output into after := by
  cases receives with
  | ready settles folds => exact admits_ready settles folds
  | stream items delayed wanted => exact admits_stream items delayed wanted
  | ignored _ regular => exact admits_unchanged regular

/-- Every call that is made adds to the outcome it is made for only what its declared return shape
admits, whatever its rule answers. -/
theorem invoke_admits (env : Environment) (scope : Scope) (value : Value) (outcome : Outcome)
    (call : PlannedCall) (into : Outcome) :
    Tracks rooms (invoke env scope value outcome call into) fun after events =>
      ∃ cancelled, .evaluation call (scope.input value outcome call cancelled) ∈ events ∧
        Admits rooms call.shape
          (call.rule.evaluate (scope.input value outcome call cancelled)).output into after := by
  apply (tracks_evaluate scope value outcome call).bind
  rintro output _ ⟨cancelled, asides, rfl, rfl, _⟩
  apply (tracks_receive_receives env call _ into).mono
  intro after events receives
  exact ⟨cancelled, by simp, receives.admits⟩

end Run

namespace Validator

/-- A hook that declares a single message that comes later, and gives a stream of two. -/
def strayHook : Rule where
  signature := { returns := "BoxFuture<'a, Option<Message>>" }
  evaluate _ := { output := .streaming [.message .refused, .message .refused] }

/-- Both messages are added for this hook, which declares at most one. -/
theorem stray_messages_added :
    (strayHook.signature.parse.toOption.map fun signature => ReturnShape.classify signature.returns) =
        some ⟨.deferred, .message, true⟩ ∧
      ∃ outcome, ((sampled false [] strayHook).validate (.mk .sample []) {}).result = .ok outcome ∧
        outcome.messages.items.map Message.key = ["refused", "refused"] := by
  have added : ((sampled false [] strayHook).validate (.mk .sample []) {}).result.toOption.any
      (fun outcome => outcome.messages.items.map Message.key == ["refused", "refused"]) = true := by
    rw [validate_sampled rfl]
    decide +kernel
  refine ⟨by decide +kernel, ?_⟩
  cases ended : ((sampled false [] strayHook).validate (.mk .sample []) {}).result with
  | error stop =>
    rw [ended] at added
    cases added
  | ok outcome =>
    rw [ended] at added
    exact ⟨outcome, rfl, eq_of_beq added⟩

end Validator

end Assay
