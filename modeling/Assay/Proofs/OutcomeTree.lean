/-
Module: Assay.Proofs.OutcomeTree
Purpose: What filling an outcome does to its success. An outcome succeeds exactly if there is no
  message in its tree; what was once a failure stays one; and moving an outcome into another one
  moves its failures along, unless they sit in field outcomes for which there is no room.
Main exports: Outcome.isSuccess_iff, Outcome.isSuccess_iff_allMessages, Outcome.isSuccess_addMessages,
  Outcome.isSuccess_addFields, Outcome.isSuccess_absorb
-/
import Assay.Outcome.Basic

namespace Assay

namespace Outcome

theorem allSucceed_iff (fields : List FieldOutcome) :
    allSucceed fields = true ↔ ∀ field ∈ fields, field.isSuccess = true := by
  induction fields with
  | nil => simp [allSucceed]
  | cons field fields ih =>
    rcases field with ⟨path, outcome⟩
    simp [allSucceed, FieldOutcome.isSuccess, ih]

/-- An outcome succeeds if it holds no message and all its field outcomes succeed. -/
theorem isSuccess_iff (outcome : Outcome) :
    outcome.isSuccess = true ↔
      outcome.messages.items = [] ∧ ∀ field ∈ outcome.fields.items, field.isSuccess = true := by
  rcases outcome with ⟨messages, ⟨fields, capacity⟩⟩
  rw [isSuccess, Bool.and_eq_true, allSucceed_iff, List.isEmpty_iff]

mutual

/-- An outcome succeeds exactly if there is no message in its tree. -/
theorem isSuccess_iff_allMessages : ∀ outcome : Outcome,
    outcome.isSuccess = true ↔ outcome.allMessages = []
  | ⟨messages, ⟨fields, capacity⟩⟩ => by
    rw [isSuccess, allMessages, Bool.and_eq_true, List.append_eq_nil_iff, List.isEmpty_iff,
      allSucceed_iff_messagesOfFields fields]
termination_by structural outcome => outcome

theorem allSucceed_iff_messagesOfFields : ∀ fields : List FieldOutcome,
    allSucceed fields = true ↔ messagesOfFields fields = []
  | [] => by simp [allSucceed, messagesOfFields]
  | ⟨path, outcome⟩ :: fields => by
    rw [allSucceed, messagesOfFields, Bool.and_eq_true, List.append_eq_nil_iff,
      isSuccess_iff_allMessages outcome, allSucceed_iff_messagesOfFields fields]
termination_by structural fields => fields

end

mutual

/-- A label does not change whether an outcome succeeds. -/
theorem isSuccess_under (name : String) : ∀ outcome : Outcome,
    (outcome.under name).isSuccess = outcome.isSuccess
  | ⟨messages, ⟨fields, capacity⟩⟩ => by
    rw [under, isSuccess, isSuccess, allSucceed_fieldsUnder name fields]
termination_by structural outcome => outcome

theorem allSucceed_fieldsUnder (name : String) : ∀ fields : List FieldOutcome,
    allSucceed (fieldsUnder name fields) = allSucceed fields
  | [] => rfl
  | ⟨path, outcome⟩ :: fields => by
    rw [fieldsUnder, allSucceed, allSucceed, isSuccess_under name outcome,
      allSucceed_fieldsUnder name fields]
termination_by structural fields => fields

end

theorem length_fieldsUnder (name : String) (fields : List FieldOutcome) :
    (fieldsUnder name fields).length = fields.length := by
  induction fields with
  | nil => rfl
  | cons field fields ih =>
    rcases field with ⟨path, outcome⟩
    rw [fieldsUnder, List.length_cons, List.length_cons, ih]

/-! ### Filling -/

@[simp] theorem addMessages_nil (outcome : Outcome) : outcome.addMessages [] = outcome := by
  cases outcome
  rw [addMessages, Buffer.offer_nil]

/-- Messages that are offered one after the other are offered together. -/
theorem addMessages_append (outcome : Outcome) (first second : List Message) :
    outcome.addMessages (first ++ second) = (outcome.addMessages first).addMessages second := by
  rw [addMessages, addMessages, addMessages, Buffer.offer_append]

/-- Field outcomes that are offered one after the other are offered together. -/
theorem addFields_append (outcome : Outcome) (first second : List FieldOutcome) :
    outcome.addFields (first ++ second) = (outcome.addFields first).addFields second := by
  rw [addFields, addFields, addFields, Buffer.offer_append]

@[simp] theorem addFields_nil (outcome : Outcome) : outcome.addFields [] = outcome := by
  cases outcome
  rw [addFields, Buffer.offer_nil]

@[simp] theorem fields_addMessages (outcome : Outcome) (offered : List Message) :
    (outcome.addMessages offered).fields = outcome.fields := rfl

theorem isSuccess_of_addMessages {outcome : Outcome} {offered : List Message}
    (success : (outcome.addMessages offered).isSuccess = true) : outcome.isSuccess = true := by
  rw [isSuccess_iff] at success ⊢
  simp only [addMessages, Buffer.offer, List.append_eq_nil_iff] at success
  exact ⟨success.1.1, success.2⟩

/-- Where there is room for a message, offering messages to a successful outcome makes it fail. -/
theorem isSuccess_addMessages {outcome : Outcome} (room : 1 ≤ outcome.messages.capacity)
    (offered : List Message) :
    (outcome.addMessages offered).isSuccess = true ↔ outcome.isSuccess = true ∧ offered = [] := by
  constructor
  · intro success
    have before := isSuccess_of_addMessages success
    refine ⟨before, ?_⟩
    rw [isSuccess_iff] at success before
    simp only [addMessages, Buffer.offer, before.1, List.nil_append, Buffer.room, Buffer.size,
      List.length_nil, Nat.sub_zero, List.take_eq_nil_iff] at success
    rcases success.1 with full | empty
    · omega
    · exact empty
  · rintro ⟨success, rfl⟩
    rwa [addMessages_nil]

/-- Offering field outcomes keeps a success if those that find room succeed. -/
theorem isSuccess_addFields (outcome : Outcome) (offered : List FieldOutcome) :
    (outcome.addFields offered).isSuccess = true ↔
      outcome.isSuccess = true ∧
        ∀ field ∈ offered.take outcome.fields.room, field.isSuccess = true := by
  rw [isSuccess_iff, isSuccess_iff]
  simp only [addFields, Buffer.offer, List.mem_append]
  constructor
  · rintro ⟨messages, fields⟩
    exact ⟨⟨messages, fun field member => fields field (.inl member)⟩,
      fun field member => fields field (.inr member)⟩
  · rintro ⟨⟨messages, old⟩, new⟩
    exact ⟨messages, fun field member => member.elim (old field) (new field)⟩

/-- If the field outcomes that find no room succeed, all that are offered succeed with those that
find room. -/
theorem isSuccess_addFields_of_overflow {outcome : Outcome} {offered : List FieldOutcome}
    (lossless : ∀ field ∈ outcome.fields.overflow offered, field.isSuccess = true) :
    (outcome.addFields offered).isSuccess = true ↔
      outcome.isSuccess = true ∧ ∀ field ∈ offered, field.isSuccess = true := by
  rw [isSuccess_addFields]
  refine and_congr_right fun _ => ⟨fun kept field member => ?_, fun all field member => ?_⟩
  · rw [← List.take_append_drop outcome.fields.room offered] at member
    exact (List.mem_append.1 member).elim (kept field) (lossless field)
  · exact all field (List.mem_of_mem_take member)

/-! ### Merging -/

/-- The field outcomes that a child brings along. -/
def moved (child : Outcome) : Option String → List FieldOutcome
  | some name => fieldsUnder name child.fields.items
  | none => child.fields.items

theorem length_moved (child : Outcome) (label : Option String) :
    (child.moved label).length = child.fields.size := by
  cases label with
  | none => rfl
  | some name => exact length_fieldsUnder name _

theorem absorb_into (into child : Outcome) (label : Option String) :
    (into.absorb child label).into =
      (into.addMessages child.messages.items).addFields (child.moved label) := by
  cases label <;> rfl

theorem absorb_refused (into child : Outcome) (label : Option String) :
    (into.absorb child label).refused = into.fields.overflow (child.moved label) := by
  cases label <;> rfl

theorem moved_succeed_iff (child : Outcome) (label : Option String) :
    (∀ field ∈ child.moved label, field.isSuccess = true) ↔
      ∀ field ∈ child.fields.items, field.isSuccess = true := by
  cases label with
  | none => exact Iff.rfl
  | some name => rw [moved, ← allSucceed_iff, ← allSucceed_iff, allSucceed_fieldsUnder]

theorem isSuccess_of_absorb {into child : Outcome} {label : Option String}
    (success : (into.absorb child label).into.isSuccess = true) : into.isSuccess = true := by
  rw [absorb_into, isSuccess_addFields] at success
  exact isSuccess_of_addMessages success.1

/-- A successful child leaves a success as it is. -/
theorem isSuccess_absorb_of_isSuccess {into child : Outcome} (success : into.isSuccess = true)
    (childSuccess : child.isSuccess = true) (label : Option String) :
    (into.absorb child label).into.isSuccess = true := by
  rw [isSuccess_iff] at childSuccess
  rw [absorb_into, childSuccess.1, addMessages_nil, isSuccess_addFields]
  refine ⟨success, fun field member => ?_⟩
  exact (moved_succeed_iff child label).2 childSuccess.2 field (List.mem_of_mem_take member)

/-- Nothing of a failing child is lost to the success of the whole, if there is room for a message
and the field outcomes that are dropped succeed. -/
theorem isSuccess_absorb {into child : Outcome} {label : Option String}
    (room : 1 ≤ into.messages.capacity)
    (lossless : ∀ field ∈ (into.absorb child label).refused, field.isSuccess = true) :
    (into.absorb child label).into.isSuccess = true ↔
      into.isSuccess = true ∧ child.isSuccess = true := by
  rw [absorb_refused, ← fields_addMessages into child.messages.items] at lossless
  rw [absorb_into, isSuccess_addFields_of_overflow lossless, isSuccess_addMessages room,
    moved_succeed_iff, isSuccess_iff child, and_assoc]

end Outcome

end Assay
