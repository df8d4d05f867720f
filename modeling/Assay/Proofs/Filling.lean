/-
Module: Assay.Proofs.Filling
Purpose: Outcomes that are filled, in whatever way. An outcome is offered messages and field outcomes,
  one by one or all those of another outcome, and keeps the first of either kind for which it has
  room. What a tree is put under comes before every label in it, and nothing else of it changes.
Main exports: Outcome.Filling, Outcome.filledBy, Outcome.allLabels, Outcome.unlabelled,
  Outcome.fillings_keep_first
-/
import Assay.Proofs.OutcomeTree

namespace Assay

namespace Buffer

variable {α : Type} (buffer : Buffer α) (item : α)

/-- A single item is kept if there is room for it. -/
theorem offer_singleton :
    buffer.offer [item] =
      if buffer.size < buffer.capacity then { buffer with items := buffer.items ++ [item] }
      else buffer := by
  split
  · rename_i room
    have some : 1 ≤ buffer.room := Nat.sub_pos_of_lt room
    rw [offer, List.take_of_length_le some]
  · rename_i full
    have none : buffer.room = 0 := Nat.sub_eq_zero_of_le (Nat.le_of_not_lt full)
    rw [offer, none, List.take_zero, List.append_nil]

theorem offer_singleton_iff :
    (buffer.size < buffer.capacity ↔ (buffer.offer [item]).items = buffer.items ++ [item]) ∧
      (¬ buffer.size < buffer.capacity ↔ buffer.offer [item] = buffer) := by
  have longer : buffer.items ≠ buffer.items ++ [item] := by simp
  rw [offer_singleton]
  split
  · rename_i room
    have changed : { buffer with items := buffer.items ++ [item] } ≠ buffer :=
      fun same => longer (congrArg items same).symm
    exact ⟨iff_of_true room rfl, iff_of_false (not_not_intro room) changed⟩
  · rename_i full
    exact ⟨iff_of_false full longer, iff_of_true full rfl⟩

end Buffer

namespace Outcome

/-! ### Single items -/

/-- The answer to a message tells whether the outcome keeps it. -/
theorem addMessage_iff (outcome : Outcome) (message : Message) :
    ((outcome.addMessage message).2 = true ↔
      (outcome.addMessage message).1.messages.items = outcome.messages.items ++ [message]) ∧
    ((outcome.addMessage message).2 = false ↔ (outcome.addMessage message).1 = outcome) := by
  obtain ⟨messages, fields⟩ := outcome
  simpa [addMessage, addMessages, hasMessageRoom] using messages.offer_singleton_iff message

/-- The answer to a field outcome tells whether the outcome keeps it. -/
theorem addField_iff (outcome : Outcome) (field : FieldOutcome) :
    ((outcome.addField field).2 = true ↔
      (outcome.addField field).1.fields.items = outcome.fields.items ++ [field]) ∧
    ((outcome.addField field).2 = false ↔ (outcome.addField field).1 = outcome) := by
  obtain ⟨messages, fields⟩ := outcome
  simpa [addField, addFields, hasFieldRoom] using fields.offer_singleton_iff field

/-! ### Ways to fill an outcome -/

/-- What an outcome is filled with. -/
inductive Filling where
  | message (message : Message)
  | field (field : FieldOutcome)
  | combine (child : Outcome)
  | combineNested (child : Outcome) (name : String)

/-- The messages that an outcome is offered. -/
def Filling.messages : Filling → List Message
  | .message found => [found]
  | .field _ => []
  | .combine child | .combineNested child _ => child.messages.items

/-- The field outcomes that an outcome is offered. -/
def Filling.fields : Filling → List FieldOutcome
  | .message _ => []
  | .field found => [found]
  | .combine child => child.fields.items
  | .combineNested child name => fieldsUnder name child.fields.items

def filledBy (outcome : Outcome) : Filling → Outcome
  | .message message => (outcome.addMessage message).1
  | .field field => (outcome.addField field).1
  | .combine child => (outcome.combine child).into
  | .combineNested child name => (outcome.combineNested child name).into

/-- However an outcome is filled, it is offered messages and then field outcomes. -/
theorem filledBy_eq (outcome : Outcome) (filling : Filling) :
    outcome.filledBy filling = (outcome.addMessages filling.messages).addFields filling.fields := by
  cases filling with
  | message message => rw [Filling.fields, addFields_nil]; rfl
  | field field => rw [Filling.messages, addMessages_nil]; rfl
  | combine child => exact absorb_into outcome child none
  | combineNested child name => exact absorb_into outcome child (some name)

/-- An outcome that is filled time and again is offered all messages and all field outcomes. -/
theorem fillings_eq (outcome : Outcome) (fillings : List Filling) :
    fillings.foldl filledBy outcome =
      (outcome.addMessages (fillings.flatMap Filling.messages)).addFields
        (fillings.flatMap Filling.fields) := by
  induction fillings generalizing outcome with
  | nil => rw [List.flatMap_nil, List.flatMap_nil, addMessages_nil, addFields_nil]; rfl
  | cons filling fillings ih =>
    have swap : ((outcome.addMessages filling.messages).addFields filling.fields).addMessages
          (fillings.flatMap Filling.messages) =
        ((outcome.addMessages filling.messages).addMessages
          (fillings.flatMap Filling.messages)).addFields filling.fields := rfl
    rw [List.foldl_cons, ih, filledBy_eq, swap, List.flatMap_cons, List.flatMap_cons,
      addMessages_append, addFields_append]

/-! ### Labels -/

mutual

/-- The labels of the tree, each before those that are below it. -/
def allLabels : Outcome → List String
  | ⟨_, ⟨fields, _⟩⟩ => labelsOfFields fields
termination_by structural outcome => outcome

def labelsOfFields : List FieldOutcome → List String
  | [] => []
  | ⟨path, outcome⟩ :: fields => path :: (outcome.allLabels ++ labelsOfFields fields)
termination_by structural fields => fields

end

mutual

/-- The tree with its labels left blank. -/
def unlabelled : Outcome → Outcome
  | ⟨messages, ⟨fields, capacity⟩⟩ => ⟨messages, ⟨unlabelledFields fields, capacity⟩⟩
termination_by structural outcome => outcome

def unlabelledFields : List FieldOutcome → List FieldOutcome
  | [] => []
  | ⟨_, outcome⟩ :: fields => ⟨"", outcome.unlabelled⟩ :: unlabelledFields fields
termination_by structural fields => fields

end

mutual

/-- What a tree is put under comes before every label in it. -/
theorem allLabels_under (name : String) : ∀ outcome : Outcome,
    (outcome.under name).allLabels = outcome.allLabels.map (name ++ "." ++ ·)
  | ⟨messages, ⟨fields, capacity⟩⟩ => by
    rw [under, allLabels, allLabels, labelsOfFields_fieldsUnder name fields]
termination_by structural outcome => outcome

theorem labelsOfFields_fieldsUnder (name : String) : ∀ fields : List FieldOutcome,
    labelsOfFields (fieldsUnder name fields) = (labelsOfFields fields).map (name ++ "." ++ ·)
  | [] => rfl
  | ⟨path, outcome⟩ :: fields => by
    rw [fieldsUnder, labelsOfFields, labelsOfFields, allLabels_under name outcome,
      labelsOfFields_fieldsUnder name fields, List.map_cons, List.map_append]
termination_by structural fields => fields

end

mutual

/-- Being put under a name changes nothing of a tree but its labels. -/
theorem unlabelled_under (name : String) : ∀ outcome : Outcome,
    (outcome.under name).unlabelled = outcome.unlabelled
  | ⟨messages, ⟨fields, capacity⟩⟩ => by
    rw [under, unlabelled, unlabelled, unlabelledFields_fieldsUnder name fields]
termination_by structural outcome => outcome

theorem unlabelledFields_fieldsUnder (name : String) : ∀ fields : List FieldOutcome,
    unlabelledFields (fieldsUnder name fields) = unlabelledFields fields
  | [] => rfl
  | ⟨path, outcome⟩ :: fields => by
    rw [fieldsUnder, unlabelledFields, unlabelledFields, unlabelled_under name outcome,
      unlabelledFields_fieldsUnder name fields]
termination_by structural fields => fields

end

mutual

theorem length_allLabels_unlabelled : ∀ outcome : Outcome,
    outcome.unlabelled.allLabels.length = outcome.allLabels.length
  | ⟨messages, ⟨fields, capacity⟩⟩ => by
    rw [unlabelled, allLabels, allLabels, length_labelsOfFields_unlabelled fields]
termination_by structural outcome => outcome

theorem length_labelsOfFields_unlabelled : ∀ fields : List FieldOutcome,
    (labelsOfFields (unlabelledFields fields)).length = (labelsOfFields fields).length
  | [] => rfl
  | ⟨path, outcome⟩ :: fields => by
    rw [unlabelledFields, labelsOfFields, labelsOfFields, List.length_cons, List.length_cons,
      List.length_append, List.length_append, length_allLabels_unlabelled outcome,
      length_labelsOfFields_unlabelled fields]
termination_by structural fields => fields

end

mutual

/-- A tree is what it is without labels, and its labels. -/
theorem eq_of_allLabels : ∀ {one other : Outcome}, one.allLabels = other.allLabels →
    one.unlabelled = other.unlabelled → one = other
  | ⟨messages, ⟨fields, capacity⟩⟩, ⟨_, ⟨others, _⟩⟩, sameLabels, same => by
    rw [allLabels, allLabels] at sameLabels
    rw [unlabelled, unlabelled, Outcome.mk.injEq] at same
    obtain ⟨rfl, sameBuffer⟩ := same
    rw [Buffer.mk.injEq] at sameBuffer
    obtain ⟨sameFields, rfl⟩ := sameBuffer
    rw [eq_of_labelsOfFields sameLabels sameFields]
termination_by structural one => one

theorem eq_of_labelsOfFields : ∀ {some others : List FieldOutcome},
    labelsOfFields some = labelsOfFields others →
      unlabelledFields some = unlabelledFields others → some = others
  | [], [], _, _ => rfl
  | [], ⟨_, _⟩ :: _, sameLabels, _ => nomatch sameLabels
  | ⟨_, _⟩ :: _, [], sameLabels, _ => nomatch sameLabels
  | ⟨path, outcome⟩ :: fields, ⟨other, otherOutcome⟩ :: others, sameLabels, same => by
    rw [labelsOfFields, labelsOfFields, List.cons.injEq] at sameLabels
    rw [unlabelledFields, unlabelledFields, List.cons.injEq, FieldOutcome.mk.injEq] at same
    obtain ⟨rfl, sameLabels⟩ := sameLabels
    obtain ⟨⟨_, sameOutcome⟩, sameFields⟩ := same
    have size : outcome.allLabels.length = otherOutcome.allLabels.length := by
      rw [← length_allLabels_unlabelled, sameOutcome, length_allLabels_unlabelled]
    obtain ⟨first, rest⟩ := List.append_inj sameLabels size
    rw [eq_of_allLabels first sameOutcome, eq_of_labelsOfFields rest sameFields]
termination_by structural some => some

end

/-- Field outcomes are put under a name when the name and a dot come before each of their labels, and
nothing else of them changes. -/
theorem eq_fieldsUnder_iff {name : String} {fields moved : List FieldOutcome} :
    moved = fieldsUnder name fields ↔
      labelsOfFields moved = (labelsOfFields fields).map (name ++ "." ++ ·) ∧
        unlabelledFields moved = unlabelledFields fields := by
  constructor
  · intro same
    rw [same]
    exact ⟨labelsOfFields_fieldsUnder name fields, unlabelledFields_fieldsUnder name fields⟩
  · intro ⟨sameLabels, same⟩
    rw [← labelsOfFields_fieldsUnder] at sameLabels
    rw [← unlabelledFields_fieldsUnder name fields] at same
    exact eq_of_labelsOfFields sameLabels same

/-! ### Any fillings -/

/-- However an outcome is filled, it keeps its room, and of the messages it is offered and of the field
outcomes it is offered it keeps as many as there is room for, the first ones, in their order. At any
time the answer to a message or a field outcome tells whether it is kept; otherwise nothing changes. A
child that is combined into it keeps its room and nothing else. Under a name its field outcomes have the
name and a dot before each of their labels, and are otherwise the same. And a tree succeeds exactly if
there is no message in it. -/
theorem fillings_keep_first {outcome : Outcome} (messagesFit : outcome.messages.Fits)
    (fieldsFit : outcome.fields.Fits) (fillings : List Filling) :
    let filled := fillings.foldl filledBy outcome
    filled.messages =
      ⟨(outcome.messages.items ++ fillings.flatMap Filling.messages).take outcome.messages.capacity,
        outcome.messages.capacity⟩ ∧
    filled.fields =
      ⟨(outcome.fields.items ++ fillings.flatMap Filling.fields).take outcome.fields.capacity,
        outcome.fields.capacity⟩ ∧
    (∀ message, ((filled.addMessage message).2 = true ↔
        (filled.addMessage message).1.messages.items = filled.messages.items ++ [message]) ∧
      ((filled.addMessage message).2 = false ↔ (filled.addMessage message).1 = filled)) ∧
    (∀ field, ((filled.addField field).2 = true ↔
        (filled.addField field).1.fields.items = filled.fields.items ++ [field]) ∧
      ((filled.addField field).2 = false ↔ (filled.addField field).1 = filled)) ∧
    (∀ (child : Outcome) (name : String),
      let emptied : Outcome :=
        ⟨.withCapacity child.messages.capacity, .withCapacity child.fields.capacity⟩
      (filled.combine child).drained = emptied ∧ (filled.combineNested child name).drained = emptied) ∧
    (∀ (child : Outcome) (name : String) (moved : List FieldOutcome),
      moved = (Filling.combineNested child name).fields ↔
        labelsOfFields moved = (labelsOfFields child.fields.items).map (name ++ "." ++ ·) ∧
          unlabelledFields moved = unlabelledFields child.fields.items) ∧
    ∀ tree : Outcome, tree.isSuccess = true ↔ tree.allMessages = [] := by
  intro filled
  have same : filled = _ := fillings_eq outcome fillings
  refine ⟨?_, ?_, filled.addMessage_iff, filled.addField_iff, fun _ _ => ⟨rfl, rfl⟩,
    fun _ _ _ => eq_fieldsUnder_iff, isSuccess_iff_allMessages⟩
  · rw [same, ← Buffer.items_offer messagesFit]
    rfl
  · rw [same, ← Buffer.items_offer fieldsFit]
    rfl

/-- An outcome with room for one message and one field outcome that is offered two of either. -/
theorem crowded_keeps_first :
    let empty : Outcome := ⟨.withCapacity 1, .withCapacity 1⟩
    let early : Message := { text := "early", key := "early" }
    let late : Message := { text := "late", key := "late" }
    let child : Outcome := ⟨⟨[late], 1⟩, ⟨[⟨"zip", bare⟩, ⟨"city", bare⟩], 2⟩⟩
    let filled := [.message early, .combineNested child "address"].foldl filledBy empty
    (empty.messages.Fits ∧ empty.fields.Fits) ∧
      filled.messages.items = [early] ∧ filled.fields.items = [⟨"address" ++ "." ++ "zip", bare⟩] := by
  intro empty early late child filled
  have noMessage : empty.messages.Fits := Nat.zero_le 1
  have noField : empty.fields.Fits := Nat.zero_le 1
  obtain ⟨messages, fields, _⟩ := fillings_keep_first noMessage noField
    [.message early, .combineNested child "address"]
  exact ⟨⟨noMessage, noField⟩, congrArg Buffer.items messages, congrArg Buffer.items fields⟩

end Outcome

end Assay
