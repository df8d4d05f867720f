/-
Module: Assay.Proofs.Labels
Purpose: How the outcome of a field is labelled on its way up. When the outcome of the object that a
  field holds is merged under the name of the field, the name comes before every path in it; an outcome
  that is merged under one name after the other has the path that they lead along from the outermost
  one on. What is offered to an outcome is found in its tree from then on, or it is dropped together
  with the field outcome that it is in.
Main exports: FieldOutcome.beneath, FieldOutcome.path_beneath, FieldOutcome.Within, FieldOutcome.Shown
-/
import Assay.Proofs.OutcomeTree
import Assay.Run.Journal

namespace Assay

/-! ### Labels -/

namespace FieldOutcome

/-- A field outcome with `name` and a dot put before its path and those below it. -/
def under (name : String) (field : FieldOutcome) : FieldOutcome :=
  ⟨name ++ "." ++ field.path, field.outcome.under name⟩

/-- A field outcome as it is labelled beneath fields of these names, the outermost one first. -/
def beneath (names : List String) (field : FieldOutcome) : FieldOutcome :=
  names.foldr under field

@[simp] theorem beneath_nil (field : FieldOutcome) : field.beneath [] = field := rfl

@[simp] theorem beneath_cons (name : String) (names : List String) (field : FieldOutcome) :
    field.beneath (name :: names) = (field.beneath names).under name := rfl

/-- The path of a field outcome leads along the names of the fields that it is beneath. -/
theorem path_beneath (names : List String) (field : FieldOutcome) :
    (field.beneath names).path = ".".intercalate (names ++ [field.path]) := by
  induction names with
  | nil => rw [beneath_nil, List.nil_append, String.intercalate_singleton]
  | cons name names ih =>
    have more : names ++ [field.path] ≠ [] := by simp
    rw [beneath_cons, under, ih, List.cons_append, String.intercalate_cons_of_ne_nil more]

end FieldOutcome

namespace Outcome

theorem fieldsUnder_eq_map (name : String) (fields : List FieldOutcome) :
    fieldsUnder name fields = fields.map (FieldOutcome.under name) := by
  induction fields with
  | nil => rfl
  | cons field fields ih =>
    obtain ⟨path, outcome⟩ := field
    rw [fieldsUnder, ih]
    rfl

/-- A label is put before the paths below an outcome. -/
@[simp] theorem items_fields_under (name : String) (outcome : Outcome) :
    (outcome.under name).fields.items = outcome.fields.items.map (FieldOutcome.under name) := by
  obtain ⟨messages, fields, capacity⟩ := outcome
  rw [under, fieldsUnder_eq_map]

/-- A label leaves the messages of an outcome alone. -/
@[simp] theorem messages_under (name : String) (outcome : Outcome) :
    (outcome.under name).messages = outcome.messages := by
  obtain ⟨messages, fields, capacity⟩ := outcome
  rw [under]

end Outcome

namespace FieldOutcome

/-- Wherever a field outcome is labelled, it keeps its messages. -/
theorem messages_beneath (names : List String) (field : FieldOutcome) :
    (field.beneath names).outcome.messages = field.outcome.messages := by
  induction names with
  | nil => rw [beneath_nil]
  | cons name names ih => rw [beneath_cons, under, Outcome.messages_under, ih]

/-! ### Trees -/

/-- A field outcome is somewhere in the trees of these field outcomes. -/
inductive Within (sought : FieldOutcome) : List FieldOutcome → Prop where
  | here {fields : List FieldOutcome} (member : sought ∈ fields) : Within sought fields
  | deeper {field : FieldOutcome} {fields : List FieldOutcome} (member : field ∈ fields)
      (inside : Within sought field.outcome.fields.items) : Within sought fields

namespace Within

variable {sought : FieldOutcome} {fields more : List FieldOutcome}

/-- What is in a tree is in one of its field outcomes. -/
theorem exists_mem (within : sought.Within fields) : ∃ field ∈ fields, sought.Within [field] := by
  cases within with
  | here member => exact ⟨sought, member, .here (List.mem_singleton_self sought)⟩
  | deeper member inside => exact ⟨_, member, .deeper (List.mem_singleton_self _) inside⟩

theorem of_mem {field : FieldOutcome} (member : field ∈ fields) (within : sought.Within [field]) :
    sought.Within fields := by
  cases within with
  | here own => exact .here (List.mem_singleton.1 own ▸ member)
  | deeper own inside => exact .deeper (List.mem_singleton.1 own ▸ member) inside

theorem mono (within : sought.Within fields) (kept : fields ⊆ more) : sought.Within more := by
  obtain ⟨field, member, inside⟩ := within.exists_mem
  exact of_mem (kept member) inside

/-- What is in a tree is in it under the label that the tree is put under. -/
theorem under (within : sought.Within fields) (name : String) :
    (sought.under name).Within (fields.map (FieldOutcome.under name)) := by
  induction within with
  | here member => exact .here (List.mem_map_of_mem member)
  | @deeper field fields member _ ih =>
    rw [← Outcome.items_fields_under] at ih
    have inside : (sought.under name).Within (field.under name).outcome.fields.items := ih
    exact .deeper (List.mem_map_of_mem member) inside

end Within

/-! ### What becomes of a field outcome -/

/-- What became of the outcome of a field that is merged beneath fields of these names: it is in the
trees of these field outcomes, labelled with all the names, or it was dropped with the field outcome
that it was in by then, labelled with the innermost ones. -/
inductive Shown (own : FieldOutcome) (names : List String) (fields : List FieldOutcome)
    (events : List Event) : Prop where
  | kept (within : (own.beneath names).Within fields)
  | dropped {refused : FieldOutcome} {inner : List String} (happened : .refusal refused ∈ events)
      (innermost : inner <:+ names) (within : (own.beneath inner).Within [refused])

namespace Shown

variable {own : FieldOutcome} {names : List String} {fields more : List FieldOutcome}
  {events others : List Event}

/-- A field outcome is shown on its own. -/
theorem alone (own : FieldOutcome) (events : List Event) : own.Shown [] [own] events :=
  .kept (.here (List.mem_singleton_self own))

theorem mono (shown : own.Shown names fields events) (kept : fields ⊆ more) (grow : events ⊆ others) :
    own.Shown names more others := by
  cases shown with
  | kept within => exact .kept (within.mono kept)
  | dropped happened innermost within => exact .dropped (grow happened) innermost within

/-- What is shown below a field outcome is shown in it. -/
theorem held {path : String} {outcome : Outcome} (shown : own.Shown names outcome.fields.items events) :
    own.Shown names [⟨path, outcome⟩] events := by
  cases shown with
  | kept within => exact .kept (.deeper (List.mem_singleton_self _) within)
  | dropped happened innermost within => exact .dropped happened innermost within

/-- What is put under a name is shown beneath it. -/
theorem under (shown : own.Shown names fields events) (name : String) :
    own.Shown (name :: names) (Outcome.fieldsUnder name fields) events := by
  cases shown with
  | kept within =>
    rw [Outcome.fieldsUnder_eq_map]
    exact .kept (within.under name)
  | dropped happened innermost within =>
    exact .dropped happened (innermost.trans (List.suffix_cons name names)) within

/-- What is offered to an outcome is shown by it, as long as what finds no room is written down. -/
theorem offer (shown : own.Shown names fields events) (outcome : Outcome) :
    own.Shown names (outcome.addFields fields).fields.items
      (events ++ (outcome.fields.overflow fields).map .refusal) := by
  cases shown with
  | kept within =>
    obtain ⟨field, member, inside⟩ := within.exists_mem
    rw [← List.take_append_drop outcome.fields.room fields] at member
    rcases List.mem_append.1 member with fits | refused
    · exact .kept (.of_mem (List.mem_append_right _ fits) inside)
    · have happened : .refusal field ∈ (outcome.fields.overflow fields).map Event.refusal :=
        List.mem_map_of_mem refused
      exact .dropped (List.mem_append_right _ happened) (List.suffix_refl names) inside
  | dropped happened innermost within =>
    exact .dropped (List.mem_append_left _ happened) innermost within

end Shown

end FieldOutcome

end Assay
