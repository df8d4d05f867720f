/-
Module: Assay.Proofs.Lookup
Purpose: Field outcomes are looked for by their paths, and only where these lead. In a tree in which the
  path of every node leads below that of the node above it nothing is missed by that: what is found is
  what stands first in the tree, where a node stands before the nodes below it. Beneath names without
  dots no path occurs twice, if none does among what is put there.
Main exports: Outcome.LeadsBelow, Outcome.nodes, Outcome.WellLabelled, Outcome.field?_eq_find?,
  Outcome.nodup_pathsOfFields_cons
-/
import Mathlib.Data.List.Nodup
import Assay.Proofs.Filling
import Assay.Proofs.Labels

namespace Assay.Outcome

/-! ### Paths -/

/-- A path goes on, with a dot and some text, where another one ends. -/
def LeadsBelow (path above : String) : Prop :=
  ∃ rest, path = above ++ "." ++ rest

theorem leadsBelow_iff {path above : String} : leadsBelow path above = true ↔ LeadsBelow path above := by
  unfold leadsBelow
  rw [List.isPrefixOf_iff_prefix]
  constructor
  · intro ⟨rest, same⟩
    have whole : path = above ++ "." ++ String.ofList rest := by
      apply String.toList_inj.1
      simp [← same]
    exact ⟨_, whole⟩
  · intro ⟨rest, same⟩
    exact ⟨rest.toList, by simp [same]⟩

instance (path above : String) : Decidable (LeadsBelow path above) :=
  decidable_of_iff _ leadsBelow_iff

theorem LeadsBelow.trans {path middle above : String} (near : LeadsBelow path middle)
    (far : LeadsBelow middle above) : LeadsBelow path above := by
  obtain ⟨last, rfl⟩ := near
  obtain ⟨first, rfl⟩ := far
  exact ⟨first ++ "." ++ last, by simp [String.append_assoc]⟩

theorem LeadsBelow.under {path above : String} (leads : LeadsBelow path above) (name : String) :
    LeadsBelow (name ++ "." ++ path) (name ++ "." ++ above) := by
  obtain ⟨rest, rfl⟩ := leads
  exact ⟨rest, by simp [String.append_assoc]⟩

theorem LeadsBelow.ne {path above : String} (leads : LeadsBelow path above) : path ≠ above := by
  obtain ⟨rest, rfl⟩ := leads
  intro same
  have letters := congrArg (·.toList.length) same
  simp at letters

/-! ### Nodes -/

mutual

/-- Field outcomes are taken one after the other, each with those in it. -/
theorem outcome_induction {motive : List FieldOutcome → Prop} (nil : motive [])
    (cons : ∀ path outcome fields, motive outcome.fields.items → motive fields →
      motive (⟨path, outcome⟩ :: fields)) : ∀ outcome : Outcome, motive outcome.fields.items
  | ⟨_, ⟨fields, _⟩⟩ => fields_induction nil cons fields
termination_by structural outcome => outcome

@[elab_as_elim]
theorem fields_induction {motive : List FieldOutcome → Prop} (nil : motive [])
    (cons : ∀ path outcome fields, motive outcome.fields.items → motive fields →
      motive (⟨path, outcome⟩ :: fields)) : ∀ fields, motive fields
  | [] => nil
  | ⟨path, outcome⟩ :: fields =>
    cons path outcome fields (outcome_induction nil cons outcome) (fields_induction nil cons fields)
termination_by structural fields => fields

end

mutual

/-- The field outcomes of a tree, each before those that are below it. -/
def nodes : Outcome → List FieldOutcome
  | ⟨_, ⟨fields, _⟩⟩ => nodesOfFields fields
termination_by structural outcome => outcome

def nodesOfFields : List FieldOutcome → List FieldOutcome
  | [] => []
  | ⟨path, outcome⟩ :: fields => ⟨path, outcome⟩ :: (outcome.nodes ++ nodesOfFields fields)
termination_by structural fields => fields

end

theorem nodes_eq (outcome : Outcome) : outcome.nodes = nodesOfFields outcome.fields.items := by
  obtain ⟨messages, fields, capacity⟩ := outcome
  rw [nodes]

@[simp] theorem nodesOfFields_cons (path : String) (outcome : Outcome) (fields : List FieldOutcome) :
    nodesOfFields (⟨path, outcome⟩ :: fields) =
      ⟨path, outcome⟩ :: (nodesOfFields outcome.fields.items ++ nodesOfFields fields) := by
  rw [nodesOfFields, nodes_eq]

theorem nodesOfFields_append (early late : List FieldOutcome) :
    nodesOfFields (early ++ late) = nodesOfFields early ++ nodesOfFields late := by
  induction early with
  | nil => rfl
  | cons field fields ih =>
    obtain ⟨path, outcome⟩ := field
    rw [List.cons_append, nodesOfFields_cons, nodesOfFields_cons, ih, List.cons_append,
      List.append_assoc]

/-- Field outcomes that are put under a name have their nodes under it. -/
theorem nodesOfFields_under (name : String) (fields : List FieldOutcome) :
    nodesOfFields (fieldsUnder name fields) = (nodesOfFields fields).map (FieldOutcome.under name) := by
  induction fields using fields_induction with
  | nil => rfl
  | cons path outcome fields below rest =>
    rw [fieldsUnder, nodesOfFields_cons, nodesOfFields_cons, rest, items_fields_under,
      ← fieldsUnder_eq_map, below, List.map_cons, List.map_append]
    rfl

/-! ### Labelling -/

/-- The paths of the nodes of field outcomes lead below those of the nodes above them. -/
def WellLabelledFields (fields : List FieldOutcome) : Prop :=
  ∀ node ∈ nodesOfFields fields, ∀ child ∈ node.outcome.fields.items, LeadsBelow child.path node.path

/-- The paths of the nodes of a tree lead below those of the nodes above them. -/
def WellLabelled (tree : Outcome) : Prop :=
  ∀ node ∈ tree.nodes, ∀ child ∈ node.outcome.fields.items, LeadsBelow child.path node.path

instance (tree : Outcome) : Decidable tree.WellLabelled :=
  inferInstanceAs (Decidable (∀ node ∈ tree.nodes, ∀ child ∈ node.outcome.fields.items,
    LeadsBelow child.path node.path))

theorem wellLabelled_iff {tree : Outcome} :
    tree.WellLabelled ↔ WellLabelledFields tree.fields.items := by
  rw [WellLabelled, WellLabelledFields, nodes_eq]

theorem wellLabelledFields_cons {path : String} {outcome : Outcome} {fields : List FieldOutcome} :
    WellLabelledFields (⟨path, outcome⟩ :: fields) ↔
      (∀ child ∈ outcome.fields.items, LeadsBelow child.path path) ∧
        WellLabelledFields outcome.fields.items ∧ WellLabelledFields fields := by
  simp only [WellLabelledFields, nodesOfFields_cons, List.forall_mem_cons, List.forall_mem_append]

theorem wellLabelledFields_append {early late : List FieldOutcome} :
    WellLabelledFields (early ++ late) ↔ WellLabelledFields early ∧ WellLabelledFields late := by
  simp only [WellLabelledFields, nodesOfFields_append, List.forall_mem_append]

/-- Field outcomes are labelled well if each of them is. -/
theorem wellLabelledFields_iff_forall {fields : List FieldOutcome} :
    WellLabelledFields fields ↔ ∀ field ∈ fields, WellLabelledFields [field] := by
  induction fields with
  | nil => simp [WellLabelledFields, nodesOfFields]
  | cons field fields ih =>
    rw [← List.singleton_append, wellLabelledFields_append, ih, List.singleton_append,
      List.forall_mem_cons]

/-- Well labelled field outcomes remain so when they are put under a name. -/
theorem WellLabelledFields.under {fields : List FieldOutcome} (labelled : WellLabelledFields fields)
    (name : String) : WellLabelledFields (fieldsUnder name fields) := by
  intro node member child inside
  rw [nodesOfFields_under] at member
  obtain ⟨original, known, rfl⟩ := List.mem_map.1 member
  have parts : child ∈ original.outcome.fields.items.map (FieldOutcome.under name) := by
    rw [← items_fields_under]
    exact inside
  obtain ⟨own, held, rfl⟩ := List.mem_map.1 parts
  exact (labelled original known own held).under name

/-- All nodes below a node lead below it, however deep they are. -/
theorem leadsBelow_of_mem_nodes {above : String} {fields : List FieldOutcome}
    (labelled : WellLabelledFields fields) (leads : ∀ child ∈ fields, LeadsBelow child.path above) :
    ∀ node ∈ nodesOfFields fields, LeadsBelow node.path above := by
  induction fields using fields_induction generalizing above with
  | nil => exact fun _ member => absurd member List.not_mem_nil
  | cons path outcome fields below rest =>
    obtain ⟨children, inside, others⟩ := wellLabelledFields_cons.1 labelled
    obtain ⟨own, leads⟩ := List.forall_mem_cons.1 leads
    rw [nodesOfFields_cons, List.forall_mem_cons, List.forall_mem_append]
    exact ⟨own, fun node member => (below inside children node member).trans own, rest others leads⟩

/-! ### Looking for a path -/

theorem field?_eq (path : String) (outcome : Outcome) :
    outcome.field? path = firstField? path outcome.fields.items := by
  obtain ⟨messages, fields, capacity⟩ := outcome
  rw [field?]

theorem firstField?_eq_find? {fields : List FieldOutcome} (labelled : WellLabelledFields fields)
    (path : String) : firstField? path fields = (nodesOfFields fields).find? (·.path == path) := by
  induction fields using fields_induction with
  | nil => rfl
  | cons label outcome fields below rest =>
    obtain ⟨children, inside, others⟩ := wellLabelledFields_cons.1 labelled
    rw [firstField?, nodesOfFields_cons, List.find?_cons, List.find?_append]
    by_cases here : label = path
    · simp [here]
    · have elsewhere : (label == path) = false := beq_eq_false_iff_ne.2 here
      rw [if_neg here]
      simp only [elsewhere, ← below inside, ← rest others, ← field?_eq]
      by_cases leads : leadsBelow path label = true
      · rw [if_pos leads]
        cases outcome.field? path <;> rfl
      · -- Below the node there are only paths that lead there.
        have pruned : outcome.field? path = none := by
          rw [field?_eq, below inside, List.find?_eq_none]
          intro node member same
          rw [beq_iff_eq] at same
          exact leads (leadsBelow_iff.2 (same ▸ leadsBelow_of_mem_nodes inside children node member))
        rw [if_neg leads, pruned]
        rfl

/-- In a tree that is well labelled, the first node with a path is found under it. -/
theorem field?_eq_find? {tree : Outcome} (labelled : tree.WellLabelled) (path : String) :
    tree.field? path = tree.nodes.find? (·.path == path) := by
  rw [field?_eq, nodes_eq]
  exact firstField?_eq_find? (wellLabelled_iff.1 labelled) path

/-! ### Paths that occur once -/

/-- Where no path occurs twice, every node is found by its own. -/
theorem find?_path_of_nodup {nodes : List FieldOutcome} (single : (nodes.map FieldOutcome.path).Nodup)
    {node : FieldOutcome} (member : node ∈ nodes) :
    nodes.find? (·.path == node.path) = some node := by
  cases found : nodes.find? (·.path == node.path) with
  | none => exact absurd (beq_self_eq_true node.path) (List.find?_eq_none.1 found node member)
  | some first =>
    have same := List.find?_some found
    rw [beq_iff_eq] at same
    have one := List.inj_on_of_nodup_map single (List.mem_of_find?_eq_some found) member
    rw [one same]

/-- The part of a path before its first dot. -/
def root (path : String) : List Char :=
  path.toList.takeWhile (· != '.')

/-- A path that is a name without dots, or leads below it, has it as its first part. -/
theorem root_append {name : String} (dotless : '.' ∉ name.toList) (rest : List Char) :
    (name.toList ++ rest).takeWhile (· != '.') = name.toList ++ rest.takeWhile (· != '.') := by
  apply List.takeWhile_append_of_pos
  intro letter member
  exact bne_iff_ne.2 fun same => dotless (same ▸ member)

theorem root_of_dotless {name : String} (dotless : '.' ∉ name.toList) : root name = name.toList := by
  have whole := root_append dotless []
  rwa [List.append_nil, List.takeWhile_nil, List.append_nil] at whole

theorem root_of_leadsBelow {path name : String} (leads : LeadsBelow path name)
    (dotless : '.' ∉ name.toList) : root path = name.toList := by
  obtain ⟨rest, rfl⟩ := leads
  have first := root_append dotless ('.' :: rest.toList)
  simpa [root] using first

/-- The paths of the nodes of field outcomes. -/
def pathsOfFields (fields : List FieldOutcome) : List String :=
  (nodesOfFields fields).map FieldOutcome.path

@[simp] theorem pathsOfFields_nil : pathsOfFields [] = [] := rfl

theorem pathsOfFields_cons (path : String) (outcome : Outcome) (fields : List FieldOutcome) :
    pathsOfFields (⟨path, outcome⟩ :: fields) =
      path :: (pathsOfFields outcome.fields.items ++ pathsOfFields fields) := by
  rw [pathsOfFields, nodesOfFields_cons, List.map_cons, List.map_append]
  rfl

theorem pathsOfFields_append (early late : List FieldOutcome) :
    pathsOfFields (early ++ late) = pathsOfFields early ++ pathsOfFields late := by
  rw [pathsOfFields, nodesOfFields_append, List.map_append]
  rfl

theorem pathsOfFields_under (name : String) (fields : List FieldOutcome) :
    pathsOfFields (fieldsUnder name fields) = (pathsOfFields fields).map (name ++ "." ++ ·) := by
  rw [pathsOfFields, nodesOfFields_under, List.map_map, pathsOfFields, List.map_map]
  rfl

section

variable {name : String} {content : Outcome} {held fields : List FieldOutcome}
  (parts : content.fields.items = fieldsUnder name held) (dotless : '.' ∉ name.toList)

include parts dotless

/-- All that is put under a name without dots has the name as its root. -/
theorem root_of_mem_paths {path : String} (member : path ∈ pathsOfFields [⟨name, content⟩]) :
    root path = name.toList := by
  rw [pathsOfFields_cons, parts, pathsOfFields_under, List.mem_cons] at member
  cases member with
  | inl same => rw [same, root_of_dotless dotless]
  | inr below =>
    obtain ⟨lower, _, rfl⟩ := List.mem_map.1 (List.append_nil _ ▸ below)
    exact root_of_leadsBelow ⟨lower, rfl⟩ dotless

/-- Nothing occurs twice beneath a name and next to it, if it is the root of nothing next to it. -/
theorem nodup_pathsOfFields_cons (fresh : ∀ path ∈ pathsOfFields fields, root path ≠ name.toList)
    (below : (pathsOfFields held).Nodup) (rest : (pathsOfFields fields).Nodup) :
    (pathsOfFields (⟨name, content⟩ :: fields)).Nodup := by
  have apart : (name :: (pathsOfFields held).map (name ++ "." ++ ·)).Nodup := by
    refine List.nodup_cons.2 ⟨?_, List.Nodup.map ?_ below⟩
    · intro member
      obtain ⟨lower, _, same⟩ := List.mem_map.1 member
      exact LeadsBelow.ne ⟨lower, rfl⟩ same
    · exact fun one other same => (String.append_right_inj _).1 same
  have own : (pathsOfFields [⟨name, content⟩]).Nodup := by
    rwa [pathsOfFields_cons, parts, pathsOfFields_under, pathsOfFields_nil, List.append_nil]
  rw [← List.singleton_append, pathsOfFields_append]
  refine List.nodup_append.2 ⟨own, rest, ?_⟩
  intro path member other elsewhere same
  exact fresh other elsewhere (same ▸ root_of_mem_paths parts dotless member)

end

end Assay.Outcome
