/-
Module: Assay.Entries
Purpose: Lists of named entries in which a name stands once. The order is the one in which the names
  first came: setting a name again replaces its value and moves nothing.
Main exports: Entries.set, lookup_set
-/

namespace Assay.Entries

variable {κ ν : Type} [DecidableEq κ]

/-- Replaces the value of the first entry of that name, or appends an entry. -/
def set (key : κ) (value : ν) : List (κ × ν) → List (κ × ν)
  | [] => [(key, value)]
  | entry :: entries =>
    if entry.1 = key then (key, value) :: entries else entry :: set key value entries

/-- The last value set under a name is the one found, and no other name is touched. -/
theorem lookup_set (key other : κ) (value : ν) (entries : List (κ × ν)) :
    (set key value entries).lookup other =
      if other = key then some value else entries.lookup other := by
  induction entries with
  | nil => by_cases same : other = key <;> simp [set, List.lookup_cons, same, beq_eq_false_iff_ne.2]
  | cons entry entries ih =>
    obtain ⟨name, old⟩ := entry
    by_cases replaced : name = key
    · subst replaced
      by_cases same : other = name <;> simp [set, List.lookup_cons, same, beq_eq_false_iff_ne.2]
    · by_cases asked : other = name
      · subst asked
        simp [set, replaced]
      · simp [set, List.lookup_cons, replaced, ih, beq_eq_false_iff_ne.2 asked]

/-- Sets entries one after the other. -/
def ofList (entries : List (κ × ν)) : List (κ × ν) :=
  entries.foldl (fun sofar entry => set entry.1 entry.2 sofar) []

end Assay.Entries
