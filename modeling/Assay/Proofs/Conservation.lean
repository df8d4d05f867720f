/-
Module: Assay.Proofs.Conservation
Purpose: What pools hand out and take back. Outcomes are made of three parts, and for each of them the
  pools count what is out: creating an outcome adds its parts, releasing it takes those of its whole
  tree away, and moving the contents of one outcome into another one changes nothing.
Main exports: Part, Outcome.count, Statistics.Open, Statistics.Tallies, OutcomePools.Owes
-/
import Assay.Proofs.OutcomeTree
import Assay.Proofs.Rooms

namespace Assay

/-- What outcomes are made of. -/
inductive Part where
  | shell
  | messages
  | fields
deriving DecidableEq, Repr

namespace Part

/-- What is counted of a part. -/
def statistics (pools : OutcomePools) : Part → Statistics
  | .shell => pools.shells.statistics
  | .messages => pools.messages.statistics
  | .fields => pools.fields.statistics

def ofShell : Part → Nat
  | .shell => 1
  | .messages | .fields => 0

def ofMessages (capacity : Nat) : Part → Nat
  | .messages => if capacity = 0 then 0 else 1
  | .shell | .fields => 0

def ofFields (capacity : Nat) : Part → Nat
  | .fields => if capacity = 0 then 0 else 1
  | .shell | .messages => 0

/-- An outcome has its shell, and a buffer of either kind if there is room in it. -/
def own (part : Part) (messages fields : Nat) : Nat :=
  part.ofShell + part.ofMessages messages + part.ofFields fields

end Part

/-! ### Counting -/

namespace Outcome

mutual

/-- How many nodes of the tree have the part. -/
def count (part : Part) : Outcome → Nat
  | ⟨messages, ⟨fields, capacity⟩⟩ => part.own messages.capacity capacity + countFields part fields
termination_by structural outcome => outcome

/-- How many nodes below have the part. -/
def countFields (part : Part) : List FieldOutcome → Nat
  | [] => 0
  | ⟨_, outcome⟩ :: fields => outcome.count part + countFields part fields
termination_by structural fields => fields

end

variable (part : Part)

theorem count_eq (outcome : Outcome) :
    outcome.count part = part.own outcome.messages.capacity outcome.fields.capacity +
      countFields part outcome.fields.items := by
  rcases outcome with ⟨messages, ⟨fields, capacity⟩⟩
  rw [count]

@[simp] theorem countFields_singleton (field : FieldOutcome) :
    countFields part [field] = field.outcome.count part := by
  rcases field with ⟨path, outcome⟩
  simp [countFields]

theorem countFields_append (first second : List FieldOutcome) :
    countFields part (first ++ second) = countFields part first + countFields part second := by
  induction first with
  | nil => simp [countFields]
  | cons field first ih =>
    rcases field with ⟨path, outcome⟩
    rw [List.cons_append, countFields, countFields, ih, Nat.add_assoc]

mutual

/-- Labels do not count. -/
theorem count_under (name : String) : ∀ outcome : Outcome,
    (outcome.under name).count part = outcome.count part
  | ⟨messages, ⟨fields, capacity⟩⟩ => by
    rw [under, count, count, countFields_fieldsUnder name fields]
termination_by structural outcome => outcome

theorem countFields_fieldsUnder (name : String) : ∀ fields : List FieldOutcome,
    countFields part (fieldsUnder name fields) = countFields part fields
  | [] => rfl
  | ⟨path, outcome⟩ :: fields => by
    rw [fieldsUnder, countFields, countFields, count_under name outcome,
      countFields_fieldsUnder name fields]
termination_by structural fields => fields

end

@[simp] theorem count_addMessages (outcome : Outcome) (offered : List Message) :
    (outcome.addMessages offered).count part = outcome.count part := by
  rw [count_eq, count_eq, addMessages, Buffer.capacity_offer]

/-- What is offered is either taken in or left over. -/
theorem count_addFields (outcome : Outcome) (offered : List FieldOutcome) :
    (outcome.addFields offered).count part + countFields part (outcome.fields.overflow offered) =
      outcome.count part + countFields part offered := by
  have added : (outcome.addFields offered).count part =
      part.own outcome.messages.capacity outcome.fields.capacity +
        countFields part (outcome.fields.items ++ offered.take outcome.fields.room) :=
    count_eq part _
  have split := countFields_append part (offered.take outcome.fields.room)
    (offered.drop outcome.fields.room)
  rw [List.take_append_drop] at split
  rw [added, countFields_append, count_eq part outcome, Buffer.overflow]
  omega

/-- Of a child whose contents are moved its own node is left. -/
theorem count_absorb (into child : Outcome) (label : Option String) :
    (into.absorb child label).into.count part +
        countFields part (into.absorb child label).refused +
        (into.absorb child label).drained.count part =
      into.count part + child.count part := by
  have labelled : countFields part (child.moved label) = countFields part child.fields.items := by
    cases label with
    | none => rfl
    | some name => exact countFields_fieldsUnder part name _
  have offered := count_addFields part (into.addMessages child.messages.items) (child.moved label)
  have drained : (into.absorb child label).drained.count part =
      part.own child.messages.capacity child.fields.capacity := by
    rw [count_eq]
    rfl
  rw [count_addMessages, fields_addMessages, labelled] at offered
  rw [absorb_into, absorb_refused, drained, count_eq part child]
  omega

end Outcome

/-! ### Counts of pools -/

namespace Statistics

/-- So many of what was rented has not been given back. -/
def Open (counts : Statistics) (n : Nat) : Prop :=
  counts.rented = counts.returned + counts.declined + n

variable {counts : Statistics} {n : Nat}

theorem Open.rent (isOpen : counts.Open n) (hit : Bool) : (counts.rent hit).Open (n + 1) := by
  simp only [Open, Statistics.rent] at *
  omega

theorem Open.giveBack (isOpen : counts.Open (n + 1)) (kept : Bool) : (counts.giveBack kept).Open n := by
  simp only [Open, Statistics.giveBack] at *
  cases kept <;> simp <;> omega

/-- The counts after so many objects were asked for and so many were given back. -/
structure Tallies (counts : Statistics) (requested given : Nat) : Prop where
  rented : counts.rented = requested
  served : counts.hits + counts.created = requested
  settled : counts.returned + counts.declined = given

variable {requested given : Nat}

theorem Tallies.start : Tallies {} 0 0 :=
  ⟨rfl, rfl, rfl⟩

theorem Tallies.rent (tallies : counts.Tallies requested given) (hit : Bool) :
    (counts.rent hit).Tallies (requested + 1) given := by
  obtain ⟨rented, served, settled⟩ := tallies
  cases hit with
  | false => exact ⟨by simp [Statistics.rent, rented], by simp [Statistics.rent]; omega, settled⟩
  | true => exact ⟨by simp [Statistics.rent, rented], by simp [Statistics.rent]; omega, settled⟩

theorem Tallies.giveBack (tallies : counts.Tallies requested given) (kept : Bool) :
    (counts.giveBack kept).Tallies requested (given + 1) := by
  obtain ⟨rented, served, settled⟩ := tallies
  cases kept with
  | false => exact ⟨rented, served, by simp [Statistics.giveBack]; omega⟩
  | true => exact ⟨rented, served, by simp [Statistics.giveBack]; omega⟩

/-- Counts that every use brings forward as it should are right after any uses. -/
theorem Tallies.uses {State Use : Type} {counts : State → Statistics} {use : State → Use → State}
    {rents givesBack : Use → Bool}
    (step : ∀ (state : State) (next : Use) (requested given : Nat),
      (counts state).Tallies requested given →
        (counts (use state next)).Tallies (requested + if rents next then 1 else 0)
          (given + if givesBack next then 1 else 0))
    {state : State} (tallies : (counts state).Tallies requested given) (uses : List Use) :
    (counts (uses.foldl use state)).Tallies (requested + uses.countP rents)
      (given + uses.countP givesBack) := by
  induction uses generalizing state requested given with
  | nil => exact tallies
  | cons next uses ih =>
    rw [List.countP_cons, List.countP_cons, Nat.add_comm (uses.countP rents),
      Nat.add_comm (uses.countP givesBack), ← Nat.add_assoc, ← Nat.add_assoc]
    exact ih (step state next requested given tallies)

end Statistics

theorem ArrayPool.statistics_rent {α : Type} (pool : ArrayPool α) (n : Nat) :
    ∃ hit, (pool.rent n).2.statistics = pool.statistics.rent hit := by
  rw [rent]
  split
  · exact ⟨_, rfl⟩
  · split <;> exact ⟨_, rfl⟩

theorem ArrayPool.statistics_giveBack {α : Type} (pool : ArrayPool α) (buffer : Buffer α) :
    ∃ kept, (pool.giveBack buffer).statistics = pool.statistics.giveBack kept := by
  rw [giveBack]
  split
  · exact ⟨_, rfl⟩
  · simp only
    split <;> exact ⟨_, rfl⟩

theorem ObjectPool.statistics_rent {α : Type} (pool : ObjectPool α) :
    ∃ hit, pool.rent.2.statistics = pool.statistics.rent hit := by
  rw [rent]
  split <;> exact ⟨_, rfl⟩

namespace OutcomePools

variable {rooms : Rooms} {part : Part} {pools : OutcomePools} {n : Nat}

/-- The pools are sound, and so many of the part are out. -/
structure Owes (rooms : Rooms) (part : Part) (pools : OutcomePools) (n : Nat) : Prop where
  yields : pools.Yields rooms
  isOpen : (part.statistics pools).Open n

namespace Owes

theorem of_eq {m : Nat} (owes : pools.Owes rooms part n) (same : n = m) :
    pools.Owes rooms part m :=
  same ▸ owes

/-! ### Renting -/

theorem isOpen_rentShell (isOpen : (part.statistics pools).Open n) :
    (part.statistics pools.rentShell.2).Open (n + part.ofShell) := by
  cases part with
  | shell =>
    obtain ⟨hit, counted⟩ := pools.shells.statistics_rent
    have rented := isOpen.rent hit
    rwa [Part.statistics, ← counted] at rented
  | messages => exact isOpen
  | fields => exact isOpen

theorem isOpen_equipMessages (outcome : Outcome) (capacity : Nat)
    (isOpen : (part.statistics pools).Open n) :
    (part.statistics (pools.equipMessages outcome capacity).2).Open
      (n + part.ofMessages capacity) := by
  rw [equipMessages]
  split
  · rename_i none
    cases part <;> simpa [Part.ofMessages, none] using isOpen
  · rename_i some
    cases part with
    | messages =>
      obtain ⟨hit, counted⟩ := pools.messages.statistics_rent capacity
      simp only [Part.statistics, Part.ofMessages, some, if_false, counted]
      exact isOpen.rent hit
    | shell => exact isOpen
    | fields => exact isOpen

theorem isOpen_equipFields (outcome : Outcome) (capacity : Nat)
    (isOpen : (part.statistics pools).Open n) :
    (part.statistics (pools.equipFields outcome capacity).2).Open (n + part.ofFields capacity) := by
  rw [equipFields]
  split
  · rename_i none
    cases part <;> simpa [Part.ofFields, none] using isOpen
  · rename_i some
    cases part with
    | fields =>
      obtain ⟨hit, counted⟩ := pools.fields.statistics_rent capacity
      simp only [Part.statistics, Part.ofFields, some, if_false, counted]
      exact isOpen.rent hit
    | shell => exact isOpen
    | messages => exact isOpen

/-- A part has room exactly where room was asked for. -/
theorem partRoom_eq_zero {α : Type} (pool : ArrayPool α) (n : Nat) : pool.partRoom n = 0 ↔ n = 0 := by
  constructor
  · intro none
    have enough := pool.le_partRoom n
    omega
  · rintro rfl
    rfl

theorem createSized (owes : pools.Owes rooms part n) (messages fields : Nat) :
    (pools.createSized messages fields).2.Owes rooms part
      (n + (pools.createSized messages fields).1.count part) where
  yields := owes.yields.createSized messages fields
  isOpen := by
    have rented := isOpen_equipFields (pools.rentShell.2.equipMessages pools.rentShell.1 messages).1
      fields (isOpen_equipMessages pools.rentShell.1 messages (isOpen_rentShell owes.isOpen))
    have same : (pools.createSized messages fields).1.count part =
        part.ofShell + part.ofMessages messages + part.ofFields fields := by
      rw [owes.yields.createSized_fst, Outcome.count_eq, owes.yields.fields_eq]
      simp only [Buffer.withCapacity, Outcome.countFields, Part.own, Nat.add_zero]
      cases part <;> simp [Part.ofMessages, Part.ofFields, partRoom_eq_zero]
    rw [same, ← Nat.add_assoc, ← Nat.add_assoc]
    exact rented

theorem create (owes : pools.Owes rooms part n) (expected : Nat) :
    (pools.create expected).2.Owes rooms part (n + (pools.create expected).1.count part) :=
  owes.createSized _ expected

theorem createField (owes : pools.Owes rooms part n) (path : String) (expected : Nat) :
    (pools.createField path expected).2.Owes rooms part
      (n + (pools.createField path expected).1.outcome.count part) :=
  owes.createSized _ expected

/-! ### Releasing -/

theorem returnMessages {buffer : Buffer Message}
    (owes : pools.Owes rooms part (n + part.ofMessages buffer.capacity)) :
    (pools.returnMessages buffer).Owes rooms part n where
  yields := owes.yields.returnMessages buffer
  isOpen := by
    have isOpen := owes.isOpen
    rw [OutcomePools.returnMessages]
    split
    · rename_i none
      cases part <;> simpa [Part.ofMessages, none] using isOpen
    · rename_i some
      cases part with
      | messages =>
        obtain ⟨kept, counted⟩ := pools.messages.statistics_giveBack buffer
        simp only [Part.ofMessages, some, if_false] at isOpen
        have returned := isOpen.giveBack kept
        rwa [Part.statistics, ← counted] at returned
      | shell => exact isOpen
      | fields => exact isOpen

theorem returnFields {buffer : Buffer FieldOutcome}
    (owes : pools.Owes rooms part (n + part.ofFields buffer.capacity)) :
    (pools.returnFields buffer).Owes rooms part n where
  yields := owes.yields.returnFields buffer
  isOpen := by
    have isOpen := owes.isOpen
    rw [OutcomePools.returnFields]
    split
    · rename_i none
      cases part <;> simpa [Part.ofFields, none] using isOpen
    · rename_i some
      cases part with
      | fields =>
        obtain ⟨kept, counted⟩ := pools.fields.statistics_giveBack buffer
        simp only [Part.ofFields, some, if_false] at isOpen
        have returned := isOpen.giveBack kept
        rwa [Part.statistics, ← counted] at returned
      | shell => exact isOpen
      | messages => exact isOpen

theorem returnShell (owes : pools.Owes rooms part (n + part.ofShell)) :
    pools.returnShell.Owes rooms part n where
  yields := owes.yields.returnShell
  isOpen := by
    cases part with
    | shell => exact owes.isOpen.giveBack _
    | messages => exact owes.isOpen
    | fields => exact owes.isOpen

mutual

/-- Releasing an outcome gives back all its parts, down the tree. -/
theorem releaseTree {rooms : Rooms} {part : Part} : ∀ (outcome : Outcome) {pools : OutcomePools}
    {n : Nat}, pools.Owes rooms part (n + outcome.count part) →
      (releaseTree outcome pools).Owes rooms part n
  | ⟨messages, ⟨fields, capacity⟩⟩, pools, n, owes => by
    rw [OutcomePools.releaseTree]
    apply returnShell
    apply returnFields
    apply releaseTrees fields
    apply returnMessages
    apply owes.of_eq
    simp only [Outcome.count, Part.own, Buffer.withCapacity]
    omega
termination_by structural outcome => outcome

theorem releaseTrees {rooms : Rooms} {part : Part} : ∀ (fields : List FieldOutcome)
    {pools : OutcomePools} {n : Nat}, pools.Owes rooms part (n + Outcome.countFields part fields) →
      (releaseTrees fields pools).Owes rooms part n
  | [], pools, n, owes => owes
  | ⟨_, outcome⟩ :: fields, pools, n, owes => by
    rw [OutcomePools.releaseTrees]
    apply releaseTrees fields
    apply releaseTree outcome
    apply owes.of_eq
    rw [Outcome.countFields]
    omega
termination_by structural fields => fields

end

theorem release {outcome : Outcome} (owes : pools.Owes rooms part (n + outcome.count part)) :
    (pools.release outcome).Owes rooms part n :=
  releaseTree outcome owes

/-! ### Moving -/

theorem attach {outcome : Outcome} {field : FieldOutcome}
    (owes : pools.Owes rooms part (n + (outcome.count part + field.outcome.count part))) :
    (pools.attach outcome field).2.Owes rooms part
      (n + (pools.attach outcome field).1.count part) := by
  have offered := Outcome.count_addFields part outcome [field]
  rw [Outcome.countFields_singleton] at offered
  apply releaseTrees
  apply owes.of_eq
  simp only [OutcomePools.attach]
  omega

theorem merge {into child : Outcome} {label : Option String}
    (owes : pools.Owes rooms part (n + (into.count part + child.count part))) :
    (pools.merge into child label).2.Owes rooms part
      (n + (pools.merge into child label).1.count part) := by
  have moved := Outcome.count_absorb part into child label
  apply releaseTree
  apply releaseTrees
  apply owes.of_eq
  simp only [OutcomePools.merge, OutcomePools.absorb]
  omega

mutual

theorem fill {rooms : Rooms} {part : Part} : ∀ (draft : Draft) (outcome : Outcome)
    {pools : OutcomePools} {n : Nat}, pools.Owes rooms part (n + outcome.count part) →
      (OutcomePools.fill draft outcome pools).2.Owes rooms part
        (n + (OutcomePools.fill draft outcome pools).1.count part)
  | ⟨_, messages, fields⟩, outcome, pools, n, owes => by
    rw [OutcomePools.fill]
    apply fillFields fields
    rwa [Outcome.count_addMessages]
termination_by structural draft => draft

theorem fillFields {rooms : Rooms} {part : Part} : ∀ (fields : List FieldDraft) (outcome : Outcome)
    {pools : OutcomePools} {n : Nat}, pools.Owes rooms part (n + outcome.count part) →
      (OutcomePools.fillFields fields outcome pools).2.Owes rooms part
        (n + (OutcomePools.fillFields fields outcome pools).1.count part)
  | [], outcome, pools, n, owes => owes
  | ⟨path, draft⟩ :: fields, outcome, pools, n, owes => by
    rw [OutcomePools.fillFields]
    apply fillFields fields
    apply attach
    have filled := fill draft _ (owes.createField path draft.expected)
    exact filled.of_eq (Nat.add_assoc _ _ _)
termination_by structural fields => fields

end

theorem build (owes : pools.Owes rooms part n) (draft : Draft) :
    (pools.build draft).2.Owes rooms part (n + (pools.build draft).1.count part) :=
  fill draft _ (owes.create draft.expected)

end Owes

end OutcomePools

end Assay
