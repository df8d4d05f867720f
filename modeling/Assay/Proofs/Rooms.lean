/-
Module: Assay.Proofs.Rooms
Purpose: What pools hand out. However a pool was used before, a buffer rented from it is empty and
  has the room of the class that serves the request. The outcomes of a validation therefore depend
  on the rooms of its pools, and on nothing else that the pools remember.
Main exports: ArrayPool.Sound, ArrayPool.roomFor, Rooms, OutcomePools.Yields, Rooms.build, Rooms.Roomy
-/
import Assay.Outcome.Pools

namespace Assay

namespace ArrayPool

variable {α : Type} {pool : ArrayPool α}

/-- Every idle buffer is empty and has the capacity of the class it waits in. -/
def Sound (pool : ArrayPool α) : Prop :=
  ∀ index idle, pool.classes[index]? = some idle →
    ∀ buffer ∈ idle, buffer = Buffer.withCapacity (pool.classLength index)

/-- The room that a request for `n` items is served with. -/
def roomFor (pool : ArrayPool α) (n : Nat) : Nat :=
  match pool.classForRequest? n with
  | some index => pool.classLength index
  | none => n

/-- The classes of a pool are those of another one, whatever is idle in them. -/
structure SameClasses (pool other : ArrayPool α) : Prop where
  minShift : other.minShift = pool.minShift
  classes : other.classes.length = pool.classes.length

theorem SameClasses.classLength {other : ArrayPool α} (same : pool.SameClasses other)
    (index : Nat) : other.classLength index = pool.classLength index := by
  rw [ArrayPool.classLength, ArrayPool.classLength, same.minShift]

theorem SameClasses.roomFor {other : ArrayPool α} (same : pool.SameClasses other) :
    other.roomFor = pool.roomFor := by
  funext n
  have served : other.classForRequest? n = pool.classForRequest? n := by
    rw [classForRequest?, classForRequest?, same.minShift, same.classes]
  rw [ArrayPool.roomFor, ArrayPool.roomFor, served]
  cases pool.classForRequest? n with
  | none => rfl
  | some index => exact same.classLength index

/-- A request is never served with less room than it asks for. -/
theorem le_roomFor (pool : ArrayPool α) (n : Nat) : n ≤ pool.roomFor n := by
  rw [roomFor]
  split
  · rename_i index served
    simp only [classForRequest?, Option.ite_none_right_eq_some, Option.some.injEq] at served
    rcases served with ⟨_, rfl⟩
    apply Nat.le_trans (le_shiftLeft_ceilLog2 n)
    rw [classLength, Nat.one_shiftLeft, Nat.one_shiftLeft]
    exact Nat.pow_le_pow_right (by decide) (by omega)
  · exact Nat.le_refl n

/-- A class takes back buffers of its own capacity only. -/
theorem capacity_of_classForReturn? {capacity index : Nat}
    (taken : pool.classForReturn? capacity = some index) :
    capacity = pool.classLength index := by
  simp only [classForReturn?, Option.ite_none_right_eq_some, Option.some.injEq] at taken
  rcases taken with ⟨⟨room, _⟩, rfl⟩
  exact room

namespace Sound

theorem ofConfig (config : ArrayPoolConfig) : (ArrayPool.ofConfig config : ArrayPool α).Sound := by
  intro index idle found buffer member
  have empty : idle = [] := by
    simp only [ArrayPool.ofConfig] at found
    exact List.eq_of_mem_replicate (List.mem_of_getElem? found)
  rw [empty] at member
  cases member

/-- Counting does not touch what is idle. -/
theorem count (sound : pool.Sound) (statistics : Statistics) :
    Sound { pool with statistics } := sound

/-- Replacing what is idle in a class keeps a pool sound if the new buffers fit the class. -/
theorem set (sound : pool.Sound) {index : Nat} {idle : List (Buffer α)} {statistics : Statistics}
    (fresh : ∀ buffer ∈ idle, buffer = Buffer.withCapacity (pool.classLength index)) :
    Sound { pool with classes := pool.classes.set index idle, statistics } := by
  intro other idle' found buffer member
  rw [List.getElem?_set] at found
  by_cases here : index = other
  · subst here
    simp only [if_true] at found
    split at found
    · cases found
      exact fresh buffer member
    · cases found
  · rw [if_neg here] at found
    exact sound other idle' found buffer member

theorem rent_fst (sound : pool.Sound) (n : Nat) :
    (pool.rent n).1 = .withCapacity (pool.roomFor n) := by
  rw [ArrayPool.rent, roomFor]
  cases pool.classForRequest? n with
  | none => rfl
  | some index =>
    simp only
    cases found : pool.classes[index]? with
    | none => rfl
    | some idle =>
      cases idle with
      | nil => rfl
      | cons buffer idle => exact sound index _ found buffer (by simp)

theorem rent (sound : pool.Sound) (n : Nat) : (pool.rent n).2.Sound := by
  rw [ArrayPool.rent]
  cases pool.classForRequest? n with
  | none => exact sound.count _
  | some index =>
    simp only
    cases found : pool.classes[index]? with
    | none => exact sound.count _
    | some idle =>
      cases idle with
      | nil => exact sound.count _
      | cons buffer idle =>
        apply sound.set
        intro other member
        exact sound index _ found other (by simp [member])

theorem giveBack (sound : pool.Sound) (buffer : Buffer α) : (pool.giveBack buffer).Sound := by
  rw [ArrayPool.giveBack]
  cases taken : pool.classForReturn? buffer.capacity with
  | none => exact sound.count _
  | some index =>
    simp only
    split
    · apply sound.set
      intro other member
      rcases List.mem_append.1 member with old | new
      · cases found : pool.classes[index]? with
        | none => simp [found] at old
        | some idle => exact sound index idle found other (by simpa [found] using old)
      · have room := capacity_of_classForReturn? taken
        rw [List.mem_singleton.1 new, Buffer.clear, room]
        rfl
    · exact sound.count _

end Sound

theorem sameClasses_rent (pool : ArrayPool α) (n : Nat) : pool.SameClasses (pool.rent n).2 := by
  rw [rent]
  split
  · exact ⟨rfl, rfl⟩
  · split
    · exact ⟨rfl, List.length_set⟩
    · exact ⟨rfl, rfl⟩

theorem sameClasses_giveBack (pool : ArrayPool α) (buffer : Buffer α) :
    pool.SameClasses (pool.giveBack buffer) := by
  rw [giveBack]
  split
  · exact ⟨rfl, rfl⟩
  · simp only
    split
    · exact ⟨rfl, List.length_set⟩
    · exact ⟨rfl, rfl⟩

end ArrayPool

/-- The room of a part of an outcome; a part without room is not rented at all. -/
def ArrayPool.partRoom {α : Type} (pool : ArrayPool α) (n : Nat) : Nat :=
  if n = 0 then 0 else pool.roomFor n

theorem ArrayPool.le_partRoom {α : Type} (pool : ArrayPool α) (n : Nat) : n ≤ pool.partRoom n := by
  rw [partRoom]
  split
  · omega
  · exact pool.le_roomFor n

theorem ArrayPool.SameClasses.partRoom {α : Type} {pool other : ArrayPool α}
    (same : pool.SameClasses other) : other.partRoom = pool.partRoom := by
  funext n
  rw [ArrayPool.partRoom, ArrayPool.partRoom, same.roomFor]

/-- The rooms that outcomes get. -/
structure Rooms where
  objectMessages : Nat
  fieldMessages : Nat
  /-- The field outcomes, where so many are expected. -/
  fields : Nat → Nat

namespace Rooms

variable (rooms : Rooms)

/-- The empty outcome of an object with `expected` fields. -/
def object (expected : Nat) : Outcome :=
  ⟨.withCapacity rooms.objectMessages, .withCapacity (rooms.fields expected)⟩

/-- The empty outcome of a field with `expected` outcomes below it. -/
def field (expected : Nat) : Outcome :=
  ⟨.withCapacity rooms.fieldMessages, .withCapacity (rooms.fields expected)⟩

mutual

/-- An outcome with what a draft offers to it. -/
def fill : Draft → Outcome → Outcome
  | ⟨_, messages, fields⟩, outcome => fillFields fields (outcome.addMessages messages)
termination_by structural draft => draft

/-- An outcome with the drafted field outcomes offered to it. -/
def fillFields : List FieldDraft → Outcome → Outcome
  | [], outcome => outcome
  | ⟨path, draft⟩ :: fields, outcome =>
    fillFields fields (outcome.addFields [⟨path, fill draft (rooms.field draft.expected)⟩])
termination_by structural fields => fields

end

/-- The outcome that a rule gets for its draft. -/
def build (draft : Draft) : Outcome :=
  rooms.fill draft (rooms.object draft.expected)

/-- A message finds room wherever it goes first, and so do the fields that an object declares. -/
structure Roomy : Prop where
  object : 1 ≤ rooms.objectMessages
  field : 1 ≤ rooms.fieldMessages
  fields : ∀ expected, expected ≤ rooms.fields expected

end Rooms

namespace OutcomePools

/-- The rooms that the pools serve. -/
def rooms (pools : OutcomePools) : Rooms where
  objectMessages := pools.messages.partRoom pools.globalMessageCapacity
  fieldMessages := pools.messages.partRoom pools.fieldMessageCapacity
  fields := pools.fields.partRoom

variable {pools : OutcomePools} {rooms : Rooms}

/-- Whatever is idle is as good as new. -/
structure Sound (pools : OutcomePools) : Prop where
  messages : pools.messages.Sound
  fields : pools.fields.Sound
  idle : ∀ shell ∈ pools.shells.idle, shell = .bare
  fresh : ∀ n, pools.shells.fresh n = .bare

/-- The pools are sound and serve these rooms. -/
structure Yields (pools : OutcomePools) (rooms : Rooms) : Prop where
  sound : pools.Sound
  rooms_eq : pools.rooms = rooms

theorem Sound.yields (sound : pools.Sound) : pools.Yields pools.rooms :=
  ⟨sound, rfl⟩

theorem sound_ofOptions (options : Options) (config : ArrayPoolConfig) :
    (ofOptions options config).Sound where
  messages := .ofConfig config
  fields := .ofConfig config
  idle := by
    intro shell member
    simp [ofOptions, ObjectPool.ofConfig] at member
  fresh := fun _ => rfl

namespace Yields

theorem objectMessages_eq (yields : pools.Yields rooms) :
    rooms.objectMessages = pools.messages.partRoom pools.globalMessageCapacity :=
  yields.rooms_eq ▸ rfl

theorem fieldMessages_eq (yields : pools.Yields rooms) :
    rooms.fieldMessages = pools.messages.partRoom pools.fieldMessageCapacity :=
  yields.rooms_eq ▸ rfl

theorem fields_eq (yields : pools.Yields rooms) : rooms.fields = pools.fields.partRoom :=
  yields.rooms_eq ▸ rfl

/-- The fields that an object declares always find room. -/
theorem le_fields (yields : pools.Yields rooms) (n : Nat) : n ≤ rooms.fields n := by
  rw [yields.fields_eq]
  exact pools.fields.le_partRoom n

theorem withMessages (yields : pools.Yields rooms) {messages : ArrayPool Message}
    (sound : messages.Sound) (same : pools.messages.SameClasses messages) :
    Yields { pools with messages } rooms where
  sound := { yields.sound with messages := sound }
  rooms_eq := by rw [← yields.rooms_eq, OutcomePools.rooms, OutcomePools.rooms, same.partRoom]

theorem withFields (yields : pools.Yields rooms) {fields : ArrayPool FieldOutcome}
    (sound : fields.Sound) (same : pools.fields.SameClasses fields) :
    Yields { pools with fields } rooms where
  sound := { yields.sound with fields := sound }
  rooms_eq := by rw [← yields.rooms_eq, OutcomePools.rooms, OutcomePools.rooms, same.partRoom]

/-! ### Renting -/

theorem rentShell_fst (yields : pools.Yields rooms) : pools.rentShell.1 = .bare := by
  rw [OutcomePools.rentShell, ObjectPool.rent]
  cases found : pools.shells.idle with
  | nil => exact yields.sound.fresh _
  | cons shell idle => exact yields.sound.idle shell (by rw [found]; exact List.mem_cons_self)

theorem rentShell (yields : pools.Yields rooms) : pools.rentShell.2.Yields rooms where
  rooms_eq := yields.rooms_eq
  sound :=
    { messages := yields.sound.messages
      fields := yields.sound.fields
      idle := by
        intro shell member
        rw [OutcomePools.rentShell, ObjectPool.rent] at member
        cases found : pools.shells.idle with
        | nil => simp [found] at member
        | cons first idle =>
          simp only [found] at member
          exact yields.sound.idle shell (by rw [found]; exact List.mem_cons_of_mem _ member)
      fresh := by
        intro n
        rw [OutcomePools.rentShell, ObjectPool.rent]
        cases pools.shells.idle <;> exact yields.sound.fresh n }

theorem equipMessages_fst (yields : pools.Yields rooms) (fields : Buffer FieldOutcome) (n : Nat) :
    (pools.equipMessages ⟨.withCapacity 0, fields⟩ n).1 =
      ⟨.withCapacity (pools.messages.partRoom n), fields⟩ := by
  rw [OutcomePools.equipMessages, ArrayPool.partRoom]
  split
  · rfl
  · simp only [yields.sound.messages.rent_fst]

theorem equipMessages (yields : pools.Yields rooms) (outcome : Outcome) (n : Nat) :
    (pools.equipMessages outcome n).2.Yields rooms := by
  rw [OutcomePools.equipMessages]
  split
  · exact yields
  · exact yields.withMessages (yields.sound.messages.rent n) (pools.messages.sameClasses_rent n)

theorem equipFields_fst (yields : pools.Yields rooms) (messages : Buffer Message) (n : Nat) :
    (pools.equipFields ⟨messages, .withCapacity 0⟩ n).1 =
      ⟨messages, .withCapacity (rooms.fields n)⟩ := by
  rw [OutcomePools.equipFields, yields.fields_eq, ArrayPool.partRoom]
  split
  · rfl
  · simp only [yields.sound.fields.rent_fst]

theorem equipFields (yields : pools.Yields rooms) (outcome : Outcome) (n : Nat) :
    (pools.equipFields outcome n).2.Yields rooms := by
  rw [OutcomePools.equipFields]
  split
  · exact yields
  · exact yields.withFields (yields.sound.fields.rent n) (pools.fields.sameClasses_rent n)

theorem createSized_fst (yields : pools.Yields rooms) (messages fields : Nat) :
    (pools.createSized messages fields).1 =
      ⟨.withCapacity (pools.messages.partRoom messages), .withCapacity (rooms.fields fields)⟩ := by
  have rented := yields.rentShell
  have equipped := rented.equipMessages_fst (.withCapacity 0) messages
  simp only [OutcomePools.createSized, yields.rentShell_fst, Outcome.bare, equipped]
  exact (rented.equipMessages _ messages).equipFields_fst _ fields

theorem createSized (yields : pools.Yields rooms) (messages fields : Nat) :
    (pools.createSized messages fields).2.Yields rooms :=
  (yields.rentShell.equipMessages _ messages).equipFields _ fields

theorem create_fst (yields : pools.Yields rooms) (expected : Nat) :
    (pools.create expected).1 = rooms.object expected := by
  rw [OutcomePools.create, yields.createSized_fst, Rooms.object, yields.objectMessages_eq]

theorem create (yields : pools.Yields rooms) (expected : Nat) :
    (pools.create expected).2.Yields rooms :=
  yields.createSized _ expected

theorem createField_fst (yields : pools.Yields rooms) (path : String) (expected : Nat) :
    (pools.createField path expected).1 = ⟨path, rooms.field expected⟩ := by
  have created := yields.createSized_fst pools.fieldMessageCapacity expected
  simp only [OutcomePools.createField, created, Rooms.field, yields.fieldMessages_eq]

theorem createField (yields : pools.Yields rooms) (path : String) (expected : Nat) :
    (pools.createField path expected).2.Yields rooms :=
  yields.createSized _ expected

/-! ### Releasing -/

theorem returnMessages (yields : pools.Yields rooms) (buffer : Buffer Message) :
    (pools.returnMessages buffer).Yields rooms := by
  rw [OutcomePools.returnMessages]
  split
  · exact yields
  · exact yields.withMessages (yields.sound.messages.giveBack buffer)
      (pools.messages.sameClasses_giveBack buffer)

theorem returnFields (yields : pools.Yields rooms) (buffer : Buffer FieldOutcome) :
    (pools.returnFields buffer).Yields rooms := by
  rw [OutcomePools.returnFields]
  split
  · exact yields
  · exact yields.withFields (yields.sound.fields.giveBack buffer)
      (pools.fields.sameClasses_giveBack buffer)

theorem returnShell (yields : pools.Yields rooms) : pools.returnShell.Yields rooms where
  rooms_eq := yields.rooms_eq
  sound :=
    { messages := yields.sound.messages
      fields := yields.sound.fields
      fresh := yields.sound.fresh
      idle := by
        intro shell member
        simp only [OutcomePools.returnShell, ObjectPool.giveBack] at member
        split at member
        · rcases List.mem_append.1 member with old | new
          · exact yields.sound.idle shell old
          · exact List.mem_singleton.1 new
        · exact yields.sound.idle shell member }

mutual

theorem releaseTree {rooms : Rooms} : ∀ (outcome : Outcome) {pools : OutcomePools},
    pools.Yields rooms → (releaseTree outcome pools).Yields rooms
  | ⟨messages, ⟨fields, capacity⟩⟩, pools, yields => by
    rw [OutcomePools.releaseTree]
    exact ((releaseTrees fields (yields.returnMessages messages)).returnFields _).returnShell
termination_by structural outcome => outcome

theorem releaseTrees {rooms : Rooms} : ∀ (fields : List FieldOutcome) {pools : OutcomePools},
    pools.Yields rooms → (releaseTrees fields pools).Yields rooms
  | [], pools, yields => yields
  | ⟨_, outcome⟩ :: fields, pools, yields => by
    rw [OutcomePools.releaseTrees]
    exact releaseTrees fields (releaseTree outcome yields)
termination_by structural fields => fields

end

theorem release (yields : pools.Yields rooms) (outcome : Outcome) :
    (pools.release outcome).Yields rooms :=
  releaseTree outcome yields

/-! ### Moving -/

theorem attach (yields : pools.Yields rooms) (outcome : Outcome) (field : FieldOutcome) :
    (pools.attach outcome field).2.Yields rooms :=
  releaseTrees _ yields

theorem merge (yields : pools.Yields rooms) (into child : Outcome) (label : Option String) :
    (pools.merge into child label).2.Yields rooms :=
  releaseTree _ (releaseTrees _ yields)

/-! ### Drafts -/

mutual

theorem fill {rooms : Rooms} : ∀ (draft : Draft) (outcome : Outcome) {pools : OutcomePools},
    pools.Yields rooms →
      (OutcomePools.fill draft outcome pools).1 = rooms.fill draft outcome ∧
      (OutcomePools.fill draft outcome pools).2.Yields rooms
  | ⟨_, messages, fields⟩, outcome, pools, yields => by
    rw [OutcomePools.fill, Rooms.fill]
    exact fillFields fields (outcome.addMessages messages) yields
termination_by structural draft => draft

theorem fillFields {rooms : Rooms} : ∀ (fields : List FieldDraft) (outcome : Outcome)
    {pools : OutcomePools}, pools.Yields rooms →
      (OutcomePools.fillFields fields outcome pools).1 = rooms.fillFields fields outcome ∧
      (OutcomePools.fillFields fields outcome pools).2.Yields rooms
  | [], outcome, pools, yields => ⟨rfl, yields⟩
  | ⟨path, draft⟩ :: fields, outcome, pools, yields => by
    have created := yields.createField_fst path draft.expected
    have filled := fill draft (rooms.field draft.expected) (yields.createField path draft.expected)
    rw [OutcomePools.fillFields, Rooms.fillFields]
    simp only [created, filled.1]
    exact fillFields fields _ (filled.2.attach outcome _)
termination_by structural fields => fields

end

theorem build_fst (yields : pools.Yields rooms) (draft : Draft) :
    (pools.build draft).1 = rooms.build draft := by
  simp only [OutcomePools.build, yields.create_fst]
  exact (fill draft _ (yields.create draft.expected)).1

theorem build (yields : pools.Yields rooms) (draft : Draft) :
    (pools.build draft).2.Yields rooms :=
  (fill draft _ (yields.create draft.expected)).2

end Yields

/-- Pools with a capacity of at least one message are roomy. -/
theorem roomy (objectRoom : 1 ≤ pools.globalMessageCapacity)
    (fieldRoom : 1 ≤ pools.fieldMessageCapacity) : pools.rooms.Roomy where
  object := Nat.le_trans objectRoom (pools.messages.le_partRoom _)
  field := Nat.le_trans fieldRoom (pools.messages.le_partRoom _)
  fields := pools.fields.le_partRoom

end OutcomePools

end Assay
