/-
Module: Assay.Proofs.SizeClasses
Purpose: Pools of buffers in size classes, whatever was rented from them and given back to them before.
  A request is served with the least power of two that is large enough, but with no less than the
  smallest class and, beyond the largest one, with exactly what was asked for. What is idle in a class
  is empty and of the capacity of the class, and nothing is idle that was not given back.
Main exports: powerAbove, ArrayPoolConfig.lengthFor, ArrayPool.Use, ArrayPool.Keeps,
  ArrayPool.uses_keep_classes
-/
import Mathlib.Algebra.Ring.Nat
import Mathlib.Data.Nat.Log
import Assay.Proofs.Conservation

namespace Assay

/-! ### Lengths -/

/-- The least power of two that is at least `n`. -/
def powerAbove (n : Nat) : Nat :=
  2 ^ Nat.clog 2 n

theorem ceilLog2_eq_clog (n : Nat) : ceilLog2 n = Nat.clog 2 n := by
  apply Nat.le_antisymm
  · apply ceilLog2_le_of_le_shiftLeft
    rw [Nat.one_shiftLeft]
    exact Nat.le_pow_clog Nat.one_lt_two n
  · apply Nat.clog_le_of_le_pow
    rw [← Nat.one_shiftLeft]
    exact le_shiftLeft_ceilLog2 n

theorem shiftLeft_ceilLog2 (n : Nat) : 1 <<< ceilLog2 n = powerAbove n := by
  rw [Nat.one_shiftLeft, ceilLog2_eq_clog, powerAbove]

/-- A request for nothing is served like one for a single item. -/
theorem clog_max_one (n : Nat) : Nat.clog 2 (max n 1) = Nat.clog 2 n := by
  rcases Nat.eq_zero_or_pos n with rfl | some
  · rfl
  · rw [Nat.max_eq_left some]

namespace ArrayPoolConfig

variable (config : ArrayPoolConfig)

/-- The capacity of the smallest class. -/
def smallest : Nat :=
  powerAbove (max config.minLength 1)

/-- The capacity of the largest class. -/
def largest : Nat :=
  powerAbove (max config.maxLength config.smallest)

/-- The capacity that a request for `n` items is served with. -/
def lengthFor (n : Nat) : Nat :=
  let length := max config.smallest (powerAbove (max n 1))
  if length ≤ config.largest then length else n

theorem smallest_eq : config.smallest = 2 ^ Nat.clog 2 config.minLength := by
  rw [smallest, powerAbove, clog_max_one]

theorem largest_eq : config.largest = 2 ^ Nat.clog 2 (max config.maxLength config.smallest) :=
  rfl

/-- The exponents of the smallest and of the largest class are in this order. -/
theorem clog_minLength_le :
    Nat.clog 2 config.minLength ≤ Nat.clog 2 (max config.maxLength config.smallest) := by
  calc Nat.clog 2 config.minLength
      = Nat.clog 2 config.smallest := by rw [smallest_eq, Nat.clog_pow 2 _ Nat.one_lt_two]
    _ ≤ Nat.clog 2 (max config.maxLength config.smallest) := Nat.clog_mono_right 2 (le_max_right _ _)

/-- The classes stay within a power of two that the lengths asked for stay within. -/
theorem largest_le_two_pow {k : Nat} (least : config.minLength ≤ 2 ^ k)
    (greatest : config.maxLength ≤ 2 ^ k) : config.largest ≤ 2 ^ k := by
  have within {n : Nat} (fits : n ≤ 2 ^ k) : powerAbove n ≤ 2 ^ k :=
    Nat.pow_le_pow_right Nat.two_pos (Nat.clog_le_of_le_pow fits)
  exact within (max_le greatest (within (max_le least Nat.one_le_two_pow)))

end ArrayPoolConfig

namespace ArrayPool

variable {α : Type} {pool other last : ArrayPool α}

/-! ### Classes -/

theorem SameClasses.refl (pool : ArrayPool α) : pool.SameClasses pool :=
  ⟨rfl, rfl⟩

theorem SameClasses.symm (same : pool.SameClasses other) : other.SameClasses pool :=
  ⟨same.minShift.symm, same.classes.symm⟩

theorem SameClasses.trans (first : pool.SameClasses other) (second : other.SameClasses last) :
    pool.SameClasses last :=
  ⟨second.minShift.trans first.minShift, second.classes.trans first.classes⟩

theorem minShift_ofConfig (config : ArrayPoolConfig) :
    (ofConfig config : ArrayPool α).minShift = Nat.clog 2 config.minLength := by
  rw [ofConfig, ceilLog2_eq_clog, clog_max_one]

theorem length_ofConfig (config : ArrayPoolConfig) :
    (ofConfig config : ArrayPool α).classes.length =
      Nat.clog 2 (max config.maxLength config.smallest) - Nat.clog 2 config.minLength + 1 := by
  simp only [ofConfig, List.length_replicate, shiftLeft_ceilLog2]
  rw [ceilLog2_eq_clog, ceilLog2_eq_clog, clog_max_one, ArrayPoolConfig.smallest]

theorem classLength_ofConfig (config : ArrayPoolConfig) (index : Nat) :
    (ofConfig config : ArrayPool α).classLength index = config.smallest * 2 ^ index := by
  rw [classLength, Nat.one_shiftLeft, Nat.pow_add, minShift_ofConfig, config.smallest_eq]

/-- The classes are those from the smallest to the largest one. -/
theorem lt_length_ofConfig (config : ArrayPoolConfig) (index : Nat) :
    index < (ofConfig config : ArrayPool α).classes.length ↔
      config.smallest * 2 ^ index ≤ config.largest := by
  have ordered := config.clog_minLength_le
  rw [length_ofConfig, config.largest_eq]
  generalize Nat.clog 2 (max config.maxLength config.smallest) = greatest at ordered ⊢
  rw [config.smallest_eq, ← Nat.pow_add, Nat.pow_le_pow_iff_right Nat.one_lt_two]
  omega

/-- A request is served by the class of its length, if there is one. -/
theorem roomFor_ofConfig (config : ArrayPoolConfig) (n : Nat) :
    (ofConfig config : ArrayPool α).roomFor n = config.lengthFor n := by
  let index := max (Nat.clog 2 n) (Nat.clog 2 config.minLength) - Nat.clog 2 config.minLength
  have length : max config.smallest (powerAbove (max n 1)) = config.smallest * 2 ^ index := by
    rw [config.smallest_eq, powerAbove, clog_max_one, ← Nat.pow_add]
    rcases Nat.le_total (Nat.clog 2 config.minLength) (Nat.clog 2 n) with above | below
    · rw [Nat.max_eq_right (Nat.pow_le_pow_right Nat.two_pos above)]
      congr 1
      omega
    · rw [Nat.max_eq_left (Nat.pow_le_pow_right Nat.two_pos below)]
      congr 1
      omega
  have served : (ofConfig config : ArrayPool α).classForRequest? n =
      if config.smallest * 2 ^ index ≤ config.largest then some index else none := by
    simp only [← lt_length_ofConfig (α := α), classForRequest?, ceilLog2_eq_clog, minShift_ofConfig]
    rfl
  rw [roomFor, served, ArrayPoolConfig.lengthFor, length]
  by_cases fits : config.smallest * 2 ^ index ≤ config.largest
  · simp only [fits, if_true]
    exact classLength_ofConfig config index
  · simp only [fits, if_false]

/-- The class that serves a request takes back the buffers that it serves it with. -/
theorem classForReturn?_roomFor {n index : Nat} (served : pool.classForRequest? n = some index) :
    index < pool.classes.length ∧ pool.classForReturn? (pool.roomFor n) = some index := by
  have room : pool.roomFor n = 2 ^ (pool.minShift + index) := by
    rw [roomFor, served, ← Nat.one_shiftLeft]
    rfl
  simp only [classForRequest?, Option.ite_none_right_eq_some] at served
  have inside : index < pool.classes.length := Option.some.inj served.2 ▸ served.1
  have back : (pool.roomFor n).log2 - pool.minShift = index := by
    rw [room, Nat.log2_two_pow, Nat.add_sub_cancel_left]
  refine ⟨inside, ?_⟩
  rw [classForReturn?, back, if_pos]
  exact ⟨by rw [room, classLength, Nat.one_shiftLeft], inside⟩

theorem SameClasses.classForReturn? (same : pool.SameClasses other) (capacity : Nat) :
    other.classForReturn? capacity = pool.classForReturn? capacity := by
  simp only [ArrayPool.classForReturn?, same.classLength, same.minShift, same.classes]

/-! ### Use -/

/-- What is done with a pool of buffers. -/
inductive Use (α : Type) where
  | rent (n : Nat)
  | giveBack (buffer : Buffer α)

def Use.rents : Use α → Bool
  | .rent _ => true
  | .giveBack _ => false

def Use.givesBack : Use α → Bool
  | .rent _ => false
  | .giveBack _ => true

def use (pool : ArrayPool α) : Use α → ArrayPool α
  | .rent n => (pool.rent n).2
  | .giveBack buffer => pool.giveBack buffer

/-- A request is served with the oldest idle buffer of its class, or else with a new one. -/
theorem rent_cases (pool : ArrayPool α) (n : Nat) :
    (∃ index buffer idle, pool.classes[index]? = some (buffer :: idle) ∧
      pool.rent n = (buffer, { pool with
        classes := pool.classes.set index idle
        statistics := pool.statistics.rent true })) ∨
    pool.rent n = (.withCapacity (pool.roomFor n),
      { pool with statistics := pool.statistics.rent false }) := by
  rw [rent, roomFor]
  cases pool.classForRequest? n with
  | none => exact .inr rfl
  | some index =>
    cases found : pool.classes[index]? with
    | none => exact .inr (by simp only [found])
    | some idle =>
      cases idle with
      | nil => exact .inr (by simp only [found])
      | cons buffer idle => exact .inl ⟨index, buffer, idle, found, by simp only [found]⟩

/-- What a class does with a buffer that goes to it. -/
theorem giveBack_of_class {buffer : Buffer α} {index : Nat} {idle : List (Buffer α)}
    (taken : pool.classForReturn? buffer.capacity = some index)
    (found : pool.classes[index]? = some idle) :
    pool.giveBack buffer =
      if idle.length < pool.perClass then
        { pool with
          classes := pool.classes.set index (idle ++ [buffer.clear])
          statistics := pool.statistics.giveBack true }
      else { pool with statistics := pool.statistics.giveBack false } := by
  rw [giveBack, taken]
  simp only [found, Option.getD_some]

/-- A buffer that is given back is kept, empty, by its class, or it is turned away. -/
theorem giveBack_cases (pool : ArrayPool α) (buffer : Buffer α) :
    (∃ index idle, pool.classes[index]? = some idle ∧ idle.length < pool.perClass ∧
      pool.giveBack buffer = { pool with
        classes := pool.classes.set index (idle ++ [buffer.clear])
        statistics := pool.statistics.giveBack true }) ∨
    pool.giveBack buffer = { pool with statistics := pool.statistics.giveBack false } := by
  cases taken : pool.classForReturn? buffer.capacity with
  | none =>
    right
    rw [giveBack, taken]
  | some index =>
    have inside : index < pool.classes.length := by
      simp only [classForReturn?, Option.ite_none_right_eq_some] at taken
      exact Option.some.inj taken.2 ▸ taken.1.2
    have found := List.getElem?_eq_getElem inside
    rw [giveBack_of_class taken found]
    split
    · exact .inl ⟨index, _, found, ‹_›, rfl⟩
    · exact .inr rfl

theorem idleCount_eq (pool : ArrayPool α) : pool.idleCount = (pool.classes.map List.length).sum := by
  rw [idleCount, List.sum, List.foldr_map]

/-- Replacing what is idle in a class changes the number of idle buffers by the difference. -/
theorem sum_length_set {classes : List (List (Buffer α))} {index : Nat} {idle : List (Buffer α)}
    (found : classes[index]? = some idle) (fresh : List (Buffer α)) :
    ((classes.set index fresh).map List.length).sum + idle.length =
      (classes.map List.length).sum + fresh.length := by
  induction classes generalizing index with
  | nil => cases found
  | cons first classes ih =>
    cases index with
    | zero =>
      cases found
      simp only [List.set_cons_zero, List.map_cons, List.sum_cons]
      omega
    | succ index =>
      rw [List.getElem?_cons_succ] at found
      simp only [List.set_cons_succ, List.map_cons, List.sum_cons]
      have rest := ih found
      omega

/-- So many buffers are idle as were kept and not handed out again. -/
def Retains (pool : ArrayPool α) : Prop :=
  pool.idleCount + pool.statistics.hits = pool.statistics.returned

theorem Retains.rent (retains : pool.Retains) (n : Nat) : (pool.rent n).2.Retains := by
  rw [Retains, idleCount_eq] at *
  rcases pool.rent_cases n with ⟨index, buffer, idle, found, same⟩ | same
  · have fewer := sum_length_set found idle
    rw [List.length_cons] at fewer
    simp only [same, Statistics.rent, if_true]
    omega
  · simpa [same, Statistics.rent] using retains

theorem Retains.giveBack (retains : pool.Retains) (buffer : Buffer α) :
    (pool.giveBack buffer).Retains := by
  rw [Retains, idleCount_eq] at *
  rcases pool.giveBack_cases buffer with ⟨index, idle, found, _, same⟩ | same
  · have more := sum_length_set found (idle ++ [buffer.clear])
    rw [List.length_append, List.length_singleton] at more
    simp only [same, Statistics.giveBack, if_true]
    omega
  · simpa [same, Statistics.giveBack] using retains

/-- No class has more idle buffers than it may keep. -/
def Bounded (pool : ArrayPool α) : Prop :=
  ∀ idle ∈ pool.classes, idle.length ≤ pool.perClass

theorem Bounded.rent (bounded : pool.Bounded) (n : Nat) : (pool.rent n).2.Bounded := by
  rcases pool.rent_cases n with ⟨index, buffer, idle, found, same⟩ | same
  · rw [same]
    intro other member
    rcases List.mem_or_eq_of_mem_set member with old | rfl
    · exact bounded other old
    · exact Nat.le_of_succ_le (bounded _ (List.mem_of_getElem? found))
  · rw [same]
    exact bounded

theorem Bounded.giveBack (bounded : pool.Bounded) (buffer : Buffer α) :
    (pool.giveBack buffer).Bounded := by
  rcases pool.giveBack_cases buffer with ⟨index, idle, _, few, same⟩ | same
  · rw [same]
    intro other member
    rcases List.mem_or_eq_of_mem_set member with old | rfl
    · exact bounded other old
    · rw [List.length_append, List.length_singleton]
      exact few
  · rw [same]
    exact bounded

theorem tallies_use (pool : ArrayPool α) (next : Use α) (requested given : Nat)
    (tallies : pool.statistics.Tallies requested given) :
    (pool.use next).statistics.Tallies (requested + if next.rents then 1 else 0)
      (given + if next.givesBack then 1 else 0) := by
  cases next with
  | rent n =>
    obtain ⟨hit, counted⟩ := pool.statistics_rent n
    exact counted ▸ tallies.rent hit
  | giveBack buffer =>
    obtain ⟨kept, counted⟩ := pool.statistics_giveBack buffer
    exact counted ▸ tallies.giveBack kept

/-- A pool that was set up like this is in order. -/
structure Keeps (config : ArrayPoolConfig) (pool : ArrayPool α) : Prop where
  sound : pool.Sound
  classes : (ofConfig config : ArrayPool α).SameClasses pool
  perClass : pool.perClass = max config.perClass 1
  bounded : pool.Bounded
  retains : pool.Retains

namespace Keeps

variable {config : ArrayPoolConfig}

theorem start (config : ArrayPoolConfig) : (ofConfig config : ArrayPool α).Keeps config where
  sound := .ofConfig config
  classes := .refl _
  perClass := rfl
  bounded := by
    intro idle member
    rw [List.eq_of_mem_replicate member]
    exact Nat.zero_le _
  retains := by
    rw [Retains, idleCount_eq]
    simp [ofConfig]

theorem rent (keeps : pool.Keeps config) (n : Nat) : (pool.rent n).2.Keeps config where
  sound := keeps.sound.rent n
  classes := keeps.classes.trans (pool.sameClasses_rent n)
  perClass := by
    rcases pool.rent_cases n with ⟨_, _, _, _, same⟩ | same <;> rw [same] <;> exact keeps.perClass
  bounded := keeps.bounded.rent n
  retains := keeps.retains.rent n

theorem giveBack (keeps : pool.Keeps config) (buffer : Buffer α) :
    (pool.giveBack buffer).Keeps config where
  sound := keeps.sound.giveBack buffer
  classes := keeps.classes.trans (pool.sameClasses_giveBack buffer)
  perClass := by
    rcases pool.giveBack_cases buffer with ⟨_, _, _, _, same⟩ | same <;> rw [same] <;>
      exact keeps.perClass
  bounded := keeps.bounded.giveBack buffer
  retains := keeps.retains.giveBack buffer

theorem use (keeps : pool.Keeps config) : ∀ use, (pool.use use).Keeps config
  | .rent n => keeps.rent n
  | .giveBack buffer => keeps.giveBack buffer

/-- A pool stays in order, whatever is done with it. -/
theorem uses (keeps : pool.Keeps config) (uses : List (Use α)) :
    (uses.foldl ArrayPool.use pool).Keeps config :=
  uses.foldlRecOn ArrayPool.use keeps fun _ keeps use _ => keeps.use use

/-- A buffer that a class handed out goes back to that class, whatever is in it by then. -/
theorem giveBack_rented (keeps : pool.Keeps config) {n index : Nat}
    (served : pool.classForRequest? n = some index) {later : ArrayPool α}
    (keepsLater : later.Keeps config) (items : List α) :
    ∃ idle, later.classes[index]? = some idle ∧
      (later.giveBack ⟨items, (pool.rent n).1.capacity⟩).classes =
        if idle.length < max config.perClass 1 then
          later.classes.set index (idle ++ [.withCapacity (pool.rent n).1.capacity])
        else later.classes := by
  have same : pool.SameClasses later := keeps.classes.symm.trans keepsLater.classes
  obtain ⟨inside, back⟩ := classForReturn?_roomFor served
  have taken : later.classForReturn? (Buffer.mk items (pool.rent n).1.capacity).capacity = some index := by
    rw [keeps.sound.rent_fst, same.classForReturn?]
    exact back
  rw [← same.classes] at inside
  have found := List.getElem?_eq_getElem inside
  refine ⟨_, found, ?_⟩
  rw [giveBack_of_class taken found, keepsLater.perClass]
  split <;> rfl

end Keeps

/-- However a pool of buffers was used, it serves every request with an empty buffer of the length that
the request comes to by itself: the least power of two that is large enough, from the smallest class on
and up to the largest one, and beyond that what was asked for. The classes are the powers of two from the
smallest to the largest one, and stay within a power of two that the lengths asked for stay within. What
is idle in a class is empty and has the length of the class, and no class keeps more than it may. A
buffer that a class handed out goes back to that class, whatever is in it and whatever was done in
between, and is kept there, empty, as long as there is room. What was asked for was idle or newly made,
what was given back was kept or turned away, and what was kept is idle or was handed out again. -/
theorem uses_keep_classes (config : ArrayPoolConfig) (uses : List (Use α)) :
    let pool : ArrayPool α := uses.foldl use (ofConfig config)
    let counts := pool.statistics
    (∀ n, (pool.rent n).1 = .withCapacity (config.lengthFor n)) ∧
    (∀ index, index < pool.classes.length ↔ config.smallest * 2 ^ index ≤ config.largest) ∧
    (∀ k, config.minLength ≤ 2 ^ k → config.maxLength ≤ 2 ^ k → config.largest ≤ 2 ^ k) ∧
    (∀ (index : Nat) (idle : List (Buffer α)), pool.classes[index]? = some idle →
      idle.length ≤ max config.perClass 1 ∧
        ∀ buffer ∈ idle, buffer = .withCapacity (config.smallest * 2 ^ index)) ∧
    (∀ n index, pool.classForRequest? n = some index → ∀ (between : List (Use α)) (items : List α),
      let buffer := (pool.rent n).1
      let later : ArrayPool α := between.foldl use (pool.rent n).2
      ∃ idle : List (Buffer α), later.classes[index]? = some idle ∧
        (later.giveBack ⟨items, buffer.capacity⟩).classes =
          if idle.length < max config.perClass 1 then
            later.classes.set index (idle ++ [.withCapacity buffer.capacity])
          else later.classes) ∧
    counts.rented = uses.countP Use.rents ∧
    counts.rented = counts.hits + counts.created ∧
    counts.returned + counts.declined = uses.countP Use.givesBack ∧
    pool.idleCount + counts.hits = counts.returned := by
  intro pool counts
  have keeps : pool.Keeps config := (Keeps.start config).uses uses
  have tallies : counts.Tallies (uses.countP Use.rents) (uses.countP Use.givesBack) := by
    have start : (ofConfig config : ArrayPool α).statistics.Tallies 0 0 := .start
    simpa using start.uses tallies_use uses
  have serves (n : Nat) : pool.roomFor n = config.lengthFor n := by
    rw [keeps.classes.roomFor, roomFor_ofConfig]
  refine ⟨fun n => ?_, fun index => ?_, fun k => config.largest_le_two_pow, fun index idle found => ?_,
    ?_, tallies.rented, tallies.rented.trans tallies.served.symm, tallies.settled, keeps.retains⟩
  · rw [keeps.sound.rent_fst, serves]
  · rw [keeps.classes.classes, lt_length_ofConfig]
  · refine ⟨keeps.perClass ▸ keeps.bounded idle (List.mem_of_getElem? found), fun buffer member => ?_⟩
    rw [keeps.sound index idle found buffer member, keeps.classes.classLength, classLength_ofConfig]
  · intro n index served between items
    exact keeps.giveBack_rented served ((keeps.rent n).uses between) items

end ArrayPool

end Assay
