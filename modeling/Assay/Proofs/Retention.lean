/-
Module: Assay.Proofs.Retention
Purpose: Pools of objects, whatever is done with them. Objects wait in a line: those that the pool was
  filled with come first, and then, reset, those that were kept when they were given back, in the order
  in which that happened. From the front of the line they are handed out or dropped, each once; who
  finds nobody waiting gets the next object that the factory makes.
Main exports: ObjectPool.Use, ObjectPool.Ledger, ObjectPool.Ledger.Fits, ObjectPool.uses_conserve
-/
import Assay.Proofs.Conservation

namespace Assay

/-- How many objects a pool is filled with in the beginning. -/
def PoolConfig.warm (config : PoolConfig) : Nat :=
  if config.preWarm then config.maxRetained else 0

namespace ObjectPool

variable {α : Type}

/-- What is done with a pool of objects. -/
inductive Use (α : Type) where
  | rent
  | giveBack (object : α)
  | clear

def Use.rents : Use α → Bool
  | .rent => true
  | .giveBack _ | .clear => false

def Use.givesBack : Use α → Bool
  | .giveBack _ => true
  | .rent | .clear => false

/-- A pool, and a ledger of what came of using it. -/
structure Ledger (α : Type) where
  pool : ObjectPool α
  /-- What was handed out of what was waiting. -/
  reused : List α := []
  /-- What was handed out because nobody was waiting. -/
  made : List α := []
  /-- What was kept of what was given back, as it was then. -/
  kept : List α := []
  /-- What was dropped of what was waiting. -/
  dropped : List α := []
  /-- What was waiting and is so no longer. -/
  left : List α := []

/-- The ledger of a pool that has just been made. -/
def Ledger.ofConfig (config : PoolConfig) (fresh : Nat → α) : Ledger α :=
  { pool := .ofConfig config fresh }

/-- Uses the pool and enters what comes of it. -/
def Ledger.use [Poolable α] (ledger : Ledger α) : Use α → Ledger α
  | .rent =>
    let (object, pool) := ledger.pool.rent
    if ledger.pool.idle.isEmpty then { ledger with pool, made := ledger.made ++ [object] }
    else { ledger with pool, reused := ledger.reused ++ [object], left := ledger.left ++ [object] }
  | .giveBack object =>
    let pool := ledger.pool.giveBack object
    if ledger.pool.keeps object then { ledger with pool, kept := ledger.kept ++ [object] }
    else { ledger with pool }
  | .clear =>
    let idle := ledger.pool.idle
    { ledger with
      pool := ledger.pool.clear
      dropped := ledger.dropped ++ idle
      left := ledger.left ++ idle }

/-- A pool keeps what may be used again, as long as there is room. -/
theorem keeps_iff [Poolable α] {pool : ObjectPool α} {object : α} :
    pool.keeps object = true ↔
      Poolable.isReusable object = true ∧ pool.available < pool.maxRetained := by
  rw [keeps, Bool.and_eq_true, decide_eq_true_iff, available]

namespace Ledger

variable [Poolable α] {ledger : Ledger α} {config : PoolConfig} {fresh : Nat → α} {object : α}

/-! ### Single uses -/

theorem use_rent_of_nil (nobody : ledger.pool.idle = []) :
    ledger.use .rent =
      { ledger with
        pool := { ledger.pool with
          made := ledger.pool.made + 1
          statistics := ledger.pool.statistics.rent false }
        made := ledger.made ++ [ledger.pool.fresh ledger.pool.made] } := by
  simp only [use, rent, nobody, List.isEmpty_nil, if_true]

theorem use_rent_of_cons {waiting : List α} (next : ledger.pool.idle = object :: waiting) :
    ledger.use .rent =
      { ledger with
        pool := { ledger.pool with
          idle := waiting
          statistics := ledger.pool.statistics.rent true }
        reused := ledger.reused ++ [object]
        left := ledger.left ++ [object] } := by
  simp [use, rent, next]

theorem use_giveBack_of_keeps (keeps : ledger.pool.keeps object = true) :
    ledger.use (.giveBack object) =
      { ledger with
        pool := { ledger.pool with
          idle := ledger.pool.idle ++ [Poolable.reset object]
          statistics := ledger.pool.statistics.giveBack true }
        kept := ledger.kept ++ [object] } := by
  simp only [use, giveBack, keeps, if_true]

theorem use_giveBack_of_declines (declines : ledger.pool.keeps object = false) :
    ledger.use (.giveBack object) =
      { ledger with
        pool := { ledger.pool with statistics := ledger.pool.statistics.giveBack false } } := by
  simp [use, giveBack, declines]

/-! ### Ledgers that fit -/

/-- What the ledger says fits the pool. -/
structure Fits (config : PoolConfig) (fresh : Nat → α) (ledger : Ledger α) : Prop where
  limit : ledger.pool.maxRetained = config.maxRetained
  bounded : ledger.pool.available ≤ config.maxRetained
  factory : ledger.pool.fresh = fresh
  made : ledger.pool.made = config.warm + ledger.pool.statistics.created
  /-- What was handed out newly made is what the factory made next, one object after the other. -/
  new : ledger.made = (List.range' config.warm ledger.pool.statistics.created).map fresh
  /-- All that ever waited is waiting still or has left, in one order. -/
  line : (List.range config.warm).map fresh ++ ledger.kept.map Poolable.reset =
    ledger.left ++ ledger.pool.idle
  reused : List.Sublist ledger.reused ledger.left
  left : ledger.left.length = ledger.reused.length + ledger.dropped.length
  hits : ledger.pool.statistics.hits = ledger.reused.length
  returned : ledger.pool.statistics.returned = ledger.kept.length
  reusable : ∀ object ∈ ledger.kept, Poolable.isReusable object = true

namespace Fits

theorem start (config : PoolConfig) (fresh : Nat → α) :
    (ofConfig config fresh).Fits config fresh where
  limit := rfl
  bounded := by
    simp only [ofConfig, ObjectPool.ofConfig, available, List.length_map, List.length_range]
    split <;> omega
  factory := rfl
  made := rfl
  new := rfl
  line := by simp [ofConfig, ObjectPool.ofConfig, PoolConfig.warm]
  reused := .slnil
  left := rfl
  hits := rfl
  returned := rfl
  reusable := nofun

theorem rent (fits : ledger.Fits config fresh) : (ledger.use .rent).Fits config fresh := by
  cases waiting : ledger.pool.idle with
  | nil =>
    have next : ledger.made ++ [ledger.pool.fresh ledger.pool.made] =
        (List.range' config.warm (ledger.pool.statistics.created + 1)).map fresh := by
      rw [List.range'_1_concat, List.map_append, fits.new, fits.factory, fits.made]
      rfl
    rw [use_rent_of_nil waiting]
    exact { fits with
      made := congrArg (· + 1) fits.made
      new := next }
  | cons object rest =>
    have line := fits.line
    have few := fits.bounded
    rw [available, waiting, List.length_cons] at few
    rw [use_rent_of_cons waiting]
    exact { fits with
      bounded := Nat.le_of_succ_le few
      line := by rw [line, waiting, List.append_assoc, List.singleton_append]
      reused := fits.reused.append (List.Sublist.refl [object])
      left := by
        have count := fits.left
        simp only [List.length_append, List.length_singleton]
        omega
      hits := by
        have count := fits.hits
        simp only [Statistics.rent, List.length_append, List.length_singleton]
        simp [count] }

theorem giveBack (fits : ledger.Fits config fresh) (object : α) :
    (ledger.use (.giveBack object)).Fits config fresh := by
  cases keeps : ledger.pool.keeps object with
  | false =>
    rw [use_giveBack_of_declines keeps]
    exact { fits with }
  | true =>
    obtain ⟨reusable, room⟩ := keeps_iff.1 keeps
    rw [use_giveBack_of_keeps keeps]
    exact { fits with
      bounded := by
        have limit := fits.limit
        rw [available] at room ⊢
        simp only [List.length_append, List.length_singleton]
        omega
      line := by
        rw [List.map_append, ← List.append_assoc, fits.line, List.append_assoc]
        rfl
      returned := by
        have count := fits.returned
        simp [Statistics.giveBack, count]
      reusable := by
        intro other member
        rcases List.mem_append.1 member with old | new
        · exact fits.reusable other old
        · rw [List.mem_singleton.1 new]
          exact reusable }

theorem clear (fits : ledger.Fits config fresh) : (ledger.use .clear).Fits config fresh :=
  { fits with
    bounded := Nat.zero_le _
    line := by
      have line := fits.line
      simpa [Ledger.use, ObjectPool.clear] using line
    reused := List.sublist_append_of_sublist_left fits.reused
    left := by
      have count := fits.left
      simp only [Ledger.use, List.length_append]
      omega }

theorem use (fits : ledger.Fits config fresh) : ∀ use, (ledger.use use).Fits config fresh
  | .rent => fits.rent
  | .giveBack object => fits.giveBack object
  | .clear => fits.clear

/-- A ledger fits its pool, whatever is done with it. -/
theorem uses (fits : ledger.Fits config fresh) (uses : List (Use α)) :
    (uses.foldl Ledger.use ledger).Fits config fresh :=
  uses.foldlRecOn Ledger.use fits fun _ fits use _ => fits.use use

/-- Who waits is who was there in the beginning or was kept, less those that were handed out or
dropped. -/
theorem conserved (fits : ledger.Fits config fresh) :
    ledger.pool.available + ledger.pool.statistics.hits + ledger.dropped.length =
      config.warm + ledger.pool.statistics.returned := by
  have total := congrArg List.length fits.line
  have left := fits.left
  have hits := fits.hits
  have returned := fits.returned
  simp only [List.length_append, List.length_map, List.length_range] at total
  rw [available]
  omega

/-- What is given back is kept unless the pool retains nothing or is full, or the object is spent. -/
theorem keeps_iff (fits : ledger.Fits config fresh) (object : α) :
    ledger.pool.keeps object = true ↔
      0 < config.maxRetained ∧ Poolable.isReusable object = true ∧
        ledger.pool.available ≠ config.maxRetained := by
  have bounded := fits.bounded
  rw [ObjectPool.keeps_iff, fits.limit]
  constructor
  · intro ⟨reusable, room⟩
    exact ⟨Nat.zero_lt_of_lt room, reusable, Nat.ne_of_lt room⟩
  · intro ⟨_, reusable, notFull⟩
    exact ⟨reusable, Nat.lt_of_le_of_ne bounded notFull⟩

/-- Nobody gets what was given back but what was kept, and that only reset. -/
theorem origin (fits : ledger.Fits config fresh) (handed : object ∈ ledger.reused ++ ledger.made) :
    (∃ n, object = fresh n) ∨
      ∃ given ∈ ledger.kept, Poolable.isReusable given = true ∧ object = Poolable.reset given := by
  rcases List.mem_append.1 handed with reused | made
  · have waited : object ∈ (List.range config.warm).map fresh ++ ledger.kept.map Poolable.reset := by
      rw [fits.line]
      exact List.mem_append_left _ (fits.reused.mem reused)
    rcases List.mem_append.1 waited with warm | kept
    · obtain ⟨n, _, rfl⟩ := List.mem_map.1 warm
      exact .inl ⟨n, rfl⟩
    · obtain ⟨given, member, rfl⟩ := List.mem_map.1 kept
      exact .inr ⟨given, member, fits.reusable given member, rfl⟩
  · rw [fits.new] at made
    obtain ⟨n, _, rfl⟩ := List.mem_map.1 made
    exact .inl ⟨n, rfl⟩

end Fits

/-! ### Counts -/

theorem tallies_use (ledger : Ledger α) (next : Use α) (requested given : Nat)
    (tallies : ledger.pool.statistics.Tallies requested given) :
    (ledger.use next).pool.statistics.Tallies (requested + if next.rents then 1 else 0)
      (given + if next.givesBack then 1 else 0) := by
  cases next with
  | rent =>
    obtain ⟨hit, counted⟩ := ledger.pool.statistics_rent
    have rented := tallies.rent hit
    rw [← counted] at rented
    simp only [use]
    split <;> exact rented
  | giveBack object =>
    have returned := tallies.giveBack (ledger.pool.keeps object)
    simp only [use]
    split <;> exact returned
  | clear => exact tallies

end Ledger

/-- However a pool of objects was used, no more objects wait than it may retain; they are as many as it
was filled with and were kept, less those that were handed out and those that were dropped. What was
asked for was waiting or newly made, and what was given back was kept or turned away; it is kept if the
pool retains anything, the object may be used again, and the pool is not full. Those that it was filled
with and those that it kept, reset, left it or are waiting still, in this order, and who left was handed
out, once, or dropped. The others who were handed out are what the factory made next. So whatever is
handed out is as the factory made it, or is the reset of an object that could be used again. -/
theorem uses_conserve [Poolable α] (config : PoolConfig) (fresh : Nat → α) (uses : List (Use α)) :
    let ledger := uses.foldl Ledger.use (.ofConfig config fresh)
    let pool := ledger.pool
    let counts := pool.statistics
    let supply := (List.range config.warm).map fresh ++ ledger.kept.map Poolable.reset
    (pool.maxRetained = config.maxRetained ∧ pool.available ≤ config.maxRetained) ∧
    pool.available + counts.hits + ledger.dropped.length = config.warm + counts.returned ∧
    (counts.rented = uses.countP Use.rents ∧ counts.rented = counts.hits + counts.created) ∧
    counts.returned + counts.declined = uses.countP Use.givesBack ∧
    (∀ object, pool.keeps object = true ↔
      0 < config.maxRetained ∧ Poolable.isReusable object = true ∧
        pool.available ≠ config.maxRetained) ∧
    (supply = ledger.left ++ pool.idle ∧ List.Sublist ledger.reused ledger.left ∧
      ledger.left.length = ledger.reused.length + ledger.dropped.length) ∧
    (counts.hits = ledger.reused.length ∧ counts.returned = ledger.kept.length) ∧
    ledger.made = (List.range' config.warm counts.created).map fresh ∧
    ∀ object ∈ ledger.reused ++ ledger.made, (∃ n, object = fresh n) ∨
      ∃ given ∈ ledger.kept, Poolable.isReusable given = true ∧ object = Poolable.reset given := by
  intro ledger pool counts supply
  have fits : ledger.Fits config fresh := (Ledger.Fits.start config fresh).uses uses
  have tallies : counts.Tallies (uses.countP Use.rents) (uses.countP Use.givesBack) := by
    have start : (Ledger.ofConfig config fresh).pool.statistics.Tallies 0 0 := .start
    simpa using start.uses Ledger.tallies_use uses
  exact ⟨⟨fits.limit, fits.bounded⟩, fits.conserved,
    ⟨tallies.rented, tallies.rented.trans tallies.served.symm⟩, tallies.settled, fits.keeps_iff,
    ⟨fits.line, fits.reused, fits.left⟩, ⟨fits.hits, fits.returned⟩, fits.new,
    fun _ handed => fits.origin handed⟩

end ObjectPool

end Assay
