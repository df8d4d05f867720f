/-
Module: Assay.Proofs.Session
Purpose: A caller works with a validator: it asks for plans, validates objects in any way, holds the
  outcomes and drops them when it likes. At any time what is out of the pools is what the caller holds.
Main exports: OutcomePools.configured, Validator.Operation, Validator.Session,
  Validator.session_conserves
-/
import Assay.Proofs.Answers
import Assay.Proofs.Balance

namespace Assay

/-- Pools of the usual kind, each set up by itself, before any use. -/
def OutcomePools.configured (shells : PoolConfig) (messages fields : ArrayPoolConfig)
    (globalMessageCapacity fieldMessageCapacity : Nat) : OutcomePools where
  shells := .ofConfig shells fun _ => .bare
  messages := .ofConfig messages
  fields := .ofConfig fields
  globalMessageCapacity
  fieldMessageCapacity

theorem OutcomePools.sound_configured (shells : PoolConfig) (messages fields : ArrayPoolConfig)
    (globalMessageCapacity fieldMessageCapacity : Nat) :
    (configured shells messages fields globalMessageCapacity fieldMessageCapacity).Sound where
  messages := .ofConfig messages
  fields := .ofConfig fields
  idle := by
    intro shell member
    obtain ⟨_, _, same⟩ := List.mem_map.1 member
    exact same.symm
  fresh := fun _ => rfl

namespace Outcome

/-- How many nodes of several outcomes have the part. -/
def countAll (part : Part) : List Outcome → Nat
  | [] => 0
  | outcome :: outcomes => outcome.count part + countAll part outcomes

variable (part : Part)

theorem countAll_append (first second : List Outcome) :
    countAll part (first ++ second) = countAll part first + countAll part second := by
  induction first with
  | nil => simp [countAll]
  | cons outcome first ih => rw [List.cons_append, countAll, countAll, ih, Nat.add_assoc]

/-- Taking an outcome out of several takes its nodes away. -/
theorem countAll_eraseIdx {outcomes : List Outcome} {index : Nat} {outcome : Outcome}
    (found : outcomes[index]? = some outcome) :
    countAll part (outcomes.eraseIdx index) + outcome.count part = countAll part outcomes := by
  induction outcomes generalizing index with
  | nil => cases found
  | cons first outcomes ih =>
    cases index with
    | zero =>
      cases found
      rw [List.eraseIdx_cons_zero, countAll, Nat.add_comm]
    | succ index =>
      rw [List.getElem?_cons_succ] at found
      rw [List.eraseIdx_cons_succ, countAll, countAll, Nat.add_assoc, ih found]

end Outcome

namespace Validator

/-- What a caller does with a validator and the outcomes it holds. -/
inductive Operation where
  | plan (type : TypeKey)
  | answer (object : Object) (way : Way)
  /-- Drops the outcome with that index among those held. -/
  | drop (index : Nat)

/-- A validator and the outcomes that the caller holds. -/
structure Session where
  validator : Validator
  held : List Outcome := []

namespace Session

def perform (session : Session) : Operation → Session
  | .plan type =>
    match session.validator.plan type with
    | .error _ => session
    | .ok (_, validator) => { session with validator }
  | .answer object way =>
    let verdict := session.validator.answer object way
    { validator := verdict.validator, held := session.held ++ verdict.result.toOption.toList }
  | .drop index =>
    match session.held[index]? with
    | none => session
    | some outcome =>
      { validator := session.validator.discard outcome, held := session.held.eraseIdx index }

/-- How many nodes of the outcomes held have the part. -/
def count (part : Part) (session : Session) : Nat :=
  Outcome.countAll part session.held

end Session

variable {rooms : Rooms} {part : Part}

/-- An answer leaves out what is in its outcome. -/
theorem owes_answer {validator : Validator} {n : Nat} (owes : validator.pools.Owes rooms part n)
    (object : Object) (way : Way) :
    (validator.answer object way).validator.pools.Owes rooms part
      (n + Outcome.countAll part (validator.answer object way).result.toOption.toList) := by
  rw [answer_eq]
  rcases prepared : validator.prepare object.type way with ⟨found, cache⟩
  cases found with
  | error stop => exact owes
  | ok plan =>
    have balanced := object.balances_run (environment ⟨cache, validator.pools⟩ way.request way.mayWait)
      plan way.request.context (start ⟨cache, validator.pools⟩ way.request) n owes
    simp only [run]
    rcases ran : object.run (environment ⟨cache, validator.pools⟩ way.request way.mayWait) plan
      way.request.context (start ⟨cache, validator.pools⟩ way.request) with ⟨result, after⟩
    rw [ran] at balanced
    cases result with
    | ok outcome => exact balanced
    | error stop => exact balanced

/-- What is out of the pools is what is held, whatever the caller does next. -/
theorem Session.owes_perform {session : Session}
    (owes : session.validator.pools.Owes rooms part (session.count part)) (operation : Operation) :
    (session.perform operation).validator.pools.Owes rooms part
      ((session.perform operation).count part) := by
  cases operation with
  | plan type =>
    rw [perform]
    cases planned : session.validator.plan type with
    | error error => exact owes
    | ok found =>
      have kept := (plan_eq_ok.1 planned).2
      simp only [Session.count] at *
      rwa [kept]
  | answer object way =>
    apply (owes_answer owes object way).of_eq
    exact (Outcome.countAll_append part _ _).symm
  | drop index =>
    rw [perform]
    cases found : session.held[index]? with
    | none => exact owes
    | some outcome =>
      exact .release (owes.of_eq (Outcome.countAll_eraseIdx part found).symm)

theorem Session.owes_performs {session : Session}
    (owes : session.validator.pools.Owes rooms part (session.count part))
    (operations : List Operation) :
    (operations.foldl perform session).validator.pools.Owes rooms part
      ((operations.foldl perform session).count part) := by
  induction operations generalizing session with
  | nil => exact owes
  | cons operation operations ih => exact ih (owes_perform owes operation)

/-- However a caller works with a validator, and whatever the pools are set up to keep: what was rented
is what was given back and what is in the outcomes held, for shells and for either kind of buffers. When
everything has been dropped, everything has been given back. -/
theorem session_conserves (schema : Schema) (catalog : RuleCatalog) (options : Options)
    (shells : PoolConfig) (messages fields : ArrayPoolConfig)
    (globalMessageCapacity fieldMessageCapacity : Nat) (operations : List Operation) (part : Part) :
    let pools := OutcomePools.configured shells messages fields globalMessageCapacity
      fieldMessageCapacity
    let session := operations.foldl Session.perform ⟨⟨{ schema, catalog, options }, pools⟩, []⟩
    let counts := part.statistics session.validator.pools
    counts.rented = counts.returned + counts.declined + session.count part ∧
      (session.held = [] → counts.rented = counts.returned + counts.declined) := by
  intro pools session counts
  have start : pools.Owes pools.rooms part (Session.count part ⟨⟨{ schema, catalog, options }, pools⟩, []⟩) :=
    ⟨(OutcomePools.sound_configured shells messages fields _ _).yields, by cases part <;> rfl⟩
  have conserved : counts.Open (session.count part) :=
    (Session.owes_performs start operations).isOpen
  refine ⟨conserved, fun dropped => ?_⟩
  rw [conserved, Session.count, dropped]
  rfl

end Validator

end Assay
