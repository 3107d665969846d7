import PgClient.Error

/-!
# Exchanges

An operation on a connection changes a state and either ends with a value, or fails, or comes to a
point where it can only wait for the other side. The state reached is kept in all three cases:
octets read before a failure are gone, and a message written before it was written.
-/

namespace PgClient

/-- Why an operation did not end with a value. -/
inductive Halt where
  | failed (error : Error)
  /-- The other side is silent, and no time limit is running. -/
  | waiting
  deriving DecidableEq, Repr

/-- An operation that changes a state of type `σ`. -/
abbrev Exchange (σ : Type) :=
  EStateM Halt σ

namespace Exchange

variable {σ τ α : Type}

/-- Fails with an error. -/
def fail (error : Error) : Exchange σ α :=
  throw (.failed error)

/-- Fails if a value does. -/
def lift : Except Error α → Exchange σ α
  | .ok a => pure a
  | .error e => fail e

/-- Runs an operation and turns a failure into a value; the state reached stays. -/
def attempt (x : Exchange σ α) : Exchange σ (Except Error α) := fun s =>
  match x s with
  | .ok a s => .ok (.ok a) s
  | .error (.failed e) s => .ok (.error e) s
  | .error .waiting s => .error .waiting s

/-- Runs an operation on a part of the state. -/
def zoom (part : σ → τ) (update : τ → σ → σ) (x : Exchange τ α) : Exchange σ α := fun s =>
  match x (part s) with
  | .ok a t => .ok a (update t s)
  | .error e t => .error e (update t s)

end Exchange

end PgClient
