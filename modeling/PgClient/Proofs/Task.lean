import PgClient.Proofs.Exchange

/-!
# Operations with seams

An operation runs from its beginning to its end, and what it works on is its own
meanwhile. Where something is shared with others, that is too coarse: they may come in
between any two of its steps. A task is an operation that was cut into steps, and what is
done at a seam is up to whoever runs it. Run without a pause it is the operation again
(`Task.run`), and the ways to put operations together are ways to put tasks together.
-/

namespace PgClient

open Exchange

/-- An operation in steps. -/
inductive Task (σ α : Type) : Type 1 where
  | done (a : α)
  | step {β : Type} (x : Exchange σ β) (next : β → Task σ α)

namespace Task

variable {σ α β : Type}

/-- One step after the other. -/
def run : Task σ α → Exchange σ α
  | done a => pure a
  | step x next => x >>= fun b => (next b).run

/-- An operation of a single step. -/
def once (x : Exchange σ α) : Task σ α :=
  step x done

def bind : Task σ α → (α → Task σ β) → Task σ β
  | done a, f => f a
  | step x next, f => step x fun b => (next b).bind f

/-- The first step that fails is the last one, and its error is what the task comes to. -/
def attempt : Task σ α → Task σ (Except Error α)
  | done a => done (.ok a)
  | step x next => step x.attempt fun
    | .ok b => (next b).attempt
    | .error e => done (.error e)

/-- Rounds up to the one that says it is the last. -/
def loop (exhausted : Exchange σ Unit) (round : Task σ Bool) : Nat → Task σ Unit
  | 0 => once exhausted
  | rounds + 1 => round.bind fun
    | true => done ()
    | false => loop exhausted round rounds

@[simp]
theorem run_once (x : Exchange σ α) : (once x).run = x := by
  rw [once, run]
  exact bind_pure x

@[simp]
theorem run_bind (t : Task σ α) (f : α → Task σ β) :
    (t.bind f).run = t.run >>= fun a => (f a).run := by
  induction t with
  | done a => rfl
  | step x next ih =>
      show (x >>= fun b => ((next b).bind f).run) = _
      simp only [ih]
      exact (bind_assoc x _ _).symm

@[simp]
theorem run_attempt (t : Task σ α) : t.attempt.run = t.run.attempt := by
  induction t with
  | done a => rfl
  | step x next ih =>
      funext s
      rw [attempt, run, run, bind_apply, attempt_apply, attempt_apply, bind_apply]
      cases x s with
      | ok b t => exact (congrFun (ih b) t).trans (attempt_apply _ t)
      | error halt t => cases halt <;> rfl

theorem run_loop {exhausted : Exchange σ Unit} {round : Task σ Bool}
    {rounds : Nat → Exchange σ Unit} (hzero : rounds 0 = exhausted)
    (hsucc : ∀ n, rounds (n + 1) = do unless ← round.run do rounds n) (n : Nat) :
    (loop exhausted round n).run = rounds n := by
  induction n with
  | zero => rw [hzero, loop, run_once]
  | succ n ih =>
      rw [hsucc, loop, run_bind]
      refine bind_congr fun last => ?_
      cases last with
      | true => rfl
      | false => exact ih

/-- The same of a part of something. -/
def zoom {τ : Type} (part : τ → σ) (update : σ → τ → τ) : Task σ α → Task τ α
  | done a => done a
  | step x next => step (Exchange.zoom part update x) fun b => (next b).zoom part update

theorem run_zoom {τ : Type} {part : τ → σ} {update : σ → τ → τ}
    (hpart : ∀ s c, part (update s c) = s) (hsame : ∀ c, update (part c) c = c)
    (htwice : ∀ s s' c, update s' (update s c) = update s' c) (t : Task σ α) :
    (t.zoom part update).run = Exchange.zoom part update t.run := by
  induction t with
  | done a =>
      funext c
      rw [zoom_apply]
      show EStateM.Result.ok a c = .ok a (update (part c) c)
      rw [hsame]
  | step x next ih =>
      funext c
      show (Exchange.zoom part update x >>= fun b => ((next b).zoom part update).run) c = _
      simp only [ih]
      rw [zoom_apply, run, bind_apply, bind_apply, zoom_apply]
      cases x (part c) with
      | error halt s => rfl
      | ok b s =>
          simp only []
          rw [zoom_apply, hpart]
          cases (next b).run s <;> simp only [htwice]

end Task

end PgClient
