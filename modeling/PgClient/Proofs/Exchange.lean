import PgClient.Exchange

/-!
# How an exchange ends

An exchange ends with a value or comes to a halt, and either way it leaves a
state behind. What a client must never forget is said about all endings at
once: a relation between the state before, the halt if there is one, and the
state after. `Obeys R x` says that every run of `x` is in the relation `R`.
Relations that compose along the successful runs (`Composes`) are closed under
everything exchanges are made of, so a law of the small operations of a channel
becomes a law of a whole request without a second look at the steps in between.
-/

namespace PgClient.Exchange

variable {σ τ α β : Type}

/-! ## Running an exchange step by step -/

theorem bind_apply (x : Exchange σ α) (f : α → Exchange σ β) (s : σ) :
    (x >>= f) s = match x s with
      | .ok a t => f a t
      | .error h t => .error h t := by
  show EStateM.bind x f s = _
  unfold EStateM.bind
  cases x s <;> rfl

theorem bind_of_ok {x : Exchange σ α} {f : α → Exchange σ β} {s t : σ} {a : α}
    (hx : x s = .ok a t) : (x >>= f) s = f a t := by
  rw [bind_apply, hx]

theorem bind_of_error {x : Exchange σ α} {f : α → Exchange σ β} {s t : σ} {h : Halt}
    (hx : x s = .error h t) : (x >>= f) s = .error h t := by
  rw [bind_apply, hx]

/-- A sequence that ended with a value got past its first part. -/
theorem bind_ok {x : Exchange σ α} {f : α → Exchange σ β} {s u : σ} {b : β}
    (h : (x >>= f) s = .ok b u) : ∃ a t, x s = .ok a t ∧ f a t = .ok b u := by
  rw [bind_apply] at h
  cases hx : x s with
  | ok a t => exact ⟨a, t, rfl, by rw [hx] at h; exact h⟩
  | error e t => rw [hx] at h; cases h

/-- A sequence that came to a halt did so in its first part or in its second. -/
theorem bind_error {x : Exchange σ α} {f : α → Exchange σ β} {s u : σ} {h : Halt}
    (hb : (x >>= f) s = .error h u) :
    x s = .error h u ∨ ∃ a t, x s = .ok a t ∧ f a t = .error h u := by
  rw [bind_apply] at hb
  cases hx : x s with
  | ok a t => exact .inr ⟨a, t, rfl, by rw [hx] at hb; exact hb⟩
  | error e t => rw [hx] at hb; cases hb; exact .inl rfl

@[simp] theorem get_apply (s : σ) : (get : Exchange σ σ) s = .ok s s := rfl

@[simp] theorem modify_apply (f : σ → σ) (s : σ) :
    (modify f : Exchange σ PUnit) s = .ok ⟨⟩ (f s) := rfl

@[simp] theorem modifyGet_apply (f : σ → α × σ) (s : σ) :
    (modifyGet f : Exchange σ α) s = .ok (f s).1 (f s).2 := rfl

@[simp] theorem fail_apply (e : Error) (s : σ) :
    (fail e : Exchange σ α) s = .error (.failed e) s := rfl

/-! ## Endings -/

/-- The state an exchange leaves. -/
def final : EStateM.Result Halt σ α → σ
  | .ok _ s | .error _ s => s

/-- The halt an exchange came to, if it did not end with a value. -/
def halt? : EStateM.Result Halt σ α → Option Halt
  | .ok _ _ => none
  | .error h _ => some h

@[simp] theorem final_ok (a : α) (s : σ) : final (.ok a s : EStateM.Result Halt σ α) = s := rfl

@[simp] theorem final_error (h : Halt) (s : σ) :
    final (.error h s : EStateM.Result Halt σ α) = s := rfl

@[simp] theorem halt?_ok (a : α) (s : σ) : halt? (.ok a s : EStateM.Result Halt σ α) = none := rfl

@[simp] theorem halt?_error (h : Halt) (s : σ) :
    halt? (.error h s : EStateM.Result Halt σ α) = some h := rfl

@[simp] theorem final_lift (r : Except Error α) (s : σ) : final (lift r s) = s := by
  cases r <;> rfl

theorem lift_eq_ok {r : Except Error α} {a : α} {s s' : σ} (h : lift r s = .ok a s') :
    r = .ok a := by
  cases r with
  | error e => cases h
  | ok b =>
      cases h
      rfl

/-- Every run of an exchange, however it ends, is in a relation between the
state before, the halt and the state after. -/
def Obeys (R : σ → Option Halt → σ → Prop) (x : Exchange σ α) : Prop :=
  ∀ s, R s (halt? (x s)) (final (x s))

/-- A relation that holds of doing nothing, and of doing one thing after
another has ended with a value. -/
structure Composes (R : σ → Option Halt → σ → Prop) : Prop where
  refl : ∀ s, R s none s
  trans : ∀ {s t u : σ} {h : Option Halt}, R s none t → R t h u → R s h u

variable {R : σ → Option Halt → σ → Prop}

theorem Obeys.ok {x : Exchange σ α} (hx : Obeys R x) {s t : σ} {a : α} (h : x s = .ok a t) :
    R s none t := by
  have hr := hx s
  rw [h] at hr
  exact hr

theorem Obeys.error {x : Exchange σ α} (hx : Obeys R x) {s t : σ} {e : Halt}
    (h : x s = .error e t) : R s (some e) t := by
  have hr := hx s
  rw [h] at hr
  exact hr

/-- It does not matter which value follows. -/
theorem Obeys.followed {x : Exchange σ α} (hx : Obeys R x) (b : β) :
    Obeys R (x >>= fun _ => pure b) := by
  intro s
  have hrun := hx s
  rw [bind_apply]
  cases h : x s with
  | ok a t =>
      rw [h] at hrun
      exact hrun
  | error halt t =>
      rw [h] at hrun
      exact hrun

namespace Composes

theorem pure (hR : Composes R) (a : α) : Obeys R (pure a : Exchange σ α) :=
  fun s => hR.refl s

theorem get (hR : Composes R) : Obeys R (get : Exchange σ σ) :=
  fun s => hR.refl s

theorem bind (hR : Composes R) {x : Exchange σ α} {f : α → Exchange σ β} (hx : Obeys R x)
    (hf : ∀ a, Obeys R (f a)) : Obeys R (x >>= f) := by
  intro s
  rw [bind_apply]
  cases h : x s with
  | ok a t => exact hR.trans (hx.ok h) (hf a t)
  | error e t => exact hx.error h

/-- What goes for a failure and for going on goes for a check that may fail. -/
theorem guard (hR : Composes R) {p : Prop} [Decidable p] {e : Error} {x : Exchange σ α}
    (hfail : Obeys R (fail e : Exchange σ PUnit)) (hx : Obeys R x) :
    Obeys R (if p then (fail e : Exchange σ PUnit) >>= fun _ => x else x) := by
  split
  · exact hR.bind hfail fun _ => hx
  · exact hx

end Composes

/-- What goes for a round goes for a loop, which a round says when to leave. -/
theorem Composes.loop (hR : Composes R) {round : Exchange σ Bool} {loop : Nat → Exchange σ Unit}
    (hsucc : ∀ n, loop (n + 1) = do unless ← round do loop n) (hzero : Obeys R (loop 0))
    (hround : Obeys R round) (n : Nat) : Obeys R (loop n) := by
  induction n with
  | zero => exact hzero
  | succ n ih =>
      rw [hsucc]
      refine hR.bind hround fun last => ?_
      cases last with
      | true => exact hR.pure ()
      | false => exact ih

/-! ## Values -/

/-- Every value an exchange ends with has a property. -/
def Returns (P : α → Prop) (x : Exchange σ α) : Prop :=
  ∀ s a t, x s = .ok a t → P a

theorem Returns.pure {P : α → Prop} {a : α} (h : P a) : Returns P (pure a : Exchange σ α) := by
  rintro s b t ⟨⟩
  exact h

theorem Returns.bind {P : β → Prop} {x : Exchange σ α} {f : α → Exchange σ β}
    (h : ∀ a, Returns P (f a)) : Returns P (x >>= f) := by
  intro s b u hb
  obtain ⟨a, t, -, hf⟩ := bind_ok hb
  exact h a t b u hf

/-! ## Operations on a part of the state -/

theorem zoom_apply (part : σ → τ) (update : τ → σ → σ) (x : Exchange τ α) (s : σ) :
    zoom part update x s = match x (part s) with
      | .ok a t => .ok a (update t s)
      | .error e t => .error e (update t s) := rfl

@[simp] theorem final_zoom (part : σ → τ) (update : τ → σ → σ) (x : Exchange τ α) (s : σ) :
    final (zoom part update x s) = update (final (x (part s))) s := by
  rw [zoom_apply]
  cases x (part s) <;> rfl

@[simp] theorem halt?_zoom (part : σ → τ) (update : τ → σ → σ) (x : Exchange τ α) (s : σ) :
    halt? (zoom part update x s) = halt? (x (part s)) := by
  rw [zoom_apply]
  cases x (part s) <;> rfl

section

variable {part : σ → τ} {update : τ → σ → σ} {x : Exchange τ α} {s s' : σ} {a : α} {halt : Halt}

theorem zoom_of_ok {t : τ} (h : x (part s) = .ok a t) :
    zoom part update x s = .ok a (update t s) := by
  rw [zoom_apply, h]

theorem zoom_of_error {t : τ} (h : x (part s) = .error halt t) :
    zoom part update x s = .error halt (update t s) := by
  rw [zoom_apply, h]

theorem zoom_ok (h : zoom part update x s = .ok a s') :
    ∃ t, x (part s) = .ok a t ∧ s' = update t s := by
  rw [zoom_apply] at h
  cases hx : x (part s) with
  | ok b t =>
      rw [hx] at h
      cases h
      exact ⟨t, rfl, rfl⟩
  | error e t =>
      rw [hx] at h
      cases h

theorem zoom_error (h : zoom part update x s = .error halt s') :
    ∃ t, x (part s) = .error halt t ∧ s' = update t s := by
  rw [zoom_apply] at h
  cases hx : x (part s) with
  | ok b t =>
      rw [hx] at h
      cases h
  | error e t =>
      rw [hx] at h
      cases h
      exact ⟨t, rfl, rfl⟩

end

/-- A law of the part is a law of the whole. -/
theorem Obeys.zoom {P : τ → Option Halt → τ → Prop} {part : σ → τ} {update : τ → σ → σ}
    {x : Exchange τ α} (hx : Obeys P x)
    (hR : ∀ s h t, P (part s) h t → R s h (update t s)) : Obeys R (zoom part update x) := by
  intro s
  rw [final_zoom, halt?_zoom]
  exact hR s _ _ (hx (part s))

/-! ## Failures as values -/

theorem attempt_apply (x : Exchange σ α) (s : σ) :
    x.attempt s = match x s with
      | .ok a t => .ok (.ok a) t
      | .error (.failed e) t => .ok (.error e) t
      | .error .waiting t => .error .waiting t := by
  unfold attempt
  rfl

@[simp] theorem final_attempt (x : Exchange σ α) (s : σ) :
    final (x.attempt s) = final (x s) := by
  rw [attempt_apply]
  rcases x s with ⟨a, t⟩ | ⟨_ | _, t⟩ <;> rfl

theorem attempt_of_ok {x : Exchange σ α} {s t : σ} {a : α} (h : x s = .ok a t) :
    x.attempt s = .ok (.ok a) t := by
  rw [attempt_apply, h]

theorem attempt_of_failed {x : Exchange σ α} {s t : σ} {e : Error}
    (h : x s = .error (.failed e) t) : x.attempt s = .ok (.error e) t := by
  rw [attempt_apply, h]

theorem attempt_of_waiting {x : Exchange σ α} {s t : σ} (h : x s = .error .waiting t) :
    x.attempt s = .error .waiting t := by
  rw [attempt_apply, h]

end PgClient.Exchange
