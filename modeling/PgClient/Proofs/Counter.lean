import PgClient.Proofs.Shelf

/-!
# The counter of a cache in a word of 64 bits

A cache counts the sizes of its entries, and changes the counter step by step: a value that is
handed back is added before the one it displaces is subtracted and before room is made. `changes`
lists the steps of a call in their order, and `count?` takes them in a word of 64 bits.

What is subtracted was added before, so a subtraction never goes below zero (`Tidy.count_call`). An
addition comes on top of what is resident, though, and nothing keeps the two within a word together:
what is resident is bounded by the size allowed, and a value by half of it (`half_of_admits`; under
the greatest bound there is, by nothing), so the sum may be half as great again. While the size
allowed is below two thirds of what a word holds this does no harm, and beyond that it may.
-/

namespace PgClient

namespace Cache

inductive Change where
  | grow (size : Nat)
  | shrink (size : Nat)
  | reset

/-- The counter after a step, if a word of 64 bits holds it. -/
def Change.taken? : Change → Nat → Option Nat
  | .grow size, n => if n + size < UInt64.size then some (n + size) else none
  | .shrink size, n => if size ≤ n then some (n - size) else none
  | .reset, _ => some 0

/-- The counter after steps, if each of them leaves it in its word. -/
def count? (n : Nat) (steps : List Change) : Option Nat :=
  steps.foldlM (fun n step => step.taken? n) n

variable {σ κ ν : Type}

/-- The steps of a call. A value that is admitted is added first, and those given up for it are
subtracted in their order. -/
def changes [BEq κ] (c : Cache κ ν) : Call κ ν → List Change
  | .borrow key | .remove key => (c.get? key).toList.map fun value => .shrink (c.sizeOf value)
  | .create _ => []
  | .put key value =>
    if c.admits (c.sizeOf value) then
      .grow (c.sizeOf value) :: (c.put key value).1.map fun given => .shrink (c.sizeOf given)
    else []
  | .clear => [.reset]

def after [BEq κ] (a : Actions σ κ ν) (c : Cache κ ν) (calls : List (Call κ ν)) (world : σ) :
    Cache κ ν :=
  ((c.performAll a calls).run world).1.2

def changesAll [BEq κ] (a : Actions σ κ ν) (c : Cache κ ν) : List (Call κ ν) → σ → List Change
  | [], _ => []
  | call :: calls, world =>
    let next := (c.perform a call).run world
    c.changes call ++ next.1.2.changesAll a calls next.2

theorem changesAll_cons [BEq κ] (a : Actions σ κ ν) (c : Cache κ ν) (call : Call κ ν)
    (calls : List (Call κ ν)) (world : σ) :
    c.changesAll a (call :: calls) world =
      c.changes call ++ ((c.perform a call).run world).1.2.changesAll a calls
        ((c.perform a call).run world).2 :=
  rfl

theorem after_cons [BEq κ] (a : Actions σ κ ν) (c : Cache κ ν) (call : Call κ ν)
    (calls : List (Call κ ν)) (world : σ) :
    c.after a (call :: calls) world =
      ((c.perform a call).run world).1.2.after a calls ((c.perform a call).run world).2 :=
  rfl

theorem count?_append (n : Nat) (front back : List Change) :
    count? n (front ++ back) = (count? n front).bind (count? · back) :=
  List.foldlM_append

theorem count?_cons (n : Nat) (step : Change) (steps : List Change) :
    count? n (step :: steps) = (step.taken? n).bind (count? · steps) :=
  rfl

/-- What is there can be subtracted piece by piece. -/
theorem count?_shrink (sizes : List Nat) {n : Nat} (h : sizes.sum ≤ n) :
    count? n (sizes.map .shrink) = some (n - sizes.sum) := by
  induction sizes generalizing n with
  | nil => rfl
  | cons size sizes ih =>
      rw [List.sum_cons] at h ⊢
      have hsize : size ≤ n := by omega
      have hrest := ih (n := n - size) (by omega)
      rw [Nat.sub_sub] at hrest
      simp only [List.map_cons, count?_cons, Change.taken?, hsize, if_true, Option.bind_some]
      exact hrest

/-- What is admitted is at most half of a bound that is not the greatest one. -/
theorem half_of_admits {c : Cache κ ν} {size : Nat} (hbound : c.maxBytes < UInt64.size - 1)
    (h : c.admits size = true) : 2 * size ≤ c.maxBytes := by
  simp only [admits, Bool.and_eq_true, decide_eq_true_eq] at h
  omega

variable [BEq κ]

/-- The call is a put, and the value is too great to be added. -/
def Bursts (c : Cache κ ν) : Call κ ν → Prop
  | .put _ value => c.overflows (c.sizeOf value) = true
  | _ => False

/-- One of the calls is a put that bursts, in the cache as the calls before it leave it. -/
def BurstsDuring (a : Actions σ κ ν) (c : Cache κ ν) (calls : List (Call κ ν)) (world : σ) : Prop :=
  ∃ before call later, calls = before ++ call :: later ∧ (c.after a before world).Bursts call

theorem perform_borrow (a : Actions σ κ ν) (c : Cache κ ν) (key : κ) (world : σ) :
    ((c.perform a (.borrow key)).run world).1.2 = c.erase key := by
  simp only [perform, borrow, erase]
  cases c.get? key <;> rfl

theorem Tidy.count_erase {c : Cache κ ν} (h : c.Tidy) (key : κ) :
    count? c.currentSize ((c.get? key).toList.map fun value => .shrink (c.sizeOf value)) =
      some (c.erase key).currentSize := by
  cases hfound : c.get? key with
  | none => simp [count?, erase, hfound]
  | some value =>
      have hsize := h.takes key value hfound
      have hshrink := count?_shrink [c.sizeOf value] (n := c.currentSize)
        (by simp only [List.sum_cons, List.sum_nil]; omega)
      have hleft : (c.erase key).currentSize = c.currentSize - [c.sizeOf value].sum := by
        simp only [List.sum_cons, List.sum_nil]
        omega
      rw [hleft]
      exact hshrink

/-- A value that is handed back is added first, and that is what may fail: what is subtracted
afterwards is in the sum. -/
theorem Tidy.count_put {c : Cache κ ν} (h : c.Tidy) (key : κ) (value : ν) :
    count? c.currentSize (c.changes (.put key value)) =
      if c.overflows (c.sizeOf value) then none else some (c.put key value).2.currentSize := by
  cases hadmits : c.admits (c.sizeOf value) with
  | false => simp [changes, overflows, hadmits, put_of_refused hadmits, count?]
  | true =>
      have hsum := h.puts key value
      have hshrink := count?_shrink ((c.put key value).1.map c.sizeOf)
        (n := c.currentSize + c.sizeOf value) (by omega)
      have hleft : c.currentSize + c.sizeOf value - ((c.put key value).1.map c.sizeOf).sum =
          (c.put key value).2.currentSize := by omega
      rw [List.map_map, hleft] at hshrink
      simp only [changes, overflows, hadmits, if_true, Bool.true_and, decide_eq_true_eq,
        count?_cons, Change.taken?]
      by_cases hover : UInt64.size ≤ c.currentSize + c.sizeOf value
      · have hnot : ¬ c.currentSize + c.sizeOf value < UInt64.size := by omega
        simp [hover, hnot]
      · have hroom : c.currentSize + c.sizeOf value < UInt64.size := by omega
        simp only [hover, hroom, if_true, if_false, Option.bind_some]
        exact hshrink

/-- A call takes the counter where the cache has it afterwards, unless an addition bursts it. -/
theorem Tidy.count_call {c : Cache κ ν} (h : c.Tidy) (a : Actions σ κ ν) (call : Call κ ν)
    (world : σ) :
    (c.Bursts call ∧ count? c.currentSize (c.changes call) = none) ∨
      (¬ c.Bursts call ∧ count? c.currentSize (c.changes call) =
        some ((c.perform a call).run world).1.2.currentSize) := by
  cases call with
  | borrow key =>
      rw [perform_borrow]
      exact .inr ⟨id, h.count_erase key⟩
  | create key => exact .inr ⟨id, rfl⟩
  | put key value =>
      have hcount := h.count_put key value
      by_cases hover : c.overflows (c.sizeOf value) = true
      · rw [if_pos hover] at hcount
        exact .inl ⟨hover, hcount⟩
      · rw [if_neg hover] at hcount
        exact .inr ⟨hover, hcount⟩
  | remove key => exact .inr ⟨id, h.count_erase key⟩
  | clear => exact .inr ⟨id, rfl⟩

theorem burstsDuring_cons (a : Actions σ κ ν) (c : Cache κ ν) (call : Call κ ν)
    (calls : List (Call κ ν)) (world : σ) :
    c.BurstsDuring a (call :: calls) world ↔
      c.Bursts call ∨ ((c.perform a call).run world).1.2.BurstsDuring a calls
        ((c.perform a call).run world).2 := by
  constructor
  · rintro ⟨before, last, later, hsplit, hlast⟩
    cases before with
    | nil =>
        simp only [List.nil_append, List.cons.injEq] at hsplit
        rw [hsplit.1]
        exact .inl hlast
    | cons first before =>
        simp only [List.cons_append, List.cons.injEq] at hsplit
        rw [hsplit.1]
        exact .inr ⟨before, last, later, hsplit.2, hlast⟩
  · rintro (hfirst | ⟨before, last, later, hsplit, hlast⟩)
    · exact ⟨[], call, calls, by simp, hfirst⟩
    · exact ⟨call :: before, last, later, by simp [hsplit], hlast⟩

end Cache

namespace Shelf

open Cache (Actions Call count?)

variable {σ κ ν : Type} [DecidableEq κ] (s : Shelf ν)

/-- Calls take the counter where the cache has it afterwards, unless a put among them bursts it. -/
theorem count_calls (a : Actions σ κ ν) {pairs : List (κ × ν)} (h : s.Sorted pairs)
    (calls : List (Call κ ν)) (world : σ) :
    ((s.cache pairs).BurstsDuring a calls world ∧
        count? (s.cache pairs).currentSize ((s.cache pairs).changesAll a calls world) = none) ∨
      (¬ (s.cache pairs).BurstsDuring a calls world ∧
        count? (s.cache pairs).currentSize ((s.cache pairs).changesAll a calls world) =
          some ((s.cache pairs).after a calls world).currentSize) := by
  induction calls generalizing pairs world with
  | nil =>
      have hnone : ¬ (s.cache pairs).BurstsDuring a [] world := by
        rintro ⟨before, call, later, hsplit, -⟩
        simp at hsplit
      exact .inr ⟨hnone, rfl⟩
  | cons call calls ih =>
      have hcall := (s.cache_tidy h).count_call a call world
      have hrest := ih (s.perform_sorted a h call world) ((s.perform a pairs call).run world).2
      have hstep := s.perform_cache a h call world
      -- the cache that a call leaves is that of a sorted list again, so it is tidy for the next one
      rw [Cache.burstsDuring_cons, Cache.changesAll_cons, Cache.count?_append, Cache.after_cons]
      rw [hstep] at hcall ⊢
      rcases hcall with ⟨hbursts, hcount⟩ | ⟨hholds, hcount⟩
      · rw [hcount]
        exact .inl ⟨.inl hbursts, rfl⟩
      · rw [hcount]
        rcases hrest with ⟨hbursts, hrest⟩ | ⟨hnot, hrest⟩
        · exact .inl ⟨.inr hbursts, hrest⟩
        · exact .inr ⟨fun h => h.elim hholds hnot, hrest⟩

/-- Half of the size allowed on top of all of it still being in a word, no put bursts. -/
theorem bursts_of_greatest (a : Actions σ κ ν) {pairs : List (κ × ν)} (h : s.Sorted pairs)
    (calls : List (Call κ ν)) (world : σ)
    (hbound : s.maxBytes.toNat + s.maxBytes.toNat / 2 < UInt64.size) :
    ¬ (s.cache pairs).BurstsDuring a calls world := by
  rintro ⟨before, call, later, -, hbursts⟩
  have hcache := s.performAll_cache a h before world
  have hsorted := s.performAll_sorted a h before world
  unfold Cache.after at hbursts
  rw [hcache] at hbursts
  cases call with
  | put key value =>
      simp only [Cache.Bursts, Cache.overflows, Bool.and_eq_true, decide_eq_true_eq] at hbursts
      have hsmall := (s.cache_tidy hsorted).small
      have hword : 2 < UInt64.size := by decide
      have hhalf := Cache.half_of_admits (by simp only [cache]; omega) hbursts.1
      simp only [cache] at hsmall hhalf hbursts
      omega
  | _ => exact hbursts

/-- The counter of a cache that starts empty is the exact sum of the sizes of its entries, and as
long as each step leaves it in a word of 64 bits the word is that counter. The step that fails is
the addition of a put, on top of what is there, and it can only fail when the size allowed is over
two thirds of what a word holds. -/
theorem counter_exact (a : Actions σ κ ν) (calls : List (Call κ ν)) (world : σ) :
    let c : Cache κ ν := Cache.empty (fun value => (s.sizeOf value).toNat) s.maxEntries.toNat
      s.maxBytes.toNat
    let reached := c.after a calls world
    reached.currentSize = (reached.entries.map fun e => (s.sizeOf e.2).toNat).sum ∧
      (∀ n, count? 0 (c.changesAll a calls world) = some n → n = reached.currentSize) ∧
      (count? 0 (c.changesAll a calls world) = none ↔ c.BurstsDuring a calls world) ∧
      (s.maxBytes.toNat + s.maxBytes.toNat / 2 < UInt64.size →
        count? 0 (c.changesAll a calls world) = some reached.currentSize) := by
  have hnil : s.Sorted ([] : List (κ × ν)) := ⟨List.nodup_nil, s.fits_nil⟩
  have hcache := s.performAll_cache a hnil calls world
  have hcount := s.count_calls a hnil calls world
  have hfew := s.bursts_of_greatest a hnil calls world
  intro c reached
  have hreached : reached = s.cache ((s.performAll a [] calls).run world).1.2 :=
    congrArg (·.1.2) hcache
  refine ⟨?_, ?_, ?_, ?_⟩
  · rw [hreached]
    rfl
  · intro n hn
    rcases hcount with ⟨-, hnone⟩ | ⟨-, hsome⟩
    · exact absurd (hn.symm.trans hnone) (by simp)
    · exact Option.some.inj (hn.symm.trans hsome)
  · rcases hcount with ⟨hbursts, hnone⟩ | ⟨hnot, hsome⟩
    · exact ⟨fun _ => hbursts, fun _ => hnone⟩
    · exact ⟨fun hnone => absurd (hsome.symm.trans hnone) (by simp), fun hbursts =>
        absurd hbursts hnot⟩
  · intro hbound
    rcases hcount with ⟨hbursts, -⟩ | ⟨-, hsome⟩
    · exact absurd hbursts (hfew hbound)
    · exact hsome

/-- Under the greatest bound three values of just under half of it burst the counter, the third
being added before the first makes room. -/
theorem counter_bursts :
    let c : Cache Nat UInt64 := Cache.empty UInt64.toNat 4 (UInt64.size - 1)
    let idle : Actions Unit Nat UInt64 :=
      { build := fun _ => pure (.ok 0), evict := fun _ => pure (.ok ()) }
    let half : UInt64 := 0x7fffffffffffffff
    count? 0 (c.changesAll idle [.put 0 half, .put 1 half] ()) = some (2 * half.toNat) ∧
      (c.after idle [.put 0 half, .put 1 half, .put 2 half] ()).currentSize = 2 * half.toNat ∧
      count? 0 (c.changesAll idle [.put 0 half, .put 1 half, .put 2 half] ()) = none := by
  decide +kernel

end Shelf

end PgClient
