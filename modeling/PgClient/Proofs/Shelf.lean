import Mathlib.Algebra.BigOperators.Group.List.Basic
import Mathlib.Algebra.Ring.Nat
import Mathlib.Data.List.Infix
import PgClient.Proofs.Cache

/-!
# A cache is a list ordered by last put

A cache keeps a counter beside its entries, makes room one entry at a time, and calls
two actions it was given, one that builds values and one that takes back those that are
given up. A shelf is what all of that amounts to: a list of pairs, oldest put first, and
the longest end of it that both bounds allow. `Shelf.cache` is the only cache that a
shelf's list can belong to, its counter being the sum of the sizes, and a cache that
starts empty never is anything else.

The actions are arbitrary operations on an arbitrary state around the cache. A cache and
a shelf that do the same to every such state call the same actions, with the same values
and in the same order, so the one equation `perform_cache` covers answers, entries,
counter and calls. Sizes and bounds are words of 64 bits, the sums are not.
-/

namespace PgClient

namespace Cache

inductive Call (κ ν : Type) where
  | borrow (key : κ)
  | create (key : κ)
  | put (key : κ) (value : ν)
  | remove (key : κ)
  | clear

inductive Answer (ν : Type) where
  | obtained (result : Except Error ν)
  | removed (value : Option ν)
  | done

/-- The two actions a cache is given. Either may fail at any call. -/
structure Actions (σ κ ν : Type) where
  build : κ → StateM σ (Except Error ν)
  evict : ν → StateM σ (Except Error Unit)

variable {σ κ ν : Type}

/-- Hands values back, one after the other; a failure is only told to the log. -/
def Actions.giveUp (a : Actions σ κ ν) (given : List ν) : StateM σ Unit :=
  given.forM fun value => discard (a.evict value)

def perform [BEq κ] (a : Actions σ κ ν) (c : Cache κ ν) :
    Call κ ν → StateM σ (Answer ν × Cache κ ν)
  | .borrow key => do
    let (result, c) ← Cache.borrow a.build key c
    return (.obtained result, c)
  | .create key => do
    let result ← Cache.create a.build key
    return (.obtained result, c)
  | .put key value => do
    let (given, c) := c.put key value
    a.giveUp given
    return (.done, c)
  | .remove key =>
    let (value, c) := c.remove key
    return (.removed value, c)
  | .clear => return (.done, c.clear)

def performAll [BEq κ] (a : Actions σ κ ν) :
    Cache κ ν → List (Call κ ν) → StateM σ (List (Answer ν) × Cache κ ν)
  | c, [] => return ([], c)
  | c, call :: calls => do
    let (answer, c) ← c.perform a call
    let (answers, c) ← performAll a c calls
    return (answer :: answers, c)

/-- What every cache that started empty is like. The last three fields are about its next call:
nothing is subtracted from the counter that is not in it, and a value that is admitted stays. -/
structure Tidy [BEq κ] (c : Cache κ ν) : Prop where
  unique : c.Unique
  few : c.length ≤ c.maxEntries
  counted : c.currentSize = (c.entries.map fun e => c.sizeOf e.2).sum
  small : c.currentSize ≤ c.maxBytes
  takes : ∀ key value, c.get? key = some value →
    (c.erase key).currentSize + c.sizeOf value = c.currentSize
  puts : ∀ key value,
    (c.put key value).2.currentSize + ((c.put key value).1.map c.sizeOf).sum =
      c.currentSize + c.sizeOf value
  stays : ∀ key value, c.admits (c.sizeOf value) = true →
    [(key, value)] <:+ (c.put key value).2.entries

end Cache

/-- The bounds of a list of pairs, and the sizes of its values. -/
structure Shelf (ν : Type) where
  sizeOf : ν → UInt64
  maxEntries : UInt64
  maxBytes : UInt64

namespace Shelf

open Cache (Actions Answer Call)

variable {σ κ ν : Type} (s : Shelf ν)

def load (pairs : List (κ × ν)) : Nat :=
  (pairs.map fun p => (s.sizeOf p.2).toNat).sum

def fits (pairs : List (κ × ν)) : Bool :=
  decide (pairs.length ≤ s.maxEntries.toNat) && decide (s.load pairs ≤ s.maxBytes.toNat)

/-- The longest end of a list that fits. -/
def kept (pairs : List (κ × ν)) : List (κ × ν) :=
  (pairs.tails.find? s.fits).getD []

def lost (pairs : List (κ × ν)) : List (κ × ν) :=
  pairs.take (pairs.length - (s.kept pairs).length)

/-- Whether a value is sent back at once: nothing is ever kept, or the value takes over half of
the size allowed. The greatest size there is allows everything. -/
def refuses (value : ν) : Bool :=
  s.maxEntries.toNat == 0 || s.maxBytes.toNat == 0 ||
    (decide (s.maxBytes.toNat < 2 * (s.sizeOf value).toNat) &&
      decide (s.maxBytes.toNat < UInt64.size - 1))

section Keys

variable [BEq κ]

def lookup (key : κ) (pairs : List (κ × ν)) : Option ν :=
  (pairs.find? (·.1 == key)).map Prod.snd

def without (key : κ) (pairs : List (κ × ν)) : List (κ × ν) :=
  pairs.filter (!·.1 == key)

/-- The list a put starts from: the pair goes to the end, in place of one of its key. -/
def placed (key : κ) (value : ν) (pairs : List (κ × ν)) : List (κ × ν) :=
  without key pairs ++ [(key, value)]

def perform (a : Actions σ κ ν) (pairs : List (κ × ν)) :
    Call κ ν → StateM σ (Answer ν × List (κ × ν))
  | .borrow key =>
    match lookup key pairs with
    | some value => return (.obtained (.ok value), without key pairs)
    | none => do
      let result ← a.build key
      return (.obtained (result.mapError Cache.creationError), pairs)
  | .create key => do
    let result ← a.build key
    return (.obtained (result.mapError Cache.creationError), pairs)
  | .put key value => do
    if s.refuses value then
      a.giveUp [value]
      return (.done, pairs)
    a.giveUp ((lookup key pairs).toList ++ (s.lost (placed key value pairs)).map Prod.snd)
    return (.done, s.kept (placed key value pairs))
  | .remove key => return (.removed (lookup key pairs), without key pairs)
  | .clear => return (.done, [])

def performAll (a : Actions σ κ ν) :
    List (κ × ν) → List (Call κ ν) → StateM σ (List (Answer ν) × List (κ × ν))
  | pairs, [] => return ([], pairs)
  | pairs, call :: calls => do
    let (answer, pairs) ← s.perform a pairs call
    let (answers, pairs) ← performAll a pairs calls
    return (answer :: answers, pairs)

end Keys

/-- The cache that a list is the entries of. -/
def cache (pairs : List (κ × ν)) : Cache κ ν where
  sizeOf value := (s.sizeOf value).toNat
  maxEntries := s.maxEntries.toNat
  maxBytes := s.maxBytes.toNat
  entries := pairs
  currentSize := s.load pairs

/-! ## The longest end that fits -/

@[simp] theorem load_nil : s.load ([] : List (κ × ν)) = 0 := rfl

@[simp] theorem load_cons (p : κ × ν) (pairs : List (κ × ν)) :
    s.load (p :: pairs) = (s.sizeOf p.2).toNat + s.load pairs := by
  simp [load]

@[simp] theorem load_append (pairs pairs' : List (κ × ν)) :
    s.load (pairs ++ pairs') = s.load pairs + s.load pairs' := by
  simp [load]

theorem load_perm {pairs pairs' : List (κ × ν)} (h : pairs.Perm pairs') :
    s.load pairs = s.load pairs' :=
  (h.map _).sum_eq

theorem fits_iff (pairs : List (κ × ν)) :
    s.fits pairs = true ↔ pairs.length ≤ s.maxEntries.toNat ∧ s.load pairs ≤ s.maxBytes.toNat := by
  simp [fits]

theorem fits_nil : s.fits ([] : List (κ × ν)) = true := by
  simp [fits_iff]

@[simp] theorem kept_nil : s.kept ([] : List (κ × ν)) = [] := by
  simp [kept, s.fits_nil]

theorem kept_cons (p : κ × ν) (pairs : List (κ × ν)) :
    s.kept (p :: pairs) = if s.fits (p :: pairs) then p :: pairs else s.kept pairs := by
  unfold kept
  rw [List.tails_cons, List.find?_cons]
  cases s.fits (p :: pairs) <;> rfl

theorem kept_suffix (pairs : List (κ × ν)) : s.kept pairs <:+ pairs := by
  induction pairs with
  | nil => simp
  | cons p pairs ih =>
      rw [kept_cons]
      split
      · exact List.suffix_refl _
      · exact ih.trans (List.suffix_cons p pairs)

theorem lost_append_kept (pairs : List (κ × ν)) : s.lost pairs ++ s.kept pairs = pairs := by
  obtain ⟨front, hfront⟩ := s.kept_suffix pairs
  have hlen := congrArg List.length hfront
  rw [List.length_append] at hlen
  have htake : s.lost pairs = front := by
    unfold lost
    rw [show pairs.length - (s.kept pairs).length = front.length by omega]
    conv_lhs => rw [← hfront]
    rw [List.take_left' rfl]
  rw [htake, hfront]

theorem kept_fits (pairs : List (κ × ν)) : s.fits (s.kept pairs) = true := by
  induction pairs with
  | nil => simp [s.fits_nil]
  | cons p pairs ih =>
      rw [kept_cons]
      split
      · next hfits => exact hfits
      · exact ih

/-- No longer end of a list fits. -/
theorem kept_longest {pairs back : List (κ × ν)} (hback : back <:+ pairs)
    (hfits : s.fits back = true) : back <:+ s.kept pairs := by
  induction pairs with
  | nil => rw [List.suffix_nil.1 hback]; simp
  | cons p pairs ih =>
      rw [kept_cons]
      split
      · exact hback
      · next hnot =>
          rcases List.suffix_cons_iff.1 hback with rfl | hback
          · exact absurd hfits hnot
          · exact ih hback

theorem lost_cons (p : κ × ν) (pairs : List (κ × ν)) :
    s.lost (p :: pairs) = if s.fits (p :: pairs) then [] else p :: s.lost pairs := by
  have hle := (s.kept_suffix pairs).length_le
  unfold lost
  rw [kept_cons]
  cases s.fits (p :: pairs) with
  | true => simp
  | false =>
      simp only [Bool.false_eq_true, if_false, List.length_cons]
      rw [show pairs.length + 1 - (s.kept pairs).length =
        (pairs.length - (s.kept pairs).length) + 1 by omega, List.take_succ_cons]

/-- Making room one entry at a time comes to the longest end that fits. -/
theorem shrink_cache (pairs : List (κ × ν)) (front : List (κ × ν)) :
    (s.cache front).shrink pairs (s.load pairs) =
      ((s.lost pairs).map Prod.snd, s.cache (s.kept pairs)) := by
  induction pairs with
  | nil => simp [Cache.shrink, lost, cache]
  | cons p pairs ih =>
      obtain ⟨key, value⟩ := p
      have hroom : (decide ((s.cache front).maxEntries < pairs.length + 1) ||
          decide ((s.cache front).maxBytes < s.load ((key, value) :: pairs))) =
            !s.fits ((key, value) :: pairs) := by
        rw [Bool.eq_iff_iff, Bool.not_eq_true', ← Bool.not_eq_true, fits_iff]
        simp only [Bool.or_eq_true, decide_eq_true_eq]
        simp only [cache, List.length_cons]
        omega
      -- the counter follows the list: it is the load of what is left
      have hrest : s.load ((key, value) :: pairs) - (s.cache front).sizeOf value =
          s.load pairs := by
        simp [cache]
      unfold Cache.shrink
      rw [hroom, hrest, ih, kept_cons, lost_cons]
      cases s.fits ((key, value) :: pairs) <;> rfl

/-! ## One call -/

theorem admits_cache (pairs : List (κ × ν)) (value : ν) :
    (s.cache pairs).admits ((s.cache pairs).sizeOf value) = !s.refuses value := by
  have hbytes : s.maxBytes.toNat < UInt64.size := s.maxBytes.toNat_lt
  rw [Bool.eq_iff_iff, Bool.not_eq_true', ← Bool.not_eq_true]
  simp only [Cache.admits, refuses, Bool.and_eq_true, Bool.or_eq_true, bne_iff_ne, beq_iff_eq,
    decide_eq_true_eq]
  simp only [cache]
  omega

variable [DecidableEq κ]

theorem lookup_perm {pairs : List (κ × ν)} (hkeys : (pairs.map Prod.fst).Nodup) (key : κ) :
    pairs.Perm ((lookup key pairs).toList.map (key, ·) ++ without key pairs) :=
  Cache.entries_perm
    (c := { sizeOf := fun _ => 0, maxEntries := 0, maxBytes := 0, entries := pairs })
    hkeys key

theorem get?_cache (key : κ) (pairs : List (κ × ν)) :
    (s.cache pairs).get? key = lookup key pairs := rfl

theorem load_lookup {pairs : List (κ × ν)} (hkeys : (pairs.map Prod.fst).Nodup) (key : κ) :
    s.load pairs =
      ((lookup key pairs).elim 0 fun value => (s.sizeOf value).toNat) +
        s.load (without key pairs) := by
  rw [s.load_perm (lookup_perm hkeys key), load_append]
  refine congrArg (· + s.load (without key pairs)) ?_
  cases lookup key pairs <;> simp [load]

theorem erase_cache {pairs : List (κ × ν)} (hkeys : (pairs.map Prod.fst).Nodup) (key : κ) :
    (s.cache pairs).erase key = s.cache (without key pairs) := by
  have hload := s.load_lookup hkeys key
  unfold Cache.erase
  rw [get?_cache]
  cases hfound : lookup key pairs with
  | none =>
      have hsame : without key pairs = pairs := Cache.get?_eq_none (c := s.cache pairs) hfound
      rw [hsame]
  | some value =>
      rw [hfound] at hload
      have hsize : s.load pairs - (s.sizeOf value).toNat = s.load (without key pairs) := by
        simp only [Option.elim_some] at hload
        omega
      simp only [cache, hsize]
      rfl

/-- A put is refused, or the pair goes to the end and the oldest ones make room. -/
theorem put_cache {pairs : List (κ × ν)} (hkeys : (pairs.map Prod.fst).Nodup) (key : κ)
    (value : ν) :
    (s.cache pairs).put key value =
      if s.refuses value then ([value], s.cache pairs)
      else ((lookup key pairs).toList ++ (s.lost (placed key value pairs)).map Prod.snd,
        s.cache (s.kept (placed key value pairs))) := by
  unfold Cache.put
  rw [admits_cache]
  cases s.refuses value with
  | true => rfl
  | false =>
      have hload := s.load_lookup hkeys key
      have hsize : (s.cache pairs).currentSize + (s.cache pairs).sizeOf value -
          ((s.cache pairs).get? key).elim 0 (s.cache pairs).sizeOf =
            s.load (placed key value pairs) := by
        rw [get?_cache, placed, load_append, load_cons, load_nil]
        cases hfound : lookup key pairs with
        | none =>
            rw [hfound] at hload
            simp only [Option.elim_none] at hload ⊢
            simp only [cache]
            omega
        | some old =>
            rw [hfound] at hload
            simp only [Option.elim_some] at hload ⊢
            simp only [cache]
            omega
      simp only [Bool.not_false, if_true, Bool.false_eq_true, if_false]
      rw [hsize]
      have hshrink := s.shrink_cache (placed key value pairs) pairs
      show ((lookup key pairs).toList ++
          ((s.cache pairs).shrink (placed key value pairs) (s.load (placed key value pairs))).1,
        ((s.cache pairs).shrink (placed key value pairs) (s.load (placed key value pairs))).2) = _
      rw [hshrink]

/-! ## Any number of calls -/

theorem placed_keys {pairs : List (κ × ν)} (hkeys : (pairs.map Prod.fst).Nodup) (key : κ)
    (value : ν) : ((placed key value pairs).map Prod.fst).Nodup := by
  have hrest : ((without key pairs).map Prod.fst).Nodup :=
    hkeys.sublist (List.filter_sublist.map _)
  have hnot : key ∉ (without key pairs).map Prod.fst := by
    simp [without]
  rw [placed, List.map_append, List.map_singleton, ← List.concat_eq_append]
  exact hrest.concat hnot

/-- Keys are unique, and both bounds hold. -/
structure Sorted (pairs : List (κ × ν)) : Prop where
  keys : (pairs.map Prod.fst).Nodup
  fits : s.fits pairs = true

theorem without_sorted {pairs : List (κ × ν)} (h : s.Sorted pairs) (key : κ) :
    s.Sorted (without key pairs) := by
  have hload := s.load_lookup h.keys key
  have hlen : (without key pairs).length ≤ pairs.length := List.length_filter_le _ _
  have hbounds := (s.fits_iff pairs).1 h.fits
  refine ⟨h.keys.sublist (List.filter_sublist.map _), (s.fits_iff _).2 ⟨?_, ?_⟩⟩
  · omega
  · omega

theorem placed_sorted {pairs : List (κ × ν)} (h : s.Sorted pairs) (key : κ) (value : ν) :
    s.Sorted (s.kept (placed key value pairs)) :=
  ⟨(placed_keys h.keys key value).sublist ((s.kept_suffix _).sublist.map _), s.kept_fits _⟩

theorem perform_sorted (a : Actions σ κ ν) {pairs : List (κ × ν)} (h : s.Sorted pairs)
    (call : Call κ ν) (world : σ) : s.Sorted ((s.perform a pairs call).run world).1.2 := by
  cases call with
  | borrow key =>
      simp only [perform]
      cases lookup key pairs with
      | some value => exact s.without_sorted h key
      | none => exact h
  | create key => exact h
  | put key value =>
      simp only [perform]
      cases s.refuses value with
      | true => exact h
      | false => exact s.placed_sorted h key value
  | remove key => exact s.without_sorted h key
  | clear => exact ⟨List.nodup_nil, s.fits_nil⟩

/-- Whatever is done to a cache is done to its list of entries. -/
theorem perform_cache (a : Actions σ κ ν) {pairs : List (κ × ν)} (h : s.Sorted pairs)
    (call : Call κ ν) (world : σ) :
    ((s.cache pairs).perform a call).run world =
      let shelved := (s.perform a pairs call).run world
      ((shelved.1.1, s.cache shelved.1.2), shelved.2) := by
  cases call with
  | borrow key =>
      simp only [Cache.perform, perform, Cache.borrow, get?_cache]
      cases lookup key pairs with
      | some value =>
          simp only [pure_bind]
          rw [s.erase_cache h.keys key]
          rfl
      | none => rfl
  | create key => rfl
  | put key value =>
      simp only [Cache.perform, perform]
      rw [s.put_cache h.keys key value]
      cases s.refuses value <;> rfl
  | remove key =>
      simp only [Cache.perform, perform, Cache.remove]
      rw [s.erase_cache h.keys key]
      rfl
  | clear => rfl

theorem performAll_sorted (a : Actions σ κ ν) {pairs : List (κ × ν)} (h : s.Sorted pairs)
    (calls : List (Call κ ν)) (world : σ) :
    s.Sorted ((s.performAll a pairs calls).run world).1.2 := by
  induction calls generalizing pairs world with
  | nil => exact h
  | cons call calls ih => exact ih (s.perform_sorted a h call world) _

theorem performAll_cache (a : Actions σ κ ν) {pairs : List (κ × ν)} (h : s.Sorted pairs)
    (calls : List (Call κ ν)) (world : σ) :
    (Cache.performAll a (s.cache pairs) calls).run world =
      let shelved := (s.performAll a pairs calls).run world
      ((shelved.1.1, s.cache shelved.1.2), shelved.2) := by
  induction calls generalizing pairs world with
  | nil => rfl
  | cons call calls ih =>
      have hstep := s.perform_cache a h call world
      have hrest := ih (s.perform_sorted a h call world) ((s.perform a pairs call).run world).2
      simp only [Cache.performAll, performAll, StateT.run_bind, hstep]
      show (do
        let after ← (Cache.performAll a (s.cache ((s.perform a pairs call).run world).1.2)
          calls).run ((s.perform a pairs call).run world).2
        pure _ : Id _) = _
      rw [hrest]
      rfl

/-! ## What a run leaves -/

theorem newest_suffix {value : ν} (h : s.refuses value = false) (key : κ)
    (pairs : List (κ × ν)) : [(key, value)] <:+ s.kept (placed key value pairs) := by
  refine s.kept_longest (List.suffix_append _ _) ((s.fits_iff _).2 ?_)
  have hbytes : s.maxBytes.toNat < UInt64.size := s.maxBytes.toNat_lt
  have hsize : (s.sizeOf value).toNat < UInt64.size := (s.sizeOf value).toNat_lt
  have hnot : ¬ s.refuses value = true := by simp [h]
  simp only [refuses, Bool.or_eq_true, Bool.and_eq_true, beq_iff_eq, decide_eq_true_eq] at hnot
  simp only [List.length_singleton, load_cons, load_nil]
  omega

theorem cache_tidy {pairs : List (κ × ν)} (h : s.Sorted pairs) : (s.cache pairs).Tidy where
  unique := h.keys
  few := ((s.fits_iff pairs).1 h.fits).1
  counted := rfl
  small := ((s.fits_iff pairs).1 h.fits).2
  takes := by
    intro key value hget
    have hload := s.load_lookup h.keys key
    rw [get?_cache] at hget
    rw [hget, Option.elim_some] at hload
    rw [s.erase_cache h.keys key]
    simp only [cache]
    omega
  puts := by
    intro key value
    rw [s.put_cache h.keys key value]
    cases s.refuses value with
    | true => simp [cache]
    | false =>
        have hload := s.load_lookup h.keys key
        have hsplit := congrArg s.load (s.lost_append_kept (placed key value pairs))
        have hgiven : s.load (s.lost (placed key value pairs)) =
            (((s.lost (placed key value pairs)).map Prod.snd).map (s.cache pairs).sizeOf).sum := by
          rw [List.map_map]
          rfl
        rw [load_append, placed, load_append, load_cons, load_nil, ← placed, hgiven] at hsplit
        simp only [Bool.false_eq_true, if_false, List.map_append, List.sum_append]
        cases hfound : lookup key pairs with
        | none =>
            rw [hfound, Option.elim_none] at hload
            simp only [cache, Option.toList_none, List.map_nil, List.sum_nil] at hsplit ⊢
            omega
        | some old =>
            rw [hfound, Option.elim_some] at hload
            simp only [cache, Option.toList_some, List.map_cons, List.map_nil, List.sum_cons,
              List.sum_nil] at hsplit ⊢
            omega
  stays := by
    intro key value hadmits
    rw [admits_cache, Bool.not_eq_true'] at hadmits
    rw [s.put_cache h.keys key value, hadmits]
    exact s.newest_suffix hadmits key pairs

/-- A cache that starts empty answers every call as its list of pairs does, calls the two actions
as that does, and has that list as its entries afterwards. -/
theorem cache_refines (a : Actions σ κ ν) (calls : List (Call κ ν)) (world : σ) :
    ∃ answers pairs world',
      (s.performAll a [] calls).run world = ((answers, pairs), world') ∧
      (Cache.performAll a (Cache.empty (fun value => (s.sizeOf value).toNat)
        s.maxEntries.toNat s.maxBytes.toNat) calls).run world =
          ((answers, s.cache pairs), world') ∧
      (s.cache pairs).Tidy := by
  have hnil : s.Sorted ([] : List (κ × ν)) := ⟨List.nodup_nil, s.fits_nil⟩
  exact ⟨_, _, _, rfl, s.performAll_cache a hnil calls world,
    s.cache_tidy (s.performAll_sorted a hnil calls world)⟩

/-- Twice the size of a value is counted no further than a word goes, so the greatest bound keeps
a value that takes over half of it. -/
theorem greatest_bound_keeps :
    let c : Cache Unit UInt64 := Cache.empty UInt64.toNat 4 (UInt64.size - 1)
    let half : UInt64 := 0x8000000000000000
    c.maxBytes < 2 * c.sizeOf half ∧ (c.put () half).1 = [] ∧
      (c.put () half).2.entries = [((), half)] := by
  decide +kernel

end Shelf

end PgClient
