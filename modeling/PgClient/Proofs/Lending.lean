import PgClient.Proofs.Shelf

/-!
# Where every value is

Holders take values out of a cache, work on them, and put them back, under any key and in any
order. A value is told from all others by the number of the call that built it, and at each
moment that number is in one place: with a holder, in the cache, among those the evict action
was given, or among those that were there when the cache was cleared.

That is a matter of counting. A call to the cache brings something in, leaves something behind
and hands something out, and `perform_balance` says that the two sides agree; the places of a
whole run agree with all that was built by adding this up.

Which value a key stands for is less obvious. It is not the one last put under it: a put that
is refused hands its value to the evict action at once, and a smaller one that was put before
stays where it is. Among the puts that are not refused it is the last.
-/

namespace PgClient

/-- A value, and the number of the call that built it. -/
structure Token (ν : Type) where
  id : Nat
  value : ν
  deriving DecidableEq

/-- The numbers of the values of a list of pairs. -/
def Token.idsOf {α ν : Type} (pairs : List (α × Token ν)) : List Nat :=
  pairs.map (·.2.id)

/-- What the two actions of a cache come to, call by call. -/
structure Outcomes (κ ν : Type) where
  build : Nat → κ → Except Error ν
  evict : Nat → ν → Except Error Unit

structure Workshop (ν : Type) where
  calls : Nat := 0
  built : List Nat := []
  released : List (Token ν) := []

def Outcomes.actions {κ ν : Type} (o : Outcomes κ ν) : Cache.Actions (Workshop ν) κ (Token ν) where
  build key := modifyGet fun w =>
    match o.build w.calls key with
    | .ok value =>
      (.ok ⟨w.calls, value⟩, { w with calls := w.calls + 1, built := w.built ++ [w.calls] })
    | .error e => (.error e, { w with calls := w.calls + 1 })
  evict token := modifyGet fun w =>
    (o.evict w.released.length token.value, { w with released := w.released ++ [token] })

/-- A cache, and everything that is not in it. -/
structure Lending (η κ ν : Type) where
  cache : Cache κ (Token ν)
  workshop : Workshop ν := {}
  /-- Who holds what. -/
  hands : List (η × Token ν) := []
  dropped : List (Token ν) := []
  /-- Everything that was ever put back, and under which key, in order. -/
  puts : List (κ × Token ν) := []

/-- Something a holder does. One may hold many values, and says which is put back. -/
inductive Deed (η κ ν : Type) where
  | borrow (holder : η) (key : κ)
  | create (holder : η) (key : κ)
  | remove (holder : η) (key : κ)
  | change (holder : η) (id : Nat) (value : ν)
  | put (holder : η) (id : Nat) (key : κ)
  | clear

def Cache.Answer.value? {ν : Type} : Cache.Answer ν → Option ν
  | .obtained (.ok value) => some value
  | .removed value => value
  | _ => none

namespace Lending

open Token (idsOf)

variable {η κ ν : Type} [DecidableEq η] [DecidableEq κ]

def start (s : Shelf (Token ν)) : Lending η κ ν where
  cache := Cache.empty (fun token => (s.sizeOf token).toNat) s.maxEntries.toNat s.maxBytes.toNat

def call (o : Outcomes κ ν) (w : Lending η κ ν) (c : Cache.Call κ (Token ν)) :
    Cache.Answer (Token ν) × Lending η κ ν :=
  let ((answer, cache), workshop) := (w.cache.perform o.actions c).run w.workshop
  (answer, { w with cache, workshop })

/-- A holder makes a call and keeps what it gets. -/
def take (o : Outcomes κ ν) (w : Lending η κ ν) (holder : η) (c : Cache.Call κ (Token ν)) :
    Lending η κ ν :=
  let (answer, w) := w.call o c
  { w with hands := w.hands ++ answer.value?.toList.map (holder, ·) }

def isHeld (holder : η) (id : Nat) (held : η × Token ν) : Bool :=
  held.1 == holder && held.2.id == id

def step (o : Outcomes κ ν) (w : Lending η κ ν) : Deed η κ ν → Lending η κ ν
  | .borrow holder key => w.take o holder (.borrow key)
  | .create holder key => w.take o holder (.create key)
  | .remove holder key => w.take o holder (.remove key)
  | .change holder id value =>
    { w with hands := w.hands.map fun held =>
        if isHeld holder id held then (held.1, { held.2 with value }) else held }
  | .put holder id key =>
    match w.hands.find? (isHeld holder id) with
    | some held =>
      { (w.call o (.put key held.2)).2 with
        hands := w.hands.eraseP (isHeld holder id)
        puts := w.puts ++ [(key, held.2)] }
    | none => w
  | .clear =>
    { (w.call o .clear).2 with dropped := w.dropped ++ w.cache.entries.map Prod.snd }

def run (o : Outcomes κ ν) (w : Lending η κ ν) (deeds : List (Deed η κ ν)) : Lending η κ ν :=
  deeds.foldl (step o) w

/-- The numbers of all values, place by place. -/
def places (w : Lending η κ ν) : List Nat :=
  idsOf w.hands ++ idsOf w.cache.entries ++ w.workshop.released.map Token.id ++
    w.dropped.map Token.id

/-- The value of the last put under a key that the cache did not refuse. -/
def lastPut (w : Lending η κ ν) (key : κ) : Option (Token ν) :=
  (w.puts.filter fun p => p.1 == key && w.cache.admits (w.cache.sizeOf p.2)).getLast?.map Prod.snd

def lastKey (w : Lending η κ ν) (id : Nat) : Option κ :=
  (w.puts.filter (·.2.id == id)).getLast?.map Prod.fst

/-- Every value is in one place, and those in the cache are where they were put last. -/
structure Accounted (s : Shelf (Token ν)) (w : Lending η κ ν) : Prop where
  shelved : w.cache = s.cache w.cache.entries
  sorted : s.Sorted w.cache.entries
  places : w.places.Perm w.workshop.built
  nodup : w.workshop.built.Nodup
  lt_calls : ∀ id ∈ w.workshop.built, id < w.workshop.calls
  resident : ∀ e ∈ w.cache.entries, w.lastPut e.1 = some e.2 ∧ w.lastKey e.2.id = some e.1

end Lending

/-! ## What a call brings in and what it leaves -/

namespace Cache.Call

variable {κ ν : Type}

def brought : Cache.Call κ (Token ν) → List (κ × Token ν)
  | .put key token => [(key, token)]
  | _ => []

/-- The numbers of the values that are forgotten. -/
def forgotten (pairs : List (κ × Token ν)) : Cache.Call κ (Token ν) → List Nat
  | .clear => Token.idsOf pairs
  | _ => []

end Cache.Call

namespace Token

variable {α ν : Type}

@[simp] theorem idsOf_nil : idsOf ([] : List (α × Token ν)) = [] := rfl

@[simp] theorem idsOf_cons (pair : α × Token ν) (pairs : List (α × Token ν)) :
    idsOf (pair :: pairs) = pair.2.id :: idsOf pairs := rfl

@[simp] theorem idsOf_append (pairs pairs' : List (α × Token ν)) :
    idsOf (pairs ++ pairs') = idsOf pairs ++ idsOf pairs' :=
  List.map_append

@[simp] theorem idsOf_pairs (a : α) (tokens : List (Token ν)) :
    idsOf (tokens.map (a, ·)) = tokens.map Token.id :=
  List.map_map

@[simp] theorem map_id_snd (pairs : List (α × Token ν)) :
    (pairs.map Prod.snd).map Token.id = idsOf pairs :=
  List.map_map

end Token

namespace Shelf

open Token (idsOf)

variable {κ ν : Type}

section Actions

variable (o : Outcomes κ ν)

/-- Values that are given up go to the evict action one by one, whatever comes of it. -/
theorem giveUp_run (given : List (Token ν)) (w : Workshop ν) :
    ((o.actions.giveUp given).run w).2 = { w with released := w.released ++ given } := by
  induction given generalizing w with
  | nil => rw [List.append_nil]; rfl
  | cons token given ih =>
      rw [List.append_cons]
      exact ih { w with released := w.released ++ [token] }

theorem build_ok {w : Workshop ν} {key : κ} {value : ν} (h : o.build w.calls key = .ok value) :
    (o.actions.build key).run w = (.ok ⟨w.calls, value⟩,
      { w with calls := w.calls + 1, built := w.built ++ [w.calls] }) := by
  show (match o.build w.calls key with
    | .ok value => _
    | .error e => _) = _
  rw [h]

theorem build_error {w : Workshop ν} {key : κ} {e : Error} (h : o.build w.calls key = .error e) :
    (o.actions.build key).run w = (.error e, { w with calls := w.calls + 1 }) := by
  show (match o.build w.calls key with
    | .ok value => _
    | .error e => _) = _
  rw [h]

end Actions

/-- Of all that there was, that was brought in, and that was built, each is somewhere afterwards. -/
structure Balanced (c : Cache.Call κ (Token ν)) (pairs : List (κ × Token ν)) (w : Workshop ν)
    (answer : Cache.Answer (Token ν)) (pairs' : List (κ × Token ν)) (w' : Workshop ν) : Prop where
  calls : w'.built = w.built ∧ w.calls ≤ w'.calls ∨
    w'.built = w.built ++ [w.calls] ∧ w'.calls = w.calls + 1
  moved : (idsOf c.brought ++ idsOf pairs ++ w.released.map Token.id ++ w'.built).Perm
    (answer.value?.toList.map Token.id ++ idsOf pairs' ++ w'.released.map Token.id ++
      c.forgotten pairs ++ w.built)

theorem build_balance (o : Outcomes κ ν) (pairs : List (κ × Token ν)) (key : κ) (w : Workshop ν)
    {c : Cache.Call κ (Token ν)} (hbrought : c.brought = []) (hforgotten : c.forgotten pairs = []) :
    Balanced c pairs w
      (.obtained (((o.actions.build key).run w).1.mapError Cache.creationError)) pairs
      ((o.actions.build key).run w).2 := by
  cases h : o.build w.calls key with
  | ok value =>
      rw [build_ok o h]
      refine ⟨.inr ⟨rfl, rfl⟩, List.perm_iff_count.2 fun id => ?_⟩
      simp only [hbrought, hforgotten, Token.idsOf_nil, Except.mapError, Cache.Answer.value?,
        Option.toList_some, List.map_cons, List.map_nil, List.count_append, List.count_nil]
      omega
  | error e =>
      rw [build_error o h]
      refine ⟨.inl ⟨rfl, Nat.le_succ _⟩, List.perm_iff_count.2 fun id => ?_⟩
      simp only [hbrought, hforgotten, Token.idsOf_nil, Except.mapError, Cache.Answer.value?,
        Option.toList_none, List.map_nil, List.count_append, List.count_nil]
      omega

variable [DecidableEq κ]

theorem lookup_count {pairs : List (κ × Token ν)} (hkeys : (pairs.map Prod.fst).Nodup) (key : κ)
    (id : Nat) : (idsOf pairs).count id =
      ((lookup key pairs).toList.map Token.id).count id + (idsOf (without key pairs)).count id := by
  have hperm : (idsOf pairs).Perm
      (idsOf ((lookup key pairs).toList.map (key, ·) ++ without key pairs)) :=
    (lookup_perm hkeys key).map _
  rw [hperm.count_eq, Token.idsOf_append, Token.idsOf_pairs, List.count_append]

theorem take_balance {pairs : List (κ × Token ν)} (hkeys : (pairs.map Prod.fst).Nodup) (key : κ)
    (w : Workshop ν) {c : Cache.Call κ (Token ν)} (hbrought : c.brought = [])
    (hforgotten : c.forgotten pairs = []) {answer : Cache.Answer (Token ν)}
    (hanswer : answer.value? = lookup key pairs) :
    Balanced c pairs w answer (without key pairs) w := by
  refine ⟨.inl ⟨rfl, Nat.le_refl _⟩, List.perm_iff_count.2 fun id => ?_⟩
  have hcount := lookup_count hkeys key id
  simp only [hbrought, hforgotten, Token.idsOf_nil, hanswer, List.count_append, List.count_nil]
  omega

variable (s : Shelf (Token ν)) (o : Outcomes κ ν)

theorem put_balance {pairs : List (κ × Token ν)} (hkeys : (pairs.map Prod.fst).Nodup) (key : κ)
    (token : Token ν) (w : Workshop ν) :
    let after := (s.perform o.actions pairs (.put key token)).run w
    Balanced (.put key token) pairs w after.1.1 after.1.2 after.2 := by
  simp only [perform]
  cases s.refuses token with
  | true =>
      show Balanced _ _ _ .done pairs ((o.actions.giveUp [token]).run w).2
      rw [giveUp_run]
      refine ⟨.inl ⟨rfl, Nat.le_refl _⟩, List.perm_iff_count.2 fun id => ?_⟩
      simp only [Cache.Call.brought, Token.idsOf_cons, Token.idsOf_nil, Cache.Call.forgotten,
        Cache.Answer.value?, List.map_append, List.map_cons, List.map_nil, List.count_append,
        Option.toList_none, List.count_nil]
      omega
  | false =>
      show Balanced _ _ _ .done (s.kept (placed key token pairs)) ((o.actions.giveUp _).run w).2
      rw [giveUp_run]
      refine ⟨.inl ⟨rfl, Nat.le_refl _⟩, List.perm_iff_count.2 fun id => ?_⟩
      have hcount := lookup_count hkeys key id
      have hsplit := congrArg (fun l => (idsOf l).count id)
        (s.lost_append_kept (placed key token pairs))
      have hplaced : idsOf (placed key token pairs) = idsOf (without key pairs) ++ [token.id] :=
        Token.idsOf_append _ _
      simp only [Token.idsOf_append, hplaced, List.count_append] at hsplit
      simp only [Cache.Call.brought, Token.idsOf_cons, Token.idsOf_nil, Cache.Call.forgotten,
        Cache.Answer.value?, List.map_append, Token.map_id_snd, List.map_nil, List.count_append,
        Option.toList_none, List.count_nil]
      omega

theorem perform_balance {pairs : List (κ × Token ν)} (hkeys : (pairs.map Prod.fst).Nodup)
    (c : Cache.Call κ (Token ν)) (w : Workshop ν) :
    let after := (s.perform o.actions pairs c).run w
    Balanced c pairs w after.1.1 after.1.2 after.2 := by
  cases c with
  | borrow key =>
      simp only [perform]
      cases hfound : lookup key pairs with
      | some token => exact take_balance hkeys key w rfl rfl hfound.symm
      | none => exact build_balance o pairs key w rfl rfl
  | create key => exact build_balance o pairs key w rfl rfl
  | put key token => exact s.put_balance o hkeys key token w
  | remove key => exact take_balance hkeys key w rfl rfl rfl
  | clear =>
      refine ⟨.inl ⟨rfl, Nat.le_refl _⟩, List.perm_iff_count.2 fun id => ?_⟩
      show List.count id ([] ++ idsOf pairs ++ w.released.map Token.id ++ w.built) =
        List.count id ([] ++ [] ++ w.released.map Token.id ++ idsOf pairs ++ w.built)
      simp only [List.count_append, List.count_nil]
      omega

/-- What is on the shelf after a call was there before, unless it was put there. -/
theorem perform_mem (a : Cache.Actions (Workshop ν) κ (Token ν)) {pairs : List (κ × Token ν)}
    (c : Cache.Call κ (Token ν)) (w : Workshop ν) {e : κ × Token ν}
    (he : e ∈ ((s.perform a pairs c).run w).1.2) :
    (e ∈ pairs ∧ ∀ key token, c = .put key token → s.refuses token = false → e.1 ≠ key) ∨
      (c = .put e.1 e.2 ∧ s.refuses e.2 = false) := by
  have hnoput : e ∈ pairs → (∀ key token, c ≠ .put key token) →
      (e ∈ pairs ∧ ∀ key token, c = .put key token → s.refuses token = false → e.1 ≠ key) ∨
        (c = .put e.1 e.2 ∧ s.refuses e.2 = false) :=
    fun hmem hc => .inl ⟨hmem, fun key token h => absurd h (hc key token)⟩
  cases c with
  | borrow key =>
      simp only [perform] at he
      cases hfound : lookup key pairs with
      | some token =>
          rw [hfound] at he
          exact hnoput (List.mem_filter.1 he).1 fun _ _ h => by cases h
      | none =>
          rw [hfound] at he
          exact hnoput he fun _ _ h => by cases h
  | create key => exact hnoput he fun _ _ h => by cases h
  | put key token =>
      simp only [perform] at he
      cases hrefuses : s.refuses token with
      | true =>
          rw [hrefuses] at he
          refine .inl ⟨he, ?_⟩
          intro key' token' heq hrefuses'
          cases heq
          rw [hrefuses] at hrefuses'
          cases hrefuses'
      | false =>
          rw [hrefuses] at he
          have hplaced : e ∈ placed key token pairs := (s.kept_suffix _).subset he
          rcases List.mem_append.1 hplaced with hrest | hnew
          · obtain ⟨hold, hkey⟩ := List.mem_filter.1 hrest
            refine .inl ⟨hold, ?_⟩
            intro key' token' heq _
            cases heq
            simpa using hkey
          · rw [List.mem_singleton.1 hnew]
            exact .inr ⟨rfl, hrefuses⟩
  | remove key => exact hnoput (List.mem_filter.1 he).1 fun _ _ h => by cases h
  | clear => cases he

end Shelf

/-! ## A run -/

namespace Lending

open Token (idsOf)

variable {η κ ν : Type} [DecidableEq κ]
variable {s : Shelf (Token ν)} {o : Outcomes κ ν} {w : Lending η κ ν}

/-- The answer to a call, the pairs and the workshop after it. -/
def after (s : Shelf (Token ν)) (o : Outcomes κ ν) (w : Lending η κ ν)
    (c : Cache.Call κ (Token ν)) :
    (Cache.Answer (Token ν) × List (κ × Token ν)) × Workshop ν :=
  (s.perform o.actions w.cache.entries c).run w.workshop

theorem start_accounted (s : Shelf (Token ν)) : Accounted s (start s : Lending η κ ν) where
  shelved := rfl
  sorted := ⟨List.nodup_nil, s.fits_nil⟩
  places := .refl _
  nodup := List.nodup_nil
  lt_calls := nofun
  resident := nofun

theorem call_after (hw : Accounted s w) (c : Cache.Call κ (Token ν)) :
    w.call o c = ((after s o w c).1.1,
      { w with cache := s.cache (after s o w c).1.2, workshop := (after s o w c).2 }) := by
  have hperform := s.perform_cache o.actions hw.sorted c w.workshop
  rw [← hw.shelved] at hperform
  unfold call
  rw [hperform]
  rfl

theorem lastPut_shelved (h : w.cache = s.cache w.cache.entries) (key : κ) :
    w.lastPut key =
      (w.puts.filter fun p => p.1 == key && !s.refuses p.2).getLast?.map Prod.snd := by
  unfold lastPut
  rw [h]
  simp only [Shelf.admits_cache]

/-- What somebody holds is not in the cache. -/
theorem held_not_resident (hw : Accounted s w) {id : Nat} (hheld : id ∈ idsOf w.hands) :
    ∀ e ∈ w.cache.entries, e.2.id ≠ id := by
  intro e he heq
  have hnodup : w.places.Nodup := (hw.places.nodup_iff).2 hw.nodup
  unfold Lending.places at hnodup
  rw [List.append_assoc, List.append_assoc, List.nodup_append] at hnodup
  have hresident : id ∈ idsOf w.cache.entries := heq ▸ List.mem_map_of_mem he
  exact hnodup.2.2 id hheld id (List.mem_append_left _ hresident) rfl

theorem built_step {c : Cache.Call κ (Token ν)} {workshop : Workshop ν}
    {answer : Cache.Answer (Token ν)} {pairs : List (κ × Token ν)} (hw : Accounted s w)
    (h : Shelf.Balanced c w.cache.entries w.workshop answer pairs workshop) :
    workshop.built.Nodup ∧ ∀ id ∈ workshop.built, id < workshop.calls := by
  rcases h.calls with ⟨hbuilt, hcalls⟩ | ⟨hbuilt, hcalls⟩
  · rw [hbuilt]
    exact ⟨hw.nodup, fun id hid => Nat.lt_of_lt_of_le (hw.lt_calls id hid) hcalls⟩
  · rw [hbuilt, hcalls, ← List.concat_eq_append]
    refine ⟨hw.nodup.concat fun hmem => absurd (hw.lt_calls _ hmem) (Nat.lt_irrefl _), ?_⟩
    intro id hid
    rw [List.concat_eq_append, List.mem_append, List.mem_singleton] at hid
    rcases hid with hid | hid
    · have := hw.lt_calls id hid
      omega
    · omega

/-- The entries after a call are where they were put last. -/
theorem resident_step (hw : Accounted s w) {c : Cache.Call κ (Token ν)} {w' : Lending η κ ν}
    (hcache : w'.cache = s.cache (after s o w c).1.2) (hputs : w'.puts = w.puts ++ c.brought)
    (hheld : ∀ id ∈ idsOf c.brought, id ∈ idsOf w.hands) :
    ∀ e ∈ w'.cache.entries, w'.lastPut e.1 = some e.2 ∧ w'.lastKey e.2.id = some e.1 := by
  intro e he
  have hshelved : w'.cache = s.cache w'.cache.entries := by rw [hcache]; rfl
  rw [hcache] at he
  rw [lastPut_shelved hshelved, lastKey, hputs, List.filter_append, List.filter_append]
  rcases s.perform_mem o.actions c w.workshop he with ⟨hold, hother⟩ | ⟨rfl, hrefuses⟩
  · have hput : c.brought.filter (fun p => p.1 == e.1 && !s.refuses p.2) = [] := by
      cases c with
      | put key token =>
          cases hrefuses : s.refuses token with
          | true => simp [Cache.Call.brought, hrefuses]
          | false =>
              have hne : key ≠ e.1 := fun heq => hother key token rfl hrefuses heq.symm
              simp [Cache.Call.brought, hne]
      | _ => rfl
    have hkey : c.brought.filter (fun p => p.2.id == e.2.id) = [] := by
      refine List.filter_eq_nil_iff.2 fun p hp => ?_
      have hne := held_not_resident hw (hheld p.2.id (List.mem_map_of_mem hp)) e hold
      simpa using fun heq => hne heq.symm
    have hresident := hw.resident e hold
    rw [lastPut_shelved hw.shelved, lastKey] at hresident
    rw [hput, hkey, List.append_nil, List.append_nil]
    exact hresident
  · simp [Cache.Call.brought, hrefuses]

/-- A call leaves everything accounted for, if what it brings in was held and what it hands out
is held afterwards. -/
theorem Accounted.called (hw : Accounted s w) {c : Cache.Call κ (Token ν)} {w' : Lending η κ ν}
    (hcache : w'.cache = s.cache (after s o w c).1.2)
    (hworkshop : w'.workshop = (after s o w c).2) (hputs : w'.puts = w.puts ++ c.brought)
    (hheld : ∀ id ∈ idsOf c.brought, id ∈ idsOf w.hands)
    (hmoved : (idsOf w'.hands ++ w'.dropped.map Token.id ++ idsOf c.brought).Perm
      (idsOf w.hands ++ w.dropped.map Token.id ++
        (after s o w c).1.1.value?.toList.map Token.id ++ c.forgotten w.cache.entries)) :
    Accounted s w' := by
  have hbalanced : Shelf.Balanced c w.cache.entries w.workshop (after s o w c).1.1
      (after s o w c).1.2 (after s o w c).2 :=
    s.perform_balance o hw.sorted.keys c w.workshop
  obtain ⟨hnodup, hlt⟩ := built_step hw hbalanced
  have hsorted : s.Sorted (after s o w c).1.2 :=
    s.perform_sorted o.actions hw.sorted c w.workshop
  exact {
    shelved := by rw [hcache]; rfl
    sorted := by rw [hcache]; exact hsorted
    places := by
      refine List.perm_iff_count.2 fun id => ?_
      have hbefore := List.perm_iff_count.1 hw.places id
      have hcall := List.perm_iff_count.1 hbalanced.moved id
      have houter := List.perm_iff_count.1 hmoved id
      simp only [Lending.places, List.count_append] at hbefore hcall houter ⊢
      rw [hcache, hworkshop]
      simp only [Shelf.cache]
      omega
    nodup := by rw [hworkshop]; exact hnodup
    lt_calls := by rw [hworkshop]; exact hlt
    resident := resident_step hw hcache hputs hheld }

theorem take_accounted (hw : Accounted s w) (holder : η) {c : Cache.Call κ (Token ν)}
    (hbrought : c.brought = []) (hforgotten : c.forgotten w.cache.entries = []) :
    Accounted s (w.take o holder c) := by
  unfold take
  rw [call_after hw]
  refine hw.called (c := c) (o := o) rfl rfl ?_ ?_ ?_
  · rw [hbrought, List.append_nil]
  · rw [hbrought]
    nofun
  · refine List.perm_iff_count.2 fun id => ?_
    simp only [hbrought, hforgotten, Token.idsOf_append, Token.idsOf_pairs, Token.idsOf_nil,
      List.count_append, List.count_nil]
    omega

variable [DecidableEq η]

theorem hands_perm {holder : η} {id : Nat} {hands : List (η × Token ν)} {held : η × Token ν}
    (h : hands.find? (isHeld holder id) = some held) :
    hands.Perm (held :: hands.eraseP (isHeld holder id)) := by
  induction hands with
  | nil => cases h
  | cons first hands ih =>
      cases hfirst : isHeld holder id first with
      | true =>
          rw [List.find?_cons_of_pos hfirst] at h
          rw [List.eraseP_cons_of_pos hfirst, Option.some.inj h]
      | false =>
          have hnot : ¬ isHeld holder id first = true := by simp [hfirst]
          rw [List.find?_cons_of_neg hnot] at h
          rw [List.eraseP_cons_of_neg hnot]
          exact ((ih h).cons first).trans (List.Perm.swap held first _)

theorem put_accounted (hw : Accounted s w) (holder : η) (id : Nat) (key : κ) :
    Accounted s (w.step o (.put holder id key)) := by
  simp only [step]
  cases hfind : w.hands.find? (isHeld holder id) with
  | none => exact hw
  | some held =>
      have hhands : (idsOf w.hands).Perm
          (held.2.id :: idsOf (w.hands.eraseP (isHeld holder id))) := (hands_perm hfind).map _
      simp only [call_after hw]
      refine hw.called (c := .put key held.2) (o := o) rfl rfl rfl ?_ ?_
      · intro id' hid'
        rw [List.mem_singleton.1 hid']
        exact hhands.mem_iff.2 List.mem_cons_self
      · refine List.perm_iff_count.2 fun id' => ?_
        have hcount := hhands.count_eq id'
        have hnone : (after s o w (.put key held.2)).1.1.value? = none := by
          simp only [after, Shelf.perform]
          cases s.refuses held.2 <;> rfl
        rw [List.count_cons] at hcount
        simp only [hnone, Cache.Call.brought, Cache.Call.forgotten, Token.idsOf_cons,
          Token.idsOf_nil, Option.toList_none, List.map_nil, List.count_append, List.count_cons,
          List.count_nil]
        omega

/-- Whatever a holder does, everything stays accounted for. -/
theorem step_accounted (hw : Accounted s w) (deed : Deed η κ ν) :
    Accounted s (w.step o deed) := by
  cases deed with
  | borrow holder key => exact take_accounted (c := .borrow key) (o := o) hw holder rfl rfl
  | create holder key => exact take_accounted (c := .create key) (o := o) hw holder rfl rfl
  | remove holder key => exact take_accounted (c := .remove key) (o := o) hw holder rfl rfl
  | change holder id value =>
      have hhands : idsOf (w.step o (.change holder id value)).hands = idsOf w.hands := by
        unfold step idsOf
        rw [List.map_map]
        refine List.map_congr_left fun held _ => ?_
        simp only [Function.comp]
        split <;> rfl
      refine ⟨hw.shelved, hw.sorted, ?_, hw.nodup, hw.lt_calls, hw.resident⟩
      unfold Lending.places
      rw [hhands]
      exact hw.places
  | put holder id key => exact put_accounted hw holder id key
  | clear =>
      unfold step
      rw [call_after hw]
      refine hw.called (c := .clear) (o := o) rfl rfl ?_ nofun ?_
      · exact (List.append_nil w.puts).symm
      · refine List.perm_iff_count.2 fun id => ?_
        have hnone : (after s o w .clear).1.1.value? = none := rfl
        simp only [hnone, Cache.Call.brought, Cache.Call.forgotten, Token.idsOf_nil,
          Option.toList_none, List.map_append, Token.map_id_snd, List.map_nil, List.count_append,
          List.count_nil]
        omega

theorem run_accounted (hw : Accounted s w) (deeds : List (Deed η κ ν)) :
    Accounted s (w.run o deeds) := by
  induction deeds generalizing w with
  | nil => exact hw
  | cons deed deeds ih => exact ih (step_accounted hw deed)

/-- A value that is resident goes to whoever asks for its key, and nothing is built. -/
theorem borrow_resident {key : κ} {token : Token ν} (hget : w.cache.get? key = some token)
    (holder : η) :
    w.step o (.borrow holder key) =
      { w with cache := w.cache.erase key, hands := w.hands ++ [(holder, token)] } := by
  simp only [step, take, call, Cache.perform, Cache.borrow, hget]
  rfl

/-- A value that cannot be built changes nothing but the count of attempts. -/
theorem borrow_failed {key : κ} {e : Error} (hget : w.cache.get? key = none)
    (hbuild : o.build w.workshop.calls key = .error e) (holder : η) :
    (w.call o (.borrow key)).1 = .obtained (.error (Cache.creationError e)) ∧
      w.step o (.borrow holder key) =
        { w with workshop := { w.workshop with calls := w.workshop.calls + 1 } } := by
  have hrun := Shelf.build_error o hbuild
  have hcall : w.call o (.borrow key) = (.obtained (.error (Cache.creationError e)),
      { w with workshop := { w.workshop with calls := w.workshop.calls + 1 } }) := by
    simp only [call, Cache.perform, Cache.borrow, hget, Cache.create, bind_assoc, pure_bind,
      StateT.run_bind]
    rw [show (o.actions.build key).run w.workshop = _ from hrun]
    rfl
  refine ⟨by rw [hcall], ?_⟩
  simp only [step, take, hcall]
  simp [Cache.Answer.value?]

/-- In every run every value that was built is in one place, each value in the cache is the last
one that was put under its key and not refused, and a borrow hands out just that one or, if its
value cannot be built, leaves everything alone. The sizes are summed exactly here; what comes of a
put that takes their sum beyond 64 bits, where a program stops, is left to `Shelf.counter_exact`. -/
theorem run_conserves (s : Shelf (Token ν)) (o : Outcomes κ ν) (deeds : List (Deed η κ ν)) :
    let w := run o (start s) deeds
    w.places.Perm w.workshop.built ∧ w.workshop.built.Nodup ∧
      (∀ e ∈ w.cache.entries, w.lastPut e.1 = some e.2 ∧ w.lastKey e.2.id = some e.1) ∧
      (∀ holder key token, w.cache.get? key = some token →
        w.lastPut key = some token ∧
        w.step o (.borrow holder key) =
          { w with cache := w.cache.erase key, hands := w.hands ++ [(holder, token)] }) ∧
      (∀ holder key e, w.cache.get? key = none → o.build w.workshop.calls key = .error e →
        (∃ cause, Cache.creationError e = .statementCreation cause) ∧
        (w.call o (.borrow key)).1 = .obtained (.error (Cache.creationError e)) ∧
        w.step o (.borrow holder key) =
          { w with workshop := { w.workshop with calls := w.workshop.calls + 1 } }) := by
  intro w
  have hw : Accounted s w := run_accounted (start_accounted s) deeds
  refine ⟨hw.places, hw.nodup, hw.resident, ?_, ?_⟩
  · intro holder key token hget
    have hresident := hw.resident (key, token) (Cache.mem_of_get? hget)
    exact ⟨hresident.1, borrow_resident hget holder⟩
  · intro holder key e hget hbuild
    have hcreation : ∃ cause, Cache.creationError e = .statementCreation cause := by
      cases e <;> exact ⟨_, rfl⟩
    exact ⟨hcreation, borrow_failed hget hbuild holder⟩

/-- One value is back in the cache, and no other can be built: the holder of the next borrow gets
that value, or no value at all. -/
theorem run_conserves_sample :
    let s : Shelf (Token UInt64) := { sizeOf := Token.value, maxEntries := 4, maxBytes := 100 }
    let o : Outcomes Bool UInt64 :=
      { build := fun n _ => if n = 0 then .ok 10 else .error .closed, evict := fun _ _ => .ok () }
    let w : Lending Nat Bool UInt64 := run o (start s) [.borrow 1 false, .put 1 0 false]
    w.places.Perm [0] ∧ w.lastPut false = some ⟨0, 10⟩ ∧
      w.step o (.borrow 2 false) =
        { w with cache := w.cache.erase false, hands := w.hands ++ [(2, ⟨0, 10⟩)] } ∧
      (w.call o (.borrow true)).1 = .obtained (.error (Cache.creationError .closed)) := by
  intro s o w
  obtain ⟨hplaces, -, -, hresident, hfailed⟩ :=
    run_conserves s o [.borrow (1 : Nat) false, .put 1 0 false]
  obtain ⟨hlast, hstep⟩ := hresident 2 false ⟨0, 10⟩ (by decide)
  exact ⟨hplaces, hlast, hstep, (hfailed 2 true .closed (by decide) (by decide)).2.1⟩

/-- A put that is refused is not the last one a borrow knows of. Two holders have a value for the
same key, and the second to put its value back has a large one. -/
theorem refused_put_keeps_older :
    let s : Shelf (Token UInt64) := { sizeOf := Token.value, maxEntries := 4, maxBytes := 100 }
    let o : Outcomes Unit UInt64 :=
      { build := fun n _ => .ok (if n = 0 then 10 else 60), evict := fun _ _ => .ok () }
    let w : Lending Nat Unit UInt64 :=
      run o (start s) [.borrow 1 (), .borrow 2 (), .put 1 0 (), .put 2 1 ()]
    w.puts = [((), ⟨0, 10⟩), ((), ⟨1, 60⟩)] ∧ w.cache.get? () = some ⟨0, 10⟩ ∧
      (w.step o (.borrow 1 ())).hands = [(1, ⟨0, 10⟩)] := by
  decide

end Lending

end PgClient
