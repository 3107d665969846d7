import Mathlib.Data.List.Nodup
import PgClient.Cache

/-!
# What a cache does with its entries

A cache loses nothing. An entry that is taken out is the one that is missing
afterwards, and of the entries there are when a value is handed back, together
with that value, each is either still there or has been given up, and never
both. Keys are unique throughout, which is what makes both statements exact.
-/

namespace PgClient.Cache

variable {κ ν : Type}

/-- No two entries have the same key. -/
def Unique (c : Cache κ ν) : Prop :=
  (c.entries.map Prod.fst).Nodup

/-- Entries are given up from the oldest on, and the others stay. -/
theorem shrink_split (c : Cache κ ν) (entries : List (κ × ν)) (size : Nat) :
    ∃ gone, entries = gone ++ (c.shrink entries size).2.entries ∧
      (c.shrink entries size).1 = gone.map Prod.snd := by
  induction entries generalizing size with
  | nil => exact ⟨[], rfl, rfl⟩
  | cons e entries ih =>
      obtain ⟨key, value⟩ := e
      unfold shrink
      split
      · obtain ⟨gone, hsplit, hgone⟩ := ih (size - c.sizeOf value)
        exact ⟨(key, value) :: gone, congrArg ((key, value) :: ·) hsplit,
          congrArg (value :: ·) hgone⟩
      · exact ⟨[], rfl, rfl⟩

variable [BEq κ]

theorem erase_entries {c : Cache κ ν} {key : κ} {value : ν} (h : c.get? key = some value) :
    (c.erase key).entries = c.entries.filter (!·.1 == key) := by
  unfold erase
  rw [h]

/-- Taking a value out leaves the others where they are. -/
theorem erase_sublist (c : Cache κ ν) (key : κ) : (c.erase key).entries.Sublist c.entries := by
  cases h : c.get? key with
  | none =>
      rw [show c.erase key = c by unfold erase; rw [h]]
  | some value =>
      rw [erase_entries h]
      exact List.filter_sublist

/-- A value that is not admitted is given up at once, and nothing else happens. -/
theorem put_of_refused {c : Cache κ ν} {key : κ} {value : ν}
    (h : c.admits (c.sizeOf value) = false) : c.put key value = ([value], c) := by
  unfold put
  rw [h]
  rfl

/-- A value that is admitted takes the place of the entry of its key, which is
given up, and then the oldest entries are. -/
theorem put_of_admitted {c : Cache κ ν} (key : κ) {value : ν}
    (h : c.admits (c.sizeOf value) = true) :
    ∃ gone, c.entries.filter (!·.1 == key) ++ [(key, value)] =
        gone ++ (c.put key value).2.entries ∧
      (c.put key value).1 = (c.get? key).toList ++ gone.map Prod.snd := by
  unfold put
  rw [h]
  simp only [if_true]
  obtain ⟨gone, hsplit, hgone⟩ := c.shrink_split (c.entries.filter (!·.1 == key) ++ [(key, value)])
    (c.currentSize + c.sizeOf value - (c.get? key).elim 0 c.sizeOf)
  exact ⟨gone, hsplit, congrArg ((c.get? key).toList ++ ·) hgone⟩

theorem erase_unique {c : Cache κ ν} (hc : c.Unique) (key : κ) : (c.erase key).Unique := by
  cases h : c.get? key with
  | none =>
      rw [show c.erase key = c by unfold erase; rw [h]]
      exact hc
  | some value =>
      rw [Unique, erase_entries h]
      exact hc.sublist (List.filter_sublist.map _)

variable [LawfulBEq κ]

theorem mem_of_get? {c : Cache κ ν} {key : κ} {value : ν} (h : c.get? key = some value) :
    (key, value) ∈ c.entries := by
  unfold get? at h
  rw [Option.map_eq_some_iff] at h
  obtain ⟨⟨k, v⟩, hfind, rfl⟩ := h
  have hk : k = key := by simpa using List.find?_some hfind
  rw [← hk]
  exact List.mem_of_find?_eq_some hfind

theorem get?_eq_none {c : Cache κ ν} {key : κ} (h : c.get? key = none) :
    c.entries.filter (!·.1 == key) = c.entries := by
  unfold get? at h
  rw [Option.map_eq_none_iff, List.find?_eq_none] at h
  exact List.filter_eq_self.2 fun e he => by simpa using h e he

/-- The entry of a key, if there is one, and those of other keys. -/
theorem entries_perm {c : Cache κ ν} (hc : c.Unique) (key : κ) :
    c.entries.Perm ((c.get? key).toList.map (key, ·) ++ c.entries.filter (!·.1 == key)) := by
  cases hget : c.get? key with
  | none => rw [get?_eq_none hget]; exact .refl _
  | some value =>
      obtain ⟨front, back, hsplit⟩ := List.append_of_mem (mem_of_get? hget)
      have hkeys : ∀ e ∈ front ++ back, (!e.1 == key) = true := by
        intro e he
        have hnodup : (key :: (front ++ back).map Prod.fst).Nodup := by
          have := hc
          rw [Unique, hsplit, List.map_append, List.map_cons] at this
          rw [List.map_append]
          exact (List.perm_middle.nodup_iff).1 this
        have hne : e.1 ≠ key := fun heq =>
          (List.nodup_cons.1 hnodup).1 (heq ▸ List.mem_map_of_mem he)
        simpa using hne
      have hrest : c.entries.filter (!·.1 == key) = front ++ back := by
        rw [hsplit, List.filter_append, List.filter_cons_of_neg (by simp), ← List.filter_append]
        exact List.filter_eq_self.2 hkeys
      rw [hrest, hsplit]
      exact List.perm_middle

theorem put_unique {c : Cache κ ν} (hc : c.Unique) (key : κ) (value : ν) :
    (c.put key value).2.Unique := by
  cases h : c.admits (c.sizeOf value) with
  | false =>
      rw [put_of_refused h]
      exact hc
  | true =>
      obtain ⟨gone, hsplit, -⟩ := put_of_admitted key h
      have hall : ((c.entries.filter (!·.1 == key) ++ [(key, value)]).map Prod.fst).Nodup := by
        rw [List.map_append, List.map_singleton]
        refine List.nodup_append.2 ⟨hc.sublist (List.filter_sublist.map _), List.nodup_singleton _,
          ?_⟩
        rintro k hk k' hk' rfl
        obtain ⟨e, he, rfl⟩ := List.mem_map.1 hk
        rw [List.mem_singleton] at hk'
        simpa [hk'] using (List.mem_filter.1 he).2
      rw [hsplit, List.map_append] at hall
      exact (List.nodup_append.1 hall).2.1

end PgClient.Cache
