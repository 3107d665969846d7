/-!
# Splitting at a separator

A text with `n` separators has `n + 1` parts, some of them possibly empty, and joining the parts
with the separator gives the text back.
-/

namespace PgClient

/-- Puts one more character in front of a list of parts. -/
def Split.cons (separator c : Char) (parts : List (List Char)) : List (List Char) :=
  if c = separator then [] :: parts
  else match parts with
    | [] => [[c]]
    | part :: others => (c :: part) :: others

/-- The parts of a text between the occurrences of `separator`. -/
def splitAt (separator : Char) (cs : List Char) : List (List Char) :=
  cs.foldr (Split.cons separator) [[]]

theorem splitAt_ne_nil (separator : Char) (cs : List Char) : splitAt separator cs ≠ [] := by
  cases cs with
  | nil => simp [splitAt]
  | cons c cs =>
    simp only [splitAt, List.foldr_cons, Split.cons]
    split <;> (try split) <;> simp

/-- Joining the parts again restores the text. -/
theorem intercalate_splitAt (separator : Char) (cs : List Char) :
    [separator].intercalate (splitAt separator cs) = cs := by
  induction cs with
  | nil => simp [splitAt, List.intercalate]
  | cons c cs ih =>
    have step : splitAt separator (c :: cs) = Split.cons separator c (splitAt separator cs) := rfl
    rw [step]
    cases hparts : splitAt separator cs with
    | nil => exact absurd hparts (splitAt_ne_nil separator cs)
    | cons part others =>
      rw [hparts] at ih
      unfold Split.cons
      split
      · next h => subst h; simp [List.intercalate, ← ih]
      · cases others <;> simp_all [List.intercalate]

/-- The first part takes what stands in front of the separators. -/
theorem splitAt_append {separator : Char} {front : List Char} (h : separator ∉ front)
    (cs : List Char) :
    ∃ part parts, splitAt separator cs = part :: parts ∧
      splitAt separator (front ++ cs) = (front ++ part) :: parts := by
  induction front with
  | nil =>
      cases hparts : splitAt separator cs with
      | nil => exact absurd hparts (splitAt_ne_nil separator cs)
      | cons part parts => exact ⟨part, parts, rfl, hparts⟩
  | cons c front ih =>
      obtain ⟨part, parts, hsplit, hfront⟩ := ih fun hmem => h (List.mem_cons_of_mem c hmem)
      have hc : c ≠ separator := fun heq => h (heq ▸ List.mem_cons_self)
      refine ⟨part, parts, hsplit, ?_⟩
      show Split.cons separator c (splitAt separator (front ++ cs)) = _
      rw [hfront, Split.cons, if_neg hc]
      rfl

/-- A part that is closed by a separator is the first. -/
theorem splitAt_append_cons {separator : Char} {front : List Char} (h : separator ∉ front)
    (cs : List Char) :
    splitAt separator (front ++ separator :: cs) = front :: splitAt separator cs := by
  obtain ⟨part, parts, hsplit, hfront⟩ := splitAt_append h (separator :: cs)
  have hstep : splitAt separator (separator :: cs) = [] :: splitAt separator cs := if_pos rfl
  rw [hstep] at hsplit
  obtain ⟨rfl, rfl⟩ := List.cons.inj hsplit
  rw [hfront, List.append_nil]

end PgClient
