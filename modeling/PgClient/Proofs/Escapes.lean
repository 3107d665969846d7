import Mathlib.Data.List.TakeWhile
import PgClient.Statement.Call

/-!
# What is taken for a call

A call escape is a word between braces: `call`, perhaps with a place for a result ahead of it, and
whatever is called behind it. `IsEscape` is that form. The client takes more texts for a call than
these, and `IsTaken` says which: it does not look at what follows the word, so any longer word that
begins like it will do, and it does not count the signs behind the question mark.

Recognising is stripping, one thing after the other, and blanks in between. So the two directions
are one argument read forwards and backwards: what is put together from these parts is taken apart
into them (`called?_of_taken`), and what is taken apart was put together so (`taken_of_called?`).
-/

namespace PgClient

/-! ## Blanks at the ends -/

/-- A run of blanks, possibly none. -/
def IsGap (cs : List Char) : Prop :=
  ∀ c ∈ cs, isBlank c = true

theorem IsGap.reverse {gap : List Char} (h : IsGap gap) : IsGap gap.reverse :=
  fun c hc => h c (List.mem_reverse.1 hc)

theorem trimLeft_cons {c : Char} (hc : isBlank c = false) (cs : List Char) :
    trimLeft (c :: cs) = c :: cs :=
  List.dropWhile_cons_of_neg (by simp [hc])

theorem trimLeft_gap_append {gap : List Char} (h : IsGap gap) (cs : List Char) :
    trimLeft (gap ++ cs) = trimLeft cs :=
  List.dropWhile_append_of_pos h

/-- What is cut off on the left is blanks. -/
theorem trimLeft_cases (cs : List Char) : ∃ gap, IsGap gap ∧ cs = gap ++ trimLeft cs :=
  ⟨cs.takeWhile isBlank, fun _ hc => List.mem_takeWhile_imp hc,
    List.takeWhile_append_dropWhile.symm⟩

theorem trimRight_cases (cs : List Char) : ∃ gap, IsGap gap ∧ cs = trimRight cs ++ gap := by
  obtain ⟨gap, hgap, hcs⟩ := trimLeft_cases cs.reverse
  refine ⟨gap.reverse, hgap.reverse, ?_⟩
  rw [trimRight, ← List.reverse_append]
  exact List.reverse_eq_iff.1 hcs

theorem trimRight_append_gap (cs : List Char) {gap : List Char} (h : IsGap gap) :
    trimRight (cs ++ gap) = trimRight cs := by
  unfold trimRight
  rw [List.reverse_append]
  exact congrArg List.reverse (trimLeft_gap_append h.reverse cs.reverse)

/-- Cutting off on the right stops at the last character that is no blank. -/
theorem trimRight_append_cons (front : List Char) {c : Char} (hc : isBlank c = false)
    (cs : List Char) : trimRight (front ++ c :: cs) = front ++ c :: trimRight cs := by
  unfold trimRight
  rw [List.reverse_append, List.reverse_cons, List.append_assoc, List.dropWhile_append]
  split
  · next hcs =>
    rw [List.isEmpty_iff.1 hcs, List.singleton_append, List.dropWhile_cons_of_neg (by simp [hc])]
    simp
  · simp

theorem trim_append_gap (cs : List Char) {gap : List Char} (h : IsGap gap) :
    trim (cs ++ gap) = trim cs := by
  unfold trim
  rw [trimLeft, List.dropWhile_append]
  split
  · next hcs =>
    rw [trimLeft, List.isEmpty_iff.1 hcs, List.dropWhile_eq_nil_iff.2 h]
  · exact trimRight_append_gap _ h

theorem trim_trimRight (cs : List Char) : trim (trimRight cs) = trim cs := by
  obtain ⟨gap, hgap, hcs⟩ := trimRight_cases cs
  conv => rhs; rw [hcs, trim_append_gap _ hgap]

namespace CallEscape

/-! ## The form -/

/-- The word `call`, in any case of letters. -/
def IsWord (word : List Char) : Prop :=
  word.map Char.toLower = "call".toList

/-- A place for a result: a question mark and so many signs behind it, with blanks in between. -/
def IsPlace (signs : Nat) (place : List Char) : Prop :=
  ∃ gap gap', IsGap gap ∧ IsGap gap' ∧ place = '?' :: (gap ++ List.replicate signs '=' ++ gap')

/-- A text in braces: blanks, what stands ahead of the word, the word, and what follows it. -/
def Braced (place rest text : List Char) : Prop :=
  ∃ gap word, IsGap gap ∧ IsWord word ∧
    text = '{' :: (gap ++ (place ++ (word ++ rest))) ++ ['}']

/-- A call escape: a place for a result has one sign, and the word is a whole word. -/
def IsEscape (text rest : List Char) : Prop :=
  ∃ place, (place = [] ∨ IsPlace 1 place) ∧
    (rest = [] ∨ ∃ c cs, rest = c :: cs ∧ isBlank c = true) ∧ Braced place rest text

/-- What is taken for one: with any number of signs, and whatever follows the four letters. -/
def IsTaken (text rest : List Char) : Prop :=
  ∃ place, (place = [] ∨ ∃ signs, IsPlace signs place) ∧ Braced place rest text

theorem IsEscape.taken {text rest : List Char} (h : IsEscape text rest) : IsTaken text rest := by
  obtain ⟨place, hplace, -, hbraced⟩ := h
  exact ⟨place, hplace.imp_right fun hone => ⟨1, hone⟩, hbraced⟩

/-! ## The word and what stands ahead of it -/

theorem toLower_of_isBlank {c : Char} (h : isBlank c = true) : c.toLower = c := by
  unfold Char.toLower
  split
  · next hupper =>
    have hlow : 65 ≤ c.toNat := hupper.1
    have hhigh : c.toNat ≤ 90 := hupper.2
    simp [isBlank, blankRanges] at h
    omega
  · rfl

/-- Lower case leaves blanks and signs as they are, so neither of them reads as a letter. -/
theorem letter_of_toLower {c d : Char} (h : c.toLower = d) (hblank : isBlank d = false)
    (hquestion : d ≠ '?') (hequals : d ≠ '=') : isBlank c = false ∧ c ≠ '?' ∧ c ≠ '=' := by
  refine ⟨Bool.eq_false_iff.2 fun hc => ?_, ?_, ?_⟩
  · rw [← h, toLower_of_isBlank hc, hc] at hblank
    cases hblank
  · rintro rfl
    exact hquestion (h.symm.trans (by decide))
  · rintro rfl
    exact hequals (h.symm.trans (by decide))

/-- The word has four letters, and begins and ends with one. -/
theorem IsWord.letters {word : List Char} (h : IsWord word) :
    ∃ first a b last, word = [first, a, b, last] ∧
      (isBlank first = false ∧ first ≠ '?' ∧ first ≠ '=') ∧ isBlank last = false := by
  have h : word.map Char.toLower = ['c', 'a', 'l', 'l'] := h
  obtain ⟨first, _, rfl, hfirst, h⟩ := List.map_eq_cons_iff.1 h
  obtain ⟨a, _, rfl, -, h⟩ := List.map_eq_cons_iff.1 h
  obtain ⟨b, _, rfl, -, h⟩ := List.map_eq_cons_iff.1 h
  obtain ⟨last, _, rfl, hlast, h⟩ := List.map_eq_cons_iff.1 h
  obtain rfl := List.map_eq_nil_iff.1 h
  exact ⟨first, a, b, last, rfl, letter_of_toLower hfirst (by decide) (by decide) (by decide),
    (letter_of_toLower hlast (by decide) (by decide) (by decide)).1⟩

theorem afterCall?_append {word : List Char} (h : IsWord word) (rest : List Char) :
    afterCall? (word ++ rest) = some rest := by
  obtain ⟨first, a, b, last, rfl, -⟩ := h.letters
  exact if_pos h

theorem afterCall?_eq_some {cs rest : List Char} (h : afterCall? cs = some rest) :
    ∃ word, IsWord word ∧ cs = word ++ rest := by
  unfold afterCall? at h
  split at h
  · next hword =>
    cases h
    exact ⟨cs.take 4, hword, (List.take_append_drop 4 cs).symm⟩
  · cases h

/-- Stripping a place stops in front of what begins with neither a blank nor a sign. -/
theorem withoutResult_place {signs : Nat} {place : List Char} (h : IsPlace signs place) {c : Char}
    (hblank : isBlank c = false) (hsign : c ≠ '=') (cs : List Char) :
    withoutResult (place ++ c :: cs) = c :: cs := by
  obtain ⟨gap, gap', hgap, hgap', rfl⟩ := h
  have hstop : (c :: cs).dropWhile (· = '=') = c :: cs :=
    List.dropWhile_cons_of_neg (by simp [hsign])
  have hafter : trimLeft ((gap' ++ c :: cs).dropWhile (· = '=')) = c :: cs := by
    -- either there are no blanks behind the signs, or the first of them stops the stripping
    match gap', hgap' with
    | [], _ => rw [List.nil_append, hstop, trimLeft_cons hblank]
    | blank :: gap', hgap' =>
      have hne : blank ≠ '=' := by
        rintro rfl
        exact absurd (hgap' _ List.mem_cons_self) (by decide)
      rw [List.cons_append, List.dropWhile_cons_of_neg (by simp [hne]), ← List.cons_append,
        trimLeft_gap_append hgap', trimLeft_cons hblank]
  simp only [List.cons_append, List.append_assoc, withoutResult]
  rw [trimLeft_gap_append hgap]
  cases signs with
  | zero =>
    rw [List.replicate_zero, List.nil_append, trimLeft_gap_append hgap', trimLeft_cons hblank,
      hstop, trimLeft_cons hblank]
  | succ n =>
    rw [List.replicate_succ, List.cons_append, trimLeft_cons (by decide), ← List.cons_append,
      ← List.replicate_succ, List.dropWhile_append_of_pos (by simp +contextual), hafter]

/-- A place that was stripped was one. -/
theorem withoutResult_cases (cs : List Char) :
    ∃ place, (place = [] ∨ ∃ signs, IsPlace signs place) ∧ cs = place ++ withoutResult cs := by
  unfold withoutResult
  split
  · next rest =>
    obtain ⟨gap, hgap, hrest⟩ := trimLeft_cases rest
    obtain ⟨gap', hgap', hbehind⟩ := trimLeft_cases ((trimLeft rest).dropWhile (· = '='))
    have hsigns : (trimLeft rest).takeWhile (· = '=') =
        List.replicate ((trimLeft rest).takeWhile (· = '=')).length '=' :=
      List.eq_replicate_of_mem fun c hc => by simpa using List.mem_takeWhile_imp hc
    refine ⟨'?' :: (gap ++ (trimLeft rest).takeWhile (· = '=') ++ gap'),
      .inr ⟨_, gap, gap', hgap, hgap', by rw [← hsigns]⟩, ?_⟩
    rw [List.cons_append, List.append_assoc, ← hbehind, List.append_assoc,
      List.takeWhile_append_dropWhile, ← hrest]
  · exact ⟨[], .inl rfl, rfl⟩

/-! ## Taking a text apart -/

/-- What is taken for the text behind the word, if the text is taken for a call. -/
def called? (text : List Char) : Option (List Char) :=
  (inner? text).bind fun inner => afterCall? (withoutResult inner)

theorem inner?_braces (body : List Char) : inner? ('{' :: body ++ ['}']) = some (trim body) := by
  simp [inner?]

theorem inner?_eq_some {text inner : List Char} (h : inner? text = some inner) :
    ∃ body, text = '{' :: body ++ ['}'] ∧ inner = trim body := by
  unfold inner? at h
  split at h
  · next rest =>
    split at h
    · next hlast =>
      cases h
      obtain ⟨body, rfl⟩ := List.getLast?_eq_some_iff.1 hlast
      exact ⟨body, rfl, by rw [List.dropLast_concat]⟩
    · cases h
  · cases h

/-- Between the blanks and the rest, nothing is lost and nothing is left. -/
theorem afterCall?_place {place word : List Char}
    (hplace : place = [] ∨ ∃ signs, IsPlace signs place) (hword : IsWord word) (rest : List Char) :
    afterCall? (withoutResult (place ++ (word ++ rest))) = some rest := by
  have hstripped : withoutResult (place ++ (word ++ rest)) = word ++ rest := by
    obtain ⟨first, a, b, last, rfl, ⟨hblank, hquestion, hsign⟩, -⟩ := hword.letters
    rcases hplace with rfl | ⟨signs, hplace⟩
    · simp only [List.nil_append, List.cons_append, withoutResult]
      split
      · next heq => exact absurd (List.cons.inj heq).1 hquestion
      · rfl
    · exact withoutResult_place hplace hblank hsign _
  rw [hstripped, afterCall?_append hword]

theorem trimLeft_place {place word : List Char}
    (hplace : place = [] ∨ ∃ signs, IsPlace signs place) (hword : IsWord word) (rest : List Char) :
    trimLeft (place ++ (word ++ rest)) = place ++ (word ++ rest) := by
  obtain ⟨first, a, b, last, rfl, ⟨hblank, -⟩, -⟩ := hword.letters
  rcases hplace with rfl | ⟨signs, gap, gap', -, -, rfl⟩
  · exact trimLeft_cons hblank _
  · exact trimLeft_cons (by decide) _

theorem called?_of_taken {text rest : List Char} (h : IsTaken text rest) :
    called? text = some (trimRight rest) := by
  obtain ⟨place, hplace, gap, word, hgap, hword, rfl⟩ := h
  have hcut : trim (gap ++ (place ++ (word ++ rest))) = place ++ (word ++ trimRight rest) := by
    obtain ⟨first, a, b, last, hletters, -, hlast⟩ := hword.letters
    have hends := trimRight_append_cons (place ++ [first, a, b]) hlast rest
    rw [trim, trimLeft_gap_append hgap, trimLeft_place hplace hword]
    simpa [hletters] using hends
  rw [called?, inner?_braces, hcut]
  exact afterCall?_place hplace hword _

theorem taken_of_called? {text rest : List Char} (h : called? text = some rest) :
    ∃ gap, IsGap gap ∧ IsTaken text (rest ++ gap) := by
  obtain ⟨inner, hinner, hafter⟩ := Option.bind_eq_some_iff.1 h
  obtain ⟨body, rfl, rfl⟩ := inner?_eq_some hinner
  obtain ⟨front, hfront, hbody⟩ := trimLeft_cases body
  obtain ⟨back, hback, hkept⟩ := trimRight_cases (trimLeft body)
  obtain ⟨place, hplace, hplaced⟩ := withoutResult_cases (trim body)
  obtain ⟨word, hword, hstripped⟩ := afterCall?_eq_some hafter
  refine ⟨back, hback, place, hplace, front, word, hfront, hword, ?_⟩
  have hwhole : trim body ++ back = trimLeft body := hkept.symm
  rw [hplaced, hstripped] at hwhole
  rw [hbody, ← hwhole]
  simp

/-- A text is taken for a call in one way only. -/
theorem IsTaken.unique {text rest rest' : List Char} (h : IsTaken text rest)
    (h' : IsTaken text rest') : rest = rest' := by
  obtain ⟨place, hplace, gap, word, hgap, hword, rfl⟩ := h
  obtain ⟨place', hplace', gap', word', hgap', hword', htext⟩ := h'
  have hbody : gap ++ (place ++ (word ++ rest)) = gap' ++ (place' ++ (word' ++ rest')) :=
    List.append_cancel_right (List.cons.inj htext).2
  have hcut := congrArg trimLeft hbody
  rw [trimLeft_gap_append hgap, trimLeft_gap_append hgap', trimLeft_place hplace hword,
    trimLeft_place hplace' hword'] at hcut
  have hafter := congrArg (fun cs => afterCall? (withoutResult cs)) hcut
  simpa only [afterCall?_place hplace hword, afterCall?_place hplace' hword', Option.some.injEq]
    using hafter

/-! ## What the query becomes -/

/-- How a call should become a query: an escape becomes a query of what is called, and any other
text is trimmed. -/
def Rewrites (sql result : String) : Prop :=
  (∀ rest, IsEscape (trim sql.toList) rest →
      result = "select * from " ++ String.ofList (trim rest)) ∧
    ((∀ rest, ¬IsEscape (trim sql.toList) rest) → result = String.ofList (trim sql.toList))

theorem toQuery_of_taken {sql : String} {rest : List Char} (h : IsTaken (trim sql.toList) rest) :
    toQuery sql = "select * from " ++ String.ofList (trim rest) := by
  have hcalled := called?_of_taken h
  unfold called? at hcalled
  simp only [toQuery, hcalled, trim_trimRight]

theorem toQuery_of_not_taken {sql : String} (h : ∀ rest, ¬IsTaken (trim sql.toList) rest) :
    toQuery sql = String.ofList (trim sql.toList) := by
  have hcalled : called? (trim sql.toList) = none := by
    refine Option.eq_none_iff_forall_ne_some.2 fun rest hrest => ?_
    obtain ⟨gap, -, htaken⟩ := taken_of_called? hrest
    exact h _ htaken
  unfold called? at hcalled
  simp only [toQuery, hcalled]

/-- A text in braces is no query of a call. -/
theorem IsTaken.ne_query {text rest : List Char} (h : IsTaken text rest) (called : String) :
    String.ofList text ≠ "select * from " ++ called := by
  obtain ⟨place, -, gap, word, -, -, rfl⟩ := h
  intro heq
  simpa using congrArg (fun s => s.toList.head?) heq

/-- A query in which something is taken for an escape that is none is not rewritten as it should. -/
theorem not_rewrites {sql : String} {rest : List Char} (h : IsTaken (trim sql.toList) rest)
    (hnot : ¬IsEscape (trim sql.toList) rest) : ¬Rewrites sql (toQuery sql) := by
  intro hrewrites
  have hnone : ∀ rest', ¬IsEscape (trim sql.toList) rest' := by
    intro rest' hescape
    obtain rfl := h.unique hescape.taken
    exact hnot hescape
  exact h.ne_query _ ((hrewrites.2 hnone).symm.trans (toQuery_of_taken h))

/-- Every text that is taken for a call becomes a query of what follows the word, and every other
text is trimmed; this is the rewriting of call escapes exactly where nothing is taken for one that
is none. -/
theorem toQuery_exact (sql : String) :
    (∀ rest, IsTaken (trim sql.toList) rest →
        toQuery sql = "select * from " ++ String.ofList (trim rest)) ∧
      ((∀ rest, ¬IsTaken (trim sql.toList) rest) → toQuery sql = String.ofList (trim sql.toList)) ∧
      (Rewrites sql (toQuery sql) ↔
        ∀ rest, IsTaken (trim sql.toList) rest → IsEscape (trim sql.toList) rest) := by
  refine ⟨fun rest => toQuery_of_taken, toQuery_of_not_taken, fun h rest htaken => ?_, fun h => ?_⟩
  · by_contra hnot
    exact not_rewrites htaken hnot h
  · refine ⟨fun rest hescape => toQuery_of_taken hescape.taken, fun hnone => ?_⟩
    exact toQuery_of_not_taken fun rest htaken => hnone rest (h rest htaken)

/-- A longer word is taken for the shorter one that it begins like. -/
theorem toQuery_longer_word : ¬Rewrites "{callable(1)}" (toQuery "{callable(1)}") := by
  have htaken : IsTaken (trim "{callable(1)}".toList) "able(1)".toList :=
    ⟨[], .inl rfl, [], "call".toList, nofun, rfl, by decide⟩
  refine not_rewrites htaken fun ⟨_, _, hwhole, _⟩ => ?_
  rcases hwhole with hnil | ⟨c, cs, hcons, hblank⟩
  · exact absurd hnil (by decide)
  · rw [← (List.cons.inj hcons).1] at hblank
    exact absurd hblank (by decide)

end CallEscape

end PgClient
