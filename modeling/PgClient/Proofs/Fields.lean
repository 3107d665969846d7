import Mathlib.Data.List.Induction
import Mathlib.Data.List.Nodup
import Mathlib.Logic.Function.Basic
import PgClient.Report

/-!
# The fields of a report

The body of a report is a list of fields, a letter and a value each. Reading it goes through the
fields from the first to the last and writes each value over what its letter said before, so what
a report says of a letter is what the last field of the letter says (`ofText_body`): each step of
the reading changes what one letter says and nothing else (`ofValues_set`), and a run of steps
follows by induction.

What is read is therefore the same for all lists whose last values are the same. That settles the
order of the fields, the letters nobody knows, and the way back: `fields` writes a report out, and
however its fields are put in order, they are read as that report again.
-/

namespace PgClient

/-! ## Numbers read back -/

namespace Decimal

theorem digits?_toDigits (n : Nat) : digits? (Nat.toDigits 10 n) = some n := by
  have hdigits : (Nat.toDigits 10 n).all Char.isDigit = true :=
    List.all_eq_true.2 fun _ hc => Nat.isDigit_of_mem_toDigits (by decide) (by decide) hc
  have hvalue : (Nat.toDigits 10 n).foldl (fun n c => n * 10 + (c.toNat - '0'.toNat)) 0 = n := by
    simpa only [Nat.ofDigitChars_eq_foldl, Nat.mul_comm] using
      Nat.ofDigitChars_ten_toDigits (n := n)
  rw [digits?, hvalue, hdigits, List.isEmpty_eq_false_iff.2 Nat.toDigits_ne_nil]
  rfl

theorem nat?_toString {max n : Nat} (h : n ≤ max) : nat? max (toString n) = some n := by
  have htext : (toString n).toList = Nat.toDigits 10 n := Nat.toList_repr
  unfold nat?
  rw [htext]
  split
  · next rest hplus =>
    -- a sign is no digit
    have hdigit : Char.isDigit '+' = true :=
      Nat.isDigit_of_mem_toDigits (by decide) (by decide) (hplus ▸ List.mem_cons_self)
    exact absurd hdigit (by decide)
  · show (digits? (Nat.toDigits 10 n)).filter (· ≤ max) = some n
    rw [digits?_toDigits, Option.filter_some, if_pos (decide_eq_true h)]

end Decimal

namespace Report

/-! ## Fields -/

/-- A letter and its value. -/
abbrev Field := Char × String

/-- Each field closed by a zero character, and one more zero character behind the last. -/
def body (fields : List Field) : String :=
  String.ofList (fields.flatMap (fun field => field.1 :: field.2.toList ++ ['\x00']) ++ ['\x00'])

/-- Nothing in a field is taken for the end of it. -/
def WellFormed (fields : List Field) : Prop :=
  ∀ field ∈ fields, field.1 ≠ '\x00' ∧ '\x00' ∉ field.2.toList

instance (fields : List Field) : Decidable (WellFormed fields) :=
  inferInstanceAs (Decidable (∀ field ∈ fields, field.1 ≠ '\x00' ∧ '\x00' ∉ field.2.toList))

theorem WellFormed.perm {fields fields' : List Field} (h : WellFormed fields)
    (hperm : fields.Perm fields') : WellFormed fields' :=
  fun field hfield => h field (hperm.mem_iff.2 hfield)

/-- The value of the last field of this letter. -/
def lastValue (fields : List Field) (letter : Char) : Option String :=
  (fields.filter (·.1 = letter)).getLast?.map Prod.snd

/-- The letters a report has a place for. -/
def letters : List Char :=
  ['S', 'V', 'C', 'M', 'D', 'H', 'P', 'p', 'q', 'W', 's', 't', 'c', 'd', 'n', 'F', 'L', 'R']

/-- The report that says of each letter what `value` says of it. -/
def ofValues (value : Char → Option String) : Report where
  localizedSeverity := (value 'S').getD ""
  severity := (value 'V').getD ""
  code := (value 'C').getD ""
  message := (value 'M').getD ""
  detail := value 'D'
  hint := value 'H'
  position := (value 'P').map count
  internalPosition := (value 'p').map count
  internalQuery := value 'q'
  context := value 'W'
  schema := value 's'
  table := value 't'
  column := value 'c'
  dataType := value 'd'
  constraint := value 'n'
  file := value 'F'
  line := (value 'L').map count
  routine := value 'R'

/-- What a list of fields says: of each letter the last value, and the severity in the server's
language where the fixed word is missing or empty. -/
def ofFields (fields : List Field) : Report :=
  let said := ofValues (lastValue fields)
  { said with severity := if said.severity = "" then said.localizedSeverity else said.severity }

/-! ## What one field changes -/

theorem lastValue_concat (fields : List Field) (field : Field) :
    lastValue (fields ++ [field]) =
      Function.update (lastValue fields) field.1 (some field.2) := by
  funext letter
  by_cases h : letter = field.1
  · subst h
    simp [lastValue]
  · rw [Function.update_of_ne h]
    simp [lastValue, Ne.symm h]

theorem ofValues_congr {value value' : Char → Option String}
    (h : ∀ letter ∈ letters, value letter = value' letter) : ofValues value = ofValues value' := by
  simp (disch := decide) only [ofValues, h]

theorem set_of_unknown {letter : Char} (h : letter ∉ letters) (r : Report) (new : String) :
    r.set letter new = r := by
  unfold set
  split
  case h_19 => rfl
  all_goals exact absurd (by decide) h

/-- A field changes what its letter says and nothing else. -/
theorem ofValues_set (value : Char → Option String) (letter : Char) (new : String) :
    (ofValues value).set letter new = ofValues (Function.update value letter (some new)) := by
  by_cases hknown : letter ∈ letters
  · unfold set
    split
    case h_19 => simp_all [letters]
    all_goals rfl
  · rw [set_of_unknown hknown]
    exact ofValues_congr fun other hother =>
      (Function.update_of_ne (ne_of_mem_of_not_mem hother hknown) _ _).symm

theorem foldl_set (before fields : List Field) :
    fields.foldl (fun r field => r.set field.1 field.2) (ofValues (lastValue before)) =
      ofValues (lastValue (before ++ fields)) := by
  induction fields generalizing before with
  | nil => rw [List.append_nil]; rfl
  | cons field fields ih =>
    rw [List.foldl_cons, ofValues_set, ← lastValue_concat, ih, List.append_assoc]
    rfl

/-! ## Reading a body -/

theorem splitAt_body {fields : List Field} (h : WellFormed fields) :
    splitAt '\x00' (body fields).toList =
      fields.map (fun field => field.1 :: field.2.toList) ++ [[], []] := by
  rw [body, String.toList_ofList]
  induction fields with
  | nil => decide
  | cons field fields ih =>
    obtain ⟨hfield, hfields⟩ := List.forall_mem_cons.1 h
    have hfree : '\x00' ∉ field.1 :: field.2.toList := by
      simpa using ⟨hfield.1.symm, hfield.2⟩
    rw [List.flatMap_cons, List.append_assoc, List.append_assoc, List.singleton_append,
      splitAt_append_cons hfree, ih hfields]
    rfl

theorem ofText_fields {fields : List Field} (h : WellFormed fields) :
    ofText (body fields) = ofFields fields := by
  have hread : (splitAt '\x00' (body fields).toList).foldl add {} =
      ofValues (lastValue fields) := by
    rw [splitAt_body h, List.foldl_append, List.foldl_map]
    simp only [add, String.ofList_toList, List.foldl_cons, List.foldl_nil]
    exact foldl_set [] fields
  rw [ofText, hread, withSeverity, ofFields]
  simp only [String.isEmpty_iff]
  split <;> rfl

theorem ofFields_congr {fields fields' : List Field}
    (h : ∀ letter ∈ letters, lastValue fields letter = lastValue fields' letter) :
    ofFields fields = ofFields fields' := by
  rw [ofFields, ofFields, ofValues_congr h]

/-! ## Order -/

/-- Where each letter has one field, that field is the last of its letter. -/
theorem lastValue_eq_some {fields : List Field} (h : (fields.map Prod.fst).Nodup)
    {letter : Char} {value : String} :
    lastValue fields letter = some value ↔ (letter, value) ∈ fields := by
  induction fields using List.reverseRecOn with
  | nil => simp [lastValue]
  | append_singleton fields field ih =>
    rw [List.map_append, List.nodup_append] at h
    have hnew : ∀ other, (field.1, other) ∉ fields := fun other hother =>
      h.2.2 _ (List.mem_map_of_mem hother) _ List.mem_cons_self rfl
    rw [lastValue_concat, List.mem_append, List.mem_singleton]
    by_cases hletter : letter = field.1
    · subst hletter
      simp [hnew, Prod.ext_iff, eq_comm]
    · simp [ih h.1, Prod.ext_iff, hletter]

theorem lastValue_perm {fields fields' : List Field} (h : (fields.map Prod.fst).Nodup)
    (hperm : fields.Perm fields') : lastValue fields = lastValue fields' := by
  have h' : (fields'.map Prod.fst).Nodup := (hperm.map _).nodup_iff.1 h
  funext letter
  exact Option.ext fun value => by
    rw [lastValue_eq_some h, lastValue_eq_some h', hperm.mem_iff]

/-! ## Writing a report out -/

/-- What a report says of a letter. -/
def value (r : Report) : Char → Option String
  | 'S' => some r.localizedSeverity
  | 'V' => some r.severity
  | 'C' => some r.code
  | 'M' => some r.message
  | 'D' => r.detail
  | 'H' => r.hint
  | 'P' => r.position.map toString
  | 'p' => r.internalPosition.map toString
  | 'q' => r.internalQuery
  | 'W' => r.context
  | 's' => r.schema
  | 't' => r.table
  | 'c' => r.column
  | 'd' => r.dataType
  | 'n' => r.constraint
  | 'F' => r.file
  | 'L' => r.line.map toString
  | 'R' => r.routine
  | _ => none

/-- The fields of a report, one for each letter it says something of. -/
def fields (r : Report) : List Field :=
  letters.filterMap fun letter => (r.value letter).map (letter, ·)

/-- The counts of a report. -/
def counts (r : Report) : List Nat :=
  r.position.toList ++ r.internalPosition.toList ++ r.line.toList

theorem map_count_toString {number : Option Nat}
    (h : ∀ n ∈ number.toList, n ≤ Decimal.uint32Max) :
    (number.map toString).map count = number := by
  cases number with
  | none => rfl
  | some n =>
    simp only [Option.map_some, count, Decimal.nat?_toString (h n (by simp)), Option.getD_some]

theorem ofValues_value {r : Report} (h : ∀ n ∈ r.counts, n ≤ Decimal.uint32Max) :
    ofValues r.value = r := by
  simp only [counts, List.forall_mem_append] at h
  obtain ⟨⟨hposition, hinternal⟩, hline⟩ := h
  simp only [ofValues, value, Option.getD_some, map_count_toString hposition,
    map_count_toString hinternal, map_count_toString hline]

theorem letters_of_fields (r : Report) : (r.fields.map Prod.fst).Nodup := by
  rw [fields, List.map_filterMap, List.Nodup, List.pairwise_filterMap]
  exact (show letters.Nodup by decide).imp fun hne _ hfst _ hfst' => by
    simp only [Option.map_map, Option.map_eq_some_iff, Function.comp_apply] at hfst hfst'
    obtain ⟨_, -, rfl⟩ := hfst
    obtain ⟨_, -, rfl⟩ := hfst'
    exact hne

theorem lastValue_fields {r : Report} {letter : Char} (h : letter ∈ letters) :
    lastValue r.fields letter = r.value letter := by
  refine Option.ext fun value => ?_
  rw [lastValue_eq_some (letters_of_fields r)]
  simp [fields, h]

theorem ofFields_fields {r : Report} (hseverity : r.severity ≠ "")
    (hcounts : ∀ n ∈ r.counts, n ≤ Decimal.uint32Max) : ofFields r.fields = r := by
  have hsaid : ofValues (lastValue r.fields) = r :=
    (ofValues_congr fun _ => lastValue_fields).trans (ofValues_value hcounts)
  rw [ofFields, hsaid]
  simp only [hseverity, if_false]

/-! ## What is read -/

/-- A report says of each letter what its last field says. So it stays the same if each letter
keeps its fields in their order, if fields of different letters are put in any other, and if fields
of unknown letters are put between them; and a report that names its severity is read back from its
own fields, in whatever order they come. -/
theorem ofText_body :
    (∀ fields, WellFormed fields → ofText (body fields) = ofFields fields) ∧
    (∀ fields fields', WellFormed fields → WellFormed fields' →
      (∀ letter ∈ letters, fields.filter (·.1 = letter) = fields'.filter (·.1 = letter)) →
      ofText (body fields) = ofText (body fields')) ∧
    (∀ fields fields', WellFormed fields → (fields.map Prod.fst).Nodup → fields.Perm fields' →
      ofText (body fields) = ofText (body fields')) ∧
    (∀ before unknown after, WellFormed (before ++ unknown ++ after) →
      (∀ field ∈ unknown, field.1 ∉ letters) →
      ofText (body (before ++ unknown ++ after)) = ofText (body (before ++ after))) ∧
    (∀ r fields, r.severity ≠ "" → (∀ n ∈ r.counts, n ≤ Decimal.uint32Max) →
      WellFormed r.fields → r.fields.Perm fields → ofText (body fields) = r) := by
  -- what is read depends on the fields of each letter alone
  have hletters : ∀ fields fields', WellFormed fields → WellFormed fields' →
      (∀ letter ∈ letters, fields.filter (·.1 = letter) = fields'.filter (·.1 = letter)) →
      ofText (body fields) = ofText (body fields') := by
    intro fields fields' h h' hsame
    rw [ofText_fields h, ofText_fields h']
    exact ofFields_congr fun letter hletter => by rw [lastValue, lastValue, hsame letter hletter]
  have hperm : ∀ fields fields', WellFormed fields → (fields.map Prod.fst).Nodup →
      fields.Perm fields' → ofText (body fields) = ofText (body fields') := by
    intro fields fields' h hdistinct hperm
    rw [ofText_fields h, ofText_fields (h.perm hperm), ofFields, ofFields,
      lastValue_perm hdistinct hperm]
  refine ⟨fun fields => ofText_fields, hletters, hperm, ?_, ?_⟩
  · intro before unknown after h hunknown
    obtain ⟨hfront, hafter⟩ := List.forall_mem_append.1 h
    have hbefore := (List.forall_mem_append.1 hfront).1
    refine hletters _ _ h (List.forall_mem_append.2 ⟨hbefore, hafter⟩) fun letter hletter => ?_
    have hnone : unknown.filter (·.1 = letter) = [] := by
      refine List.filter_eq_nil_iff.2 fun field hfield heq => hunknown field hfield ?_
      rwa [of_decide_eq_true heq]
    rw [List.filter_append, List.filter_append, List.filter_append, hnone, List.append_nil]
  · intro r fields hseverity hcounts h hfields
    rw [← hperm _ _ h (letters_of_fields r) hfields, ofText_fields h]
    exact ofFields_fields hseverity hcounts

/-- A report as a server would send it, without the fixed word for its severity. -/
def sampleFields : List Field :=
  [('S', "ERROR"), ('M', "gone"), ('P', "+7"), ('L', "many"), ('M', "")]

/-- A report with a field of each kind. -/
def sampleReport : Report :=
  { localizedSeverity := "FEHLER", severity := "ERROR", code := "42601", hint := some "",
    position := some 7 }

theorem ofText_body_sample :
    ofText (body sampleFields) =
      { localizedSeverity := "ERROR", severity := "ERROR", position := some 7, line := some 0 } ∧
    ofText (body (('x', "new") :: sampleFields)) = ofText (body sampleFields) ∧
    ofText (body sampleFields.dropLast) = ofText (body sampleFields.dropLast.reverse) ∧
    ofText (body (('Z', "ERROR") :: sampleFields)) = ofText (body sampleFields) ∧
    ofText (body sampleReport.fields.reverse) = sampleReport := by
  have hunknown : ∀ letter ∈ letters, 'x' ≠ letter := by
    rintro _ hletter rfl
    exact absurd hletter (by decide)
  refine ⟨(ofText_body.1 _ (by decide)).trans (by decide), ?_, ?_, ?_, ?_⟩
  · exact ofText_body.2.1 _ _ (by decide) (by decide) fun letter hletter =>
      List.filter_cons_of_neg fun hsame => hunknown letter hletter (of_decide_eq_true hsame)
  · exact ofText_body.2.2.1 _ _ (by decide) (by decide) (List.reverse_perm _).symm
  · exact ofText_body.2.2.2.1 [] [('Z', "ERROR")] sampleFields (by decide) (by decide)
  · exact ofText_body.2.2.2.2 sampleReport _ (by decide) (by decide) (by decide)
      (List.reverse_perm _).symm

end Report

end PgClient
