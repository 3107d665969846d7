import Mathlib.Data.List.Forall2
import PgClient.Proofs.Exchange
import PgClient.Proofs.Fields
import PgClient.Session.Messages

/-!
# Versions and their numbers

A server that does not number its version is numbered by the client, from the text it reports. Two
formulas are at work: since the tenth version the second component is the minor version and has
four digits, before that it belonged to the major version and had two. Nothing else about the text
matters: what is read of it are the components of its first word (`components_of_writes`), so that
the number of a text is the number of the release that the text writes, and the order of numbers is
a fact about releases (`Release.compare_number`). It is the order of releases as long as each
component has the room its formula leaves it.

A word of 32 bits holds the number of every such release, but not of every text. `checked` takes
the products and sums one by one, each in a word of 32 bits; since none of them is greater than the
number, it fails exactly if the number itself does not fit (`checked_eq`).
-/

namespace PgClient

/-- A version: the major one and what comes below it. -/
structure Release where
  major : Nat
  minor : Nat
  patch : Nat
  deriving DecidableEq

namespace Release

/-- Component by component, the major version first. -/
def order (r q : Release) : Ordering :=
  (compare r.major q.major).then ((compare r.minor q.minor).then (compare r.patch q.patch))

/-- Each component has the room that the number leaves it. -/
def Fits (r : Release) : Prop :=
  if r.major < 10 then r.minor < 100 ∧ r.patch < 100
  else r.major ≤ 200000 ∧ r.minor < 10000 ∧ r.patch = 0

instance (r : Release) : Decidable r.Fits := by
  unfold Fits
  infer_instance

def number (r : Release) : Nat :=
  if 10 ≤ r.major then r.major * 10000 + r.minor
  else r.major * 10000 + r.minor * 100 + r.patch

/-- The release with these components. Those that are missing are zero. -/
def ofNumbers (ns : List Nat) : Release where
  major := ns[0]?.getD 0
  minor := ns[1]?.getD 0
  patch := ns[2]?.getD 0

variable {r q : Release}

theorem Fits.number_le (h : r.Fits) : r.number ≤ Decimal.int32Max := by
  have hmax : Decimal.int32Max = 2147483647 := rfl
  unfold Fits at h
  unfold number
  split at h
  · rw [if_neg (by omega)]
    omega
  · rw [if_pos (by omega)]
    omega

/-- Of two numbers with one last digit each, to whatever base, the digits before it decide first. -/
theorem compare_digits {base a a' b b' : Nat} (hb : b < base) (hb' : b' < base) :
    compare (a * base + b) (a' * base + b') = (compare a a').then (compare b b') := by
  rcases Nat.lt_trichotomy a a' with hlt | rfl | hgt
  · have hstep : (a + 1) * base ≤ a' * base := Nat.mul_le_mul_right base hlt
    rw [Nat.add_one_mul] at hstep
    rw [Nat.compare_eq_lt.2 hlt, Ordering.lt_then, Nat.compare_eq_lt]
    omega
  · rw [Nat.compare_eq_eq.2 (rfl : a = a), Ordering.eq_then]
    rcases Nat.lt_trichotomy b b' with hlt | rfl | hgt
    · rw [Nat.compare_eq_lt.2 hlt, Nat.compare_eq_lt]
      omega
    · rw [Nat.compare_eq_eq.2 rfl, Nat.compare_eq_eq.2 rfl]
    · rw [Nat.compare_eq_gt.2 hgt, Nat.compare_eq_gt]
      omega
  · have hstep : (a' + 1) * base ≤ a * base := Nat.mul_le_mul_right base hgt
    rw [Nat.add_one_mul] at hstep
    rw [Nat.compare_eq_gt.2 hgt, Ordering.gt_then, Nat.compare_eq_gt]
    omega

theorem number_lt_of_tenth (hr : r.Fits) (hrold : r.major < 10) (hqnew : ¬ q.major < 10) :
    r.number < q.number := by
  unfold Fits at hr
  unfold number
  rw [if_pos hrold] at hr
  rw [if_neg (by omega), if_pos (by omega)]
  omega

theorem compare_number (hr : r.Fits) (hq : q.Fits) :
    compare r.number q.number = r.order q := by
  unfold order
  -- on one side of the tenth version a number is positional; across, the major versions decide
  by_cases hrold : r.major < 10
  · by_cases hqold : q.major < 10
    · unfold Fits at hr hq
      rw [if_pos hrold] at hr
      rw [if_pos hqold] at hq
      have hnumber : ∀ {n : Release}, n.major < 10 →
          n.number = (n.major * 100 + n.minor) * 100 + n.patch := by
        intro n hn
        unfold number
        rw [if_neg (by omega)]
        omega
      rw [hnumber hrold, hnumber hqold, compare_digits hr.2 hq.2, compare_digits hr.1 hq.1,
        Ordering.then_assoc]
    · rw [Nat.compare_eq_lt.2 (number_lt_of_tenth hr hrold hqold),
        Nat.compare_eq_lt.2 (by omega : r.major < q.major), Ordering.lt_then]
  · by_cases hqold : q.major < 10
    · rw [Nat.compare_eq_gt.2 (number_lt_of_tenth hq hqold hrold),
        Nat.compare_eq_gt.2 (by omega : q.major < r.major), Ordering.gt_then]
    · unfold Fits at hr hq
      rw [if_neg hrold] at hr
      rw [if_neg hqold] at hq
      obtain ⟨-, hrminor, hrpatch⟩ := hr
      obtain ⟨-, hqminor, hqpatch⟩ := hq
      unfold number
      rw [if_pos (by omega), if_pos (by omega), compare_digits hrminor hqminor, hrpatch, hqpatch,
        Nat.compare_eq_eq.2 (rfl : 0 = 0), Ordering.then_eq]

theorem order_eq_eq (h : r.order q = .eq) : r = q := by
  unfold order at h
  rw [Ordering.then_eq_eq, Ordering.then_eq_eq, Nat.compare_eq_eq, Nat.compare_eq_eq,
    Nat.compare_eq_eq] at h
  obtain ⟨hmajor, hminor, hpatch⟩ := h
  cases r
  cases q
  simp_all

end Release

/-! ## What is read of a text -/

namespace Decimal

/-- The digits of a number, possibly with zeros in front. -/
def IsNumeral (n : Nat) (cs : List Char) : Prop :=
  ∃ zeros, cs = List.replicate zeros '0' ++ Nat.toDigits 10 n

variable {n : Nat} {cs : List Char}

theorem IsNumeral.isDigit (h : IsNumeral n cs) : ∀ c ∈ cs, c.isDigit = true := by
  obtain ⟨zeros, rfl⟩ := h
  intro c hc
  rcases List.mem_append.1 hc with hzero | hdigit
  · rw [List.eq_of_mem_replicate hzero]
    decide
  · exact Nat.isDigit_of_mem_toDigits (by decide) (by decide) hdigit

theorem IsNumeral.dotless (h : IsNumeral n cs) : '.' ∉ cs :=
  fun hdot => absurd (h.isDigit '.' hdot) (by decide)

theorem IsNumeral.ne_nil (h : IsNumeral n cs) : cs ≠ [] := by
  obtain ⟨zeros, rfl⟩ := h
  simp

theorem digits?_zero (h : cs ≠ []) : digits? ('0' :: cs) = digits? cs := by
  unfold digits?
  rw [List.isEmpty_eq_false_iff.2 h]
  rfl

theorem IsNumeral.digits? (h : IsNumeral n cs) : Decimal.digits? cs = some n := by
  obtain ⟨zeros, rfl⟩ := h
  induction zeros with
  | zero => exact digits?_toDigits n
  | succ zeros ih =>
      rw [List.replicate_succ, List.cons_append, digits?_zero (by simp)]
      exact ih

end Decimal

theorem isBlank_of_isDigit {c : Char} (h : c.isDigit = true) : isBlank c = false := by
  rw [Char.isDigit_iff_toNat, show '0'.toNat = 48 from rfl, show '9'.toNat = 57 from rfl] at h
  simp only [isBlank, blankRanges, List.any_cons, List.any_nil]
  simp
  omega

theorem splitAt_of_notMem {separator : Char} {cs : List Char} (h : separator ∉ cs) :
    splitAt separator cs = [cs] := by
  obtain ⟨part, parts, hsplit, hfront⟩ := splitAt_append h []
  obtain ⟨rfl, rfl⟩ := List.cons.inj (hsplit : [[]] = _)
  simpa using hfront

namespace Version

open Decimal (IsNumeral int32Max)

/-- What may stand behind the last component, up to the end of the word. -/
structure IsSuffix (cs : List Char) : Prop where
  separate : ∀ c, cs.head? = some c → c.isDigit = false
  dotless : '.' ∉ cs
  unbroken : ∀ c ∈ cs, isBlank c = false

/-- What may stand behind the word. -/
def IsRemark (cs : List Char) : Prop :=
  ∀ c, cs.head? = some c → isBlank c = true

/-- The components of a text in words. -/
def Writes (ns : List Nat) (text : String) : Prop :=
  ∃ parts suffix remark, List.Forall₂ IsNumeral ns parts ∧ IsSuffix suffix ∧ IsRemark remark ∧
    text.toList = ['.'].intercalate parts ++ suffix ++ remark

variable {n : Nat} {ns : List Nat} {numeral suffix remark word : List Char} {text : String}

theorem component?_append (hnumeral : IsNumeral n numeral) (hfits : n ≤ int32Max)
    (hsuffix : ∀ c, suffix.head? = some c → c.isDigit = false) :
    component? (numeral ++ suffix) = some n := by
  have hrest : suffix.takeWhile Char.isDigit = [] := by
    cases suffix with
    | nil => rfl
    | cons c cs => simp [hsuffix c rfl]
  unfold component?
  rw [List.takeWhile_append_of_pos hnumeral.isDigit, hrest, List.append_nil, hnumeral.digits?]
  simp [hfits]

theorem firstWord (hword : word ≠ []) (hunbroken : ∀ c ∈ word, isBlank c = false)
    (hremark : IsRemark remark) :
    (trimLeft (word ++ remark)).takeWhile (!isBlank ·) = word := by
  have htrim : trimLeft (word ++ remark) = word ++ remark := by
    cases word with
    | nil => exact absurd rfl hword
    | cons c cs => simp [trimLeft, hunbroken c]
  have hrest : remark.takeWhile (!isBlank ·) = [] := by
    cases remark with
    | nil => rfl
    | cons c cs => simp [hremark c rfl]
  rw [htrim, List.takeWhile_append_of_pos (by simpa using hunbroken), hrest, List.append_nil]

theorem intercalate_unbroken {parts : List (List Char)} (h : List.Forall₂ IsNumeral ns parts) :
    ∀ c ∈ ['.'].intercalate parts, isBlank c = false := by
  induction h with
  | nil => simp [List.intercalate]
  | cons hfirst hrest ih =>
      intro c hc
      cases hrest with
      | nil =>
          rw [List.intercalate_singleton] at hc
          exact isBlank_of_isDigit (hfirst.isDigit c hc)
      | cons =>
          rw [List.intercalate_cons_cons, List.mem_append, List.mem_append] at hc
          rcases hc with (hdigit | hdot) | hlater
          · exact isBlank_of_isDigit (hfirst.isDigit c hdigit)
          · rw [List.mem_singleton.1 hdot]
            decide
          · exact ih c hlater

theorem splitAt_intercalate {parts : List (List Char)} (h : List.Forall₂ IsNumeral ns parts)
    (hns : ns ≠ []) (hfits : ∀ n ∈ ns, n ≤ int32Max) (hsuffix : IsSuffix suffix) :
    (splitAt '.' (['.'].intercalate parts ++ suffix)).map component? = ns.map some := by
  induction h with
  | nil => exact absurd rfl hns
  | cons hfirst hrest ih =>
      have hfirstFits := hfits _ List.mem_cons_self
      cases hrest with
      | nil =>
          have hdotless := List.not_mem_append hfirst.dotless hsuffix.dotless
          rw [List.intercalate_singleton, splitAt_of_notMem hdotless]
          simp [component?_append hfirst hfirstFits hsuffix.separate]
      | cons =>
          have hnone : ∀ c, ([] : List Char).head? = some c → c.isDigit = false := by simp
          have hcomponent := component?_append hfirst hfirstFits hnone
          rw [List.append_nil] at hcomponent
          have hlater := ih (by simp) fun n hn => hfits n (List.mem_cons_of_mem _ hn)
          rw [List.intercalate_cons_cons, List.append_assoc, List.append_assoc,
            List.singleton_append, splitAt_append_cons hfirst.dotless, List.map_cons, hcomponent,
            hlater]
          rfl

/-- The components a text writes are the ones that are read. -/
theorem components_of_writes (h : Writes ns text) (hns : ns ≠ [])
    (hfits : ∀ n ∈ ns, n ≤ int32Max) : components text = ns.map some := by
  obtain ⟨parts, suffix, remark, hparts, hsuffix, hremark, htext⟩ := h
  have hword : ['.'].intercalate parts ++ suffix ≠ [] := by
    cases hparts with
    | nil => exact absurd rfl hns
    | cons hfirst hrest =>
        cases hrest with
        | nil => simp [hfirst.ne_nil]
        | cons => simp [List.intercalate_cons_cons]
  have hunbroken : ∀ c ∈ ['.'].intercalate parts ++ suffix, isBlank c = false := by
    intro c hc
    rcases List.mem_append.1 hc with hfront | hback
    · exact intercalate_unbroken hparts c hfront
    · exact hsuffix.unbroken c hback
  unfold components
  rw [htext, firstWord hword hunbroken hremark]
  exact splitAt_intercalate hparts hns hfits hsuffix

theorem componentAt_of_components (h : components text = ns.map some) (i : Nat) :
    componentAt text i = ns[i]?.getD 0 := by
  unfold componentAt
  rw [h, List.getElem?_map]
  cases ns[i]? <;> rfl

theorem number_of_components (h : components text = ns.map some) :
    number text = (Release.ofNumbers ns).number := by
  unfold number Release.number Release.ofNumbers
  rw [h, componentAt_of_components h, componentAt_of_components h]
  cases ns <;> rfl

end Version

/-- A text writes a release, at least the major version of it. -/
def Release.WrittenAs (r : Release) (text : String) : Prop :=
  ∃ ns, Version.Writes ns text ∧ r = .ofNumbers ns ∧ ns ≠ [] ∧ ns.length ≤ 3

namespace Release

theorem Fits.components_le {r : Release} (h : r.Fits) :
    r.major ≤ Decimal.int32Max ∧ r.minor ≤ Decimal.int32Max ∧ r.patch ≤ Decimal.int32Max := by
  have hmax : Decimal.int32Max = 2147483647 := rfl
  unfold Fits at h
  split at h <;> omega

theorem WrittenAs.number {r : Release} {text : String} (h : r.WrittenAs text) (hfits : r.Fits) :
    Version.number text = r.number := by
  obtain ⟨ns, hwrites, rfl, hns, hlength⟩ := h
  have hcomponents : ∀ n ∈ ns, n ≤ Decimal.int32Max := by
    obtain ⟨hmajor, hminor, hpatch⟩ := hfits.components_le
    match ns with
    | [] => simp
    | [_] => simpa [ofNumbers] using hmajor
    | [_, _] => simpa [ofNumbers] using ⟨hmajor, hminor⟩
    | [_, _, _] => simpa [ofNumbers] using ⟨hmajor, hminor, hpatch⟩
    | _ :: _ :: _ :: _ :: _ =>
        simp only [List.length_cons] at hlength
        omega
  exact Version.number_of_components (Version.components_of_writes hwrites hns hcomponents)

end Release

namespace Version

open Decimal (int32Max)

/-- The numbers of texts are compared as the releases are that the texts write. Different releases
have different numbers, and none but the release of zeros has the number zero. -/
theorem numbers_ordered {r q : Release} (hr : r.Fits) (hq : q.Fits) {text text' : String}
    (hwritten : r.WrittenAs text) (hwritten' : q.WrittenAs text') :
    ∃ n n', number? text = some n ∧ number? text' = some n' ∧ compare n n' = r.order q ∧
      (n = n' → r = q) ∧ (n = 0 → r = ⟨0, 0, 0⟩) := by
  have hnumber : number? text = some r.number := by
    unfold number?
    rw [hwritten.number hr, if_pos hr.number_le]
  have hnumber' : number? text' = some q.number := by
    unfold number?
    rw [hwritten'.number hq, if_pos hq.number_le]
  have hcompare := Release.compare_number hr hq
  refine ⟨r.number, q.number, hnumber, hnumber', hcompare, ?_, ?_⟩
  · intro hsame
    rw [hsame, Nat.compare_eq_eq.2 rfl] at hcompare
    exact Release.order_eq_eq hcompare.symm
  · intro hzero
    unfold Release.number at hzero
    cases r with
    | mk major minor patch =>
      simp only at hzero
      split at hzero <;> simp <;> omega

/-- The last release of the sixth line before the tenth version, and a beta of the tenth. -/
theorem numbers_ordered_beta :
    (Release.mk 9 6 24).Fits ∧ (Release.mk 10 0 0).Fits ∧
      (Release.mk 9 6 24).WrittenAs "9.6.24" ∧
      (Release.mk 10 0 0).WrittenAs "10beta1 (Debian 10-1)" ∧
      ∃ n n', number? "9.6.24" = some n ∧ number? "10beta1 (Debian 10-1)" = some n' ∧
        compare n n' = .lt := by
  have hr : (Release.mk 9 6 24).Fits := by decide
  have hq : (Release.mk 10 0 0).Fits := by decide
  have hwritten : (Release.mk 9 6 24).WrittenAs "9.6.24" := by
    refine ⟨[9, 6, 24], ⟨[['9'], ['6'], ['2', '4']], [], [], ?_, ?_, ?_, by decide⟩, rfl,
      by simp, by simp⟩
    · exact .cons ⟨0, rfl⟩ (.cons ⟨0, rfl⟩ (.cons ⟨0, rfl⟩ .nil))
    · exact ⟨nofun, by simp, by simp⟩
    · exact nofun
  have hwritten' : (Release.mk 10 0 0).WrittenAs "10beta1 (Debian 10-1)" := by
    refine ⟨[10], ⟨[['1', '0']], "beta1".toList, " (Debian 10-1)".toList, ?_, ?_, ?_, by decide⟩,
      rfl, by simp, by simp⟩
    · exact .cons ⟨0, rfl⟩ .nil
    · have hsolid : ("beta1".toList.all fun c => !isBlank c) = true := by decide
      refine ⟨?_, by decide, by simpa using hsolid⟩
      rintro c ⟨⟩
      decide
    · rintro c ⟨⟩
      decide
  obtain ⟨n, n', hn, hn', hcompare, -, -⟩ := numbers_ordered hr hq hwritten hwritten'
  exact ⟨hr, hq, hwritten, hwritten', n, n', hn, hn', hcompare⟩

/-! ## Numbers in words of 32 bits -/

def int32? (n : Nat) : Option Nat :=
  if n ≤ int32Max then some n else none

/-- The number of a text, each product and each sum taken in a word of 32 bits. -/
def checked (text : String) : Option Nat :=
  match (components text).head?.join with
  | none => some 0
  | some major => do
    let base ← int32? (major * 10000)
    if 10 ≤ major then int32? (base + componentAt text 1)
    else
      let minor ← int32? (componentAt text 1 * 100)
      let line ← int32? (base + minor)
      int32? (line + componentAt text 2)

/-- What comes on the way to a number and is no greater takes nothing away. -/
theorem int32?_bind {n total : Nat} {f : Nat → Option Nat} (hle : n ≤ total)
    (hrest : f n = int32? total) : (int32? n >>= f) = int32? total := by
  by_cases hfits : n ≤ int32Max
  · have hn : int32? n = some n := if_pos hfits
    rw [hn]
    exact hrest
  · have hn : int32? n = none := if_neg hfits
    have htotal : int32? total = none := if_neg (by omega)
    rw [hn, htotal]
    rfl

/-- The computation leaves the words of 32 bits exactly if the number does. -/
theorem checked_eq (text : String) : checked text = number? text := by
  show checked text = int32? (number text)
  unfold checked number
  cases (components text).head?.join with
  | none => rfl
  | some major =>
      generalize componentAt text 1 = minor
      generalize componentAt text 2 = patch
      simp only []
      by_cases hnew : 10 ≤ major
      · rw [if_pos hnew]
        refine int32?_bind (Nat.le_add_right _ _) ?_
        rw [if_pos hnew]
      · rw [if_neg hnew]
        refine int32?_bind (by omega) ?_
        rw [if_neg hnew]
        refine int32?_bind (by omega) ?_
        exact int32?_bind (by omega) rfl

theorem checked_eq_none {text : String} :
    checked text = none ↔ ∃ major, (components text).head?.join = some major ∧
      int32Max < if 10 ≤ major then major * 10000 + componentAt text 1
        else major * 10000 + componentAt text 1 * 100 + componentAt text 2 := by
  rw [checked_eq]
  unfold number? number
  cases (components text).head?.join <;> simp

/-- No version up to the last one there is room for fails, if the components below it stay under
ten million. -/
theorem checked_isSome {text : String} (hmajor : componentAt text 0 ≤ 200000)
    (hminor : componentAt text 1 < 10000000) (hpatch : componentAt text 2 < 10000000) :
    (checked text).isSome = true := by
  have hmax : int32Max = 2147483647 := rfl
  rw [Option.isSome_iff_ne_none]
  intro hnone
  obtain ⟨major, hhead, hover⟩ := checked_eq_none.1 hnone
  have hfirst : componentAt text 0 = major := by
    unfold componentAt
    rw [← List.head?_eq_getElem?, hhead]
    rfl
  rw [hfirst] at hmajor
  split at hover <;> omega

end Version

namespace Session

open Exchange Version

/-- Of a server that does not number its version, the number is the one computed from the text it
reports, if no product or sum on the way leaves the words of 32 bits. This depends on the first
three components, and no release that fits is concerned. -/
theorem versionNumber_checked {s : Session} (hunnumbered : s.serverVersionNumber = 0)
    (text : String) :
    let heard := final (onParameter "server_version" text s)
    heard.versionNumber? = (checked text).map Int.ofNat ∧
      (∀ n, checked text = some n → n = number text) ∧
      (checked text = none ↔ ∃ major, (components text).head?.join = some major ∧
        Decimal.int32Max < if 10 ≤ major then major * 10000 + componentAt text 1
          else major * 10000 + componentAt text 1 * 100 + componentAt text 2) ∧
      (componentAt text 0 ≤ 200000 → componentAt text 1 < 10000000 →
        componentAt text 2 < 10000000 → (checked text).isSome = true) := by
  intro heard
  refine ⟨?_, ?_, checked_eq_none, checked_isSome⟩
  · have hnumber : heard.serverVersionNumber = 0 := hunnumbered
    have htext : heard.serverVersion = text := rfl
    unfold versionNumber?
    rw [hnumber, htext, checked_eq]
    rfl
  · intro n hn
    rw [checked_eq] at hn
    unfold number? at hn
    split at hn
    · exact (Option.some.inj hn).symm
    · cases hn

/-- The greatest version whose number a word of 32 bits holds. -/
theorem versionNumber_checked_greatest :
    let s := Session.new { socket := {}, host := default } "postgres" "postgres" {}
    s.serverVersionNumber = 0 ∧
      (final (onParameter "server_version" "214748.3647" s)).versionNumber? =
        some 2147483647 := by
  intro s
  have hunnumbered : s.serverVersionNumber = 0 := rfl
  obtain ⟨hnumber, -⟩ := versionNumber_checked hunnumbered "214748.3647"
  refine ⟨hunnumbered, hnumber.trans ?_⟩
  decide

theorem versionNumber_overflows :
    let s := Session.new { socket := {}, host := default } "postgres" "postgres" {}
    s.serverVersionNumber = 0 ∧ checked "214748.3648" = none ∧
      (final (onParameter "server_version" "214748.3648" s)).versionNumber? = none := by
  decide

end Session

end PgClient
