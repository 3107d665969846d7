import PgClient.Proofs.Announcement
import PgClient.Proofs.Utf8
import PgClient.Text.Ascii

/-!
# The settings a server reports

Settings are kept by name, and names are told apart by their octets with ASCII letters in lower case
(`parameterKey`). This is an order, and two names are equal in it exactly if they differ in nothing
but the case of ASCII letters: lower case does the same to the characters of a name and to its
octets, since the octets of any other character are no letters (`parameterKey_eq`).

So the map can be told from the reports alone. What it holds under a name is one formula over the
reports so far, with the first of that name for the spelling and the last one for the value
(`find?_received`), and a report changes it under its own name only (`find?_insert`).
-/

namespace PgClient

/-! ## Names -/

/-- The octet of an ASCII letter in lower case, every other one as it is. -/
def lowerOctet (b : UInt8) : UInt8 :=
  if 0x41 ≤ b ∧ b ≤ 0x5A then b + 0x20 else b

/-- No octet of a character beyond the first 128 is one of those. -/
theorem utf8EncodeChar_high {c : Char} (h : 0x80 ≤ c.toNat) {b : UInt8}
    (hb : b ∈ String.utf8EncodeChar c) : 0x80 ≤ b.toNat := by
  have hoctet : ∀ n, 0x80 ≤ n % 256 → 0x80 ≤ (UInt8.ofNat n).toNat := fun n hn => by
    rwa [UInt8.toNat_ofNat']
  have hvalid : c.val.toNat < 0xD800 ∨ 0xDFFF < c.val.toNat ∧ c.val.toNat < 0x110000 := c.valid
  have hnat : c.toNat = c.val.toNat := rfl
  unfold String.utf8EncodeChar at hb
  simp only [] at hb
  split at hb
  · omega
  · split at hb
    · simp only [List.mem_cons, List.not_mem_nil, or_false] at hb
      rcases hb with rfl | rfl <;> exact hoctet _ (by omega)
    · split at hb
      · simp only [List.mem_cons, List.not_mem_nil, or_false] at hb
        rcases hb with rfl | rfl | rfl <;> exact hoctet _ (by omega)
      · simp only [List.mem_cons, List.not_mem_nil, or_false] at hb
        rcases hb with rfl | rfl | rfl | rfl <;> exact hoctet _ (by omega)

theorem lowerOctet_ascii : ∀ n < 128,
    (String.utf8EncodeChar (Char.ofNat n)).map lowerOctet =
      String.utf8EncodeChar (Char.ofNat n).toLower := by
  decide

/-- Lower case is the same for a character and for its octets. -/
theorem lowerOctet_char (c : Char) :
    (String.utf8EncodeChar c).map lowerOctet = String.utf8EncodeChar c.toLower := by
  rcases Nat.lt_or_ge c.toNat 128 with hlow | hhigh
  · have hascii := lowerOctet_ascii c.toNat hlow
    rwa [Char.ofNat_toNat] at hascii
  · have hchar : c.toLower = c := by
      unfold Char.toLower
      rw [dif_neg]
      rintro ⟨-, hz⟩
      have : c.val.toNat ≤ 0x5A := UInt32.le_iff_toNat_le.1 hz
      exact absurd hhigh (by show ¬ 128 ≤ c.val.toNat; omega)
    rw [hchar]
    refine (List.map_congr_left fun b hb => ?_).trans (List.map_id _)
    have hletter : ¬ (0x41 ≤ b ∧ b ≤ 0x5A) := fun ⟨_, hz⟩ => by
      have hoctet : b.toNat ≤ 0x5A := UInt8.le_iff_toNat_le.1 hz
      exact absurd (utf8EncodeChar_high hhigh hb) (by omega)
    exact if_neg hletter

theorem parameterKey_eq (name : String) : parameterKey name = Utf8.encode (Ascii.lower name) := by
  show (name.toList.flatMap String.utf8EncodeChar).map lowerOctet = _
  rw [List.map_flatMap, Utf8.encode, Ascii.lower, String.toList_ofList, List.flatMap_map]
  exact List.flatMap_congr fun c _ => lowerOctet_char c

instance : Std.TransCmp compareParameters :=
  inferInstanceAs (Std.TransCmp (compareOn parameterKey))

/-- Names are equal if they differ in the case of ASCII letters only. -/
theorem compareParameters_eq {m n : String} :
    compareParameters m n = .eq ↔ Ascii.eqIgnoringCase m n = true := by
  unfold compareParameters Ascii.eqIgnoringCase
  rw [Std.LawfulEqCmp.compare_eq_iff_eq, parameterKey_eq, parameterKey_eq, beq_iff_eq]
  refine ⟨fun h => ?_, fun h => ?_⟩
  · exact String.ofList_injective (Utf8.encode_inj h)
  · unfold Ascii.lower
    rw [h]

theorem compare_octets_lt {a b : Bytes} : compare a b = .lt ↔ a < b := by
  induction a generalizing b with
  | nil => cases b <;> simp
  | cons x a ih =>
      cases b with
      | nil => simp
      | cons y b =>
          rw [List.compare_cons_cons, List.cons_lt_cons_iff, Ordering.then_eq_lt, ih,
            Std.compare_eq_lt, Std.LawfulEqCmp.compare_eq_iff_eq]

/-! ## The map -/

namespace Parameters

variable {name value : String} {ps : Parameters}

/-- Whether an entry is the one of a name. -/
def isFor (name : String) (p : String × String) : Bool :=
  compareParameters name p.1 == .eq

theorem isFor_eq (name : String) (p : String × String) :
    isFor name p = Ascii.eqIgnoringCase name p.1 := by
  rw [Bool.eq_iff_iff, isFor, beq_iff_eq, compareParameters_eq]

/-- Names that are equal have the same entries. -/
theorem isFor_congr {m n : String} (h : compareParameters m n = .eq) : isFor m = isFor n := by
  funext p
  unfold isFor
  rw [Std.TransCmp.congr_left h]

/-- Entries are ordered by their names, and no two names are equal. -/
def Sorted (ps : Parameters) : Prop :=
  ps.Pairwise fun p q => compareParameters p.1 q.1 = .lt

theorem sorted_cons {p : String × String} :
    Sorted (p :: ps) ↔ (∀ q ∈ ps, compareParameters p.1 q.1 = .lt) ∧ Sorted ps :=
  List.pairwise_cons

theorem find?_cons (m : String) (p : String × String) (ps : Parameters) :
    (p :: ps).find? (isFor m) =
      if compareParameters m p.1 = .eq then some p else ps.find? (isFor m) := by
  rw [List.find?_cons, isFor]
  cases compareParameters m p.1 <;> rfl

/-- A name that comes before all others has no entry. -/
theorem find?_of_lt (h : ∀ p ∈ ps, compareParameters name p.1 = .lt) :
    ps.find? (isFor name) = none := by
  refine List.find?_eq_none.2 fun p hp => ?_
  rw [isFor, h p hp]
  decide

/-- A report changes the entry of its name and no other one. The entry keeps its spelling. -/
theorem find?_insert (h : Sorted ps) (m name value : String) :
    (insert name value ps).find? (isFor m) =
      if compareParameters m name = .eq then
        some (((ps.find? (isFor name)).map Prod.fst).getD name, value)
      else ps.find? (isFor m) := by
  induction ps with
  | nil => exact find?_cons m (name, value) []
  | cons p ps ih =>
      obtain ⟨n, v⟩ := p
      obtain ⟨hfirst, hrest⟩ := sorted_cons.1 h
      unfold insert
      cases hname : compareParameters name n with
      | lt =>
          have hnone : ((n, v) :: ps).find? (isFor name) = none :=
            find?_of_lt (List.forall_mem_cons.2
              ⟨hname, fun q hq => Std.TransCmp.lt_trans hname (hfirst q hq)⟩)
          rw [hnone]
          exact find?_cons m (name, value) _
      | eq =>
          have hsame : compareParameters m n = compareParameters m name :=
            (Std.TransCmp.congr_right hname).symm
          simp only [find?_cons, hname, hsame, if_true, Option.map_some, Option.getD_some]
          split <;> rfl
      | gt =>
          have hother : compareParameters m n = .eq → compareParameters m name ≠ .eq :=
            fun hn hm => by
              rw [Std.TransCmp.congr_left hm, hname] at hn
              cases hn
          simp only [find?_cons, hname, ih hrest, reduceCtorEq, if_false]
          by_cases hn : compareParameters m n = .eq
          · rw [if_pos hn, if_pos hn, if_neg (hother hn)]
          · rw [if_neg hn, if_neg hn]

/-- Every entry after a report has the name of one before, or that of the report. -/
theorem name_of_mem_insert {q : String × String} (h : q ∈ insert name value ps) :
    q.1 = name ∨ ∃ p ∈ ps, q.1 = p.1 := by
  induction ps with
  | nil =>
      rw [List.mem_singleton.1 h]
      exact .inl rfl
  | cons p ps ih =>
      obtain ⟨n, v⟩ := p
      unfold insert at h
      split at h
      · rcases List.mem_cons.1 h with rfl | hq
        · exact .inl rfl
        · exact .inr ⟨q, hq, rfl⟩
      · rcases List.mem_cons.1 h with rfl | hq
        · exact .inr ⟨_, List.mem_cons_self, rfl⟩
        · exact .inr ⟨q, List.mem_cons_of_mem _ hq, rfl⟩
      · rcases List.mem_cons.1 h with rfl | hq
        · exact .inr ⟨_, List.mem_cons_self, rfl⟩
        · rcases ih hq with hname | ⟨p, hp, hname⟩
          · exact .inl hname
          · exact .inr ⟨p, List.mem_cons_of_mem _ hp, hname⟩

theorem sorted_insert (h : Sorted ps) (name value : String) : Sorted (insert name value ps) := by
  induction ps with
  | nil => exact List.pairwise_singleton _ _
  | cons p ps ih =>
      obtain ⟨n, v⟩ := p
      obtain ⟨hfirst, hrest⟩ := sorted_cons.1 h
      unfold insert
      cases hname : compareParameters name n with
      | lt =>
          refine sorted_cons.2 ⟨List.forall_mem_cons.2 ⟨hname, fun q hq => ?_⟩, h⟩
          exact Std.TransCmp.lt_trans hname (hfirst q hq)
      | eq => exact sorted_cons.2 ⟨hfirst, hrest⟩
      | gt =>
          refine sorted_cons.2 ⟨fun q hq => ?_, ih hrest⟩
          rcases name_of_mem_insert hq with hq | ⟨p, hp, hq⟩
          · rw [hq]
            exact Std.OrientedCmp.gt_iff_lt.1 hname
          · rw [hq]
            exact hfirst p hp

/-! ## What reports leave behind -/

/-- The map after reports, in the order they came. -/
def received (rs : List (String × String)) : Parameters :=
  rs.foldl (fun ps r => insert r.1 r.2 ps) []

theorem received_concat (rs : List (String × String)) (r : String × String) :
    received (rs ++ [r]) = insert r.1 r.2 (received rs) :=
  List.foldl_concat ..

theorem sorted_received (rs : List (String × String)) : Sorted (received rs) := by
  induction rs using List.reverseRecOn with
  | nil => exact List.Pairwise.nil
  | append_singleton rs r ih =>
      rw [received_concat]
      exact sorted_insert ih r.1 r.2

theorem find?_reverse_isSome {m : String} {rs : List (String × String)} {r : String × String}
    (h : rs.find? (isFor m) = some r) : ∃ last, rs.reverse.find? (isFor m) = some last :=
  Option.isSome_iff_exists.1 <| List.find?_isSome.2
    ⟨r, List.mem_reverse.2 (List.mem_of_find?_eq_some h), List.find?_some h⟩

/-- An entry has the spelling of the first report of its name and the value of the last one. -/
theorem find?_received (m : String) (rs : List (String × String)) :
    (received rs).find? (isFor m) = (rs.find? (isFor m)).bind fun first =>
      (rs.reverse.find? (isFor m)).map fun last => (first.1, last.2) := by
  induction rs using List.reverseRecOn generalizing m with
  | nil => rfl
  | append_singleton rs r ih =>
      rw [received_concat, find?_insert (sorted_received rs), ih, ih, List.find?_append,
        List.reverse_concat, find?_cons, find?_cons]
      -- The last report counts under its own name only, and there for the value; for the spelling
      -- only if it is the first one, too.
      by_cases hm : compareParameters m r.1 = .eq
      · rw [if_pos hm, if_pos hm, if_pos hm, isFor_congr hm]
        cases hfirst : rs.find? (isFor r.1) with
        | none => rfl
        | some first =>
            obtain ⟨last, hlast⟩ := find?_reverse_isSome hfirst
            rw [hlast]
            rfl
      · rw [if_neg hm, if_neg hm, if_neg hm]
        show _ = ((rs.find? (isFor m)).or none).bind _
        rw [Option.or_none]

/-- An entry is found under its name. -/
theorem find?_of_mem {p : String × String} (h : Sorted ps) (hp : p ∈ ps) {m : String}
    (hm : compareParameters m p.1 = .eq) : ps.find? (isFor m) = some p := by
  induction ps with
  | nil => cases hp
  | cons q ps ih =>
      obtain ⟨hfirst, hrest⟩ := sorted_cons.1 h
      rw [find?_cons]
      rcases List.mem_cons.1 hp with rfl | hp
      · rw [if_pos hm]
      · have hother : compareParameters m q.1 ≠ .eq := fun hq => by
          have hlt := hfirst p hp
          rw [← Std.TransCmp.congr_left hq, hm] at hlt
          cases hlt
        rw [if_neg hother, ih hrest hp]

/-- What a map shows of the reports it was made of. Names are the same that are equal but for the
case of ASCII letters. -/
structure Shows (rs : List (String × String)) (ps : Parameters) : Prop where
  value : ∀ name, ps.get? name =
    (rs.reverse.find? fun r => Ascii.eqIgnoringCase name r.1).map Prod.snd
  sorted : ps.Pairwise fun p q => parameterKey p.1 < parameterKey q.1
  once : ∀ r ∈ rs, ∃! p, p ∈ ps ∧ Ascii.eqIgnoringCase r.1 p.1 = true
  spelling : ∀ p ∈ ps, ∃ value,
    (rs.find? fun r => Ascii.eqIgnoringCase p.1 r.1) = some (p.1, value)

theorem received_shows (rs : List (String × String)) : Shows rs (received rs) := by
  have hisFor : ∀ name, isFor name = fun p => Ascii.eqIgnoringCase name p.1 :=
    fun name => funext (isFor_eq name)
  have hsorted := sorted_received rs
  refine ⟨fun name => ?_, ?_, fun r hr => ?_, fun p hp => ?_⟩
  · rw [← hisFor]
    show ((received rs).find? (isFor name)).map Prod.snd = _
    rw [find?_received]
    cases hfirst : rs.find? (isFor name) with
    | none =>
        have hnone : rs.reverse.find? (isFor name) = none := by
          rw [List.find?_eq_none] at hfirst ⊢
          exact fun r hr => hfirst r (List.mem_reverse.1 hr)
        rw [hnone]
        rfl
    | some first =>
        obtain ⟨last, hlast⟩ := find?_reverse_isSome hfirst
        rw [hlast]
        rfl
  · exact hsorted.imp compare_octets_lt.1
  · have hself : isFor r.1 r = true := beq_iff_eq.2 Std.ReflCmp.compare_self
    obtain ⟨first, hfirst⟩ :=
      Option.isSome_iff_exists.1 (List.find?_isSome.2 ⟨r, hr, hself⟩)
    obtain ⟨last, hlast⟩ := find?_reverse_isSome hfirst
    have hentry : (received rs).find? (isFor r.1) = some (first.1, last.2) := by
      rw [find?_received, hfirst, hlast]
      rfl
    refine ⟨_, ⟨List.mem_of_find?_eq_some hentry, ?_⟩, fun q ⟨hq, hname⟩ => ?_⟩
    · rw [← isFor_eq]
      exact List.find?_some hentry
    · have hother := find?_of_mem hsorted hq (compareParameters_eq.2 hname)
      exact Option.some.inj (hother.symm.trans hentry)
  · have hentry := find?_of_mem hsorted hp (Std.ReflCmp.compare_self (a := p.1))
    rw [find?_received] at hentry
    obtain ⟨first, hfirst, hlast⟩ := Option.bind_eq_some_iff.1 hentry
    obtain ⟨last, -, rfl⟩ := Option.map_eq_some_iff.1 hlast
    exact ⟨first.2, by rw [← hisFor, hfirst]⟩

end Parameters

/-! ## The settings of a session -/

/-- The setting a message reports. One without a name is not kept. -/
def BackendMessage.setting? : BackendMessage → Option (String × String)
  | .parameterStatus name value => if name.isEmpty then none else some (name, value)
  | _ => none

/-- Messages leave behind what the settings among them do. -/
theorem parameters_eq_received (ms : List BackendMessage) :
    ms.foldl BackendMessage.parametersAfter [] =
      Parameters.received (ms.filterMap BackendMessage.setting?) := by
  induction ms using List.reverseRecOn with
  | nil => rfl
  | append_singleton ms m ih =>
      rw [List.foldl_concat, List.filterMap_append, ih]
      cases m with
      | parameterStatus name value =>
          by_cases hname : name.isEmpty = true
          · simp [BackendMessage.parametersAfter, BackendMessage.setting?, hname]
          · simp [BackendMessage.parametersAfter, BackendMessage.setting?, hname,
              Parameters.received_concat]
      | _ => exact congrArg Parameters.received (List.append_nil _).symm

/-- Names are in an order in which those are equal that differ in the case of ASCII letters only;
and what is known of the server's settings, at any moment of a session, is what the map shows of
the settings it heard of. -/
theorem settings_shown :
    ((∀ m n, compareParameters m n = (compareParameters n m).swap) ∧
      (∀ l m n, (compareParameters l m).isLE → (compareParameters m n).isLE →
        (compareParameters l n).isLE) ∧
      ∀ m n, compareParameters m n = .eq ↔ Ascii.eqIgnoringCase m n = true) ∧
    (∀ rs : List (String × String), Parameters.Shows rs
      (rs.foldl (fun ps r => ps.insert r.1 r.2) [])) ∧
    ∀ (channel : Channel) (user database : String) (options : SessionOptions) (s : Session),
      let s₀ := Session.new channel user database options
      Session.Moment s₀ s →
        Parameters.Shows ((s₀.heard s).filterMap BackendMessage.setting?) s.parameters := by
  refine ⟨⟨fun m n => Std.OrientedCmp.eq_swap, fun l m n => Std.TransCmp.isLE_trans,
    fun m n => compareParameters_eq⟩, Parameters.received_shows, ?_⟩
  intro channel user database options s s₀ hs
  obtain ⟨ms, hlearns⟩ := hs.learns
  have hparameters : s.parameters = Parameters.received (ms.filterMap BackendMessage.setting?) := by
    rw [show s.parameters = _ from congrArg Standing.parameters hlearns.standing,
      Session.foldl_parameters]
    exact parameters_eq_received ms
  rw [hlearns.heard, hparameters]
  exact Parameters.received_shows _

/-- A time zone is reported twice while a server announces itself. -/
theorem settings_shown_timeZone :
    let report := fun name value : String => Tag.parameterStatus.octet ::
      (Bytes.int32 0 ++ Utf8.encode name ++ [0] ++ Utf8.encode value ++ [0])
    let s₀ := Session.new
      { socket := { inbound := report "TimeZone" "UTC" ++ report "timezone" "GMT" }
        host := default } "postgres" "postgres" {}
    let s := Exchange.final (Session.readAnnouncement 2 s₀)
    s₀.Moment s ∧ s.parameters.get? "TIMEZONE" = some "GMT" ∧
      (compareParameters "DateStyle" "timezone").isLE ∧
      (compareParameters "timezone" "TimeZone").isLE ∧
      (compareParameters "DateStyle" "TimeZone").isLE := by
  intro report s₀ s
  have hmoment : s₀.Moment s := .announced 2
  have hshows := settings_shown.2.2 _ _ _ _ s hmoment
  have hbefore : (compareParameters "DateStyle" "timezone").isLE := by decide
  have hsame : (compareParameters "timezone" "TimeZone").isLE := by decide
  refine ⟨hmoment, (hshows.value "TIMEZONE").trans ?_, hbefore, hsame,
    settings_shown.1.2.1 _ _ _ hbefore hsame⟩
  decide +kernel

end PgClient
