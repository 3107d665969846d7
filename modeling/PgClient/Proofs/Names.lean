import PgClient.Proofs.Cache
import PgClient.Proofs.Frontend
import PgClient.Proofs.Run

/-!
# Where a name can be

A name that the server has prepared a statement under is a debt: someone has to
hold it, or it has to be closed. `Books` lists the places a name can be, and
`Sound` says what is always true of them. Only a few things ever happen to the
books, and each of the lemmas below is one of them: something is sent, or told
besides, a Parse is acknowledged, a name is given up or forgotten, and
everything is dropped. Whatever a session does is put together from these.

That a name is in no more than one place follows from `unique` and `order`
alone, and that it is in one at all is `live`. The epoch carries the second of
these across the moment at which the server drops everything: a statement of an
earlier epoch still holds its name, but nobody counts on it any more.
-/

namespace PgClient

/-! ## Names -/

/-- The names that were handed out by the time the next one has this number. -/
def Issued (nextName : Nat) (name : String) : Prop :=
  ∃ n < nextName, name = s!"S_{n}"

theorem toList_freshName (n : Nat) : (s!"S_{n}").toList = 'S' :: '_' :: Nat.toDigits 10 n := by
  rw [String.toList_append]
  exact congrArg ('S' :: '_' :: ·) Nat.toList_repr

theorem freshName_inj {n k : Nat} (h : s!"S_{n}" = s!"S_{k}") : n = k := by
  have hdigits : Nat.toDigits 10 n = Nat.toDigits 10 k := by
    have := congrArg String.toList h
    rw [toList_freshName, toList_freshName] at this
    exact List.tail_eq_of_cons_eq (List.tail_eq_of_cons_eq this)
  rw [← Nat.ofDigitChars_ten_toDigits (n := n), hdigits, Nat.ofDigitChars_ten_toDigits]

theorem Issued.mono {n n' : Nat} {name : String} (h : Issued n name) (hle : n ≤ n') :
    Issued n' name := by
  obtain ⟨k, hk, rfl⟩ := h
  exact ⟨k, by omega, rfl⟩

theorem Issued.ne_fresh {n : Nat} {name : String} (h : Issued n name) : name ≠ s!"S_{n}" := by
  obtain ⟨k, hk, rfl⟩ := h
  exact fun heq => absurd (freshName_inj heq) (by omega)

theorem Issued.zero_free {n : Nat} {name : String} (h : Issued n name) :
    '\x00' ∉ name.toList := by
  obtain ⟨k, -, rfl⟩ := h
  rw [toList_freshName]
  intro hmem
  rcases List.mem_cons.1 hmem with h0 | hmem
  · cases h0
  · rcases List.mem_cons.1 hmem with h0 | hmem
    · cases h0
    · exact absurd (Nat.isDigit_of_mem_toDigits (by decide) (by decide) hmem) (by decide)

/-! ## The log -/

theorem mem_parsedNames {log : List Entry} {name : String} :
    name ∈ parsedNames log ↔ name ≠ "" ∧ ∃ p ∈ log, ∃ sql, p.parse? = some (name, sql) := by
  unfold parsedNames
  rw [List.mem_filterMap]
  constructor
  · rintro ⟨p, hp, hname⟩
    obtain ⟨hmap, hne⟩ := Option.filter_eq_some_iff.1 hname
    obtain ⟨⟨_, sql⟩, hparse, rfl⟩ := Option.map_eq_some_iff.1 hmap
    exact ⟨by simpa using hne, p, hp, sql, hparse⟩
  · rintro ⟨hne, p, hp, sql, hparse⟩
    exact ⟨p, hp, by rw [hparse]; simpa using hne⟩

theorem parsedNames_append (log es : List Entry) :
    parsedNames (log ++ es) = parsedNames log ++ parsedNames es :=
  List.filterMap_append

theorem closedNames_append (log es : List Entry) :
    closedNames (log ++ es) = closedNames log ++ closedNames es :=
  List.filterMap_append

/-- An event that is a message of the server or an aside is no message of the
client that has to do with names. -/
theorem Entry.mute {e : Entry} (h : e.event.isAside = true ∨ e.event.message?.isSome = true) :
    e.parse? = none ∧ e.close? = none ∧ e.bind? = none := by
  unfold Entry.parse? Entry.close? Entry.bind?
  cases hevent : e.event with
  | sending m =>
      rw [hevent] at h
      cases m with
      | parse | bind | close => rcases h with h | h <;> cases h
      | _ => exact ⟨rfl, rfl, rfl⟩
  | _ => exact ⟨rfl, rfl, rfl⟩

theorem append_mute {e : Entry} (h : e.event.isAside = true ∨ e.event.message?.isSome = true)
    (log : List Entry) : parsedNames (log ++ [e]) = parsedNames log ∧
      closedNames (log ++ [e]) = closedNames log := by
  obtain ⟨hparse, hclose, -⟩ := Entry.mute h
  constructor
  · rw [parsedNames_append]
    simp [parsedNames, hparse]
  · rw [closedNames_append]
    simp [closedNames, hclose]

/-- An element of two lists put together is one of the first or one of the
second. -/
theorem append_cases {α : Type} {xs ys before after : List α} {x : α}
    (h : xs ++ ys = before ++ x :: after) :
    (∃ mid, xs = before ++ x :: mid ∧ after = mid ++ ys) ∨
      ∃ mid, before = xs ++ mid ∧ ys = mid ++ x :: after := by
  rcases List.append_eq_append_iff.1 h with ⟨mid, hbefore, hys⟩ | ⟨mid, hxs, hafter⟩
  · exact .inr ⟨mid, hbefore, hys⟩
  · cases mid with
    | nil => exact .inr ⟨[], by rw [hxs, List.append_nil, List.append_nil], hafter.symm⟩
    | cons y mid =>
        cases hafter
        exact .inl ⟨mid, hxs, rfl⟩

theorem Prepared.append {log since : List Entry} {id : Option Nat} {name sql : String}
    (h : Prepared log id name sql since) (es : List Entry) :
    Prepared (log ++ es) id name sql (since ++ es) := by
  obtain ⟨earlier, ack, rfl, hack, hid, hparse⟩ := h
  exact ⟨earlier, ack, by simp, hack, hid, hparse⟩

theorem Prepared.mem {log since : List Entry} {id : Option Nat} {name sql : String}
    (h : Prepared log id name sql since) {e : Entry} (he : e ∈ since) : e ∈ log := by
  obtain ⟨earlier, ack, rfl, -⟩ := h
  exact List.mem_append_right _ (List.mem_cons_of_mem _ he)

/-- What is live was live before, as long as no Parse was acknowledged since. -/
theorem Live.before {f : Bool} {log es : List Entry} {name : String} (h : Live f (log ++ es) name)
    (hes : ∀ e ∈ es, e.isParseComplete = false) :
    Live f log name ∧ (f = true → ∀ e ∈ es, e.drops = false) := by
  obtain ⟨hne, id, sql, since, ⟨earlier, ack, hsplit, hack, hid, hparse⟩, hkept⟩ := h
  rcases append_cases hsplit with ⟨mid, rfl, rfl⟩ | ⟨mid, -, rfl⟩
  · exact ⟨⟨hne, id, sql, mid, ⟨earlier, ack, rfl, hack, hid, hparse⟩,
      fun hf e he => hkept hf e (List.mem_append_left _ he)⟩,
      fun hf e he => hkept hf e (List.mem_append_right _ he)⟩
  · rw [hes ack (List.mem_append_right _ List.mem_cons_self)] at hack
    cases hack

/-- What is live after one more entry was live before it, or that entry acknowledges the Parse. -/
theorem Live.of_append {f : Bool} {log : List Entry} {e : Entry} {name : String}
    (h : Live f (log ++ [e]) name) : Live f log name ∨
      name ≠ "" ∧ ∃ p ∈ log, p.turn = e.turn ∧ ∃ sql, p.parse? = some (name, sql) := by
  obtain ⟨hne, id, sql, since, ⟨earlier, ack, hsplit, hack, hid, p, hp, hturn, hparse⟩, hkept⟩ := h
  rcases append_cases hsplit with ⟨mid, rfl, rfl⟩ | ⟨mid, rfl, hes⟩
  · exact .inl ⟨hne, id, sql, mid, ⟨earlier, ack, rfl, hack, hid, p, hp, hturn, hparse⟩,
      fun hf x hx => hkept hf x (List.mem_append_left _ hx)⟩
  · cases mid with
    | nil =>
        cases hes
        exact .inr ⟨hne, p, by simpa using hp, hturn, sql, hparse⟩
    | cons y mid => simp at hes

/-! ## The books -/

/-- A name that a statement has, with the text and the epoch it was prepared
with. -/
structure Holding where
  id : Nat
  native : String
  name : String
  epoch : Nat

/-- What a statement holds, if it has a name. -/
def Handle.holding? (h : Handle) : Option Holding :=
  h.statement.name.map fun name =>
    { id := h.id, native := h.statement.native, name, epoch := h.statement.epoch }

def holdings (hs : List Handle) : List Holding :=
  hs.filterMap Handle.holding?

/-- Everything there is to say about names. -/
structure Books where
  held : List Holding
  waiting : List String
  queued : List String
  epoch : Nat
  nextName : Nat
  log : List Entry

namespace Books

/-- The names that statements hold. -/
def heldNames (b : Books) : List String :=
  b.held.map Holding.name

/-- What is always true of the books. `f` is whether the client takes the server
at its word that it dropped everything. -/
structure Sound (f : Bool) (b : Books) : Prop where
  unique : (b.heldNames ++ b.queued).Nodup
  order : (closedNames b.log ++ b.waiting).Sublist b.queued
  issued : ∀ name, name ∈ b.heldNames ∨ name ∈ b.queued ∨ name ∈ parsedNames b.log →
    Issued b.nextName name
  parses : (parsedNames b.log).Nodup
  backed : ∀ h ∈ b.held, h.epoch ≤ b.epoch ∧ ∃ since,
    Prepared b.log (some h.id) h.name h.native since ∧
      (h.epoch = b.epoch → f = true → ∀ e ∈ since, e.drops = false)
  live : ∀ name, Live f b.log name → (∃ h ∈ b.held, h.name = name ∧ h.epoch = b.epoch) ∨
    name ∈ closedNames b.log ++ b.waiting
  binds : f = true → ∀ before e after name, b.log = before ++ e :: after →
    e.bind? = some name → name ≠ "" → Valid before e name

variable {f : Bool} {b : Books}

theorem Sound.perm (hs : Sound f b) {held : List Holding} (hheld : b.held.Perm held) :
    Sound f { b with held } := by
  have hmem : ∀ {h}, h ∈ held → h ∈ b.held := fun hh => hheld.mem_iff.2 hh
  have hnames : b.heldNames.Perm (held.map Holding.name) := hheld.map _
  refine ⟨((hnames.append_right _).nodup_iff).1 hs.unique, hs.order, fun name hname => ?_,
    hs.parses, fun h hh => hs.backed h (hmem hh), fun name hlive => ?_, hs.binds⟩
  · exact hs.issued name (hname.imp_left hnames.mem_iff.2)
  · refine (hs.live name hlive).imp_left ?_
    rintro ⟨h, hh, hname⟩
    exact ⟨h, hheld.mem_iff.1 hh, hname⟩

/-- What is held stays backed until everything is dropped. -/
theorem Sound.backed_append (hs : Sound f b) {h : Holding} (hh : h ∈ b.held) {es : List Entry}
    (hquiet : f = true → ∀ e ∈ es, e.drops = false) : h.epoch ≤ b.epoch ∧ ∃ since,
      Prepared (b.log ++ es) (some h.id) h.name h.native since ∧
        (h.epoch = b.epoch → f = true → ∀ e ∈ since, e.drops = false) := by
  obtain ⟨hepoch, since, hprepared, hkept⟩ := hs.backed h hh
  refine ⟨hepoch, since ++ es, hprepared.append es, fun hnow hf e he => ?_⟩
  rcases List.mem_append.1 he with he | he
  · exact hkept hnow hf e he
  · exact hquiet hf e he

/-- The names that are bound were bound before something that binds none. -/
theorem Sound.binds_mute (hs : Sound f b) {e : Entry}
    (hmute : e.event.isAside = true ∨ e.event.message?.isSome = true) (hf : f = true)
    {before after : List Entry} {x : Entry} {name : String}
    (hsplit : b.log ++ [e] = before ++ x :: after) (hbind : x.bind? = some name)
    (hne : name ≠ "") : Valid before x name := by
  rcases append_cases hsplit with ⟨mid, hlog, -⟩ | ⟨mid, -, hes⟩
  · exact hs.binds hf before x mid name hlog hbind hne
  · have hmem : x ∈ [e] := hes ▸ List.mem_append_right _ List.mem_cons_self
    rw [List.mem_singleton.1 hmem, (Entry.mute hmute).2.2] at hbind
    cases hbind

/-- Messages are sent and other things told. -/
theorem Sound.told (hs : Sound f b) {es : List Entry} {waiting : List String} {nextName : Nat}
    (hquiet : ∀ e ∈ es, e.isParseComplete = false ∧ (f = true → e.drops = false))
    (hclose : closedNames es ++ waiting = b.waiting)
    (hnext : b.nextName ≤ nextName) (hparses : (parsedNames es).Nodup)
    (hfresh : ∀ name ∈ parsedNames es, name ∉ parsedNames b.log ∧ Issued nextName name)
    (hbinds : f = true → ∀ before e after name, es = before ++ e :: after →
      e.bind? = some name → name ≠ "" → Valid (b.log ++ before) e name) :
    Sound f { b with waiting, nextName, log := b.log ++ es } := by
  have hplaces : closedNames (b.log ++ es) ++ waiting = closedNames b.log ++ b.waiting := by
    rw [closedNames_append, List.append_assoc, hclose]
  refine ⟨hs.unique, hplaces ▸ hs.order, fun name hname => ?_, ?_,
    fun h hh => hs.backed_append hh fun hf e he => (hquiet e he).2 hf,
    fun name hlive => ?_, fun hf before e after name hsplit hbind hne => ?_⟩
  · rcases hname with hname | hname | hname
    · exact (hs.issued name (.inl hname)).mono hnext
    · exact (hs.issued name (.inr (.inl hname))).mono hnext
    · rcases List.mem_append.1 (parsedNames_append b.log es ▸ hname) with hname | hname
      · exact (hs.issued name (.inr (.inr hname))).mono hnext
      · exact (hfresh name hname).2
  · show (parsedNames (b.log ++ es)).Nodup
    rw [parsedNames_append]
    refine List.nodup_append.2 ⟨hs.parses, hparses, ?_⟩
    rintro name hold _ hnew rfl
    exact (hfresh name hnew).1 hold
  · rw [hplaces]
    exact hs.live name (hlive.before fun e he => (hquiet e he).1).1
  · rcases append_cases hsplit with ⟨mid, hlog, -⟩ | ⟨mid, rfl, hes⟩
    · exact hs.binds hf before e mid name hlog hbind hne
    · exact hbinds hf mid e after name hes hbind hne

/-- Something is told that has to do with no name. -/
theorem Sound.noted (hs : Sound f b) {e : Entry}
    (hmute : e.event.isAside = true ∨ e.event.message?.isSome = true)
    (hack : e.isParseComplete = false) (hdrops : f = true → e.drops = false) :
    Sound f { b with log := b.log ++ [e] } := by
  obtain ⟨hparse, hclose, hbind⟩ := Entry.mute hmute
  have hparses : parsedNames [e] = [] := (append_mute hmute []).1
  refine hs.told (fun x hx => ?_) ?_ (Nat.le_refl _) ?_ ?_
    fun hf before x after name hsplit hx => ?_
  · rw [List.mem_singleton.1 hx]
    exact ⟨hack, hdrops⟩
  · rw [show closedNames [e] = [] from (append_mute hmute []).2, List.nil_append]
  · rw [hparses]
    exact List.nodup_nil
  · rw [hparses]
    exact List.forall_mem_nil _
  · have hmem : x ∈ [e] := hsplit ▸ List.mem_append_right _ List.mem_cons_self
    rw [List.mem_singleton.1 hmem, hbind] at hx
    cases hx

theorem Sound.noted_all {es : List Entry} (hs : Sound f b)
    (hes : ∀ e ∈ es, (e.event.isAside = true ∨ e.event.message?.isSome = true) ∧
      e.isParseComplete = false ∧ e.drops = false) : Sound f { b with log := b.log ++ es } := by
  induction es generalizing b with
  | nil =>
      rw [List.append_nil]
      exact hs
  | cons e es ih =>
      obtain ⟨hmute, hack, hdrops⟩ := hes e List.mem_cons_self
      rw [List.append_cons]
      exact ih (hs.noted hmute hack fun _ => hdrops) fun x hx => hes x (List.mem_cons_of_mem _ hx)

/-- Names are given up to be closed. -/
theorem Sound.retired (hs : Sound f b) {gone held : List Holding}
    (hheld : b.held.Perm (gone ++ held)) :
    Sound f { b with
      held
      waiting := b.waiting ++ gone.map Holding.name
      queued := b.queued ++ gone.map Holding.name } := by
  have hnames : b.heldNames.Perm (gone.map Holding.name ++ held.map Holding.name) :=
    (hheld.map Holding.name).trans (.of_eq List.map_append)
  have hmem : ∀ {name}, name ∈ b.heldNames ↔
      name ∈ gone.map Holding.name ∨ name ∈ held.map Holding.name :=
    fun {name} => hnames.mem_iff.trans List.mem_append
  refine ⟨?_, ?_, fun name hname => ?_, hs.parses, fun h hh => ?_, fun name hlive => ?_, hs.binds⟩
  · have hperm : (b.heldNames ++ b.queued).Perm
        (held.map Holding.name ++ (b.queued ++ gone.map Holding.name)) := by
      refine (hnames.append_right _).trans ?_
      rw [List.append_assoc]
      exact List.perm_append_comm.trans (.of_eq (List.append_assoc _ _ _))
    exact hperm.nodup_iff.1 hs.unique
  · rw [← List.append_assoc]
    exact hs.order.append (.refl _)
  · rcases hname with hname | hname | hname
    · exact hs.issued name (.inl (hmem.2 (.inr hname)))
    · rcases List.mem_append.1 hname with hname | hname
      · exact hs.issued name (.inr (.inl hname))
      · exact hs.issued name (.inl (hmem.2 (.inl hname)))
    · exact hs.issued name (.inr (.inr hname))
  · exact hs.backed h (hheld.mem_iff.2 (List.mem_append_right _ hh))
  · rw [← List.append_assoc]
    rcases hs.live name hlive with ⟨h, hh, hname, hnow⟩ | hplace
    · rcases List.mem_append.1 (hheld.mem_iff.1 hh) with hgone | hstays
      · exact .inr (List.mem_append_right _ (hname ▸ List.mem_map_of_mem hgone))
      · exact .inl ⟨h, hstays, hname, hnow⟩
    · exact .inr (List.mem_append_left _ hplace)

/-- A statement of an earlier epoch gives up its name, which nobody counts on. -/
theorem Sound.forgotten (hs : Sound f b) {old : Holding} {held : List Holding}
    (hheld : b.held.Perm (old :: held)) (hold : old.epoch ≠ b.epoch) :
    Sound f { b with held } := by
  have hs' : Sound f { b with held := old :: held } := hs.perm hheld
  refine ⟨(List.nodup_cons.1 hs'.unique).2, hs'.order, fun name hname => ?_, hs'.parses,
    fun h hh => hs'.backed h (List.mem_cons_of_mem _ hh), fun name hlive => ?_, hs'.binds⟩
  · exact hs'.issued name (hname.imp_left (List.mem_cons_of_mem _))
  · refine (hs'.live name hlive).imp_left ?_
    rintro ⟨h, hh, hname, hnow⟩
    rcases List.mem_cons.1 hh with rfl | hh
    · exact absurd hnow hold
    · exact ⟨h, hh, hname, hnow⟩

/-- The server dropped everything: of what is held nothing is counted on, part of
it is let go, and nothing has to be closed any more. -/
theorem Sound.dropped (hs : Sound true b) {held : List Holding} (hheld : held.Sublist b.held)
    {e : Entry} (he : e.drops = true) :
    Sound true { b with
      held
      waiting := []
      epoch := b.epoch + 1
      log := b.log ++ [e] } := by
  obtain ⟨m, hm, hdrops⟩ : ∃ m, e.event.message? = some m ∧ m.drops = true :=
    (Option.any_eq_true _ _).1 he
  have hmute : e.event.isAside = true ∨ e.event.message?.isSome = true :=
    .inr (by rw [hm]; rfl)
  obtain ⟨hparses, hcloses⟩ := append_mute hmute b.log
  have hack : e.isParseComplete = false := by
    unfold Entry.isParseComplete
    rw [hm]
    cases m with
    | commandComplete => rfl
    | _ => cases hdrops
  have hnames : (held.map Holding.name).Sublist b.heldNames := hheld.map _
  refine ⟨hs.unique.sublist (hnames.append (.refl _)), ?_, fun name hname => ?_,
    hparses ▸ hs.parses, fun h hh => ?_, fun name hlive => ?_,
    fun hf before x after name hsplit hbind hne => hs.binds_mute hmute hf hsplit hbind hne⟩
  · rw [hcloses, List.append_nil]
    exact (List.sublist_append_left _ _).trans hs.order
  · rw [hparses] at hname
    exact hs.issued name (hname.imp_left fun hn => hnames.subset hn)
  · obtain ⟨hepoch, since, hprepared, -⟩ := hs.backed h (hheld.subset hh)
    have hlt : h.epoch < b.epoch + 1 := by omega
    exact ⟨Nat.le_of_lt hlt, since ++ [e], hprepared.append [e],
      fun hnow => absurd hnow (Nat.ne_of_lt hlt)⟩
  · have := (hlive.before (by simpa using hack)).2 rfl e List.mem_cons_self
    rw [he] at this
    cases this

/-- A Parse is acknowledged. `new` is what is held because of it, if the Parse
had a name. -/
theorem Sound.acknowledged (hs : Sound f b) (new : Option Holding) {e : Entry}
    (he : e.isParseComplete = true)
    (honly : ∀ p ∈ b.log, p.turn = e.turn → ∀ name sql, p.parse? = some (name, sql) →
      name ≠ "" → ∃ n ∈ new, n.name = name)
    (hnew : ∀ n ∈ new, e.runner.map Handle.id = some n.id ∧ n.epoch = b.epoch ∧
      Issued b.nextName n.name ∧ n.name ∉ b.heldNames ∧ n.name ∉ b.queued ∧
      ∃ p ∈ b.log, p.turn = e.turn ∧ p.parse? = some (n.name, n.native)) :
    Sound f { b with held := new.toList ++ b.held, log := b.log ++ [e] } := by
  have hm : e.event.message? = some .parseComplete := of_decide_eq_true he
  have hdrops : e.drops = false := by rw [Entry.drops, hm]; rfl
  have hmute : e.event.isAside = true ∨ e.event.message?.isSome = true :=
    .inr (by rw [hm]; rfl)
  obtain ⟨hparses, hcloses⟩ := append_mute hmute b.log
  have hmem : ∀ {n}, n ∈ new.toList ↔ n ∈ new := fun {n} => Option.mem_toList
  refine ⟨?_, hcloses ▸ hs.order, fun name hname => ?_, hparses ▸ hs.parses, fun h hh => ?_,
    fun name hlive => ?_,
    fun hf before x after name hsplit hbind hne => hs.binds_mute hmute hf hsplit hbind hne⟩
  · cases new with
    | none => exact hs.unique
    | some n =>
        obtain ⟨-, -, -, hheld, hqueued, -⟩ := hnew n rfl
        refine List.nodup_cons.2 ⟨fun hn => ?_, hs.unique⟩
        exact (List.mem_append.1 hn).elim hheld hqueued
  · rw [hparses] at hname
    rcases hname with hname | hname
    · obtain ⟨n, hn, rfl⟩ := List.mem_map.1 hname
      rcases List.mem_append.1 hn with hn | hn
      · exact (hnew n (hmem.1 hn)).2.2.1
      · exact hs.issued _ (.inl (List.mem_map_of_mem hn))
    · exact hs.issued name (.inr hname)
  · rcases List.mem_append.1 hh with hh | hh
    · obtain ⟨hid, hepoch, -, -, -, hparse⟩ := hnew h (hmem.1 hh)
      exact ⟨Nat.le_of_eq hepoch, [], ⟨b.log, e, rfl, he, hid, hparse⟩,
        fun _ _ => List.forall_mem_nil _⟩
    · exact hs.backed_append hh fun _ => List.forall_mem_singleton.2 hdrops
  · rw [hcloses]
    rcases hlive.of_append with hlive | ⟨hne, p, hp, hturn, sql, hparse⟩
    · refine (hs.live name hlive).imp_left ?_
      rintro ⟨h, hh, hname⟩
      exact ⟨h, List.mem_append_right _ hh, hname⟩
    · obtain ⟨n, hn, hname⟩ := honly p hp hturn name sql hparse hne
      exact .inl ⟨n, List.mem_append_left _ (hmem.2 hn), hname, (hnew n hn).2.1⟩

/-- A name that is held since the current epoch may be used, even after the names
that wait for it were closed. -/
theorem Sound.valid (hs : Sound true b) {x : Holding} (hx : x ∈ b.held)
    (hnow : x.epoch = b.epoch) {es : List Entry} (hquiet : ∀ e ∈ es, e.drops = false)
    (hcloses : closedNames es ⊆ b.waiting) {e : Entry} {h : Handle} (hrunner : e.runner = some h)
    (hid : h.id = x.id) (hnative : h.statement.native = x.native) :
    Valid (b.log ++ es) e x.name := by
  obtain ⟨-, since, hprepared, hkept⟩ := hs.backed x hx
  have hunclosed : x.name ∉ closedNames b.log ++ b.waiting := fun hplace =>
    (List.nodup_append.1 hs.unique).2.2 _ (List.mem_map_of_mem hx) _ (hs.order.subset hplace) rfl
  refine ⟨h, hrunner, .inr ⟨since ++ es, ?_, fun y hy => ?_⟩⟩
  · rw [hid, hnative]
    exact hprepared.append es
  · rcases List.mem_append.1 hy with hy | hy
    · refine ⟨fun hclose => hunclosed (List.mem_append_left _ ?_), hkept hnow rfl y hy⟩
      exact List.mem_filterMap.2 ⟨y, hprepared.mem hy, hclose⟩
    · refine ⟨fun hclose => hunclosed (List.mem_append_right _ (hcloses ?_)), hquiet y hy⟩
      exact List.mem_filterMap.2 ⟨y, hy, hclose⟩

theorem Sound.waiting_subset (hs : Sound f b) : b.waiting ⊆ b.queued :=
  ((List.sublist_append_right _ _).trans hs.order).subset

/-- Names that were given up and dropped within one call need not be
remembered. -/
theorem Sound.requeued (hs : Sound f b) {queued : List String} (hsub : queued.Sublist b.queued)
    (horder : (closedNames b.log ++ b.waiting).Sublist queued) :
    Sound f { b with queued } :=
  ⟨hs.unique.sublist (List.Sublist.append (.refl _) hsub), horder,
    fun name hname => hs.issued name (hname.imp_right (·.imp_left fun hn => hsub.subset hn)),
    hs.parses, hs.backed, hs.live, hs.binds⟩

/-- A name is in one place at most, and in one at least as long as the server has
it. -/
theorem Sound.count (hs : Sound f b) {name : String} (hlive : Live f b.log name) :
    (b.heldNames ++ b.waiting ++ closedNames b.log).count name = 1 := by
  have hplaces : (b.heldNames ++ b.waiting ++ closedNames b.log).Nodup := by
    have hperm : (b.waiting ++ closedNames b.log).Perm (closedNames b.log ++ b.waiting) :=
      List.perm_append_comm
    rw [List.append_assoc]
    refine (hperm.append_left b.heldNames).nodup_iff.2 ?_
    exact hs.unique.sublist (List.Sublist.append (.refl _) hs.order)
  refine List.count_eq_one_of_mem hplaces ?_
  rcases hs.live name hlive with ⟨h, hh, rfl, -⟩ | hplace
  · exact List.mem_append_left _ (List.mem_append_left _ (List.mem_map_of_mem hh))
  · rcases List.mem_append.1 hplace with hclosed | hwaiting
    · exact List.mem_append_right _ hclosed
    · exact List.mem_append_left _ (List.mem_append_right _ hwaiting)

end Books

end PgClient
