import PgClient.Message.Frontend
import PgClient.Proofs.Text

/-!
# What can be sent

A message is put together from strings, numbers and octets, and of these only a
string can refuse: when it holds a zero character. So a message that cannot be
put together fails in one way, which is the caller's fault and not that of the
connection, and one whose strings are free of zero characters is never refused.
-/

namespace PgClient.FrontendMessage

/-! ## Refusals -/

/-- A value that is missing is missing because of what the caller gave. -/
def Blames {α : Type} (x : Except Error α) : Prop :=
  ∀ e, x = .error e → ∃ fault, e = .statementCreation fault

theorem Blames.ok {α : Type} (a : α) : Blames (.ok a : Except Error α) :=
  nofun

theorem Blames.bind {α β : Type} {x : Except Error α} {f : α → Except Error β} (hx : Blames x)
    (hf : ∀ a, Blames (f a)) : Blames (x >>= f) := by
  cases x with
  | error e =>
      rintro _ ⟨⟩
      exact hx e rfl
  | ok a => exact hf a

theorem Blames.mapM {α β : Type} {f : α → Except Error β} (hf : ∀ a, Blames (f a)) (xs : List α) :
    Blames (xs.mapM f) := by
  induction xs with
  | nil => exact .ok []
  | cons x xs ih =>
      rw [List.mapM_cons]
      exact (hf x).bind fun _ => ih.bind fun _ => .ok _

theorem string_blames (charset : Charset) (s : String) : Blames (string charset s) := by
  unfold string
  simp only []
  split
  · rintro _ ⟨⟩
    exact ⟨_, rfl⟩
  · exact .ok _

theorem encode_blames (charset : Charset) (m : FrontendMessage) : Blames (m.encode charset) := by
  have hs := string_blames charset
  cases m with
  | startup parameters =>
      refine (Blames.mapM (fun p => ?_) parameters).bind fun _ => .ok _
      exact (string_blames _ _).bind fun _ => (string_blames _ _).bind fun _ => .ok _
  | sslRequest | cancelRequest | terminate | password | sync | flush => exact .ok _
  | cleartextPassword text => exact (string_blames _ _).bind fun _ => .ok _
  | query sql => exact (hs sql).bind fun _ => .ok _
  | parse statement sql types => exact (hs statement).bind fun _ => (hs sql).bind fun _ => .ok _
  | bind portal statement parameters =>
      exact (hs portal).bind fun _ => (hs statement).bind fun _ => .ok _
  | describe kind name => exact (hs name).bind fun _ => .ok _
  | execute portal maxRows => exact (hs portal).bind fun _ => .ok _
  | close kind name => exact (hs name).bind fun _ => .ok _

/-- Messages that can each be sent can be sent together. -/
theorem mapM_ok {α β : Type} {f : α → Except Error β} {xs : List α}
    (h : ∀ x ∈ xs, ∃ y, f x = .ok y) : ∃ ys, xs.mapM f = .ok ys := by
  induction xs with
  | nil => exact ⟨[], rfl⟩
  | cons x xs ih =>
      obtain ⟨y, hy⟩ := h x List.mem_cons_self
      obtain ⟨ys, hys⟩ := ih fun x' hx' => h x' (List.mem_cons_of_mem _ hx')
      refine ⟨y :: ys, ?_⟩
      rw [List.mapM_cons, hy, hys]
      rfl

/-- The messages that open a connection have no tag; all others have. -/
def isTagged : FrontendMessage → Bool
  | startup _ | sslRequest | cancelRequest _ => false
  | _ => true

/-! ## Strings that are never refused -/

/-- A text whose octets have no zero among them can be sent. -/
theorem string_of_zero_notMem {charset : Charset} {s : String} (h : 0 ∉ charset.encode s) :
    string charset s = .ok (charset.encode s ++ [0]) := by
  have hnone : (charset.encode s).findIdx? (· == 0) = none := by
    refine List.findIdx?_eq_none_iff.2 fun b hb => ?_
    have : b ≠ 0 := fun h0 => h (h0 ▸ hb)
    simpa using this
  unfold string
  simp only [hnone]
  rfl

/-- A text without a zero character can be sent. -/
theorem string_of_zero_free {charset : Charset} {s : String} (h : '\x00' ∉ s.toList) :
    string charset s = .ok (charset.encode s ++ [0]) :=
  string_of_zero_notMem (charset.encode_zero_free h)

/-- The strings of a message. -/
def texts : FrontendMessage → List String
  | startup parameters => parameters.flatMap fun (name, value) => [name, value]
  | cleartextPassword text => [text]
  | query sql => [sql]
  | parse statement sql _ => [statement, sql]
  | bind portal statement _ => [portal, statement]
  | describe _ name | close _ name => [name]
  | execute portal _ => [portal]
  | sslRequest | cancelRequest _ | terminate | password _ | sync | flush => []

theorem ok_of_bind {α β : Type} {x : Except Error α} {f : α → Except Error β}
    (hx : ∃ a, x = .ok a) (hf : ∀ a, ∃ b, f a = .ok b) : ∃ b, (x >>= f) = .ok b := by
  obtain ⟨a, rfl⟩ := hx
  exact hf a

/-- A message of such texts can be sent. -/
theorem encode_of_zero_free {charset : Charset} {m : FrontendMessage}
    (h : ∀ text ∈ m.texts, '\x00' ∉ text.toList) : ∃ octets, m.encode charset = .ok octets := by
  have hs : ∀ {cs : Charset} {text : String}, text ∈ m.texts →
      ∃ octets, string cs text = .ok octets :=
    fun ht => ⟨_, string_of_zero_free (h _ ht)⟩
  cases m with
  | startup parameters =>
      refine ok_of_bind (mapM_ok fun p hp => ?_) fun _ => ⟨_, rfl⟩
      have hname : p.1 ∈ (startup parameters).texts := List.mem_flatMap.2 ⟨p, hp, by simp⟩
      have hvalue : p.2 ∈ (startup parameters).texts := List.mem_flatMap.2 ⟨p, hp, by simp⟩
      exact ok_of_bind (hs hname) fun _ => ok_of_bind (hs hvalue) fun _ => ⟨_, rfl⟩
  | sslRequest | cancelRequest | terminate | password | sync | flush => exact ⟨_, rfl⟩
  | parse | bind =>
      exact ok_of_bind (hs List.mem_cons_self) fun _ =>
        ok_of_bind (hs (List.mem_cons_of_mem _ List.mem_cons_self)) fun _ => ⟨_, rfl⟩
  | cleartextPassword | query | describe | execute | close =>
      exact ok_of_bind (hs List.mem_cons_self) fun _ => ⟨_, rfl⟩

end PgClient.FrontendMessage
