import PgClient.Proofs.Custody
import PgClient.Proofs.Wire

/-!
# A statement is run under a name the server knows

Whoever runs a statement under a name relies on the server to know it: that it
was sent ahead in the same breath, or that the server said so when this very
statement ran before, and that it was neither closed nor dropped in between.
Nothing of this is checked when a request is sent. It is true because of how
names are kept, and the invariant of `Books.Sound` holds the whole history of
them.
-/

namespace PgClient.World

/-- Every Bind of a run names a statement that the server knows, and no name is
ever prepared twice. No two statements have the same number, so that the one
that ran before is indeed the one that runs. -/
theorem binds_valid {s : Session} (hs : s.IsFresh) (hforgets : s.forgetsOnDrop = true)
    (operations : List Operation)
    (honce : AnswersOnce ((start s).run operations).log) :
    (∀ before e after name,
      ((start s).run operations).log = before ++ e :: after →
        e.bind? = some name → name ≠ "" → Valid before e name) ∧
      (parsedNames ((start s).run operations).log).Nodup ∧
      ((start s).run operations).ids.Nodup := by
  have hsound := run_sound (fresh_sound hs) operations honce
  obtain ⟨held, -, hbooks⟩ := hsound.books
  exact ⟨hbooks.binds hforgets, hbooks.parses, hsound.numbered.nodup⟩

/-- A session that gives every statement a name from its first run on, and the
replies of the server to come. -/
def sampleSession (replies : List (List WireMessage)) : Session :=
  let inbound := replies.flatMap fun ms =>
    ms.flatMap WireMessage.encode ++ Session.Conversation.readyFrame 0x49
  .new { socket := { inbound }, host := { name := "localhost", port := 5432 } } "postgres"
    "postgres" { queryMode := .extendedCacheEverything }

theorem sampleSession_isFresh (replies : List (List WireMessage)) :
    (sampleSession replies).IsFresh :=
  ⟨rfl, rfl, rfl⟩

/-- The replies to a first run of a statement and to a second one. -/
def sampleReplies : List (List WireMessage) :=
  [[.parseComplete, .bindComplete, .commandComplete (Utf8.encode "SELECT 0")],
    [.bindComplete, .commandComplete (Utf8.encode "SELECT 0")]]

/-- A statement is run, rests in the cache and is run again. -/
def sampleRun : List Operation :=
  [.borrow (.parameterized "SELECT"), .execute 0 [], .release 0,
    .borrow (.parameterized "SELECT"), .execute 0 []]

theorem binds_valid_sample :
    (((start (sampleSession sampleReplies)).run sampleRun).log.filterMap Entry.bind? =
      ["S_1", "S_1"]) ∧
    (∀ before e after name,
      ((start (sampleSession sampleReplies)).run sampleRun).log = before ++ e :: after →
        e.bind? = some name → name ≠ "" → Valid before e name) ∧
      (parsedNames ((start (sampleSession sampleReplies)).run sampleRun).log).Nodup ∧
      ((start (sampleSession sampleReplies)).run sampleRun).ids.Nodup :=
  ⟨by decide +kernel, binds_valid (sampleSession_isFresh sampleReplies) rfl sampleRun
    (by unfold AnswersOnce; decide +kernel)⟩

end PgClient.World
