import PgClient.Proofs.Binding
import PgClient.Proofs.Outgoing

/-!
# No statement is left behind, and none is closed twice

A statement the server has prepared takes up its memory until it is closed, so
every name it knows has to be somewhere: with a statement, waiting to be closed,
or in a Close. It must not be in two of these places either, since a name that
is closed while a statement still has it, or closed twice, is an error the next
run meets. Both follow from the books of a run. That a Close which was put
together is never lost, even if the call that put it together failed, is a
matter of the buffer, and is said in octets.
-/

namespace PgClient.World

/-- The names that statements have, whether they are in use or rest in the
cache. -/
def statementNames (w : World) : List String :=
  (w.handles.map Handle.statement).filterMap Statement.name

/-- Where the names are: each one the server has is in one place, and those that
were given up are closed in their turn and only once. -/
structure Accounted (forgets : Bool) (w : World) : Prop where
  numbered : w.ids.Nodup
  placed : w.isStuck = false → ∀ name, Live forgets w.log name →
    (w.statementNames ++ w.session.pendingClose ++ closedNames w.log).count name = 1
  once : (closedNames w.log).Nodup
  queued : w.queued.Nodup
  order : (closedNames w.log ++ w.session.pendingClose).Sublist w.queued

theorem Sound.accounted {f : Bool} {w : World} (hw : w.Sound f) : w.Accounted f := by
  obtain ⟨held, -, hbooks⟩ := hw.books
  have hqueued : w.queued.Nodup := (List.nodup_append.1 hbooks.unique).2.1
  refine ⟨hw.numbered.nodup, fun hstuck name hlive => ?_, ?_, hqueued, hbooks.order⟩
  · have hnames : (w.books (holdings w.handles)).heldNames = w.statementNames :=
      holdings_names w.handles
    rw [← hnames]
    exact (hw.current hstuck).count hlive
  · exact hqueued.sublist ((List.sublist_append_left _ _).trans hbooks.order)

theorem run_append (w : World) (operations more : List Operation) :
    w.run (operations ++ more) = (w.run operations).run more :=
  List.foldl_append

/-- In a run every name of the server is accounted for at any moment between two
calls, and as long as the session is open every Close is on its way, ahead of
whatever is sent later. -/
theorem names_accounted {s : Session} (hs : s.IsFresh) (operations more : List Operation)
    (honce : AnswersOnce ((start s).run (operations ++ more)).log) :
    ((start s).run operations).Accounted s.forgetsOnDrop ∧
      (((start s).run (operations ++ more)).session.isClosed = false →
        ∃ written buffered written' buffered',
          ((start s).run operations).Shipped s.channel.socket.sent written buffered ∧
          ((start s).run (operations ++ more)).Shipped s.channel.socket.sent written' buffered' ∧
          written <+: written' ∧ written ++ buffered <+: written' ++ buffered') := by
  rw [run_append] at honce ⊢
  have honce' := once_of_run honce
  have hfresh := fresh_sound hs
  have hsound := run_sound hfresh operations honce'
  refine ⟨hsound.accounted, fun hopen => ?_⟩
  have hnothing : (start s).Shipped s.channel.socket.sent [] [] :=
    ⟨List.forall_mem_nil _, List.forall_mem_nil _, (List.append_nil _).symm, hs.outgoing, rfl⟩
  obtain ⟨written, buffered, hshipped, -, -⟩ :=
    run_shipped hfresh hnothing operations honce' (run_open hsound more honce hopen)
  obtain ⟨written', buffered', hshipped', hwritten, hall⟩ :=
    run_shipped hsound hshipped more honce hopen
  exact ⟨written, buffered, written', buffered', hshipped, hshipped', hwritten, hall⟩

/-- The replies to two statements that are prepared, and to one that is run again
behind the Close of the other. -/
def displacedReplies : List (List WireMessage) :=
  [[.parseComplete, .bindComplete, .commandComplete (Utf8.encode "SELECT 0")],
    [.parseComplete, .bindComplete, .commandComplete (Utf8.encode "SELECT 0")],
    [.closeComplete, .bindComplete, .commandComplete (Utf8.encode "SELECT 0")]]

/-- Two statements of one text are run and handed back, and the second one takes
the place of the first. -/
def displacedRun : List Operation :=
  [.create (.parameterized "SELECT"), .create (.parameterized "SELECT"), .execute 0 [],
    .execute 1 [], .release 0, .release 1]

/-- The one that stayed is run again. -/
def displacedRest : List Operation :=
  [.borrow (.parameterized "SELECT"), .execute 1 []]

theorem names_accounted_displaced :
    (((start (sampleSession displacedReplies)).run displacedRun).statementNames = ["S_2"] ∧
      ((start (sampleSession displacedReplies)).run displacedRun).session.pendingClose = ["S_1"] ∧
      closedNames ((start (sampleSession displacedReplies)).run
        (displacedRun ++ displacedRest)).log = ["S_1"]) ∧
    ((start (sampleSession displacedReplies)).run displacedRun).Accounted true ∧
    ∃ written buffered written' buffered',
      ((start (sampleSession displacedReplies)).run displacedRun).Shipped [] written buffered ∧
      ((start (sampleSession displacedReplies)).run (displacedRun ++ displacedRest)).Shipped []
        written' buffered' ∧
      written <+: written' ∧ written ++ buffered <+: written' ++ buffered' := by
  have haccounted := names_accounted (sampleSession_isFresh displacedReplies) displacedRun
    displacedRest (by unfold AnswersOnce; decide +kernel)
  exact ⟨by decide +kernel, haccounted.1, haccounted.2 (by decide +kernel)⟩

end PgClient.World
