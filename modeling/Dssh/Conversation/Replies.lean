import Dssh.Conversation.Outgoing
import Dssh.Lib.ReplyLedger

/-!
# Replies to incoming requests

A request that wants a reply is given a writer ticket while its header is read, under the reader
guard, so the tickets of the replies are in the order of the requests. Handlers answer in any
order and at any time; dropping a decoded request leaves its ticket to the automatic failures,
which whoever wants to write next writes out.

## The property

The peer has requests of its own, and pairs them with our answers by their order. So it is not
enough that every request is answered: the answers have to be on the wire in the order in which
the requests were accepted, although the handlers run concurrently and finish in any order, and
although some of them are dropped without answering. `replies_in_order` says this of the wire,
not of the calls. The `k`-th reply is that of the `k`-th accepted request, it is the answer
which its handler has chosen, or the failure if it was dropped.

The statement is about a prefix. A reply that is still waiting for its turn is not on the wire,
and nothing behind it is either.

## The refinement

`Shared.ledger` reads the books of the library's `ReplyLedger` off the shared state, and
`Pc.share` says for what each task's tickets are. That every atomic operation is a step of the
books is a case analysis on `Pc.Steps`. The order of the messages on the wire comes from the
ticket queue (`started_tickets`), and the two together are the result.

I/O errors and cancellation are excluded (`Action.faultless`). Behind either, part of a message
may be on the wire, and what the peer makes of the rest is not determined.

## Main definitions

* `Shared.ledger`, `Pc.share` — the books of a conversation
* `Action.faultless` — no I/O error and no cancellation
* `RepliesInOrder` — the replies on the wire

## Main results

* `Pc.Steps.ledger` — every atomic operation is a step of the books of `ReplyLedger`
* `Conversation.started_tickets` — messages are started in the order of their tickets
* `Conversation.replies_in_order` — the replies on the wire answer the accepted requests one by
  one
-/

namespace Dssh

open ReplyLedger

namespace Conversation

variable {V : Type}

/-! ## The books of a conversation

Where the ticket of a request is, from the moment it is accepted: with the handler, with the
answer that has been chosen, in the set of automatic failures, with a task that drains it, or in
a message that has been started. The books list these, and each place of a task has its share of
them. -/

/-- The tickets of accepted requests, the answers chosen, the automatic failures, and the messages
started. -/
def Shared.ledger (sh : Shared) : ReplyLedger Answer ControlMessage where
  next := sh.writer.nextTicket
  accepted := sh.history.accepted.map Prod.fst
  chosen := sh.history.chosen
  pool := sh.autoFailures
  started := sh.history.started

/-- What an operation with writer ticket `t` is to write. -/
def WriteOp.share (t : ℕ) : WriteOp → Share Answer
  | request _ _ => { plain := [t] }
  | notification _ => { plain := [t] }
  | respond a => { answers := [(t, a)] }

/-- An automatic failure taken out of the set and not yet started. -/
def WriterWait.adopted : WriterWait → List (ℕ × Answer)
  | drainAcquire current _ => [(current, .failure)]
  | _ => []

/-- An automatic failure not yet put into the set. -/
def DropAct.autoFailure : DropAct → Option (ℕ × Answer)
  | insertAutoFailure t => some (t, .failure)
  | _ => none

/-- What the tickets are for that a task keeps while it runs drop glue. -/
def After.share : After V → Share Answer
  | finish _ => {}
  | drain op t => op.share t
  | response _ _ _ => {}
  | decoded _ w _ => { pending := [w] }

/-- What the writer tickets of a task are for. -/
def Pc.share : Pc V → Share Answer
  | pairReader _ w => { plain := [w] }
  | pairUnlock _ w _ => { plain := [w] }
  | acquireWriter op t wait =>
    { op.share t with answers := wait.adopted ++ (op.share t).answers }
  | incoming _ _ w _ => { pending := w.toList }
  | readingPayload _ _ w _ _ => { pending := w.toList }
  | decoded _ w _ => { pending := [w] }
  | unwinding acts next =>
    { next.share with answers := acts.filterMap DropAct.autoFailure ++ next.share.answers }
  | _ => {}

/-- Holding nothing is within anything. -/
theorem share_within_of_empty {h : Share Answer} : ({} : Share Answer).Within h :=
  ⟨List.nil_subset _, List.nil_subset _, List.nil_subset _⟩

/-- Accepting a request is a step of the books. -/
theorem Shared.ledger_takeReplyTicket (sh : Shared) (ty : SshString) :
    (sh.takeReplyTicket ty).ledger
      = { sh.ledger with
          next := sh.ledger.next + 1, accepted := sh.ledger.accepted ++ [sh.ledger.next] } := by
  simp [Shared.ledger, Shared.takeReplyTicket, OrderedAccess.takeTicket]

/-- The books as a conversation keeps them. -/
abbrev LedgerStep := ReplyLedger.Step ControlMessage.ofAnswer (·.isReply = true) Answer.failure

/-- And their invariant. -/
abbrev LedgerInv (L : ReplyLedger Answer ControlMessage) (share : ℕ → Share Answer) : Prop :=
  ReplyLedger.Inv ControlMessage.ofAnswer (·.isReply = true) Answer.failure L share

/-- **Refinement.** Every atomic operation is a step of the books. -/
theorem Pc.Steps.ledger {P : GlobalProtocol V} {sh sh' : Shared} {pc pc' : Pc V} {e : Event}
    (h : pc.Steps P sh e sh' pc') : LedgerStep sh.ledger pc.share sh'.ledger pc'.share := by
  cases h with
  | sendGlobalNotification => exact .take (.refl _)
  | pairWriter => exact .take (.refl _)
  | @acquireWriter op t _ _ _ _ hwait => cases hwait with
    | drainHit hmem => exact .adopt hmem (.refl _)
    | drainGranted =>
      refine .startAnswer (a := Answer.failure) List.mem_cons_self ⟨?_, ?_, ?_⟩
      · exact List.Subset.refl _
      · exact List.Subset.refl _
      · exact List.subset_cons_self _ _
    | acquireGranted => cases op with
      | request | notification =>
        exact .startPlain List.mem_cons_self (by simp [WriteOp.message, ControlMessage.isReply])
          share_within_of_empty
      | respond a => exact .startAnswer List.mem_cons_self share_within_of_empty
    | drainRefused | refused | acquireRefused | drainCancel | cancel | acquireCancel
    | drainIoError | drainWriteCancel => exact .stay share_within_of_empty
    | _ => exact .stay (.refl _)
  | requestAccepted =>
    rw [Shared.ledger_takeReplyTicket]
    exact .accept (.refl _)
  | respond => exact .choose List.mem_cons_self (.refl _)
  | dropDecoded => exact .choose List.mem_cons_self (.refl _)
  | @dropIncoming _ _ w | @payloadIoError _ _ w | @payloadCancel _ _ w | @payloadFailed _ _ w =>
    cases w <;> exact .stay share_within_of_empty
  | @readerGranted op => cases op <;> exact .stay (.refl _)
  | @flushed op => cases op <;> exact .stay (.refl _)
  | @dropAct act acts next => cases act with
    | insertAutoFailure t =>
      refine .putDown List.mem_cons_self ⟨?_, ?_, ?_⟩
      · exact List.Subset.refl _
      · exact List.Subset.refl _
      · exact List.subset_cons_self _ _
    | _ => exact .stay (.refl _)
  | @resume next => cases next <;> exact .stay (.refl _)
  | _ => exact .stay (.refl _)

/-- Messages are started by being granted the writer. -/
theorem Pc.Steps.started {P : GlobalProtocol V} {sh sh' : Shared} {pc pc' : Pc V} {e : Event}
    (h : pc.Steps P sh e sh' pc') (hI : sh.history.started.map Prod.fst = sh.writer.granted) :
    sh'.history.started.map Prod.fst = sh'.writer.granted := by
  cases h with
  | acquireWriter hwait => cases hwait with
    | drainGranted | acquireGranted =>
      simp [Shared.grantWriter, OrderedAccess.grant, hI]
    | _ => exact hI
  | @dropAct act => cases act <;> exact hI
  | _ => exact hI

/-- Only I/O errors and cancellation leave messages incomplete. -/
theorem Pc.Steps.leftIncomplete {P : GlobalProtocol V} {sh sh' : Shared} {pc pc' : Pc V} {e : Event}
    (h : pc.Steps P sh e sh' pc') (hio : e ≠ .ioError) (hcancel : e ≠ .cancel) :
    sh'.history.leftIncomplete = sh.history.leftIncomplete := by
  cases h with
  | acquireWriter hwait => cases hwait <;> first | rfl | contradiction
  | @dropAct act => cases act <;> rfl
  | _ => first | rfl | contradiction

end Conversation

namespace Conversation

variable {V : Type} {P : GlobalProtocol V} {s s' : Conversation V}

/-! ## Every run

The order comes from the writer tickets, which are taken while the reader guard is held. Messages
are started in the order of their tickets; therefore the replies among them are in the order in
which the requests were accepted. -/

/-- What every task holds. -/
def share (s : Conversation V) (i : ℕ) : Share Answer := (s.tasks i).share

/-- The books are in order in every reachable state. -/
theorem ledgerInv (hs : (machine P).Reachable s) : LedgerInv s.shared.ledger s.share := by
  refine hs.invariant (I := fun s => LedgerInv s.shared.ledger s.share) .init
    fun {s a s'} _ hI _ h => ?_
  cases a with
  | arrive bytes =>
    obtain rfl := Option.some.inj h
    exact hI
  | task i e =>
    obtain ⟨pc', hst, htasks⟩ := step_task h
    have hshare : s'.share = Function.update s.share i pc'.share := by
      funext j
      rw [share, htasks]
      exact Function.apply_update (fun _ => Pc.share) s.tasks i pc' j
    rw [hshare]
    exact hI.step hst.ledger

/-- The messages started are those of the tickets granted. -/
theorem started_granted (hs : (machine P).Reachable s) :
    s.shared.history.started.map Prod.fst = s.shared.writer.granted := by
  refine hs.invariant
    (I := fun s => s.shared.history.started.map Prod.fst = s.shared.writer.granted) rfl
    fun {s a s'} _ hI _ h => ?_
  cases a with
  | arrive bytes =>
    obtain rfl := Option.some.inj h
    exact hI
  | task i e =>
    obtain ⟨pc', hst, -⟩ := step_task h
    exact hst.started hI

/-- **Messages are started in the order of their tickets.** -/
theorem started_tickets (hs : (machine P).Reachable s) :
    s.shared.history.started.map Prod.fst = List.range s.shared.history.started.length := by
  have hrange : ∃ n, s.shared.history.started.map Prod.fst = List.range n := by
    rw [started_granted hs]
    rcases (ticketInv hs).writer.granted_eq with h | h <;> exact ⟨_, h⟩
  obtain ⟨n, hn⟩ := hrange
  have hlength := congrArg List.length hn
  rw [List.length_map, List.length_range] at hlength
  rw [hn, hlength]

/-- And so they are on the wire. -/
theorem onWire_tickets (hs : (machine P).Reachable s) :
    s.shared.onWire.map Prod.fst = List.range s.shared.onWire.length := by
  rw [Shared.onWire, List.map_take, started_tickets hs, List.take_range, List.length_take]

/-- No I/O error and no cancellation. -/
def Action.faultless : Action → Bool
  | task _ .ioError => false
  | task _ .cancel => false
  | _ => true

/-- In a faultless run no message is left incomplete. -/
theorem leftIncomplete_eq_false
    (hs : (machine P).Reach (fun _ a => a.faultless = true) s) :
    s.shared.history.leftIncomplete = false := by
  refine hs.invariant (I := fun s => s.shared.history.leftIncomplete = false) rfl
    fun {s a s'} _ hI hok h => ?_
  cases a with
  | arrive bytes =>
    obtain rfl := Option.some.inj h
    exact hI
  | task i e =>
    obtain ⟨pc', hst, -⟩ := step_task h
    rw [hst.leftIncomplete (by rintro rfl; cases hok) (by rintro rfl; cases hok)]
    exact hI

/-- So the accounting of the outgoing stream holds. -/
theorem streamInv_of_faultless (hs : (machine P).Reach (fun _ a => a.faultless = true) s) :
    StreamInv s := by
  refine streamInv (hs.mono fun s a hr _ => ?_)
  cases a with
  | arrive bytes => exact Bool.false_ne_true
  | task i e => cases e with
    | run => simp [passesUnpoisoned, leftIncomplete_eq_false hr]
    | _ => exact Bool.false_ne_true

/-- The replies on the wire, in order. -/
def Shared.repliesOnWire (sh : Shared) : List (ℕ × ControlMessage) :=
  sh.onWire.filter fun x => x.2.isReply

/-- The replies on the wire answer the accepted requests one by one. -/
structure RepliesInOrder (sh : Shared) : Prop where
  /-- The wire carries whole messages, and at most one incomplete one at its end. -/
  whole : sh.WholeMessages
  /-- The message on the wire at place `k` was written with ticket `k`. -/
  tickets : sh.onWire.map Prod.fst = List.range sh.onWire.length
  /-- The `i`-th reply on the wire is for the `i`-th accepted request, and is the answer chosen for
  it. -/
  answers : ∀ (i : ℕ) (x : ℕ × ControlMessage), sh.repliesOnWire[i]? = some x →
    ∃ ty a, sh.history.accepted[i]? = some (x.1, ty) ∧ (x.1, a) ∈ sh.history.chosen ∧
      x.2 = .ofAnswer a
  /-- One answer is chosen for a request. -/
  chosen_unique : ∀ {w a b}, (w, a) ∈ sh.history.chosen → (w, b) ∈ sh.history.chosen → a = b
  /-- No request is answered twice. -/
  nodup : (sh.repliesOnWire.map Prod.fst).Nodup
  /-- Before a message on the wire, all answers with earlier tickets are on the wire. -/
  earlier : ∀ {k x w ty}, sh.onWire[k]? = some x → (w, ty) ∈ sh.history.accepted → w < x.1 →
    w < k ∧ ∃ m, sh.onWire[w]? = some (w, m) ∧ m.isReply = true

/-- **Replies in order.** In a run without I/O errors and cancellation, the replies on the wire
answer the accepted requests one by one, each with the answer chosen for it. -/
theorem replies_in_order (hs : (machine P).Reach (fun _ a => a.faultless = true) s) :
    RepliesInOrder s.shared := by
  have hB := (ledgerInv hs.reachable).books
  have hsub : s.shared.onWire ⊆ s.shared.history.started := List.take_subset _ _
  have htickets := onWire_tickets hs.reachable
  have hprefix : s.shared.repliesOnWire.map Prod.fst <+: s.shared.ledger.accepted := by
    simpa [Shared.repliesOnWire] using
      hB.replies_isPrefix (fun a => by cases a <;> rfl) hsub htickets
  refine ⟨.of_isPrefix (List.IsPrefix.trans (List.prefix_append _ _)
    (streamInv_of_faultless hs).stream.sent_prefix), htickets, fun i x hx => ?_,
    fun ha hb => hB.chosen_unique ha hb, ?_, fun {k x w ty} hx hw hlt => ?_⟩
  · -- the ticket of the reply is that of the accepted request at its place
    obtain ⟨hmem, hreply⟩ := List.mem_filter.mp (List.mem_of_getElem? hx)
    have hi : i < (s.shared.repliesOnWire.map Prod.fst).length := by
      rw [List.length_map]
      exact (List.getElem?_eq_some_iff.mp hx).1
    have hacc : (s.shared.history.accepted.map Prod.fst)[i]? = some x.1 := by
      rw [show s.shared.history.accepted.map Prod.fst = s.shared.ledger.accepted from rfl,
        List.prefix_iff_getElem?.mp hprefix i hi, List.getElem_map]
      exact congrArg (fun y => some y.1)
        (Option.some.inj ((List.getElem?_eq_getElem _).symm.trans hx))
    obtain ⟨⟨w, ty⟩, hty, hw⟩ := Option.map_eq_some_iff.mp (List.getElem?_map .. ▸ hacc)
    obtain rfl : w = x.1 := hw
    obtain ⟨a, ha, hm⟩ := hB.started_accepted (hsub hmem) (List.mem_of_getElem? hacc)
    exact ⟨ty, a, hty, ha, hm⟩
  · exact hprefix.sublist.nodup hB.accepted_sorted.nodup
  · have hk := KeySorted.key_of_getElem? htickets hx
    have hwk : w < k := hk ▸ hlt
    have hlength : w < s.shared.onWire.length :=
      hwk.trans (List.getElem?_eq_some_iff.mp hx).1
    obtain ⟨y, hy⟩ : ∃ y, s.shared.onWire[w]? = some y := ⟨_, List.getElem?_eq_getElem hlength⟩
    have hyw := KeySorted.key_of_getElem? htickets hy
    have hyacc : y.1 ∈ s.shared.ledger.accepted := hyw ▸ List.mem_map_of_mem hw
    obtain ⟨a, -, hm⟩ := hB.started_accepted (hsub (List.mem_of_getElem? hy)) hyacc
    refine ⟨hwk, y.2, by rw [hy, ← hyw], ?_⟩
    rw [hm]
    cases a <;> rfl

/-- Three requests are accepted and decoded, each by a task of its own. -/
def acceptedRun : List Action :=
  .arrive (List.replicate 3 (ControlMessage.globalRequest ⟨"", []⟩ true).encode).flatten ::
    (List.range 3).flatMap fun i =>
      .task i .acceptGlobalRequest :: List.replicate 8 (.task i .run) ++
        .task i .decodePayload :: List.replicate 4 (.task i .run)

/-- The second request is dropped, the third is answered, and only then the first. The answer to the
first is written at once; the task that answers the third waits for it, then writes the failure for
the second, and its own answer last. -/
def answeredRun : List Action :=
  acceptedRun ++ .task 1 .drop :: List.replicate 3 (.task 1 .run) ++
    .task 2 (.respond (.success [])) :: List.replicate 6 (.task 2 .run) ++
    .task 0 (.respond (.success [7])) :: List.replicate 6 (.task 0 .run) ++
    [.task 0 (.write 3), .task 0 (.push 3)] ++ List.replicate 4 (.task 0 .run) ++
    List.replicate 6 (.task 2 .run) ++ [.task 2 (.write 2), .task 2 (.push 2)] ++
    List.replicate 10 (.task 2 .run) ++ [.task 2 (.write 2), .task 2 (.push 2)] ++
    List.replicate 4 (.task 2 .run)

/-- The replies are in the order of the requests, the failure between the two answers. -/
theorem answeredRun_replies_in_order :
    ∃ s, (machine .empty).exec initial answeredRun = some s ∧
      s.shared.history.chosen = [(1, .failure), (2, .success []), (0, .success [7])] ∧
      s.shared.repliesOnWire =
        [(0, .requestSuccess [7]), (1, .requestFailure), (2, .requestSuccess [])] ∧
      RepliesInOrder s.shared := by
  obtain ⟨s, hs, htest⟩ := (Option.any_eq_true
    (fun s : Conversation Unit =>
      decide (s.shared.history.chosen = [(1, .failure), (2, .success []), (0, .success [7])]) &&
        decide (s.shared.repliesOnWire =
          [(0, .requestSuccess [7]), (1, .requestFailure), (2, .requestSuccess [])]))
    ((machine .empty).exec initial answeredRun)).mp (by decide +kernel)
  simp only [Bool.and_eq_true, decide_eq_true_eq] at htest
  have hfaultless : ∀ x ∈ (machine .empty).trace initial answeredRun,
      x.2.faultless = true := by decide +kernel
  exact ⟨s, hs, htest.1, htest.2,
    replies_in_order ((Machine.Path.of_exec hs).reach hfaultless)⟩

end Conversation

end Dssh
