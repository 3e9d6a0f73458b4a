import Dssh.Conversation.Replies
import Dssh.Lib.PairLedger
import Dssh.Lib.Selection

/-!
# Requests and their reader tickets

A request needs a writer ticket to send its message and a reader ticket to receive the response,
and `allocate_request_ticket_pair` takes both under one mutex. Notifications and replies take
writer tickets without it, `accept_global_request` takes reader tickets without it, and all of
them in between the two halves of a pair. The order of the pairs is the same on both counters
all the same.

## Why it has to be

Messages go out in the order of the writer tickets, and responses are read in the order of the
reader tickets. If request `a` had the smaller writer ticket and request `b` the smaller reader
ticket, `b` would read the answer to `a`. Two `fetch_add`s on two counters do not come out in
the same order by themselves, so there is a mutex around them. That the other users of the two
counters do not take it looks like an oversight and is none: they only leave gaps.

The library's `PairLedger` has the argument. Here its books are read off the shared state, and
each atomic operation is shown to be a step of them.

## From tickets to the wire

The order of the tickets becomes one of messages in two stages. Requests *started* are the first
of those awaited (`requests_isPrefix`), since messages are started in the order of their
tickets. Those *on the wire* are the first of these (`requestsOnWire_isPrefix`). A peer that
reads the wire and answers in order therefore answers for the readers in their order, and
`awaited_of_readOps` says which reader that is.

`Pc.claims` is what a task knows about its reader ticket: the operation it was taken for. That
this agrees with the history (`readOps_of_claims`) is how a statement about the `k`-th reader
becomes one about a task.

## Main definitions

* `Shared.pairLedger`, `Pc.pairShare` — the books of a conversation
* `Shared.awaited` — the requests whose responses are awaited
* `Shared.requestsOnWire` — the requests that are on the wire

## Main results

* `Pc.Steps.pairLedger` — every atomic operation is a step of the books of `PairLedger`
* `Conversation.requests_isPrefix` — the requests started are the first of those whose responses
  are awaited, in that order
* `Conversation.readOps_of_claims` — what the reader ticket of a task was taken for
* `Conversation.writer_lt_iff_reader_lt` — the request written first reads its response first
-/

namespace Dssh

open PairLedger

namespace Conversation

variable {V : Type}

/-! ## The books of a conversation

A request takes its two tickets under the mutex, and other operations take single tickets at any
time. The books record for each reader ticket what it was taken for, and for each message the
ticket it was started with. -/

/-- The request in a message that wants a reply. -/
def ControlMessage.request? : ControlMessage → Option GlobalRequest
  | globalRequest rq true => some rq
  | _ => none

/-- The pair a reader ticket belongs to: a writer ticket and the request it was taken for. -/
def ReadOp.pair : ReadOp → Option (ℕ × GlobalRequest)
  | accept => none
  | response rq w => some (w, rq)

/-- It says what the ticket was taken for. -/
theorem ReadOp.pair_injective : Function.Injective ReadOp.pair := by
  intro op op' h
  cases op <;> cases op' <;> simp [pair] at h ⊢
  exact h.symm

/-- Both counters of a conversation, the mutex, the automatic failures, and the messages started. -/
def Shared.pairLedger (sh : Shared) : PairLedger GlobalRequest where
  next := sh.writer.nextTicket
  second := sh.history.readOps.map ReadOp.pair
  locked := sh.ticketPairLock
  pool := sh.autoFailures
  used := sh.history.started.map fun x => (x.1, x.2.request?)

/-- The reader ticket of a request and what it was taken for. -/
def WriteOp.claims (t : ℕ) : WriteOp → List (ℕ × ReadOp)
  | request rq r => [(r, .response rq t)]
  | notification _ => []
  | respond _ => []

/-- The same for what a request has returned. -/
def Outcome.claims : Outcome V → List (ℕ × ReadOp)
  | request rq w r _ => [(r, .response rq w)]
  | _ => []

/-- The same for what a task keeps while it runs drop glue. -/
def After.claims : After V → List (ℕ × ReadOp)
  | finish o => o.claims
  | drain op t => op.claims t
  | response rq w r => [(r, .response rq w)]
  | decoded _ _ _ => []

/-- The reader tickets of a task, and what they were taken for. -/
def Pc.claims : Pc V → List (ℕ × ReadOp)
  | pairUnlock rq w r => [(r, .response rq w)]
  | acquireWriter op t _ => op.claims t
  | writing op t _ => op.claims t
  | acquireReader op t _ => [(t, op)]
  | readingHeader t _ _ => [(t, .accept)]
  | readingResponse rq w t _ _ => [(t, .response rq w)]
  | incoming _ t _ _ => [(t, .accept)]
  | readingPayload _ t _ _ _ => [(t, .accept)]
  | unwinding _ next => next.claims
  | finished o => o.claims
  | _ => []

/-- The unused writer ticket of an operation, if it belongs to no pair. -/
def WriteOp.single (t : ℕ) : WriteOp → List ℕ
  | request _ _ => []
  | notification _ => [t]
  | respond _ => [t]

/-- The unused writer ticket of an operation, if it belongs to a pair. -/
def WriteOp.paired (t : ℕ) : WriteOp → List (ℕ × GlobalRequest)
  | request rq _ => [(t, rq)]
  | notification _ => []
  | respond _ => []

/-- An automatic failure taken out of the set. -/
def WriterWait.adoptedTicket : WriterWait → List ℕ
  | drainAcquire current _ => [current]
  | _ => []

/-- An automatic failure not yet put into the set. -/
def DropAct.putsDown : DropAct → Option ℕ
  | insertAutoFailure t => some t
  | _ => none

/-- What a task keeps of them while it runs drop glue. -/
def After.single : After V → List ℕ
  | drain op t => op.single t
  | decoded _ w _ => [w]
  | _ => []

/-- What it keeps of a pair. -/
def After.paired : After V → List (ℕ × GlobalRequest)
  | drain op t => op.paired t
  | _ => []

/-- The writer tickets of a task that belong to no pair. -/
def Pc.singleTickets : Pc V → List ℕ
  | acquireWriter op t wait => wait.adoptedTicket ++ op.single t
  | incoming _ _ w _ => w.toList
  | readingPayload _ _ w _ _ => w.toList
  | decoded _ w _ => [w]
  | unwinding acts next => acts.filterMap DropAct.putsDown ++ next.single
  | _ => []

/-- The writer ticket of a task whose pair is complete and whose request is not started. -/
def Pc.pairedTickets : Pc V → List (ℕ × GlobalRequest)
  | pairUnlock rq w _ => [(w, rq)]
  | acquireWriter op t _ => op.paired t
  | unwinding _ next => next.paired
  | _ => []

/-- The writer ticket of a task that takes a pair. -/
def Pc.entering : Pc V → List ℕ
  | pairReader _ w => [w]
  | _ => []

/-- Between locking and unlocking the mutex. -/
def Pc.holdsPairLock : Pc V → Bool
  | pairWriter _ => true
  | pairReader _ _ => true
  | pairUnlock _ _ _ => true
  | _ => false

/-- What a task holds of the two counters. -/
def Pc.pairShare (pc : Pc V) : Share GlobalRequest where
  locks := pc.holdsPairLock
  entering := pc.entering
  single := pc.singleTickets
  paired := pc.pairedTickets
  claims := pc.claims.map fun x => (x.1, x.2.pair)

/-- Being refused keeps at most the ticket of the operation. -/
theorem ReadOp.claims_refused (op : ReadOp) (t : ℕ) :
    (op.refused t : Outcome V).claims ⊆ [(t, op)] := by
  cases op with
  | accept => exact List.nil_subset _
  | response => exact List.Subset.refl _

/-- A share of reader tickets only. -/
theorem share_within_of_claims {pc : Pc V} {h : Share GlobalRequest} {c : List (ℕ × ReadOp)}
    (hshare : pc.pairShare = { claims := c.map fun x => (x.1, x.2.pair) })
    (hlocks : h.locks = false) (hclaims : (c.map fun x => (x.1, x.2.pair)) ⊆ h.claims) :
    pc.pairShare.Within h := by
  rw [hshare]
  exact ⟨hlocks.symm, List.nil_subset _, List.nil_subset _, List.nil_subset _, hclaims⟩

/-- Who is granted the writer uses its ticket, of a pair or not. -/
theorem pairLedger_grantWriter (sh : Shared) (t : ℕ) (m : ControlMessage) :
    (sh.grantWriter t m).pairLedger
      = { sh.pairLedger with used := sh.pairLedger.used ++ [(t, m.request?)] } := by
  simp [Shared.pairLedger, Shared.grantWriter, OrderedAccess.grant]

/-- Taking a reader ticket is a step of the second counter. -/
theorem pairLedger_takeReaderTicket (sh : Shared) (op : ReadOp) :
    (sh.takeReaderTicket op).pairLedger
      = { sh.pairLedger with second := sh.pairLedger.second ++ [op.pair] } := by
  simp [Shared.pairLedger, Shared.takeReaderTicket]

/-- **Refinement.** Every atomic operation is a step of the books. -/
theorem Pc.Steps.pairLedger {P : GlobalProtocol V} {sh sh' : Shared} {pc pc' : Pc V} {e : Event}
    (h : pc.Steps P sh e sh' pc') (hlength : sh.history.readOps.length = sh.reader.nextTicket) :
    PairLedger.Step sh.pairLedger pc.pairShare sh'.pairLedger pc'.pairShare := by
  have hsecond : sh.pairLedger.second.length = sh.reader.nextTicket := by
    rw [Shared.pairLedger, List.length_map, hlength]
  cases h with
  | sendGlobalNotification => exact .takeSingle (.refl _)
  | acceptGlobalRequest =>
    rw [pairLedger_takeReaderTicket]
    refine .takeAlone ?_
    rw [hsecond]
    exact .refl _
  | pairLock hlock => exact .lock hlock (.refl _)
  | pairWriter => exact .takeFirst rfl (.refl _)
  | @pairReader rq w =>
    rw [pairLedger_takeReaderTicket]
    refine .takeSecond (List.mem_singleton.mpr rfl) ?_
    rw [hsecond]
    exact .refl _
  | pairUnlock => exact .unlock rfl (.refl _)
  | requestAccepted => exact .takeSingle (.refl _)
  | @acquireWriter op t _ _ _ _ hwait => cases hwait with
    | drainHit hmem => exact .adopt hmem (.refl _)
    | @drainGranted c =>
      rw [pairLedger_grantWriter]
      refine .useSingle (t := c) List.mem_cons_self ⟨rfl, ?_, ?_, ?_, ?_⟩
      · exact List.Subset.refl _
      · exact List.subset_cons_self _ _
      · exact List.Subset.refl _
      · exact List.Subset.refl _
    | acquireGranted =>
      rw [pairLedger_grantWriter]
      cases op with
      | request rq r =>
        exact .usePaired List.mem_cons_self
          (share_within_of_claims rfl rfl (List.Subset.refl _))
      | notification notice =>
        exact .useSingle List.mem_cons_self
          (share_within_of_claims rfl rfl (List.Subset.refl _))
      | respond a =>
        rw [show (WriteOp.respond a).message.request? = none by cases a <;> rfl]
        exact .useSingle List.mem_cons_self
          (share_within_of_claims rfl rfl (List.Subset.refl _))
    | drainRefused | refused | acquireRefused | drainIoError =>
      refine .stay (share_within_of_claims (c := op.claims t) ?_ rfl (List.Subset.refl _))
      cases op <;> rfl
    | drainCancel | cancel | acquireCancel | drainWriteCancel =>
      exact .stay (share_within_of_claims (c := []) rfl rfl (List.nil_subset _))
    | _ => exact .stay (.refl _)
  | @flushed op t | @writeIoError op t =>
    refine .stay (share_within_of_claims (c := op.claims t) ?_ rfl (List.Subset.refl _))
    cases op <;> rfl
  | @readerGranted op =>
    cases op <;> exact .stay (share_within_of_claims rfl rfl (List.Subset.refl _))
  | @readerRefused op t =>
    refine .stay (share_within_of_claims (c := (op.refused t : Outcome V).claims) rfl rfl ?_)
    exact List.map_subset _ (op.claims_refused t)
  | writeCancel | readerCancel | responseCancel | headerIoError | headerCancel | headerFailed =>
    exact .stay (share_within_of_claims (c := []) rfl rfl (List.nil_subset _))
  | @dropIncoming _ _ w | @payloadIoError _ _ w | @payloadCancel _ _ w | @payloadFailed _ _ w =>
    cases w <;> exact .stay (share_within_of_claims (c := []) rfl rfl (List.nil_subset _))
  | requestDecoded =>
    exact .stay ⟨rfl, List.Subset.refl _, List.Subset.refl _, List.Subset.refl _,
      List.nil_subset _⟩
  | noticeDecoded => exact .stay (share_within_of_claims (c := []) rfl rfl (List.nil_subset _))
  | @dropAct act acts next => cases act with
    | insertAutoFailure t =>
      refine .putDown List.mem_cons_self ⟨rfl, ?_, ?_, ?_, ?_⟩
      · exact List.Subset.refl _
      · exact List.subset_cons_self _ _
      · exact List.Subset.refl _
      · exact List.Subset.refl _
    | _ => exact .stay (.refl _)
  | @resume next => cases next <;> exact .stay (.refl _)
  | _ => exact .stay (.refl _)

/-- Every reader ticket is taken for something. -/
theorem Pc.Steps.readOps_length {P : GlobalProtocol V} {sh sh' : Shared} {pc pc' : Pc V} {e : Event}
    (h : pc.Steps P sh e sh' pc') (hI : sh.history.readOps.length = sh.reader.nextTicket) :
    sh'.history.readOps.length = sh'.reader.nextTicket := by
  cases h with
  | acceptGlobalRequest | pairReader =>
    simp [Shared.takeReaderTicket, OrderedAccess.takeTicket, hI]
  | acquireWriter hwait => cases hwait <;> exact hI
  | @dropAct act => cases act <;> exact hI
  | _ => exact hI

end Conversation

namespace Conversation

variable {V : Type} {P : GlobalProtocol V} {s s' : Conversation V}

/-! ## Every run

Among the requests, the order of the writer tickets and that of the reader tickets is the same.
Messages that are no requests are interspersed on the one side, and operations that accept on the
other. -/

/-- Reader tickets are taken for what `readOps` says. -/
theorem readOps_length (hs : (machine P).Reachable s) :
    s.shared.history.readOps.length = s.shared.reader.nextTicket := by
  refine hs.invariant
    (I := fun s => s.shared.history.readOps.length = s.shared.reader.nextTicket) rfl
    fun {s a s'} _ hI _ h => ?_
  cases a with
  | arrive bytes =>
    obtain rfl := Option.some.inj h
    exact hI
  | task i e =>
    obtain ⟨pc', hst, -⟩ := step_task h
    exact hst.readOps_length hI

/-- What every task holds of the two counters. -/
def pairShare (s : Conversation V) (i : ℕ) : Share GlobalRequest := (s.tasks i).pairShare

/-- A single ticket of a task is in one of its hands. -/
theorem exists_slot_of_single (hs : (machine P).Reachable s) {i t : ℕ}
    (ht : t ∈ (s.tasks i).singleTickets) :
    ∃ a, a ≠ TicketQueue.Slot.guard ∧ (s.writerHand i).slot a = some t := by
  have hsingle := ((ticketInv hs).single i).writerTickets
  rw [writerHand]
  generalize s.tasks i = pc at ht hsingle
  have hown : t ∈ pc.writerTickets → ∃ a, a ≠ TicketQueue.Slot.guard ∧
      pc.writerHand.slot a = some t := fun h =>
    ⟨.own, by decide, (mem_iff_head? hsingle t).mp h⟩
  cases pc with
  | acquireWriter op u wait =>
    rcases List.mem_append.mp ht with ht | ht
    · cases wait with
      | drainAcquire c acq =>
        obtain rfl := List.mem_singleton.mp ht
        exact ⟨.adopted, by decide, rfl⟩
      | _ => cases ht
    · refine hown ?_
      cases op with
      | request => cases ht
      | notification | respond => exact ht
  | incoming | readingPayload | decoded => exact hown ht
  | unwinding acts next =>
    refine hown ?_
    rcases List.mem_append.mp ht with ht | ht
    · refine List.mem_append_left _ ?_
      obtain ⟨act, hact, hput⟩ := List.mem_filterMap.mp ht
      cases act with
      | insertAutoFailure u => exact List.mem_filterMap.mpr ⟨_, hact, hput⟩
      | _ => cases hput
    · refine List.mem_append_right _ ?_
      cases next with
      | drain op u => cases op with
        | request => cases ht
        | notification | respond =>
          obtain rfl := List.mem_singleton.mp ht
          exact Option.mem_toList.mpr rfl
      | decoded ty w v =>
        obtain rfl := List.mem_singleton.mp ht
        exact Option.mem_toList.mpr rfl
      | _ => cases ht
  | _ => cases ht

/-- The ticket whose pair a task completes is in no other place. -/
theorem fresh_of_entering (hs : (machine P).Reachable s) {i w : ℕ}
    (hw : w ∈ (s.pairShare i).entering) : Fresh s.shared.pairLedger s.pairShare w := by
  have hI := (ticketInv hs).writer
  have hw' : w ∈ (s.tasks i).entering := hw
  have hown : (s.writerHand i).slot .own = some w ∧ (s.tasks i).singleTickets = [] := by
    rw [writerHand]
    generalize s.tasks i = pc at hw'
    cases pc with
    | pairReader rq u =>
      obtain rfl := List.mem_singleton.mp hw'
      exact ⟨rfl, rfl⟩
    | _ => cases hw'
  refine ⟨fun j hj => ?_, hI.not_pool hown.1, fun x hx hxw => ?_⟩
  · have hj' : w ∈ (s.tasks j).singleTickets := hj
    obtain ⟨a, -, ha⟩ := exists_slot_of_single hs hj'
    rw [← (hI.unique hown.1 ha).1, hown.2] at hj'
    cases hj'
  · obtain ⟨y, hy, rfl⟩ := List.mem_map.mp hx
    refine hI.not_granted (by decide) hown.1 ?_
    change w ∈ s.shared.writer.granted
    rw [← started_granted hs]
    exact hxw ▸ List.mem_map_of_mem hy

/-- The books are in order in every reachable state. -/
theorem pairInv (hs : (machine P).Reachable s) :
    PairLedger.Inv s.shared.pairLedger s.pairShare := by
  refine hs.invariant (I := fun s => PairLedger.Inv s.shared.pairLedger s.pairShare) .init
    fun {s a s'} hs hI _ h => ?_
  cases a with
  | arrive bytes =>
    obtain rfl := Option.some.inj h
    exact hI
  | task i e =>
    obtain ⟨pc', hst, htasks⟩ := step_task h
    have hshare : s'.pairShare = Function.update s.pairShare i pc'.pairShare := by
      funext j
      rw [pairShare, htasks]
      exact Function.apply_update (fun _ => Pc.pairShare) s.tasks i pc' j
    rw [hshare]
    exact hI.step (fun w hw => fresh_of_entering hs hw) (hst.pairLedger (readOps_length hs))

/-- What the reader ticket of a task was taken for. -/
theorem readOps_of_claims (hs : (machine P).Reachable s) {i k : ℕ} {op : ReadOp}
    (h : (k, op) ∈ (s.tasks i).claims) : s.shared.history.readOps[k]? = some op := by
  have hclaim := ((pairInv hs).booked i).claims (List.mem_map_of_mem h)
  rw [show s.shared.pairLedger.second = s.shared.history.readOps.map ReadOp.pair from rfl,
    List.getElem?_map, Option.map_eq_some_iff] at hclaim
  obtain ⟨op', hop', hpair⟩ := hclaim
  rw [hop', ReadOp.pair_injective hpair]

/-- The requests among some messages, with their tickets. -/
def requestsIn (messages : List (ℕ × ControlMessage)) : List (ℕ × GlobalRequest) :=
  messages.filterMap fun x => x.2.request?.map fun rq => (x.1, rq)

/-- The requests whose responses are awaited, in the order of their reader tickets. -/
def Shared.awaited (sh : Shared) : List (ℕ × GlobalRequest) :=
  sh.history.readOps.filterMap ReadOp.pair

/-- **Requests are started in the order in which their responses are awaited.** -/
theorem requests_isPrefix (hs : (machine P).Reachable s) :
    requestsIn s.shared.history.started <+: s.shared.awaited := by
  have hused : s.shared.pairLedger.used.map Prod.fst
      = List.range s.shared.pairLedger.used.length := by
    simpa [Shared.pairLedger, Function.comp_def] using started_tickets hs
  have h := (pairInv hs).books.used_isPrefix hused
  simpa [Shared.pairLedger, pairs, requestsIn, Shared.awaited, Function.comp_def,
    List.filterMap_map] using h

/-- Writer tickets and reader tickets of requests are in the same order. -/
theorem awaited_sorted (hs : (machine P).Reachable s) : KeySorted Prod.fst s.shared.awaited := by
  have h := (pairInv hs).books.sorted
  simpa [Shared.pairLedger, pairs, Shared.awaited, List.filterMap_map, Function.comp_def] using h

end Conversation

namespace Conversation

variable {V : Type} {P : GlobalProtocol V} {s s' : Conversation V}

/-! ## On the wire

What has been started gets onto the wire in the same order, except for the end. A reader on the
other side sees the requests in the order in which their responses are awaited here. -/

/-- Messages are only added, to the history and to the wire. -/
theorem Pc.Steps.sent_mono {sh sh' : Shared} {pc pc' : Pc V} {e : Event}
    (h : pc.Steps P sh e sh' pc') :
    sh.history.started <+: sh'.history.started ∧ sh.sent <+: sh'.sent := by
  cases h with
  | acquireWriter hwait => cases hwait with
    | drainGranted | acquireGranted => exact ⟨List.prefix_append _ _, List.prefix_rfl⟩
    | drainPush => exact ⟨List.prefix_rfl, List.prefix_append _ _⟩
    | _ => exact ⟨List.prefix_rfl, List.prefix_rfl⟩
  | push => exact ⟨List.prefix_rfl, List.prefix_append _ _⟩
  | @dropAct act => cases act <;> exact ⟨List.prefix_rfl, List.prefix_rfl⟩
  | _ => exact ⟨List.prefix_rfl, List.prefix_rfl⟩

/-- Who does not accept takes no reader ticket to accept. -/
theorem Pc.Steps.accept_not_mem {sh sh' : Shared} {pc pc' : Pc V} {e : Event}
    (h : pc.Steps P sh e sh' pc') (he : e ≠ .acceptGlobalRequest)
    (hI : ReadOp.accept ∉ sh.history.readOps) : ReadOp.accept ∉ sh'.history.readOps := by
  cases h with
  | acceptGlobalRequest => exact absurd rfl he
  | pairReader => simpa [Shared.takeReaderTicket] using hI
  | acquireWriter hwait => cases hwait <;> exact hI
  | @dropAct act => cases act <;> exact hI
  | _ => exact hI

/-- **What is on the wire stays there.** -/
theorem onWire_mono {sh sh' : Shared} (hstarted : sh.history.started <+: sh'.history.started)
    (hsent : sh.sent <+: sh'.sent) : sh.onWire <+: sh'.onWire := by
  rw [Shared.onWire, Shared.onWire]
  have hcomplete := MessageStream.complete_mono
    (hstarted.map fun x : ℕ × ControlMessage => x.2.encode) hsent.length_le
  exact (hstarted.take _).trans (List.take_prefix_take_left hcomplete)

/-- The requests on the wire, with their writer tickets. -/
def Shared.requestsOnWire (sh : Shared) : List (ℕ × GlobalRequest) := requestsIn sh.onWire

/-- Of more messages there are more requests. -/
theorem requestsIn_mono {ms ms' : List (ℕ × ControlMessage)} (h : ms <+: ms') :
    requestsIn ms <+: requestsIn ms' := h.filterMap _

/-- **The requests on the wire are the first of those whose responses are awaited.** -/
theorem requestsOnWire_isPrefix (hs : (machine P).Reachable s) :
    s.shared.requestsOnWire <+: s.shared.awaited :=
  (requestsIn_mono (List.take_prefix _ _)).trans (requests_isPrefix hs)

/-- **Written first, read first.** The writer tickets and the reader tickets of requests are in the
same order. -/
theorem writer_lt_iff_reader_lt (hs : (machine P).Reachable s) {k l w w' : ℕ}
    {rq rq' : GlobalRequest} (hk : s.shared.history.readOps[k]? = some (.response rq w))
    (hl : s.shared.history.readOps[l]? = some (.response rq' w')) : w < w' ↔ k < l := by
  have hsorted := awaited_sorted hs
  rw [KeySorted, Shared.awaited, List.pairwise_filterMap, List.pairwise_iff_getElem] at hsorted
  have hlt : ∀ {k l w w' : ℕ} {rq rq' : GlobalRequest},
      s.shared.history.readOps[k]? = some (.response rq w) →
      s.shared.history.readOps[l]? = some (.response rq' w') → k < l → w < w' := by
    intro k l w w' rq rq' hk hl hkl
    obtain ⟨hk', hk⟩ := List.getElem?_eq_some_iff.mp hk
    obtain ⟨hl', hl⟩ := List.getElem?_eq_some_iff.mp hl
    exact hsorted k l hk' hl' hkl (w, rq) (by rw [hk, ReadOp.pair]) (w', rq')
      (by rw [hl, ReadOp.pair])
  refine ⟨fun hw => ?_, hlt hk hl⟩
  rcases Nat.lt_trichotomy k l with hkl | rfl | hkl
  · exact hkl
  · cases hk.symm.trans hl
    exact absurd hw (Nat.lt_irrefl _)
  · exact absurd (hlt hl hk hkl) (Nat.lt_asymm hw)

/-- Where no reader ticket was taken to accept, the request with reader ticket `k` is the `k`-th
whose response is awaited. -/
theorem awaited_of_readOps {sh : Shared} (haccept : ReadOp.accept ∉ sh.history.readOps) {k w : ℕ}
    {rq : GlobalRequest} (hk : sh.history.readOps[k]? = some (.response rq w)) :
    sh.awaited[k]? = some (w, rq) := by
  have hplace := Selection.getElem?_filterMap (f := ReadOp.pair) hk rfl
  have hall : ∀ op ∈ sh.history.readOps.take k, op.pair.isSome = true := by
    intro op hop
    cases op with
    | accept => exact absurd (List.mem_of_mem_take hop) haccept
    | response rq w => rfl
  have hlength : (sh.history.readOps.take k).length = k :=
    List.length_take_of_le (List.getElem?_eq_some_iff.mp hk).1.le
  rwa [List.countP_eq_length.mpr hall, hlength] at hplace

end Conversation

end Dssh
