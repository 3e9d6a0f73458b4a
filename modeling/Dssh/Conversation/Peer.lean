import Dssh.Conversation.Reading

/-!
# Requests to a peer that answers in order

A conversation that sends requests and notifications and accepts none, and its peer, which reads
the requests off the wire and answers them one by one, in the order in which they are there. The
bytes of the answers arrive in portions of any size at any time.

## The property

An answer has no number that says which request it is for. The only thing that ties the two
together is order, and so the promise of `send_global_request`, that it returns *its* answer,
depends on three orders at once: in which requests are written, in which the peer answers, and
in which the tasks that wait read the answers. Many tasks send at the same time, and each takes
its two tickets, waits, writes, waits again and reads, in any interleaving with the others.

The machine here has both ends. The peer is as free as the protocol allows: it answers the first
request on the wire that it has not answered, with success or failure, whenever it wants. The
transport delivers some of the bytes that have been sent, as it likes.

## The conditions

`Proper` excludes I/O errors and cancellation, which break the stream or lose tickets, and
accepting requests on this side. The last one is not pedantry: with a task in
`accept_global_request`, the answer may be read by it. When that goes wrong is the subject of
another module.

The peer's answers have to be of the type that the request asks for; a conversation can do
nothing about others.

## Main definitions

* `WithPeer`, `WithPeer.machine` — a conversation with its peer
* `WithPeer.Proper` — the steps that are considered
* `WithPeer.AnsweredInOrder` — requests and their answers

## Main results

* `WithPeer.answered_in_order` — every request returns the answer to that request
-/

namespace Dssh

/-! ## The peer

It sees what is on the wire, and answers the first request that it has not answered, whenever it
likes. It is free to choose any answer that is one to this request, and the bytes of the answers
arrive in portions of any size. -/

/-- A conversation, and the answers its peer has given. -/
structure WithPeer (V : Type) where
  /-- This side. -/
  conversation : Conversation V
  /-- The answers, in the order of the requests. -/
  answers : List Conversation.Answer

namespace WithPeer

open Conversation

variable {V : Type}

/-- A step of the conversation, an answer of the peer, or the arrival of answered bytes. -/
inductive Action where
  /-- An atomic operation of a task of this side. -/
  | task (i : ℕ) (e : Event)
  /-- The peer answers the next request. -/
  | answer (a : Answer)
  /-- So many bytes of the answers arrive. -/
  | deliver (n : ℕ)

/-- The messages the peer has sent. -/
def feed (s : WithPeer V) : List ControlMessage := s.answers.map ControlMessage.ofAnswer

/-- The next `n` bytes of what the peer has sent. -/
def nextBytes (s : WithPeer V) (n : ℕ) : List UInt8 :=
  ((upTo s.feed s.feed.length).drop (s.conversation.shared.history.consumed
    ++ s.conversation.shared.incoming).length).take n

/-- One step. The peer answers the first request on the wire that it has not answered. -/
def step (P : GlobalProtocol V) (s : WithPeer V) : Action → Option (WithPeer V)
  | .task i e => (s.conversation.step P (.task i e)).map fun c => { s with conversation := c }
  | .answer a =>
    if s.answers.length < s.conversation.shared.requestsOnWire.length then
      some { s with answers := s.answers ++ [a] }
    else none
  | .deliver n => some { s with conversation := s.conversation.arrive (s.nextBytes n) }

/-- A conversation and its peer. -/
def machine (P : GlobalProtocol V) : Machine (WithPeer V) Action :=
  ⟨⟨Conversation.initial, []⟩, step P⟩

/-- No I/O error, no cancellation, and no `accept_global_request` on this side; and the peer answers
a request with a failure or with a reply to it. -/
def Proper (P : GlobalProtocol V) (s : WithPeer V) : Action → Prop
  | .task _ .ioError => False
  | .task _ .cancel => False
  | .task _ .acceptGlobalRequest => False
  | .answer a => ∀ x, s.conversation.shared.requestsOnWire[s.answers.length]? = some x →
      Replies P x.2.requestType a
  | _ => True

/-! ## Every run

The response that is awaited at place `k` is the answer to the request at place `k` on the wire.
This is known of the books of the conversation, and so the messages of the peer fit the readers
that they come to, whatever they are. -/

/-- The invariant: the conversation is in step with the answers, which are to the requests whose
responses are awaited, in that order. -/
structure Inv (P : GlobalProtocol V) (s : WithPeer V) : Prop where
  /-- The conversation has been run without faults. -/
  reach : (Conversation.machine P).Reach (fun _ a => a.faultless = true) s.conversation
  /-- Nobody has accepted requests. -/
  no_accept : ReadOp.accept ∉ s.conversation.shared.history.readOps
  /-- The readers are in step with the answers. -/
  synced : Synced P s.feed s.conversation
  /-- No request is answered before it is on the wire. -/
  answers_le : s.answers.length ≤ s.conversation.shared.requestsOnWire.length
  /-- The answer to a request is one that its sender can read. -/
  replies : ∀ {k : ℕ} {a x}, s.answers[k]? = some a →
    s.conversation.shared.awaited[k]? = some x → Replies P x.2.requestType a

/-- What a request whose response is awaited at place `k` is sent, fits it. -/
theorem Inv.fits {P : GlobalProtocol V} {s : WithPeer V} (hI : Inv P s) {k : ℕ} {op : ReadOp}
    {m : ControlMessage} (hop : s.conversation.shared.history.readOps[k]? = some op)
    (hm : s.feed[k]? = some m) : Fits P op m := by
  cases op with
  | accept => exact absurd (List.mem_of_getElem? hop) hI.no_accept
  | response rq w =>
    rw [feed, List.getElem?_map, Option.map_eq_some_iff] at hm
    obtain ⟨a, ha, rfl⟩ := hm
    exact (hI.replies ha (awaited_of_readOps hI.no_accept hop)).fits w

/-- Without accepting, only an I/O error and cancellation give an operation up. -/
theorem Inv.quits_eq_false {P : GlobalProtocol V} {s : WithPeer V} (hI : Inv P s)
    {i : ℕ} {e : Event}
    (hio : e ≠ .ioError) (hcancel : e ≠ .cancel) : (s.conversation.tasks i).quits e = false := by
  cases e with
  | ioError => exact absurd rfl hio
  | cancel => exact absurd rfl hcancel
  | drop =>
    cases hpc : s.conversation.tasks i with
    | incoming ty t w got =>
      have hclaim : s.conversation.shared.history.readOps[t]? = some .accept :=
        readOps_of_claims hI.reach.reachable (i := i) (by rw [hpc]; exact List.mem_cons_self)
      exact absurd (List.mem_of_getElem? hclaim) hI.no_accept
    | _ => rfl
  | _ => rfl

/-- Nothing has been sent. -/
theorem Inv.initial (P : GlobalProtocol V) : Inv P (machine P).init where
  reach := .init
  no_accept := List.not_mem_nil
  synced := .initial P
  answers_le := Nat.le_refl _
  replies h := by cases h

/-- A step of the conversation keeps the invariant. -/
theorem Inv.task {P : GlobalProtocol V} {s : WithPeer V} {c : Conversation V} {i : ℕ} {e : Event}
    (hI : Inv P s) (hio : e ≠ .ioError) (hcancel : e ≠ .cancel) (haccept : e ≠ .acceptGlobalRequest)
    (h : s.conversation.step P (.task i e) = some c) : Inv P { s with conversation := c } := by
  have hs := hI.reach.reachable
  obtain ⟨pc', hst, -⟩ := step_task h
  have hwire : s.conversation.shared.requestsOnWire <+: c.shared.requestsOnWire :=
    requestsIn_mono (onWire_mono hst.sent_mono.1 hst.sent_mono.2)
  have hawaited : s.conversation.shared.awaited <+: c.shared.awaited := hst.readOps_mono.filterMap _
  have hfaultless : (Conversation.Action.task i e).faultless = true := by
    cases e with
    | ioError => exact absurd rfl hio
    | cancel => exact absurd rfl hcancel
    | _ => rfl
  have hreach : (Conversation.machine P).Reach (fun _ a => a.faultless = true) c :=
    hI.reach.step hfaultless h
  refine ⟨hreach, hst.accept_not_mem haccept hI.no_accept,
    hI.synced.step hs (fun hop hm => hI.fits hop hm) (hI.quits_eq_false hio hcancel) h,
    hI.answers_le.trans hwire.length_le, fun {k a x} ha hx => ?_⟩
  have hk : k < s.conversation.shared.awaited.length :=
    (List.getElem?_eq_some_iff.mp ha).1.trans_le
      (hI.answers_le.trans (requestsOnWire_isPrefix hs).length_le)
  exact hI.replies ha (Selection.getElem?_of_lt hawaited hk hx)

/-- An answer to the next request keeps it. -/
theorem Inv.answer {P : GlobalProtocol V} {s : WithPeer V} {a : Answer} (hI : Inv P s)
    (hlt : s.answers.length < s.conversation.shared.requestsOnWire.length)
    (hreply : ∀ x, s.conversation.shared.requestsOnWire[s.answers.length]? = some x →
      Replies P x.2.requestType a) : Inv P { s with answers := s.answers ++ [a] } := by
  have hprefix := requestsOnWire_isPrefix hI.reach.reachable
  refine ⟨hI.reach, hI.no_accept, hI.synced.mono ?_, ?_, fun {k b x} hb hx => ?_⟩
  · simp [feed]
  · rw [List.length_append]
    exact hlt
  · rcases Nat.lt_or_ge k s.answers.length with hk | hk
    · rw [List.getElem?_append_left hk] at hb
      exact hI.replies hb hx
    · rw [List.getElem?_append_right hk] at hb
      obtain ⟨hk', rfl⟩ : k - s.answers.length = 0 ∧ a = b := by
        cases hsub : k - s.answers.length with
        | zero => simpa [hsub] using hb
        | succ n => simp [hsub] at hb
      obtain rfl : k = s.answers.length := by omega
      exact hreply x (Selection.getElem?_of_lt hprefix hlt hx)

/-- And so does the arrival of what has been answered. -/
theorem Inv.deliver {P : GlobalProtocol V} {s : WithPeer V} (hI : Inv P s) (n : ℕ) :
    Inv P { s with conversation := s.conversation.arrive (s.nextBytes n) } := by
  refine ⟨hI.reach.step (a := .arrive (s.nextBytes n)) rfl rfl, hI.no_accept,
    hI.synced.arrive ?_, hI.answers_le, hI.replies⟩
  obtain ⟨rest, hrest⟩ := hI.synced.stream
  rw [nextBytes, ← hrest, List.drop_left, List.prefix_append_right_inj]
  exact List.take_prefix _ _

/-- It holds in every state that is reached so. -/
theorem inv {P : GlobalProtocol V} {s : WithPeer V} (hs : (machine P).Reach (Proper P) s) :
    Inv P s := by
  refine hs.invariant (.initial P) fun {s a s'} _ hI hok h => ?_
  cases a with
  | task i e =>
    obtain ⟨c, hc, rfl⟩ := Option.map_eq_some_iff.mp h
    exact hI.task (by rintro rfl; exact hok) (by rintro rfl; exact hok)
      (by rintro rfl; exact hok) hc
  | answer a =>
    simp only [machine, step, Option.ite_none_right_eq_some, Option.some.injEq] at h
    obtain ⟨hlt, rfl⟩ := h
    exact hI.answer hlt hok
  | deliver n =>
    obtain rfl := Option.some.inj h
    exact hI.deliver n

/-- Requests and their answers. -/
structure AnsweredInOrder (P : GlobalProtocol V) (s : WithPeer V) : Prop where
  /-- Messages are on the wire in the order of their writer tickets, … -/
  written : s.conversation.shared.onWire.map Prod.fst
    = List.range s.conversation.shared.onWire.length
  /-- … responses are read in the order of their reader tickets, … -/
  read : s.conversation.shared.reader.granted
    = List.range s.conversation.shared.reader.granted.length
  /-- … and of two requests, the one written first is the one whose response is read first. -/
  order : ∀ {k l w w' : ℕ} {rq rq'},
    s.conversation.shared.history.readOps[k]? = some (.response rq w) →
    s.conversation.shared.history.readOps[l]? = some (.response rq' w') → (w < w' ↔ k < l)
  /-- A request that has completed is some `r`-th request on the wire, the peer has answered it, and
  what it returned is that answer. -/
  answered : ∀ {i rq w r result},
    s.conversation.tasks i = .finished (.request rq w r result) →
    ∃ a, s.conversation.shared.requestsOnWire[r]? = some (w, rq) ∧ s.answers[r]? = some a ∧
      (ControlMessage.ofAnswer a).Gives P rq.requestType result

/-- **Every request returns the answer to that request.** Against a peer that answers the requests
on the wire in order, whatever requests and notifications are sent concurrently. -/
theorem answered_in_order {P : GlobalProtocol V} {s : WithPeer V}
    (hs : (machine P).Reach (Proper P) s) : AnsweredInOrder P s := by
  have hI := inv hs
  have hr := hI.reach.reachable
  refine ⟨onWire_tickets hr, ?_, fun hk hl => writer_lt_iff_reader_lt hr hk hl,
    fun {i rq w r result} hfinished => ?_⟩
  · have hgranted := (ticketInv hr).reader.granted_eq
    change s.conversation.shared.reader.granted = _ ∨
      s.conversation.shared.reader.granted = _ at hgranted
    rcases hgranted with h | h <;> rw [h, List.length_range]
  · have htask := hI.synced.tasks i
    rw [hfinished] at htask
    obtain ⟨m, hm, hgives⟩ := htask
    rw [feed, List.getElem?_map, Option.map_eq_some_iff] at hm
    obtain ⟨a, ha, rfl⟩ := hm
    have hclaim : s.conversation.shared.history.readOps[r]? = some (.response rq w) :=
      readOps_of_claims hr (i := i) (by rw [hfinished]; exact List.mem_cons_self)
    have hlt : r < s.conversation.shared.requestsOnWire.length :=
      (List.getElem?_eq_some_iff.mp ha).1.trans_le hI.answers_le
    exact ⟨a, Selection.getElem?_of_lt (requestsOnWire_isPrefix hr) hlt
      (awaited_of_readOps hI.no_accept hclaim), ha, hgives⟩

/-! ## A run with two requests

The requests are sent by two tasks at the same time and answered differently, and the second
answer is split by the network. -/

/-- Task `i` sends a request and takes its tickets. -/
def takesPair (i : ℕ) : List Action :=
  .task i (.sendGlobalRequest ⟨"", []⟩) :: List.replicate 4 (.task i .run)

/-- Task `i` writes its request and goes on to wait for the response. -/
def writesRequest (i : ℕ) : List Action :=
  List.replicate 6 (.task i .run) ++ [.task i (.write 4), .task i (.push 4)] ++
    List.replicate 4 (.task i .run)

/-- Two requests are sent concurrently. The first is refused and the second succeeds; the answers
arrive in two portions that split the second one. -/
def twoRequestsRun : List Action :=
  takesPair 0 ++ takesPair 1 ++ writesRequest 0 ++ writesRequest 1 ++
    [.answer .failure, .answer (.success []), .deliver 3] ++ List.replicate 9 (.task 0 .run) ++
    [.deliver 1] ++ List.replicate 9 (.task 1 .run)

/-- In the protocol with empty responses, what is proper in every state. -/
def Action.plain : Action → Bool
  | .task _ .ioError => false
  | .task _ .cancel => false
  | .task _ .acceptGlobalRequest => false
  | .answer (.success response) => response.isEmpty
  | _ => true

/-- Such actions are proper. -/
theorem Action.proper_of_plain {s : WithPeer Unit} {a : Action} (h : a.plain = true) :
    Proper .empty s a := by
  cases a with
  | task i e => cases e <;> trivial
  | answer a => cases a with
    | success response =>
      intro x _
      rw [List.isEmpty_iff.mp h]
      exact ⟨(), rfl⟩
    | failure => exact fun _ _ => trivial
  | deliver n => trivial

/-- A request that has returned a reply. -/
def succeeded : Pc V → Bool
  | .finished (.request _ _ _ (.ok _)) => true
  | _ => false

/-- Both requests have returned, each with its answer. -/
theorem twoRequestsRun_answered_in_order :
    ∃ s, (machine .empty).exec (machine .empty).init twoRequestsRun = some s ∧
      succeeded (s.conversation.tasks 1) = true ∧ AnsweredInOrder .empty s := by
  obtain ⟨s, hs, htest⟩ := (Option.any_eq_true
    (fun s : WithPeer Unit => succeeded (s.conversation.tasks 1))
    ((machine .empty).exec (machine .empty).init twoRequestsRun)).mp (by decide)
  have hplain : ∀ x ∈ (machine .empty).trace (machine .empty).init twoRequestsRun,
      x.2.plain = true := by decide
  exact ⟨s, hs, htest, answered_in_order
    ((Machine.Path.of_exec hs).reach fun x hx => Action.proper_of_plain (hplain x hx))⟩

end WithPeer

end Dssh
