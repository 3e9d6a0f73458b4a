import Dssh.Conversation.Contents

/-!
# Two conversations back to back

Both sides send requests and notifications, accept them and answer. Requests and responses
travel on the same stream in both directions, and both `accept_global_request` and
`send_global_request` take tickets of the one reader queue, in the order in which they are
called. So the reader with ticket `k` reads message `k` of the peer, whatever it is waiting for.

A step *crosses* when it settles that this is the wrong message: a reader ticket is taken that
the peer has already sent a message of the other kind for, or a message is started for which the
peer has taken a reader ticket of the other kind. As long as no step crosses, everything is read
by whom it is for and the session stays sound. `crossedRun` is a run in which a step crosses:
one side calls `accept_global_request` before it calls `send_global_request`, the other side
answers, and the answer is read by the `accept_global_request`.

## One reader queue for two kinds of messages

The documentation says that responses are read in the order of the requests, and that is so
among responses. It does not say what happens to them when somebody accepts requests at the same
time, which is what a client and a server both do all the time: they run a loop around
`accept_global_request`. That loop has a reader ticket while it waits. A request sent meanwhile
gets the next one, and its response arrives first. `accept_global_request` reads it, finds a
message type that is none of its own, and poisons the session.

There is no dispatcher that would look at the type and hand the message to whom it is for.
Whether a run is sound is decided by the order in which the two sides call their operations, and
`crosses` says by which step it is decided.

## The condition

It looks at the state before the step, on both sides: the tickets taken and the messages started
so far. It is decidable, does not mention whether anything is poisoned, and does not look at
what has been consumed. `inStep` is a result about runs: all of whose steps are proper and do
not cross.

`Proper` has the rest: no I/O errors, no cancellation, and callers that keep their promises and
decode what they accept.

## How the proof goes

Each direction by itself is `OneWay`: a reader and what the other side sends, with "readers and
messages that have met are of one kind" as the invariant. The two directions need each other in
one place. A response fits its reader if it answers *that* request, and for this the peer must
have read the requests in step. `OneWay.fits` has both as hypotheses.

## Main definitions

* `Duplex`, `Duplex.machine` — two conversations and the bytes between them
* `Conversation.crosses` — a step settles that a reader reads a message of the other kind
* `Conversation.OneWay` — one side as the reader of what the other one sends
* `Duplex.InStep` — both sides read what is for them

## Main results

* `Conversation.OneWay.fits` — where no step has crossed, messages fit their readers
* `Duplex.inStep` — in runs without a crossing step no side is poisoned, and every message is
  read by an operation it is for
* `Duplex.crossedRun_poisoned` — a run with a crossing step
-/

namespace Dssh

namespace Conversation

variable {V : Type} {P : GlobalProtocol V}

/-! ## What a step settles

Two things are settled for good when a ticket is taken: the kind of message the reader with this
ticket is for, and, on the other side, the kind of the message with this number. Only a few steps
settle something, and each settles one of the two. -/

/-- The operation a step takes a reader ticket for. -/
def Pc.takesReader : Pc V → Event → Option ReadOp
  | .idle, .acceptGlobalRequest => some .accept
  | .pairReader rq w, .run => some (.response rq w)
  | _, _ => none

/-- The message a step starts. -/
def Pc.starts (sh : Shared) : Pc V → Event → Option ControlMessage
  | .acquireWriter _ _ (.drainAcquire c (.checkServing _)), .run =>
    if sh.writer.currentServing = c then some .requestFailure else none
  | .acquireWriter op t (.acquire (.checkServing _)), .run =>
    if sh.writer.currentServing = t then some op.message else none
  | _, _ => none

/-- These are the only steps that take reader tickets, … -/
theorem Pc.Steps.readOps_eq {sh sh' : Shared} {pc pc' : Pc V} {e : Event}
    (h : pc.Steps P sh e sh' pc') :
    sh'.history.readOps = sh.history.readOps ++ (pc.takesReader e).toList := by
  cases h with
  | acceptGlobalRequest | pairReader => rfl
  | acquireWriter hwait => cases hwait <;> exact (List.append_nil _).symm
  | @dropAct act => cases act <;> exact (List.append_nil _).symm
  | _ => exact (List.append_nil _).symm

/-- Who goes on to wait has not found its turn. -/
theorem Acquire.serving_ne_of_wait {oa : OrderedAccess} {poisoned : Bool}
    {t seen : ℕ} {acq : Acquire}
    (h : (checkServing seen).step oa poisoned t = some (.wait acq)) : oa.currentServing ≠ t := by
  intro hserving
  simp [step, hserving] at h

/-- The messages a side has started. -/
def messages (s : Conversation V) : List ControlMessage := s.shared.history.started.map Prod.snd

/-- … or start messages. -/
theorem Pc.Steps.started_eq {sh sh' : Shared} {pc pc' : Pc V} {e : Event}
    (h : pc.Steps P sh e sh' pc') : sh'.history.started.map Prod.snd
      = sh.history.started.map Prod.snd ++ (pc.starts sh e).toList := by
  cases h with
  | acquireWriter hwait => cases hwait with
    | drainGranted hserving | acquireGranted hserving =>
      simp [Shared.grantWriter, Pc.starts, hserving]
    | @drainWait c acq acq' hacq | @acquireWait acq acq' hacq => cases acq with
      | checkServing seen => simp [Pc.starts, Acquire.serving_ne_of_wait hacq]
      | _ => exact (List.append_nil _).symm
    | _ => exact (List.append_nil _).symm
  | @dropAct act => cases act <;> exact (List.append_nil _).symm
  | _ => exact (List.append_nil _).symm

/-! ## One direction

The argument is about one direction at a time, with one side as the reader and the other as the
sender. The reader with ticket `k` gets message `k`. So all messages fit their readers if for
every `k` the two sides have settled the same kind, and a step crosses if it settles something
else than the other side has. -/

/-- What holds of each side by itself. -/
structure Sound (P : GlobalProtocol V) (s : Conversation V) : Prop where
  /-- It has been run without faults, by callers that keep their promises. -/
  reach : (machine P).Reach (fun s a => a.faultless = true ∧ s.Contracts P a) s

/-- What holds of one side, `me`, as the reader of what the other side, `peer`, sends. -/
structure OneWay (P : GlobalProtocol V) (me peer : Conversation V) : Prop where
  /-- What has arrived has been sent. -/
  arrived : me.shared.history.consumed ++ me.shared.incoming <+: peer.shared.sent
  /-- Readers are in step with the messages. -/
  synced : Synced P peer.messages me
  /-- Readers and messages that have met are of one kind. -/
  matched : ∀ {k : ℕ} {op m}, me.shared.history.readOps[k]? = some op →
    peer.messages[k]? = some m → op.isResponse = m.isReply

/-- The step of `me` takes a reader ticket for which `peer` has started a message of the other kind,
or starts a message for which `peer` has taken a reader ticket of the other kind. -/
def crosses (me peer : Conversation V) (i : ℕ) (e : Event) : Bool :=
  (((me.tasks i).takesReader e).any fun op =>
    (peer.messages[me.shared.history.readOps.length]?).any fun m => op.isResponse != m.isReply) ||
  (((me.tasks i).starts me.shared e).any fun m =>
    (peer.shared.history.readOps[me.messages.length]?).any fun op => op.isResponse != m.isReply)

namespace Sound

variable {s : Conversation V}

/-- It is reachable. -/
theorem reachable (hs : Sound P s) : (machine P).Reachable s := hs.reach.reachable

/-- It is reached without faults. -/
theorem faultless (hs : Sound P s) : (machine P).Reach (fun _ a => a.faultless = true) s :=
  hs.reach.mono fun _ _ _ h => h.1

/-- Its messages are what they should be. -/
theorem typed (hs : Sound P s) : s.shared.Typed P :=
  (Conversation.typed (hs.reach.mono fun _ _ _ h => h.2)).1

theorem arrive (hs : Sound P s) (bytes : List UInt8) : Sound P (s.arrive bytes) := by
  have hok : (Conversation.Action.arrive bytes).faultless = true ∧ s.Contracts P (.arrive bytes) :=
    ⟨rfl, trivial⟩
  exact ⟨hs.reach.step hok rfl⟩

/-- What has got onto the wire is part of the messages started. -/
theorem sent_isPrefix (hs : Sound P s) : s.shared.sent <+: upTo s.messages s.messages.length := by
  have h := (List.prefix_append _ _).trans (streamInv_of_faultless hs.faultless).stream.sent_prefix
  rw [upTo, List.take_length, messages, List.map_map]
  exact h

end Sound

/-- Message `k` was started with ticket `k`. -/
theorem started_of_messages {s : Conversation V} (hs : (machine P).Reachable s) {k : ℕ}
    {m : ControlMessage} (hm : s.messages[k]? = some m) :
    s.shared.history.started[k]? = some (k, m) := by
  rw [messages, List.getElem?_map, Option.map_eq_some_iff] at hm
  obtain ⟨x, hx, rfl⟩ := hm
  have hk := KeySorted.key_of_getElem? (started_tickets hs) hx
  rw [hx, ← hk]

/-- The types of the requests started are those of the first awaited ones. -/
theorem requestTypes_isPrefix {s : Conversation V} (hs : (machine P).Reachable s) :
    requestTypes s.messages <+: s.shared.awaited.map fun x => x.2.requestType := by
  have heq : requestTypes s.messages
      = (requestsIn s.shared.history.started).map fun x => x.2.requestType := by
    simp [requestTypes, messages, requestsIn, List.filterMap_map, List.map_filterMap,
      Function.comp_def]
  rw [heq]
  exact (requests_isPrefix hs).map _

/-- **Replies and accepted requests.** A reply that was started as message `k` is to the accepted
request at the place it has among the replies. -/
theorem accepted_of_reply {s : Conversation V} (hs : (machine P).Reachable s) {k : ℕ}
    {m : ControlMessage} {ty : SshString} (hm : s.messages[k]? = some m) (hreply : m.isReply = true)
    (hacc : (k, ty) ∈ s.shared.history.accepted) :
    s.shared.history.accepted[(s.messages.take k).countP ControlMessage.isReply]? =
      some (k, ty) := by
  have hB := (ledgerInv hs).books
  have hstarted := started_of_messages hs hm
  have hcount : (s.messages.take k).countP ControlMessage.isReply
      = (s.shared.history.started.take k).countP fun x => x.2.isReply := by
    rw [messages, ← List.map_take, List.countP_map]
    rfl
  have hplace := Selection.getElem?_filter (p := fun x : ℕ × ControlMessage => x.2.isReply) hstarted
    hreply
  have hprefix := hB.replies_isPrefix (fun a => by cases a <;> rfl) (List.Subset.refl _)
    (started_tickets hs)
  have hticket : (s.shared.history.accepted.map Prod.fst)[(s.messages.take k).countP
      ControlMessage.isReply]? = some k := by
    refine Selection.getElem?_mono hprefix ?_
    rw [hcount, List.getElem?_map]
    simpa using ⟨_, hplace⟩
  obtain ⟨x, hx, hxk⟩ := Option.map_eq_some_iff.mp (List.getElem?_map .. ▸ hticket)
  have hsorted : KeySorted Prod.fst s.shared.history.accepted :=
    List.pairwise_map.mp hB.accepted_sorted
  rw [hx, hsorted.eq_of_key (List.mem_of_getElem? hx) hacc hxk]

namespace OneWay

variable {me peer : Conversation V}

/-- Where no step has crossed, the response at place `k` is awaited by the request that has this
place among the requests. -/
theorem awaited_of_matched (h : OneWay P me peer) {k w : ℕ} {rq : GlobalRequest}
    {m : ControlMessage}
    (hop : me.shared.history.readOps[k]? = some (.response rq w))
    (hm : peer.messages[k]? = some m) :
    me.shared.awaited[(peer.messages.take k).countP ControlMessage.isReply]? = some (w, rq) := by
  have hcount : (me.shared.history.readOps.take k).countP (fun op => op.pair.isSome)
      = (peer.messages.take k).countP ControlMessage.isReply := by
    refine Selection.countP_take_eq (List.getElem?_eq_some_iff.mp hop).1.le
      (List.getElem?_eq_some_iff.mp hm).1.le fun i op' m' _ hop' hm' => ?_
    rw [← h.matched hop' hm']
    cases op' <;> rfl
  rw [← hcount]
  exact Selection.getElem?_filterMap hop rfl

/-- **Messages fit their readers.** -/
theorem fits (h : OneWay P me peer) (hback : OneWay P peer me) (hme : Sound P me)
    (hpeer : Sound P peer) {k : ℕ} {op : ReadOp} {m : ControlMessage}
    (hop : me.shared.history.readOps[k]? = some op) (hm : peer.messages[k]? = some m) :
    Fits P op m := by
  have hkind := h.matched hop hm
  have hmem := List.mem_of_getElem? (started_of_messages hpeer.reachable hm)
  cases op with
  | accept => cases m with
    | globalRequest rq wantReply =>
      obtain ⟨hname, v, hv⟩ := hpeer.typed.known hmem
      exact .request hname hv
    | requestSuccess | requestFailure => cases hkind
  | response rq w => cases m with
    | globalRequest => cases hkind
    | requestFailure => exact .failure
    | requestSuccess response =>
      -- the reply is to the request that was accepted with ticket `k`, …
      have hB := (ledgerInv hpeer.reachable).books
      have hacc : k ∈ peer.shared.ledger.accepted := by
        by_contra hnot
        exact (hB.started_plain hmem hnot).2 rfl
      obtain ⟨a, ha, hreply⟩ := hB.started_accepted hmem hacc
      obtain rfl : a = .success response := by
        cases a with
        | success => cases hreply; rfl
        | failure => cases hreply
      obtain ⟨ty, hty, hreplies⟩ := hpeer.typed.replies ha
      -- … whose type is that of the request with this place among the requests of `me`
      have hplace := accepted_of_reply hpeer.reachable hm rfl hty
      have hawaited := h.awaited_of_matched hop hm
      have hprefix := hback.synced.accepted_isPrefix.trans (requestTypes_isPrefix hme.reachable)
      have htypes := Selection.getElem?_mono hprefix (x := ty)
        (by rw [List.getElem?_map, hplace]; rfl)
      rw [List.getElem?_map, hawaited] at htypes
      obtain rfl : rq.requestType = ty := Option.some.inj htypes
      exact hreplies.fits w

/-- The reader takes a step. -/
theorem step_me {me' : Conversation V} {i : ℕ} {e : Event} (h : OneWay P me peer)
    (hback : OneWay P peer me) (hme : Sound P me) (hpeer : Sound P peer)
    (hquits : (me.tasks i).quits e = false) (hcross : me.crosses peer i e = false)
    (hstep : me.step P (.task i e) = some me') : OneWay P me' peer := by
  obtain ⟨pc', hst, -⟩ := step_task hstep
  refine ⟨hst.stream_eq ▸ h.arrived,
    h.synced.step hme.reachable (fun hop hm => h.fits hback hme hpeer hop hm) hquits hstep,
    fun {k op m} hop hm => ?_⟩
  rw [hst.readOps_eq] at hop
  rcases Selection.getElem?_append_toList hop with hop | ⟨rfl, htakes⟩
  · exact h.matched hop hm
  · rw [crosses, htakes, Option.any_some, hm, Option.any_some, Bool.or_eq_false_iff] at hcross
    exact of_not_not fun hne => by simp [hne] at hcross

/-- The sender takes a step. -/
theorem step_peer {peer' : Conversation V} {i : ℕ} {e : Event} (h : OneWay P me peer)
    (hcross : peer.crosses me i e = false) (hstep : peer.step P (.task i e) = some peer') :
    OneWay P me peer' := by
  obtain ⟨pc', hst, -⟩ := step_task hstep
  obtain ⟨hstarted, hsent⟩ := hst.sent_mono
  refine ⟨h.arrived.trans hsent, h.synced.mono (hstarted.map _), fun {k op m} hop hm => ?_⟩
  rw [messages, hst.started_eq] at hm
  rcases Selection.getElem?_append_toList hm with hm | ⟨rfl, hstarts⟩
  · exact h.matched hop hm
  · rw [crosses, hstarts, Bool.or_eq_false_iff, Option.any_some] at hcross
    have hkind := hcross.2
    rw [show peer.messages.length = (peer.shared.history.started.map Prod.snd).length from rfl, hop,
      Option.any_some] at hkind
    exact of_not_not fun hne => by simp [hne] at hkind

/-- Bytes that are on the wire arrive. -/
theorem arrive (h : OneWay P me peer) (hpeer : Sound P peer) {bytes : List UInt8}
    (hbytes : me.shared.history.consumed ++ me.shared.incoming ++ bytes <+: peer.shared.sent) :
    OneWay P (me.arrive bytes) peer where
  arrived := by
    rw [List.append_assoc] at hbytes
    exact hbytes
  synced := h.synced.arrive (hbytes.trans hpeer.sent_isPrefix)
  matched := h.matched

/-- Bytes arrive at the sender. -/
theorem arrive_peer (h : OneWay P me peer) (bytes : List UInt8) : OneWay P me (peer.arrive bytes) :=
  ⟨h.arrived, h.synced, h.matched⟩

end OneWay

end Conversation

/-! ## Both directions

The two sides have the same program, so what has been shown with one of them as the reader holds
with the other. Both directions are needed at once, since replies are sent by the side that has
read requests. -/

/-- The two sides. -/
inductive Side where
  | left
  | right
  deriving DecidableEq

/-- The other one. -/
def Side.other : Side → Side
  | left => right
  | right => left

/-- There are two. -/
@[simp] theorem Side.other_other (x : Side) : x.other.other = x := by cases x <;> rfl

/-- They differ. -/
theorem Side.other_ne (x : Side) : x.other ≠ x := by cases x <;> nofun

/-- What holds of every side: of one and of the other. -/
theorem Side.forall_iff (x : Side) {Q : Side → Prop} : (∀ y, Q y) ↔ Q x ∧ Q x.other := by
  constructor
  · exact fun h => ⟨h x, h x.other⟩
  · rintro ⟨h, h'⟩ y
    cases x <;> cases y <;> assumption

/-- The conversations of both sides. -/
abbrev Duplex (V : Type) := Side → Conversation V

namespace Duplex

open Conversation

variable {V : Type} {P : GlobalProtocol V} {s s' : Duplex V}

/-- One side takes a step, or bytes the other side has sent arrive. -/
inductive Action where
  /-- An atomic operation of a task of one side. -/
  | task (x : Side) (i : ℕ) (e : Event)
  /-- So many bytes arrive at one side. -/
  | deliver (x : Side) (n : ℕ)

/-- The next `n` bytes on their way to `x`. -/
def nextBytes (s : Duplex V) (x : Side) (n : ℕ) : List UInt8 :=
  ((s x.other).shared.sent.drop
    ((s x).shared.history.consumed ++ (s x).shared.incoming).length).take n

/-- One step of the two. -/
def step (P : GlobalProtocol V) (s : Duplex V) : Action → Option (Duplex V)
  | .task x i e => ((s x).step P (.task i e)).map (Function.update s x)
  | .deliver x n => some (Function.update s x ((s x).arrive (s.nextBytes x n)))

/-- Two conversations that have just begun. -/
def machine (P : GlobalProtocol V) : Machine (Duplex V) Action :=
  ⟨fun _ => Conversation.initial, step P⟩

/-- No I/O error and no cancellation, every accepted request is decoded, and callers keep their
promises. -/
def Proper (P : GlobalProtocol V) (s : Duplex V) : Action → Prop
  | .task x i e => ((s x).tasks i).quits e = false ∧ ((s x).tasks i).Contracts P e
  | .deliver _ _ => True

/-- A step crosses. -/
def crosses (s : Duplex V) : Action → Bool
  | .task x i e => (s x).crosses (s x.other) i e
  | .deliver _ _ => false

/-- Both directions are in step. -/
structure Inv (P : GlobalProtocol V) (s : Duplex V) : Prop where
  /-- Each side by itself. -/
  sound : ∀ x, Sound P (s x)
  /-- Each direction. -/
  oneWay : ∀ x, OneWay P (s x) (s x.other)

/-- Nothing has been sent. -/
theorem Inv.initial (P : GlobalProtocol V) : Inv P (machine P).init where
  sound _ := ⟨.init⟩
  oneWay _ := ⟨List.prefix_rfl, .initial P, fun h => by cases h⟩

/-- A step that does not cross keeps both directions in step. -/
theorem Inv.step {a : Action} (hI : Inv P s) (hok : Proper P s a) (hcross : s.crosses a = false)
    (h : s.step P a = some s') : Inv P s' := by
  cases a with
  | task x i e =>
    obtain ⟨c, hc, rfl⟩ := Option.map_eq_some_iff.mp h
    have hfaultless : (Conversation.Action.task i e).faultless = true := by
      cases e with
      | ioError | cancel => cases hok.1
      | _ => rfl
    have hsound : Sound P c := ⟨(hI.sound x).reach.step ⟨hfaultless, hok.2⟩ hc⟩
    have hback : OneWay P (s x.other) (s x) := by simpa using hI.oneWay x.other
    refine ⟨(Side.forall_iff x).mpr ?_, (Side.forall_iff x).mpr ?_⟩
    · rw [Function.update_self, Function.update_of_ne x.other_ne]
      exact ⟨hsound, hI.sound x.other⟩
    · rw [Side.other_other, Function.update_self, Function.update_of_ne x.other_ne]
      exact ⟨(hI.oneWay x).step_me hback (hI.sound x) (hI.sound x.other) hok.1 hcross hc,
        hback.step_peer hcross hc⟩
  | deliver x n =>
    obtain rfl := Option.some.inj h
    have hsound := (hI.sound x).arrive (s.nextBytes x n)
    have hback : OneWay P (s x.other) (s x) := by simpa using hI.oneWay x.other
    have hbytes : (s x).shared.history.consumed ++ (s x).shared.incoming ++ s.nextBytes x n
        <+: (s x.other).shared.sent := by
      obtain ⟨rest, hrest⟩ := (hI.oneWay x).arrived
      rw [nextBytes, ← hrest, List.drop_left, List.prefix_append_right_inj]
      exact List.take_prefix _ _
    refine ⟨(Side.forall_iff x).mpr ?_, (Side.forall_iff x).mpr ?_⟩
    · rw [Function.update_self, Function.update_of_ne x.other_ne]
      exact ⟨hsound, hI.sound x.other⟩
    · rw [Side.other_other, Function.update_self, Function.update_of_ne x.other_ne]
      exact ⟨(hI.oneWay x).arrive (hI.sound x.other) hbytes, hback.arrive_peer _⟩

/-- Both sides read what is for them. -/
structure InStep (P : GlobalProtocol V) (s : Duplex V) : Prop where
  /-- No side is poisoned. -/
  poisoned : ∀ x, (s x).shared.poisoned = false
  /-- What an operation has consumed is part of one message of the other side, which is a response
  exactly if the operation awaits one. -/
  readers : ∀ {x i t op got}, ((s x).tasks i).reading = some (t, op, got) → got ≠ [] →
    ∃ m, (s x.other).messages[t]? = some m ∧ got <+: m.encode ∧ op.isResponse = m.isReply
  /-- An operation that has finished has not failed to accept or to decode, and a request has
  returned what its response says. -/
  outcomes : ∀ {x i o}, (s x).tasks i = .finished o → o.Answered P (s x.other).messages

/-- **In step.** In runs without a crossing step, no side is poisoned, and responses are read by
requests and requests are read by those that accept them. -/
theorem inStep (hs : (machine P).Reach (fun s a => Proper P s a ∧ s.crosses a = false) s) :
    InStep P s := by
  have hI : Inv P s := hs.invariant (.initial P) fun _ hI hok h => hI.step hok.1 hok.2 h
  refine ⟨fun x => (hI.oneWay x).synced.poisoned, fun {x i t op got} hreading hgot => ?_,
    fun {x i o} hfinished => ?_⟩
  · have hback : OneWay P (s x.other) (s x) := by simpa using hI.oneWay x.other
    have hop : (s x).shared.history.readOps[t]? = some op :=
      readOps_of_claims (hI.sound x).reachable (i := i) (Pc.claims_of_reading hreading)
    obtain ⟨m, hm, hfits, hpart⟩ := ((hI.oneWay x).synced.tasks i).exists_message
      (hI.oneWay x).synced.stream
      (fun m hm => (hI.oneWay x).fits hback (hI.sound x) (hI.sound x.other) hop hm) hreading hgot
    exact ⟨m, hm, hpart, hfits.isResponse_eq⟩
  · have htask := (hI.oneWay x).synced.tasks i
    rw [hfinished] at htask
    exact htask

/-! ## Runs with and without a crossing step

The two runs differ in one call. In the second one the left side has called
`accept_global_request` before it sends its request, and has the earlier reader ticket. The peer
sends no request but a refusal, and the call that accepts gets it. -/

/-- One side sends a request; the other accepts and refuses it, and the refusal arrives. -/
def refusedRequest (x : Side) : List Action :=
  .task x 1 (.sendGlobalRequest ⟨"", []⟩) :: List.replicate 10 (.task x 1 .run) ++
    [.task x 1 (.write 4), .task x 1 (.push 4)] ++
    .task x.other 0 .acceptGlobalRequest :: .deliver x.other 4 ::
    List.replicate 8 (.task x.other 0 .run) ++
    .task x.other 0 .decodePayload :: List.replicate 4 (.task x.other 0 .run) ++
    .task x.other 0 (.respond .failure) :: List.replicate 6 (.task x.other 0 .run) ++
    [.task x.other 0 (.write 2), .task x.other 0 (.push 2), .deliver x 2]

/-- One side sends a request, and reads the refusal; the tasks on both sides come to their end. -/
def refusalRead (x : Side) : List Action :=
  refusedRequest x ++ List.replicate 13 (.task x 1 .run) ++ List.replicate 4 (.task x.other 0 .run)

/-- First the left side sends a request, then the right side. -/
def straightRun : List Action := refusalRead .left ++ refusalRead .right

/-- Before it sends the request, the left side has called `accept_global_request`. -/
def crossedRun : List Action :=
  .task .left 0 .acceptGlobalRequest :: refusedRequest .left ++
    List.replicate 5 (.task .left 0 .run)

/-- In the protocol with empty payloads, what is proper in every state. -/
def Action.plain : Action → Bool
  | .task _ _ (.sendGlobalRequest rq) => decide (rq = ⟨"", []⟩)
  | .task _ _ (.sendGlobalNotification _) => false
  | .task _ _ (.respond a) => decide (a = .failure)
  | .task _ _ .drop => false
  | .task _ _ .ioError => false
  | .task _ _ .cancel => false
  | _ => true

/-- Such actions are proper. -/
theorem Action.proper_of_plain {s : Duplex Unit} {a : Action} (h : a.plain = true) :
    Proper .empty s a := by
  cases a with
  | deliver x n => trivial
  | task x i e =>
    generalize hpc : (s x).tasks i = pc
    rw [Proper, hpc]
    cases e with
    | sendGlobalRequest rq =>
      obtain rfl : rq = ⟨"", []⟩ := of_decide_eq_true h
      refine ⟨by cases pc <;> rfl, ?_⟩
      cases pc <;> exact ⟨by decide, (), rfl⟩
    | respond a =>
      obtain rfl : a = .failure := of_decide_eq_true h
      cases pc <;> exact ⟨rfl, trivial⟩
    | sendGlobalNotification | drop | ioError | cancel => cases h
    | _ => cases pc <;> exact ⟨rfl, trivial⟩

/-- In a run without a crossing step, both sides accept a request and read the refusal of theirs. -/
theorem straightRun_inStep :
    ∃ s, (machine .empty).exec (machine .empty).init straightRun = some s ∧
      (s .left).shared.history.consumed = ControlMessage.requestFailure.encode ++
        (ControlMessage.globalRequest ⟨"", []⟩ true).encode ∧
      (s .right).shared.history.consumed = (ControlMessage.globalRequest ⟨"", []⟩ true).encode ++
        ControlMessage.requestFailure.encode ∧
      InStep .empty s := by
  obtain ⟨s, hs, htest⟩ := (Option.any_eq_true
    (fun s : Duplex Unit =>
      decide ((s .left).shared.history.consumed = ControlMessage.requestFailure.encode ++
          (ControlMessage.globalRequest ⟨"", []⟩ true).encode ∧
        (s .right).shared.history.consumed = (ControlMessage.globalRequest ⟨"", []⟩ true).encode ++
          ControlMessage.requestFailure.encode))
    ((machine .empty).exec (machine .empty).init straightRun)).mp (by decide +kernel)
  obtain ⟨hleft, hright⟩ := of_decide_eq_true htest
  have hplain : ∀ x ∈ (machine .empty).trace (machine .empty).init straightRun,
      x.2.plain = true ∧ x.1.crosses x.2 = false := by decide +kernel
  exact ⟨s, hs, hleft, hright, inStep ((Machine.Path.of_exec hs).reach fun x hx =>
    ⟨Action.proper_of_plain (hplain x hx).1, (hplain x hx).2⟩)⟩

/-- **A crossed run.** Every step is proper. The operation on the left that accepts has consumed the
response to the request, and with its next two steps it poisons the session. -/
theorem crossedRun_poisoned :
    ∃ s s', (machine .empty).Reach (Proper .empty) s ∧
      ((s .left).tasks 0).reading = some (0, .accept, sshMsgRequestFailure.encode) ∧
      (s .right).messages[0]? = some .requestFailure ∧
      (machine .empty).Reach (Proper .empty) s' ∧
      (machine .empty).exec s [.task .left 0 .run, .task .left 0 .run] = some s' ∧
      (s' .left).shared.poisoned = true := by
  obtain ⟨s, hs, htest⟩ := (Option.any_eq_true
    (fun s : Duplex Unit =>
      decide (((s .left).tasks 0).reading = some (0, .accept, sshMsgRequestFailure.encode)) &&
        (decide ((s .right).messages[0]? = some ControlMessage.requestFailure) &&
          ((machine .empty).exec s [.task .left 0 .run, .task .left 0 .run]).any
            fun s' : Duplex Unit => (s' .left).shared.poisoned))
    ((machine .empty).exec (machine .empty).init crossedRun)).mp (by decide)
  simp only [Bool.and_eq_true, decide_eq_true_eq] at htest
  obtain ⟨hreading, hmessage, hpoisoned⟩ := htest
  obtain ⟨s', hs', hpoisoned⟩ := (Option.any_eq_true _ _).mp hpoisoned
  have hplain : ∀ x ∈ (machine .empty).trace (machine .empty).init
      (crossedRun ++ [.task .left 0 .run, .task .left 0 .run]), x.2.plain = true := by decide
  have hexec : (machine .empty).exec (machine .empty).init
      (crossedRun ++ [.task .left 0 .run, .task .left 0 .run]) = some s' := by
    rw [Machine.exec_append, hs, Option.bind_some, hs']
  have hplain' : ∀ x ∈ (machine .empty).trace (machine .empty).init crossedRun,
      x.2.plain = true := by decide
  exact ⟨s, s', (Machine.Path.of_exec hs).reach fun x hx => Action.proper_of_plain (hplain' x hx),
    hreading, hmessage,
    (Machine.Path.of_exec hexec).reach fun x hx => Action.proper_of_plain (hplain x hx), hs',
    hpoisoned⟩

end Duplex

end Dssh
