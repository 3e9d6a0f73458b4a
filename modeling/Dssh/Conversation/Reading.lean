import Dssh.Conversation.Incoming
import Dssh.Conversation.Requests

/-!
# Reading the messages of the peer

What the peer sends is a list of control messages, the *feed*. The reader with ticket `t` is the
one that reads message `t` of it: this module shows that a conversation stays in step with the
feed in this sense, as long as every message fits the operation that took its ticket and nobody
gives up in the middle of a message. It does not say where the feed comes from or why it fits.

## Why there is anything to show

The control stream has no frames. Where a message ends is known to the decoder of that message
alone, and which decoder runs is decided by the operation, not by the bytes:
`accept_global_request` decodes a header, `send_global_request` a response, and the body of the
response by the type of *its* request. Tickets number the operations, and nothing numbers the
messages. That the two numberings agree is an invariant of the whole run. It says of every
reader how far into its message it is, and of the moment between two readers that it is the
border between two messages.

Reading a message of `accept_global_request` takes two calls. The guard moves into the incoming
object, and from there into `decode_payload`. In between, the message is read up to its payload,
and the object is what keeps the next reader out (`Pc.ReadsFrom` at `incoming`).

## Two conditions

*The messages fit* (`Fits`). A request fits `accept_global_request` if its name is within the
limit and its contents decode. A response fits the request it is read by if the contents of the
success decode as its response. Both are properties of the feed and of the order of the
operations, and the modules that use this one prove them from a peer that answers in order.

*Nobody gives up* (`Pc.quits`). An I/O error, a dropped future, and an object dropped before it
is decoded end a read in the middle of a message. The code poisons the session then, and nothing
is claimed of what is read later.

## How the step lemma goes

A task's place says what it has consumed (`Pc.reading`), so one byte more is one case for the
three decoders. What a decoder that has stopped has read is worked out once for headers,
responses and payloads (`header_of_halted`, `response_of_halted`, `payload_of_halted`). For the
tasks that do not hold the reader guard, nothing they rely on has changed
(`Pc.ReadsFrom.of_none`).

## Main definitions

* `Fits` — a message fits the operation that reads it
* `ReadUpTo` — how much of the feed has been read
* `Pc.ReadsFrom` — where a task stands in the feed
* `Conversation.Synced` — the conversation is in step with the feed

## Main results

* `Pc.Steps.readsFrom` — a reader that is in step with the feed stays so
* `Conversation.Synced.step` — and so does the conversation
* `Conversation.Synced.mono` — the feed may grow
-/

namespace Dssh

namespace Conversation

variable {V : Type}

/-! ## What decodes as what

The decoders of the two reading operations, on the messages that the sending operations write.
The type of a request, its flag and its payload are read one after the other; a response is read
by what the request expects. -/

namespace ControlMessage

/-- The bytes of a request before its payload. -/
def header (ty : SshString) (wantReply : Bool) : List UInt8 :=
  sshMsgGlobalRequest.encode ++ (SshString.encode ty ++ SshBool.encode wantReply)

/-- A global request is its header and its payload. -/
theorem encode_globalRequest (rq : GlobalRequest) (wantReply : Bool) :
    (globalRequest rq wantReply).encode = header rq.requestType wantReply ++ rq.payload := by
  simp [encode, fields, header]

/-- A success is its message type and the encoded response. -/
theorem encode_requestSuccess (response : List UInt8) :
    (requestSuccess response).encode = sshMsgRequestSuccess.encode ++ response := by
  simp [encode, fields]

/-- A failure is its message type alone. -/
theorem encode_requestFailure : requestFailure.encode = sshMsgRequestFailure.encode := by
  simp [encode, fields]

end ControlMessage

open ControlMessage

/-- **Headers.** What a request is sent as is what `accept_global_request` decodes. -/
theorem accepts_header {ty : SshString} (wantReply : Bool)
    (hname : (SshString.utf8 ty).length ≤ maxRemoteFieldSize) :
    acceptHeader.Accepts (header ty wantReply) (ty, wantReply) := by
  refine Decoder.Accepts.bind (VarInt.accepts_encode _ _) ?_
  rw [if_neg (not_not.mpr rfl)]
  refine Decoder.Accepts.bind (Decoder.accepts_mapError.mpr (SshString.accepts_encode hname)) ?_
  have hreply :=
    Decoder.Accepts.bind (y := []) (f := fun wr => (pure (ty, wr) : Decoder AcceptError _))
    (Decoder.accepts_mapError (f := AcceptError.decodeWantReply).mpr
      (SshBool.accepts_encode wantReply)) (b := (ty, wantReply)) rfl
  simpa using hreply

/-- What a success is sent as is what `send_global_request` decodes. -/
theorem responseDecoder_success {P : GlobalProtocol V} {ty : SshString}
    {response : List UInt8} {v : V} (h : (P.success ty).Accepts response v) :
    (responseDecoder P ty).after (requestSuccess response).encode = some (.done v) := by
  rw [encode_requestSuccess]
  refine Decoder.Accepts.bind (VarInt.accepts_encode _ _) ?_
  rw [if_pos rfl]
  exact Decoder.accepts_mapError.mpr h

/-- What a failure is sent as is what `send_global_request` decodes as a rejection. -/
theorem responseDecoder_failure (P : GlobalProtocol V) (ty : SshString) :
    (responseDecoder P ty).after requestFailure.encode = some (.fail .rejected) := by
  have htype := Decoder.after_bind (VarInt.accepts_encode SendRequestError.decodeResponseType
    sshMsgRequestFailure) fun mt =>
      if mt = sshMsgRequestSuccess then (P.success ty).mapError SendRequestError.decodeSuccess
      else if mt = sshMsgRequestFailure then .fail .rejected else .fail (.unexpectedResponseType mt)
  rw [encode_requestFailure]
  exact htype

/-- A message fits the operation that reads it: it is of the kind the operation is for, and its
contents decode. -/
inductive Fits (P : GlobalProtocol V) : ReadOp → ControlMessage → Prop
  | request {rq : GlobalRequest} {wantReply : Bool} {v : V}
      (hname : (SshString.utf8 rq.requestType).length ≤ maxRemoteFieldSize)
      (hbody : (P.payload rq.requestType).Accepts rq.payload v) :
      Fits P .accept (.globalRequest rq wantReply)
  | success {rq : GlobalRequest} {w : ℕ} {response : List UInt8} {v : V}
      (hbody : (P.success rq.requestType).Accepts response v) :
      Fits P (.response rq w) (.requestSuccess response)
  | failure {rq : GlobalRequest} {w : ℕ} : Fits P (.response rq w) .requestFailure

/-- A response is awaited. -/
def ReadOp.isResponse : ReadOp → Bool
  | accept => false
  | response _ _ => true

/-- A message that fits is a response exactly if a response is awaited. -/
theorem Fits.isResponse_eq {P : GlobalProtocol V} {op : ReadOp} {m : ControlMessage}
    (h : Fits P op m) : op.isResponse = m.isReply := by cases h <;> rfl

/-- What a request with type `ty` returns when `m` is its response. -/
def ControlMessage.Gives (P : GlobalProtocol V) (ty : SshString) :
    ControlMessage → Except SendRequestError V → Prop
  | requestSuccess response, .ok v => (P.success ty).Accepts response v
  | requestFailure, .error .rejected => True
  | _, _ => False

/-- An answer to a request with type `ty` is a failure or encodes a reply to it. -/
def Replies (P : GlobalProtocol V) (ty : SshString) : Answer → Prop
  | .success response => ∃ v, (P.success ty).Accepts response v
  | .failure => True

/-- An answer that encodes a reply to a request fits its reader. -/
theorem Replies.fits {P : GlobalProtocol V} {rq : GlobalRequest} {a : Answer}
    (h : Replies P rq.requestType a) (w : ℕ) : Fits P (.response rq w) (.ofAnswer a) := by
  cases a with
  | success response =>
    obtain ⟨v, hv⟩ := h
    exact .success hv
  | failure => exact .failure

/-! ## Places in the feed

The feed is what the peer has sent, message by message. It may grow, and all that has been said
of its beginning remains true. `ReadUpTo` says how far the conversation has read, and which of
the requests it has accepted. -/

/-- The bytes of the first `n` messages. -/
def upTo (feed : List ControlMessage) (n : ℕ) : List UInt8 := ((feed.take n).map encode).flatten

/-- One message more. -/
theorem upTo_succ {feed : List ControlMessage} {t : ℕ} {m : ControlMessage}
    (h : feed[t]? = some m) :
    upTo feed (t + 1) = upTo feed t ++ m.encode := by
  simp [upTo, List.take_add_one, h]

/-- Where the feed grows, what was sent before stays. -/
theorem upTo_mono {feed feed' : List ControlMessage} (h : feed <+: feed') {n : ℕ}
    (hn : n ≤ feed.length) : upTo feed' n = upTo feed n := by
  obtain ⟨more, rfl⟩ := h
  rw [upTo, List.take_append_of_le_length hn, upTo]

/-- Where something has been consumed of what follows the first `t` messages, there is another
message. -/
theorem exists_message {feed : List ControlMessage} {t : ℕ} {got incoming : List UInt8}
    (h : upTo feed t ++ got ++ incoming <+: upTo feed feed.length) (hgot : got ≠ []) :
    ∃ m us vs, feed[t]? = some m ∧ got ++ us = m.encode ++ vs := by
  have hsplit : upTo feed feed.length = upTo feed t ++ ((feed.drop t).map encode).flatten := by
    rw [upTo, upTo, List.take_length, ← List.flatten_append, ← List.map_append,
      List.take_append_drop]
  rw [hsplit, List.append_assoc, List.prefix_append_right_inj] at h
  obtain ⟨zs, hzs⟩ := h
  cases hdrop : feed.drop t with
  | nil =>
    rw [hdrop] at hzs
    simp [hgot] at hzs
  | cons m ms =>
    rw [hdrop, List.map_cons, List.flatten_cons, List.append_assoc] at hzs
    refine ⟨m, _, _, ?_, hzs⟩
    rw [← List.head?_drop, hdrop, List.head?_cons]

/-- The types of the requests that want a reply. -/
def requestTypes (messages : List ControlMessage) : List SshString :=
  messages.filterMap fun m => m.request?.map GlobalRequest.requestType

/-- One message more adds the type of one request, or none. -/
theorem requestTypes_take_succ {feed : List ControlMessage} {t : ℕ} {m : ControlMessage}
    (h : feed[t]? = some m) : requestTypes (feed.take (t + 1))
      = requestTypes (feed.take t) ++ (m.request?.map GlobalRequest.requestType).toList := by
  simp only [requestTypes, List.take_add_one, h, List.filterMap_append, Option.toList_some]
  cases hrq : m.request? with
  | none => simp [hrq]
  | some rq => simp [hrq]

/-- How much of the feed has been read: `n` messages and `got`. The requests among the first `k`
messages have been accepted. -/
structure ReadUpTo (feed : List ControlMessage) (sh : Shared) (n k : ℕ)
    (got : List UInt8) : Prop where
  /-- The bytes of the messages before the `n`th, and `got` of that one. -/
  consumed : sh.history.consumed = upTo feed n ++ got
  /-- The requests among the first `k` messages have been returned to somebody. -/
  accepted : sh.history.accepted.map Prod.snd = requestTypes (feed.take k)
  /-- There are that many. -/
  le_length : k ≤ feed.length

/-- What has been read is unaffected where the feed grows. -/
theorem ReadUpTo.mono {feed feed' : List ControlMessage} {sh : Shared} {n k : ℕ} {got : List UInt8}
    (hpos : ReadUpTo feed sh n k got) (h : feed <+: feed') (hn : n ≤ k) :
    ReadUpTo feed' sh n k got := by
  obtain ⟨hconsumed, haccepted, hle⟩ := hpos
  refine ⟨?_, ?_, hle.trans h.length_le⟩
  · rw [upTo_mono h (hn.trans hle), hconsumed]
  · obtain ⟨more, rfl⟩ := h
    rw [List.take_append_of_le_length hle, haccepted]

/-- A whole message has been consumed. -/
theorem ReadUpTo.next {feed : List ControlMessage} {sh : Shared} {t k : ℕ} {m : ControlMessage}
    (hpos : ReadUpTo feed sh t k m.encode) (hm : feed[t]? = some m) :
    ReadUpTo feed sh (t + 1) k [] := by
  refine ⟨?_, hpos.accepted, hpos.le_length⟩
  rw [hpos.consumed, upTo_succ hm, List.append_nil]

/-! ## Where a reader stands

The reader with ticket `t` reads message `t`. Before it has the guard, nothing is known of it but
its ticket; with the guard, what it has consumed is the beginning of its message; and behind the
message it releases the guard. -/

/-- What an operation can return on a feed whose messages fit: a request, what its response gives;
and no failure to accept or to decode. -/
def Outcome.Answered (P : GlobalProtocol V) (feed : List ControlMessage) : Outcome V → Prop
  | request rq _ r result => ∃ m, feed[r]? = some m ∧ m.Gives P rq.requestType result
  | accept _ => False
  | payload _ => False
  | _ => True

/-- What is returned after drop glue. -/
def After.Answered (P : GlobalProtocol V) (feed : List ControlMessage) : After V → Prop
  | finish o => o.Answered P feed
  | _ => True

/-- Drop glue leaves the session as it is, and releases a reader guard behind the guard's message.
-/
structure Releases (feed : List ControlMessage) (sh : Shared) (acts : List DropAct) : Prop where
  /-- The guards are not dropped in the middle of a message. -/
  not_poison : DropAct.storePoison ∉ acts
  /-- A ticket is passed on behind the message that it stands for. -/
  behind : ∀ {t}, DropAct.advanceReader t ∈ acts → ReadUpTo feed sh (t + 1) (t + 1) []

/-- Where a task stands in the feed: the reader with ticket `t` is at message `t`. -/
def Pc.ReadsFrom (P : GlobalProtocol V) (feed : List ControlMessage) (sh : Shared) : Pc V → Prop
  | readingHeader t got d => ReadUpTo feed sh t t got ∧ acceptHeader.after got = some d
  | readingResponse rq _ t got d =>
    ReadUpTo feed sh t t got ∧ (responseDecoder P rq.requestType).after got = some d
  | incoming ty t _ got =>
    ReadUpTo feed sh t (t + 1) got ∧ ∃ rq wantReply, feed[t]? = some (.globalRequest rq wantReply) ∧
      ty = rq.requestType ∧ got = header ty wantReply
  | readingPayload ty t _ got d =>
    ReadUpTo feed sh t (t + 1) got ∧ ∃ rq wantReply body,
      feed[t]? = some (.globalRequest rq wantReply) ∧ ty = rq.requestType ∧
      got = header ty wantReply ++ body ∧ (P.payload ty).after body = some d
  | unwinding acts next => Releases feed sh acts ∧ next.Answered P feed
  | finished o => o.Answered P feed
  | _ => True

/-- An operation is given up: its I/O fails, its future is dropped, or an incoming object is dropped
before it is decoded. -/
def Pc.quits : Pc V → Event → Bool
  | _, .ioError => true
  | _, .cancel => true
  | .incoming _ _ _ _, .drop => true
  | _, _ => false

/-- Drop glue without a reader guard. -/
theorem Releases.of_readerGuards {feed : List ControlMessage} {sh : Shared} {acts : List DropAct}
    (hpoison : DropAct.storePoison ∉ acts) (h : acts.filterMap DropAct.readerGuard = []) :
    Releases feed sh acts := by
  refine ⟨hpoison, fun {t} ht => ?_⟩
  have hmem : t ∈ acts.filterMap DropAct.readerGuard := List.mem_filterMap.mpr ⟨_, ht, rfl⟩
  rw [h] at hmem
  cases hmem

/-- The guard is dropped behind its message. -/
theorem Releases.dropReaderGuard {feed : List ControlMessage} {sh : Shared} {t : ℕ}
    (hpos : ReadUpTo feed sh (t + 1) (t + 1) []) : Releases feed sh (dropReaderGuard t) := by
  refine ⟨by simp [Conversation.dropReaderGuard], fun {u} hu => ?_⟩
  obtain rfl : u = t := by simpa [Conversation.dropReaderGuard] using hu
  exact hpos

/-- What is written awaits no response, or has its reader still to come. -/
theorem WriteOp.answered_written (P : GlobalProtocol V) (feed : List ControlMessage) (op : WriteOp)
    (t : ℕ) : (op.written t : After V).Answered P feed := by cases op <;> trivial

/-- Behind drop glue there is an outcome, or a message to read. -/
theorem After.readsFrom_resume {P : GlobalProtocol V} {feed : List ControlMessage} {sh : Shared}
    {next : After V} (h : next.Answered P feed) : next.resume.ReadsFrom P feed sh := by
  cases next with
  | finish o => exact h
  | _ => trivial

/-! ## What the reader of a message finds

A decoder that has stopped has read what was written, since the messages fit. These are the
places where the round trips of the codecs are used. -/

section Reader

variable {P : GlobalProtocol V} {feed : List ControlMessage} {sh : Shared} {t : ℕ}
  {got : List UInt8}

/-- **Headers.** Where the header decoder has stopped, the message is a request and its header has
been consumed. -/
theorem header_of_halted {d : Decoder AcceptError (SshString × Bool)}
    (hpos : ReadUpTo feed sh t t got)
    (hstream : sh.history.consumed ++ sh.incoming <+: upTo feed feed.length)
    (hfits : ∀ m, feed[t]? = some m → Fits P .accept m) (hafter : acceptHeader.after got = some d)
    (hd : d.Halted) : ∃ rq wantReply, feed[t]? = some (.globalRequest rq wantReply) ∧
      got = header rq.requestType wantReply ∧ d = .done (rq.requestType, wantReply) := by
  have hgot : got ≠ [] := by
    rintro rfl
    rw [Decoder.after_nil, Option.some.injEq] at hafter
    subst hafter
    exact hd
  rw [hpos.consumed] at hstream
  obtain ⟨m, us, vs, hm, hbytes⟩ := exists_message hstream hgot
  cases hfits m hm with
  | @request rq wantReply v hname hbody =>
    rw [encode_globalRequest, List.append_assoc] at hbytes
    obtain ⟨hheader, hdone⟩ := Decoder.after_halted_unique hafter hd
      (accepts_header wantReply hname) (Decoder.halted_done _) hbytes
    exact ⟨rq, wantReply, hm, hheader, hdone⟩

/-- **Responses.** Where the response decoder has stopped, the message is a response and has been
consumed. -/
theorem response_of_halted {rq : GlobalRequest} {w : ℕ} {d : Decoder SendRequestError V}
    (hpos : ReadUpTo feed sh t t got)
    (hstream : sh.history.consumed ++ sh.incoming <+: upTo feed feed.length)
    (hfits : ∀ m, feed[t]? = some m → Fits P (.response rq w) m)
    (hafter : (responseDecoder P rq.requestType).after got = some d) (hd : d.Halted) :
    ∃ m, feed[t]? = some m ∧ m.request? = none ∧ got = m.encode ∧
      (∀ v, d = .done v → m.Gives P rq.requestType (.ok v)) ∧
      ∀ err, d = .fail err → m.Gives P rq.requestType (.error err) := by
  have hgot : got ≠ [] := by
    rintro rfl
    rw [Decoder.after_nil, Option.some.injEq] at hafter
    subst hafter
    exact hd
  rw [hpos.consumed] at hstream
  obtain ⟨m, us, vs, hm, hbytes⟩ := exists_message hstream hgot
  cases hfits m hm with
  | @success _ _ response v hbody =>
    obtain ⟨hmessage, rfl⟩ := Decoder.after_halted_unique hafter hd
      (responseDecoder_success hbody) (Decoder.halted_done _) hbytes
    refine ⟨_, hm, rfl, hmessage, fun v' hv => ?_, nofun⟩
    cases hv
    exact hbody
  | failure =>
    obtain ⟨hmessage, rfl⟩ := Decoder.after_halted_unique hafter hd
      (responseDecoder_failure P _) (Decoder.halted_fail _) hbytes
    refine ⟨_, hm, rfl, hmessage, nofun, fun err herr => ?_⟩
    cases herr
    trivial

/-- **Payloads.** Where the payload decoder has stopped, it has accepted the payload, and the
message has been consumed. -/
theorem payload_of_halted {rq : GlobalRequest} {wantReply : Bool} {body : List UInt8}
    {d : Decoder CodecError V}
    (hpos : ReadUpTo feed sh t (t + 1) (header rq.requestType wantReply ++ body))
    (hstream : sh.history.consumed ++ sh.incoming <+: upTo feed feed.length)
    (hm : feed[t]? = some (.globalRequest rq wantReply))
    (hfits : Fits P .accept (.globalRequest rq wantReply))
    (hafter : (P.payload rq.requestType).after body = some d) (hd : d.Halted) :
    ReadUpTo feed sh (t + 1) (t + 1) [] ∧ ∃ v, d = .done v := by
  have hgot : header rq.requestType wantReply ++ body ≠ [] := by
    simp [header, VarInt.encode_ne_nil]
  rw [hpos.consumed] at hstream
  obtain ⟨m, us, vs, hm', hbytes⟩ := exists_message hstream hgot
  obtain rfl := Option.some.inj (hm.symm.trans hm')
  rw [encode_globalRequest, List.append_assoc, List.append_assoc, List.append_cancel_left_eq]
    at hbytes
  cases hfits with
  | request hname hbody =>
    obtain ⟨rfl, rfl⟩ :=
      Decoder.after_halted_unique hafter hd hbody (Decoder.halted_done _) hbytes
    rw [← encode_globalRequest] at hpos
    exact ⟨hpos.next hm, _, rfl⟩

/-- What a reader has consumed of its message: its ticket, its operation, and the bytes. -/
def Pc.reading : Pc V → Option (ℕ × ReadOp × List UInt8)
  | readingHeader t got _ => some (t, .accept, got)
  | readingResponse rq w t got _ => some (t, .response rq w, got)
  | incoming _ t _ got => some (t, .accept, got)
  | readingPayload _ t _ got _ => some (t, .accept, got)
  | _ => none

/-- A task reads for the operation whose ticket it has. -/
theorem Pc.claims_of_reading {pc : Pc V} {op : ReadOp} (h : pc.reading = some (t, op, got)) :
    (t, op) ∈ pc.claims := by
  cases pc with
  | readingHeader | readingResponse | incoming | readingPayload =>
    cases h
    exact List.mem_cons_self
  | _ => cases h

/-- **Readers keep to their messages.** What the reader with ticket `t` has consumed is part of
message `t`. -/
theorem Pc.ReadsFrom.exists_message {pc : Pc V} {op : ReadOp} (hr : pc.ReadsFrom P feed sh)
    (hstream : sh.history.consumed ++ sh.incoming <+: upTo feed feed.length)
    (hfits : ∀ m, feed[t]? = some m → Fits P op m) (h : pc.reading = some (t, op, got))
    (hgot : got ≠ []) : ∃ m, feed[t]? = some m ∧ Fits P op m ∧ got <+: m.encode := by
  cases pc with
  | readingHeader u got' d =>
    cases h
    rw [hr.1.consumed] at hstream
    obtain ⟨m, us, vs, hm, hbytes⟩ := Conversation.exists_message hstream hgot
    refine ⟨m, hm, hfits m hm, ?_⟩
    cases hfits m hm with
    | @request rq wantReply v hname hbody =>
      rw [encode_globalRequest, List.append_assoc] at hbytes
      rw [encode_globalRequest]
      exact (Decoder.isPrefix_of_after hr.2 (accepts_header wantReply hname)
        (Decoder.halted_done _) hbytes).trans (List.prefix_append _ _)
  | readingResponse rq w u got' d =>
    cases h
    rw [hr.1.consumed] at hstream
    obtain ⟨m, us, vs, hm, hbytes⟩ := Conversation.exists_message hstream hgot
    refine ⟨m, hm, hfits m hm, ?_⟩
    cases hfits m hm with
    | success hbody =>
      exact Decoder.isPrefix_of_after hr.2 (responseDecoder_success hbody) (Decoder.halted_done _)
        hbytes
    | failure =>
      exact Decoder.isPrefix_of_after hr.2 (responseDecoder_failure P _) (Decoder.halted_fail _)
        hbytes
  | incoming ty u w got' =>
    cases h
    obtain ⟨-, rq, wantReply, hm, rfl, rfl⟩ := hr
    refine ⟨_, hm, hfits _ hm, ?_⟩
    rw [encode_globalRequest]
    exact List.prefix_append _ _
  | readingPayload ty u w got' d =>
    cases h
    obtain ⟨hpos, rq, wantReply, body, hm, rfl, rfl, hafter⟩ := hr
    rw [hpos.consumed] at hstream
    obtain ⟨m, us, vs, hm', hbytes⟩ := Conversation.exists_message hstream hgot
    obtain rfl := Option.some.inj (hm.symm.trans hm')
    refine ⟨_, hm, hfits _ hm, ?_⟩
    rw [encode_globalRequest, List.append_assoc, List.append_assoc, List.append_cancel_left_eq]
      at hbytes
    rw [encode_globalRequest, List.prefix_append_right_inj]
    cases hfits _ hm with
    | request hname hbody =>
      exact Decoder.isPrefix_of_after hafter hbody (Decoder.halted_done _) hbytes
  | _ => cases h

/-- Who holds the reader guard knows how much has been read. -/
theorem Pc.ReadsFrom.exists_readUpTo {pc : Pc V} (hr : pc.ReadsFrom P feed sh)
    (hguard : pc.readerGuards ≠ []) : ∃ n k got, ReadUpTo feed sh n k got := by
  cases pc with
  | readingHeader | readingResponse | incoming | readingPayload => exact ⟨_, _, _, hr.1⟩
  | unwinding acts next =>
    obtain ⟨t, ht⟩ := List.exists_mem_of_ne_nil _ hguard
    obtain ⟨act, hact, hadvance⟩ := List.mem_filterMap.mp ht
    cases act with
    | advanceReader u => exact ⟨_, _, _, hr.1.behind hact⟩
    | _ => cases hadvance
  | _ => exact absurd rfl hguard

end Reader

/-! ## One step

The step lemma by cases on the operation. It needs that the message at hand fits, which is the
business of those who use it: in one setting because the peer answers in order, in the other
because no step crosses. -/

/-- Only what has been consumed and accepted counts. -/
theorem ReadUpTo.congr {feed : List ControlMessage} {sh sh' : Shared} {n k : ℕ} {got : List UInt8}
    (hpos : ReadUpTo feed sh n k got) (hconsumed : sh'.history.consumed = sh.history.consumed)
    (haccepted : sh'.history.accepted = sh.history.accepted) : ReadUpTo feed sh' n k got :=
  ⟨hconsumed.trans hpos.consumed, haccepted ▸ hpos.accepted, hpos.le_length⟩

/-- One byte more. -/
theorem ReadUpTo.consume {feed : List ControlMessage} {sh : Shared} {n k : ℕ} {got : List UInt8}
    (hpos : ReadUpTo feed sh n k got) (b : UInt8) (rest : List UInt8) :
    ReadUpTo feed (sh.consume b rest) n k (got ++ [b]) := by
  refine ⟨?_, hpos.accepted, hpos.le_length⟩
  rw [Shared.consume, hpos.consumed, List.append_assoc]

/-- Drop glue reads nothing. -/
theorem ReadUpTo.exec {feed : List ControlMessage} {sh : Shared} {n k : ℕ} {got : List UInt8}
    (hpos : ReadUpTo feed sh n k got) (act : DropAct) : ReadUpTo feed (act.exec sh) n k got := by
  cases act <;> exact hpos.congr rfl rfl

/-- The header of message `t` has been read: it is accepted now. -/
theorem ReadUpTo.accept {feed : List ControlMessage} {sh sh' : Shared} {t : ℕ} {got : List UInt8}
    {m : ControlMessage} (hpos : ReadUpTo feed sh t t got) (hm : feed[t]? = some m)
    (hconsumed : sh'.history.consumed = sh.history.consumed)
    (haccepted : sh'.history.accepted.map Prod.snd
      = sh.history.accepted.map Prod.snd ++ (m.request?.map GlobalRequest.requestType).toList) :
    ReadUpTo feed sh' t (t + 1) got := by
  refine ⟨hconsumed.trans hpos.consumed, ?_, (List.getElem?_eq_some_iff.mp hm).1⟩
  rw [haccepted, hpos.accepted, requestTypes_take_succ hm]

/-- **One step of a reader.** If the message of a reader fits, and it does not give up, a reader
that is in step with the feed stays so. -/
theorem Pc.Steps.readsFrom {P : GlobalProtocol V} {feed : List ControlMessage} {sh sh' : Shared}
    {pc pc' : Pc V} {e : Event} (h : pc.Steps P sh e sh' pc') (hpoison : sh.poisoned = false)
    (hquits : pc.quits e = false)
    (hstream : sh.history.consumed ++ sh.incoming <+: upTo feed feed.length)
    (hstart : pc.readerGuards = [] → pc'.readerGuards ≠ [] →
      ReadUpTo feed sh sh.reader.currentServing sh.reader.currentServing [])
    (hfits : ∀ {k op}, (k, op) ∈ pc.claims → ∀ m, feed[k]? = some m → Fits P op m)
    (hr : pc.ReadsFrom P feed sh) : pc'.ReadsFrom P feed sh' := by
  cases h with
  | acquireWriter hwait => cases hwait with
    | drainFlushed => exact ⟨.of_readerGuards (by simp [dropWriterGuard]) rfl, trivial⟩
    | drainRefused hp | refused hp | acquireRefused hp => simp [hpoison] at hp
    | drainIoError | drainWriteCancel | drainCancel | cancel | acquireCancel => cases hquits
    | _ => trivial
  | @flushed op t =>
    exact ⟨.of_readerGuards (by simp [dropWriterGuard]) rfl, op.answered_written P feed t⟩
  | @readerGranted op t _ hserving =>
    subst hserving
    have hpos : ReadUpTo feed (sh.grantReader sh.reader.currentServing) sh.reader.currentServing
        sh.reader.currentServing [] := (hstart rfl (by simp)).congr rfl rfl
    cases op with
    | accept => exact ⟨hpos, Decoder.after_nil _⟩
    | response rq w => exact ⟨hpos, Decoder.after_nil _⟩
  | readerRefused hp => simp [hpoison] at hp
  | headerByte => exact ⟨hr.1.consume _ _, Decoder.after_snoc hr.2 _⟩
  | responseByte => exact ⟨hr.1.consume _ _, Decoder.after_snoc hr.2 _⟩
  | payloadByte =>
    obtain ⟨hpos, rq, wantReply, body, hm, hty, rfl, hafter⟩ := hr
    exact ⟨hpos.consume _ _, rq, wantReply, _, hm, hty, List.append_assoc _ _ _,
      Decoder.after_snoc hafter _⟩
  | headerFailed =>
    obtain ⟨rq, wantReply, -, -, hfail⟩ := header_of_halted hr.1 hstream
      (hfits List.mem_cons_self) hr.2 (Decoder.halted_fail _)
    cases hfail
  | requestAccepted =>
    obtain ⟨rq, wantReply, hm, hgot, hdone⟩ := header_of_halted hr.1 hstream
      (hfits List.mem_cons_self) hr.2 (Decoder.halted_done _)
    cases hdone
    refine ⟨hr.1.accept hm rfl ?_, rq, true, hm, rfl, hgot⟩
    simp [Shared.takeReplyTicket, request?]
  | noticeAccepted =>
    obtain ⟨rq, wantReply, hm, hgot, hdone⟩ := header_of_halted hr.1 hstream
      (hfits List.mem_cons_self) hr.2 (Decoder.halted_done _)
    cases hdone
    exact ⟨hr.1.accept hm rfl (List.append_nil _).symm, rq, false, hm, rfl, hgot⟩
  | @responseFailed rq w t =>
    obtain ⟨m, hm, hreply, rfl, -, hgives⟩ := response_of_halted hr.1 hstream
      (hfits List.mem_cons_self) hr.2 (Decoder.halted_fail _)
    have hpos : ReadUpTo feed sh t (t + 1) m.encode := hr.1.accept hm rfl (by simp [hreply])
    exact ⟨.dropReaderGuard (hpos.next hm), m, hm, hgives _ rfl⟩
  | @responseDone rq w t =>
    obtain ⟨m, hm, hreply, rfl, hgives, -⟩ := response_of_halted hr.1 hstream
      (hfits List.mem_cons_self) hr.2 (Decoder.halted_done _)
    have hpos : ReadUpTo feed sh t (t + 1) m.encode := hr.1.accept hm rfl (by simp [hreply])
    exact ⟨.dropReaderGuard (hpos.next hm), m, hm, hgives _ rfl⟩
  | decodePayload =>
    obtain ⟨hpos, rq, wantReply, hm, rfl, rfl⟩ := hr
    exact ⟨hpos, rq, wantReply, [], hm, rfl, (List.append_nil _).symm, Decoder.after_nil _⟩
  | payloadFailed =>
    obtain ⟨hpos, rq, wantReply, body, hm, rfl, rfl, hafter⟩ := hr
    obtain ⟨-, v, hfail⟩ := payload_of_halted hpos hstream hm (hfits List.mem_cons_self _ hm) hafter
      (Decoder.halted_fail _)
    cases hfail
  | requestDecoded | noticeDecoded =>
    obtain ⟨hpos, rq, wantReply, body, hm, rfl, rfl, hafter⟩ := hr
    obtain ⟨hpos, -⟩ := payload_of_halted hpos hstream hm (hfits List.mem_cons_self _ hm) hafter
      (Decoder.halted_done _)
    exact ⟨.dropReaderGuard hpos, trivial⟩
  | dropDecoded => exact ⟨.of_readerGuards (by simp) rfl, trivial⟩
  | @dropAct act acts next =>
    obtain ⟨⟨hnot, hbehind⟩, hnext⟩ := hr
    refine ⟨⟨fun hmem => hnot (List.mem_cons_of_mem _ hmem), fun hmem => ?_⟩, hnext⟩
    exact (hbehind (List.mem_cons_of_mem _ hmem)).exec act
  | resume => exact After.readsFrom_resume hr.2
  | writeIoError | writeCancel | readerCancel | headerIoError | headerCancel | responseIoError
  | responseCancel | dropIncoming | payloadIoError | payloadCancel => cases hquits
  | _ => trivial

/-- Who is in step with the feed does not poison the session. -/
theorem Pc.Steps.poisoned_of_readsFrom {P : GlobalProtocol V} {feed : List ControlMessage}
    {sh sh' : Shared} {pc pc' : Pc V} {e : Event} (h : pc.Steps P sh e sh' pc')
    (hpoison : sh.poisoned = false) (hr : pc.ReadsFrom P feed sh) : sh'.poisoned = false := by
  cases h with
  | acquireWriter hwait => cases hwait <;> exact hpoison
  | @dropAct act => cases act with
    | storePoison => exact absurd List.mem_cons_self hr.1.not_poison
    | _ => exact hpoison
  | _ => exact hpoison

/-- Reading takes from what has arrived. -/
theorem Pc.Steps.stream_eq {P : GlobalProtocol V} {sh sh' : Shared} {pc pc' : Pc V} {e : Event}
    (h : pc.Steps P sh e sh' pc') :
    sh'.history.consumed ++ sh'.incoming = sh.history.consumed ++ sh.incoming := by
  cases h with
  | headerByte hincoming | responseByte hincoming | payloadByte hincoming =>
    simp [Shared.consume, hincoming]
  | acquireWriter hwait => cases hwait <;> rfl
  | @dropAct act => cases act <;> rfl
  | _ => rfl

/-- Without the reader guard nothing is read or accepted. -/
theorem Pc.Steps.readUpTo_of_none {P : GlobalProtocol V} {feed : List ControlMessage}
    {sh sh' : Shared} {pc pc' : Pc V} {e : Event} {n k : ℕ} {got : List UInt8}
    (h : pc.Steps P sh e sh' pc') (hnone : pc.readerGuards = [])
    (hpos : ReadUpTo feed sh n k got) : ReadUpTo feed sh' n k got := by
  cases h with
  | headerByte | responseByte | payloadByte | requestAccepted => cases hnone
  | acquireWriter hwait => cases hwait <;> exact hpos.congr rfl rfl
  | @dropAct act => exact hpos.exec act
  | _ => exact hpos.congr rfl rfl

/-- Who releases the reader guard leaves the stream behind its message. -/
theorem Pc.Steps.readUpTo_of_release {P : GlobalProtocol V} {feed : List ControlMessage}
    {sh sh' : Shared} {pc pc' : Pc V} {e : Event} (h : pc.Steps P sh e sh' pc')
    (hserving : ∀ t ∈ pc.readerGuards, t = sh.reader.currentServing) (hsome : pc.readerGuards ≠ [])
    (hnone : pc'.readerGuards = []) (hr : pc.ReadsFrom P feed sh) :
    ReadUpTo feed sh' sh'.reader.currentServing sh'.reader.currentServing [] := by
  cases h with
  | acquireWriter hwait => cases hwait <;> exact absurd rfl hsome
  | @dropAct act acts next => cases act with
    | advanceReader t =>
      obtain rfl := hserving t (List.mem_filterMap.mpr ⟨_, List.mem_cons_self, rfl⟩)
      exact (hr.1.behind List.mem_cons_self).exec (.advanceReader _)
    | _ => exact absurd hnone hsome
  | resume => exact absurd rfl hsome
  | readerGranted => simp at hnone
  | _ => first | exact absurd rfl hsome | cases hnone

/-- Without a release the reader's counter stands. -/
theorem Pc.Steps.serving_of_none {P : GlobalProtocol V} {sh sh' : Shared}
    {pc pc' : Pc V} {e : Event} (h : pc.Steps P sh e sh' pc') (hnone : pc.readerGuards = []) :
    sh'.reader.currentServing = sh.reader.currentServing := by
  cases h with
  | acquireWriter hwait => cases hwait <;> rfl
  | @dropAct act acts next => cases act with
    | advanceReader => cases hnone
    | _ => rfl
  | _ => rfl

/-- Where a task without the reader guard stands depends on its outcome only. -/
theorem Pc.ReadsFrom.of_none {P : GlobalProtocol V} {feed : List ControlMessage} {sh sh' : Shared}
    {pc : Pc V} (hnone : pc.readerGuards = []) (hr : pc.ReadsFrom P feed sh) :
    pc.ReadsFrom P feed sh' := by
  cases pc with
  | readingHeader | readingResponse | incoming | readingPayload => cases hnone
  | unwinding acts next => exact ⟨.of_readerGuards hr.1.not_poison hnone, hr.2⟩
  | finished o => exact hr
  | _ => trivial

/-- Where a task stands depends on how much has been read. -/
theorem Pc.ReadsFrom.imp {P : GlobalProtocol V} {feed : List ControlMessage} {sh sh' : Shared}
    {pc : Pc V} (hr : pc.ReadsFrom P feed sh)
    (h : ∀ {n k got}, ReadUpTo feed sh n k got → ReadUpTo feed sh' n k got) :
    pc.ReadsFrom P feed sh' := by
  cases pc with
  | readingHeader | readingResponse | incoming | readingPayload => exact ⟨h hr.1, hr.2⟩
  | unwinding acts next => exact ⟨⟨hr.1.not_poison, fun ht => h (hr.1.behind ht)⟩, hr.2⟩
  | finished o => exact hr
  | _ => trivial

/-- Where a task stands is unaffected where the feed grows. -/
theorem Pc.ReadsFrom.mono {P : GlobalProtocol V} {feed feed' : List ControlMessage} {sh : Shared}
    {pc : Pc V} (h : feed <+: feed') (hr : pc.ReadsFrom P feed sh) : pc.ReadsFrom P feed' sh := by
  have houtcome : ∀ {o : Outcome V}, o.Answered P feed → o.Answered P feed' := by
    intro o ho
    cases o with
    | request rq w r result =>
      obtain ⟨m, hm, hgives⟩ := ho
      exact ⟨m, Selection.getElem?_mono h hm, hgives⟩
    | accept | payload => exact ho
    | _ => trivial
  cases pc with
  | readingHeader | readingResponse => exact ⟨hr.1.mono h le_rfl, hr.2⟩
  | incoming ty t w got =>
    obtain ⟨hpos, rq, wantReply, hm, hrest⟩ := hr
    exact ⟨hpos.mono h (Nat.le_succ _), rq, wantReply, Selection.getElem?_mono h hm, hrest⟩
  | readingPayload ty t w got d =>
    obtain ⟨hpos, rq, wantReply, body, hm, hrest⟩ := hr
    exact ⟨hpos.mono h (Nat.le_succ _), rq, wantReply, body, Selection.getElem?_mono h hm, hrest⟩
  | unwinding acts next =>
    refine ⟨⟨hr.1.not_poison, fun ht => (hr.1.behind ht).mono h le_rfl⟩, ?_⟩
    cases next with
    | finish o => exact houtcome hr.2
    | _ => trivial
  | finished o => exact houtcome hr
  | _ => trivial

end Conversation

namespace Conversation

variable {V : Type} {P : GlobalProtocol V} {feed : List ControlMessage} {s s' : Conversation V}

/-! ## The conversation

All tasks together: at most one of them has the guard and reads, and the others only look at
tickets. -/

/-- The conversation is in step with the feed. -/
structure Synced (P : GlobalProtocol V) (feed : List ControlMessage)
    (s : Conversation V) : Prop where
  /-- No reader has been dropped in the middle of a message. -/
  poisoned : s.shared.poisoned = false
  /-- What has arrived is part of the feed. -/
  stream : s.shared.history.consumed ++ s.shared.incoming <+: upTo feed feed.length
  /-- Each reader has read as far as its ticket and its place say. -/
  tasks : ∀ i, (s.tasks i).ReadsFrom P feed s.shared
  /-- Between two readers, the messages of those that are done have been read. -/
  free : (∀ i, (s.tasks i).readerGuards = []) →
    ReadUpTo feed s.shared s.shared.reader.currentServing s.shared.reader.currentServing []

namespace Synced

/-- The requests accepted are the first of the feed. -/
theorem accepted_isPrefix (hS : Synced P feed s) :
    s.shared.history.accepted.map Prod.snd <+: requestTypes feed := by
  have hpos : ∃ n k got, ReadUpTo feed s.shared n k got := by
    by_cases hfree : ∀ i, (s.tasks i).readerGuards = []
    · exact ⟨_, _, _, hS.free hfree⟩
    · obtain ⟨i, hi⟩ := not_forall.mp hfree
      exact (hS.tasks i).exists_readUpTo hi
  obtain ⟨n, k, got, hpos⟩ := hpos
  rw [hpos.accepted]
  exact (List.take_prefix k feed).filterMap _

theorem initial (P : GlobalProtocol V) : Synced P [] initial where
  poisoned := rfl
  stream := List.prefix_rfl
  tasks _ := trivial
  free _ := ⟨rfl, rfl, Nat.le_refl _⟩

/-- **The feed may grow.** -/
theorem mono {feed' : List ControlMessage} (hS : Synced P feed s) (h : feed <+: feed') :
    Synced P feed' s where
  poisoned := hS.poisoned
  stream := by
    refine hS.stream.trans ?_
    obtain ⟨more, rfl⟩ := h
    refine ⟨(more.map ControlMessage.encode).flatten, ?_⟩
    rw [upTo, upTo, List.take_length, List.take_length, List.map_append, List.flatten_append]
  tasks i := (hS.tasks i).mono h
  free hfree := (hS.free hfree).mono h le_rfl

/-- Bytes of the feed arrive. -/
theorem arrive (hS : Synced P feed s) {bytes : List UInt8}
    (h : s.shared.history.consumed ++ s.shared.incoming ++ bytes <+: upTo feed feed.length) :
    Synced P feed (s.arrive bytes) where
  poisoned := hS.poisoned
  stream := by
    rw [List.append_assoc] at h
    exact h
  tasks i := (hS.tasks i).imp fun hpos => hpos.congr rfl rfl
  free hfree := (hS.free hfree).congr rfl rfl

/-- **One step of the conversation.** If messages fit the operations that took their tickets, and
nobody gives up, a conversation that is in step with the feed stays so. -/
theorem step {i : ℕ} {e : Event} (hs : (machine P).Reachable s) (hS : Synced P feed s)
    (hfits : ∀ {k : ℕ} {op m}, s.shared.history.readOps[k]? = some op →
      feed[k]? = some m → Fits P op m)
    (hquits : (s.tasks i).quits e = false) (h : s.step P (.task i e) = some s') :
    Synced P feed s' := by
  obtain ⟨pc', hst, htasks⟩ := step_task h
  have hstart : (s.tasks i).readerGuards = [] → pc'.readerGuards ≠ [] →
      ReadUpTo feed s.shared s.shared.reader.currentServing s.shared.reader.currentServing [] :=
    fun hnone hsome => hS.free (readerGuards_eq_nil_of_own hs (hst.own_of_start hnone hsome))
  have hi := hst.readsFrom hS.poisoned hquits hS.stream hstart
    (fun hclaim m hm => hfits (readOps_of_claims hs hclaim) hm) (hS.tasks i)
  refine ⟨hst.poisoned_of_readsFrom hS.poisoned (hS.tasks i), hst.stream_eq ▸ hS.stream,
    (forall_tasks htasks).mpr ⟨hi, fun j hj => ?_⟩, fun hfree => ?_⟩
  · by_cases hguard : (s.tasks i).readerGuards = []
    · exact (hS.tasks j).imp fun hpos => hst.readUpTo_of_none hguard hpos
    · exact (hS.tasks j).of_none (readerGuards_eq_nil_of_ne hs hguard hj)
  · obtain ⟨hpc', hothers⟩ := (forall_tasks (Q := fun pc => pc.readerGuards = []) htasks).mp hfree
    by_cases hguard : (s.tasks i).readerGuards = []
    · rw [hst.serving_of_none hguard]
      refine hst.readUpTo_of_none hguard (hS.free fun j => ?_)
      by_cases hj : j = i
      · rw [hj, hguard]
      · exact hothers j hj
    · refine hst.readUpTo_of_release (fun t ht => ?_) hguard hpc' (hS.tasks i)
      exact (exclusive hs).1.serving ht

end Synced

end Conversation

end Dssh
