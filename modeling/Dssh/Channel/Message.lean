import Dssh.Payloads

/-!
# Channel messages

The messages on an established channel: what `SshChannelWriter` writes and what `next_event`
reads. A write is the list of bytes it puts on the stream. `next_event` is a `Decoder` that
reads the head of a message, up to its payload: the contents of a data message and the payload
of a request are left on the stream for the caller.

There are two readers. `SshChannelReader` has no writer to send a reply with, so it refuses
requests that want one; on everything else it agrees with `SshChannel`.

## Heads and bodies

That `next_event` stops in the middle of a message is the design of the channel API, and the
source of most of its hazards. The event borrows the reader, so the caller can read the body
through it; but nothing makes the caller do so. A caller that ignores an event leaves its body
on the stream, and the next `next_event` takes it for a message.

The model keeps the split. `ChannelMessage.head` is what the reader consumes,
`ChannelMessage.body` what it leaves, `ChannelMessage.event` what it reports. `accepts_head` is
about the head alone. What a caller does about the body is modelled with the caller.

## Two readers, one theorem

The two `next_event`s are separate functions in the source, written out twice: one returns
events that carry a responder, the other events that cannot. They are separate definitions here
as well, each to be checked against its own source. `SshChannelReader.nextEvent_eq` states how
the second differs from the first: it is the first, followed by a conversion that fails on a
request that wants a reply. Nothing else could differ, in any stream and any division into reads
(`nextEvents_agree`); in particular both have consumed the same bytes when they fail.

## Panics

Lengths are converted to `VarInt` with an `expect`. A write of a payload of `2 ^ 62` bytes or
more panics, which is `none` here, and `Writable` is the condition under which it does not.

## Main definitions

* `ChannelMessage` — the messages, with `write`, `head`, `body` and `event`
* `SshChannel.nextEvent`, `SshChannelReader.nextEvent` — the two readers
* `ReadChannelEventError` — what they report

## Main results

* `ChannelMessage.accepts_head` — `next_event` reads exactly the head of a message
* `SshChannelReader.nextEvent_eq` — how the reader half differs
* `nextEvents_agree` — so what both return agrees on every stream
-/

namespace Dssh

def sshMsgChannelData : VarInt := .ofNat 94

def sshMsgChannelExtendedData : VarInt := .ofNat 95

def sshMsgChannelEof : VarInt := .ofNat 96

def sshMsgChannelClose : VarInt := .ofNat 97

def sshMsgChannelRequest : VarInt := .ofNat 98

def sshMsgChannelSuccess : VarInt := .ofNat 99

def sshMsgChannelFailure : VarInt := .ofNat 100

/-- A message on a channel. -/
inductive ChannelMessage where
  /-- Output, or input. -/
  | data (bytes : List UInt8)
  /-- Data of another kind, such as the output for errors. -/
  | extendedData (dataType : VarInt) (bytes : List UInt8)
  /-- A request, or a notice if no reply is wanted. -/
  | request (rq : SessionRequest) (wantReply : Bool)
  /-- The reply to a request that has been granted. -/
  | success
  /-- The reply to one that has not. -/
  | failure
  /-- No more data will be sent. -/
  | eof
  /-- The channel is done with. -/
  | close
  deriving DecidableEq

/-! ## Writing

Each operation writes a head, a length or a name in it perhaps, and a body. A length is a `usize`
in the source, and the conversion to a `VarInt` panics above its range: the functions are
partial. -/

namespace SshChannelWriter

/-- `none` when the length is no `VarInt` and the call panics. -/
def data (bytes : List UInt8) : Option (List UInt8) := do
  let len ← VarInt.tryFrom bytes.length
  pure [sshMsgChannelData.encode, len.encode, bytes].flatten

/-- `none` when the length is no `VarInt` and the call panics. -/
def extendedData (dataType : VarInt) (bytes : List UInt8) : Option (List UInt8) := do
  let len ← VarInt.tryFrom bytes.length
  pure [sshMsgChannelExtendedData.encode, dataType.encode, len.encode, bytes].flatten

/-- What `eof` writes. -/
def eof : List UInt8 := sshMsgChannelEof.encode

/-- What `close` writes. -/
def close : List UInt8 := sshMsgChannelClose.encode

/-- `SshChannelWriter::notice`. -/
def notice (rq : SessionRequest) : List UInt8 :=
  [sshMsgChannelRequest.encode, rq.requestType.encode, SshBool.encode false, rq.payload].flatten

end SshChannelWriter

/-- What `SshChannel::request` writes. -/
def SshChannel.request (rq : SessionRequest) : List UInt8 :=
  [sshMsgChannelRequest.encode, rq.requestType.encode, SshBool.encode true, rq.payload].flatten

namespace ChannelResponder

/-- `respond_success` with an empty response. -/
def respondSuccess : List UInt8 :=
  [sshMsgChannelSuccess.encode, Wire.encode EmptyPayload.mk].flatten

/-- What `respond_failure` writes. -/
def respondFailure : List UInt8 := sshMsgChannelFailure.encode

end ChannelResponder

namespace ChannelMessage

/-- Write a message. -/
def write : ChannelMessage → Option (List UInt8)
  | data bytes => SshChannelWriter.data bytes
  | extendedData dataType bytes => SshChannelWriter.extendedData dataType bytes
  | request rq wantReply =>
    some (if wantReply then SshChannel.request rq else SshChannelWriter.notice rq)
  | success => some ChannelResponder.respondSuccess
  | failure => some ChannelResponder.respondFailure
  | eof => some SshChannelWriter.eof
  | close => some SshChannelWriter.close

/-- Write one message after the other. -/
def writeAll (ms : List ChannelMessage) : Option (List UInt8) :=
  (ms.mapM write).map List.flatten

end ChannelMessage

/-! ## Reading

The two readers are two functions in the source, with the same cases in the same order. They are
both here; that they agree is a theorem, and not a definition. -/

/-- What can go wrong in reading the head of a message, each read with a context of its own. -/
inductive ReadChannelEventError where
  | decodeMessageType
  | decodeData
  | decodeExtendedDataType
  | decodeExtendedData
  | decodeRequestType (e : CodecError)
  | decodeWantReply (e : CodecError)
  | unexpectedMessageType (messageType : VarInt)
  | unexpectedWantReply (requestType : SshString)
  deriving DecidableEq, Repr

/-- What `SshChannel::next_event` returns. A `ChannelDataRead` is the number of bytes it has
`remaining`. -/
inductive ChannelEvent where
  | data (remaining : ℕ)
  | extendedData (dataType : VarInt) (remaining : ℕ)
  | request (requestType : SshString) (wantReply : Bool)
  | success
  | failure
  | eof
  | close
  deriving DecidableEq

/-- What `SshChannelReader::next_event` returns. -/
inductive ReaderEvent where
  | data (remaining : ℕ)
  | extendedData (dataType : VarInt) (remaining : ℕ)
  | notice (requestType : SshString)
  | success
  | failure
  | eof
  | close
  deriving DecidableEq

/-- `SshChannel::next_event`. -/
def SshChannel.nextEvent : Decoder ReadChannelEventError ChannelEvent := do
  let messageType ← VarInt.decoder .decodeMessageType
  if messageType = sshMsgChannelData then
    let len ← VarInt.decoder .decodeData
    pure (.data len.val)
  else if messageType = sshMsgChannelExtendedData then
    let dataType ← VarInt.decoder .decodeExtendedDataType
    let len ← VarInt.decoder .decodeExtendedData
    pure (.extendedData dataType len.val)
  else if messageType = sshMsgChannelRequest then
    let requestType ← SshString.decoder.mapError .decodeRequestType
    let wantReply ← SshBool.decoder.mapError .decodeWantReply
    pure (.request requestType wantReply)
  else if messageType = sshMsgChannelSuccess then pure .success
  else if messageType = sshMsgChannelFailure then pure .failure
  else if messageType = sshMsgChannelEof then pure .eof
  else if messageType = sshMsgChannelClose then pure .close
  else .fail (.unexpectedMessageType messageType)

/-- `SshChannelReader::next_event`. -/
def SshChannelReader.nextEvent : Decoder ReadChannelEventError ReaderEvent := do
  let messageType ← VarInt.decoder .decodeMessageType
  if messageType = sshMsgChannelData then
    let len ← VarInt.decoder .decodeData
    pure (.data len.val)
  else if messageType = sshMsgChannelExtendedData then
    let dataType ← VarInt.decoder .decodeExtendedDataType
    let len ← VarInt.decoder .decodeExtendedData
    pure (.extendedData dataType len.val)
  else if messageType = sshMsgChannelRequest then
    let requestType ← SshString.decoder.mapError .decodeRequestType
    let wantReply ← SshBool.decoder.mapError .decodeWantReply
    if wantReply then .fail (.unexpectedWantReply requestType) else pure (.notice requestType)
  else if messageType = sshMsgChannelSuccess then pure .success
  else if messageType = sshMsgChannelFailure then pure .failure
  else if messageType = sshMsgChannelEof then pure .eof
  else if messageType = sshMsgChannelClose then pure .close
  else .fail (.unexpectedMessageType messageType)

/-- An event as the reader half reports it. -/
def ChannelEvent.toReader : ChannelEvent → Decoder ReadChannelEventError ReaderEvent
  | data remaining => .done (.data remaining)
  | extendedData dataType remaining => .done (.extendedData dataType remaining)
  | request requestType wantReply =>
    if wantReply then .fail (.unexpectedWantReply requestType) else .done (.notice requestType)
  | success => .done .success
  | failure => .done .failure
  | eof => .done .eof
  | close => .done .close

/-- **How the reader half differs.** It reads the same bytes, and refuses a request that wants a
reply. -/
theorem SshChannelReader.nextEvent_eq :
    nextEvent = SshChannel.nextEvent.bind ChannelEvent.toReader := by
  simp only [nextEvent, SshChannel.nextEvent, Decoder.bind_eq, Decoder.bind_assoc]
  congr 1
  funext messageType
  split_ifs <;> simp [ChannelEvent.toReader, Decoder.bind_assoc]

/-- It reads before it returns. -/
theorem SshChannelReader.not_halted_nextEvent : ¬ nextEvent.Halted := id

/-- What the reader half returns where the channel returns `r`. -/
def toReaderResult : Except ReadChannelEventError ChannelEvent →
    Except ReadChannelEventError ReaderEvent
  | .ok (.data remaining) => .ok (.data remaining)
  | .ok (.extendedData dataType remaining) => .ok (.extendedData dataType remaining)
  | .ok (.request requestType true) => .error (.unexpectedWantReply requestType)
  | .ok (.request requestType false) => .ok (.notice requestType)
  | .ok .success => .ok .success
  | .ok .failure => .ok .failure
  | .ok .eof => .ok .eof
  | .ok .close => .ok .close
  | .error e => .error e

/-- The conversion reads nothing. -/
theorem halted_toReader (event : ChannelEvent) : event.toReader.Halted := by
  cases event with
  | request requestType wantReply => cases wantReply <;> trivial
  | _ => trivial

/-- And it converts results. -/
theorem result_bind_toReader (eof : Bool) (d : Decoder ReadChannelEventError ChannelEvent) :
    (d.bind ChannelEvent.toReader).result eof = (d.result eof).map toReaderResult := by
  cases d with
  | done event =>
    cases event with
    | request requestType wantReply => cases wantReply <;> rfl
    | _ => rfl
  | fail e => rfl
  | read io k => cases eof <;> rfl

/-- **Both readers agree**, on every stream, in whatever reads it comes: they leave the same bytes,
and return the same, up to the refusal of a request that wants a reply. -/
theorem nextEvents_agree (chunks : List (List UInt8)) (eof : Bool) :
    (SshChannelReader.nextEvent.reads chunks).2 = (SshChannel.nextEvent.reads chunks).2 ∧
      (SshChannelReader.nextEvent.reads chunks).1.result eof =
        ((SshChannel.nextEvent.reads chunks).1.result eof).map toReaderResult := by
  rw [Decoder.reads_eq, Decoder.reads_eq, SshChannelReader.nextEvent_eq,
    Decoder.feed_bind_of_halted halted_toReader]
  exact ⟨rfl, result_bind_toReader eof _⟩

/-! ## The head of a message

What `next_event` consumes, and what it leaves to the caller: the data of a data message, and the
payload of a request. The caller is told how long the data are, and nothing of how long the
payload is. -/

namespace ChannelMessage

/-- The part of a message that `next_event` reads. -/
def head : ChannelMessage → List UInt8
  | data bytes => [sshMsgChannelData.encode, (VarInt.ofNat bytes.length).encode].flatten
  | extendedData dataType bytes =>
    [sshMsgChannelExtendedData.encode, dataType.encode, (VarInt.ofNat bytes.length).encode].flatten
  | request rq wantReply =>
    [sshMsgChannelRequest.encode, rq.requestType.encode, SshBool.encode wantReply].flatten
  | success => [sshMsgChannelSuccess.encode].flatten
  | failure => [sshMsgChannelFailure.encode].flatten
  | eof => [sshMsgChannelEof.encode].flatten
  | close => [sshMsgChannelClose.encode].flatten

/-- The part that it leaves to the caller. -/
def body : ChannelMessage → List UInt8
  | data bytes => bytes
  | extendedData _ bytes => bytes
  | request rq _ => rq.payload
  | _ => []

/-- The event it reports. -/
def event : ChannelMessage → ChannelEvent
  | data bytes => .data bytes.length
  | extendedData dataType bytes => .extendedData dataType bytes.length
  | request rq wantReply => .request rq.requestType wantReply
  | success => .success
  | failure => .failure
  | eof => .eof
  | close => .close

/-- Its length is a `VarInt`, so that writing it does not panic. -/
def Writable : ChannelMessage → Prop
  | data bytes => bytes.length < 2 ^ 62
  | extendedData _ bytes => bytes.length < 2 ^ 62
  | _ => True

/-- A length that is a `VarInt` is the one that is announced. -/
private theorem ofNat_of_tryFrom {n : ℕ} {len : VarInt} (h : VarInt.tryFrom n = some len) :
    VarInt.ofNat n = len := by
  rw [← VarInt.tryFrom_eq_some.mp h, VarInt.ofNat_val]

/-- A message consists of its head and its body. -/
theorem of_write {m : ChannelMessage} {bs : List UInt8} (h : m.write = some bs) :
    m.Writable ∧ bs = m.head ++ m.body := by
  cases m with
  | data bytes =>
    obtain ⟨len, hlen, hbs⟩ := Option.bind_eq_some_iff.mp h
    obtain rfl := Option.some.inj hbs
    refine ⟨?_, by simp [head, body, ofNat_of_tryFrom hlen]⟩
    rw [Writable, ← VarInt.tryFrom_eq_some.mp hlen]
    exact len.isLt
  | extendedData dataType bytes =>
    obtain ⟨len, hlen, hbs⟩ := Option.bind_eq_some_iff.mp h
    obtain rfl := Option.some.inj hbs
    refine ⟨?_, by simp [head, body, ofNat_of_tryFrom hlen]⟩
    rw [Writable, ← VarInt.tryFrom_eq_some.mp hlen]
    exact len.isLt
  | request rq wantReply =>
    obtain rfl := Option.some.inj h
    refine ⟨trivial, ?_⟩
    cases wantReply <;> simp [head, body, SshChannel.request, SshChannelWriter.notice]
  | success | failure | eof | close =>
    obtain rfl := Option.some.inj h
    refine ⟨trivial, ?_⟩
    simp [head, body, ChannelResponder.respondSuccess, ChannelResponder.respondFailure,
      SshChannelWriter.eof, SshChannelWriter.close, Wire.encode]

/-- Writing a message writes its head and its body. -/
theorem write_eq {m : ChannelMessage} (h : m.Writable) : m.write = some (m.head ++ m.body) := by
  cases m with
  | data bytes =>
    simp [write, SshChannelWriter.data, VarInt.tryFrom_of_lt h, head, body]
  | extendedData dataType bytes =>
    simp [write, SshChannelWriter.extendedData, VarInt.tryFrom_of_lt h, head, body]
  | request rq wantReply =>
    cases wantReply <;>
      simp [write, head, body, SshChannel.request, SshChannelWriter.notice]
  | success | failure | eof | close =>
    simp [write, head, body, ChannelResponder.respondSuccess, ChannelResponder.respondFailure,
      SshChannelWriter.eof, SshChannelWriter.close, Wire.encode]

/-- **Reading the head.** `next_event` reads exactly the head of a message. -/
theorem accepts_head {m : ChannelMessage} (h : m.Writable) :
    SshChannel.nextEvent.Accepts m.head m.event := by
  cases m with
  | data bytes =>
    refine Decoder.Accepts.bind (VarInt.accepts_encode _ _) ?_
    rw [if_pos rfl]
    have hval : (VarInt.ofNat bytes.length).val = bytes.length := Nat.mod_eq_of_lt h
    refine Decoder.Accepts.bind (VarInt.accepts_encode _ _) ?_
    rw [hval]
    rfl
  | extendedData dataType bytes =>
    refine Decoder.Accepts.bind (VarInt.accepts_encode _ _) ?_
    rw [if_neg (by decide), if_pos rfl]
    have hval : (VarInt.ofNat bytes.length).val = bytes.length := Nat.mod_eq_of_lt h
    refine Decoder.Accepts.bind (VarInt.accepts_encode _ _) ?_
    refine Decoder.Accepts.bind (VarInt.accepts_encode _ _) ?_
    rw [hval]
    rfl
  | request rq wantReply =>
    refine Decoder.Accepts.bind (VarInt.accepts_encode _ _) ?_
    rw [if_neg (by decide), if_neg (by decide), if_pos rfl]
    refine Decoder.Accepts.bind (Decoder.accepts_mapError.mpr
      (SshString.accepts_encode rq.utf8_requestType_length)) ?_
    refine Decoder.Accepts.bind (Decoder.accepts_mapError.mpr (SshBool.accepts_encode wantReply)) ?_
    rfl
  | success | failure | eof | close =>
    refine Decoder.Accepts.bind (VarInt.accepts_encode _ _) ?_
    rw [if_neg (by decide), if_neg (by decide), if_neg (by decide)]
    rfl

/-- The reader half reads the same head. -/
theorem accepts_head_reader {m : ChannelMessage} (h : m.Writable) {e : ReaderEvent}
    (he : m.event.toReader = .done e) : SshChannelReader.nextEvent.Accepts m.head e := by
  rw [SshChannelReader.nextEvent_eq]
  exact (accepts_head h).bind_done he

/-! ## Sequences of messages

A stream is the bytes of some messages. What has been written with success is one, and the
messages can be read off it. -/

/-- The bytes of a sequence of messages. -/
def stream (ms : List ChannelMessage) : List UInt8 := (ms.map fun m => m.head ++ m.body).flatten

@[simp] theorem stream_nil : stream [] = [] := rfl

@[simp] theorem stream_cons (m : ChannelMessage) (ms : List ChannelMessage) :
    stream (m :: ms) = m.head ++ (m.body ++ stream ms) := by
  simp [stream]

/-- Some messages and then some more. -/
theorem stream_append (ms ms' : List ChannelMessage) :
    stream (ms ++ ms') = stream ms ++ stream ms' := by
  simp [stream]

/-- Every message has a head. -/
theorem head_ne_nil (m : ChannelMessage) : m.head ≠ [] := by
  intro h
  cases m <;> simp [head, VarInt.encode_ne_nil] at h

/-- Only no messages are no bytes. -/
theorem stream_eq_nil {ms : List ChannelMessage} : stream ms = [] ↔ ms = [] := by
  cases ms with
  | nil => simp
  | cons m ms => simp [head_ne_nil]

/-- Messages that can be written are. -/
theorem writeAll_eq {ms : List ChannelMessage} (h : ∀ m ∈ ms, m.Writable) :
    writeAll ms = some (stream ms) := by
  have hpieces : ms.mapM write = some (ms.map fun m => m.head ++ m.body) := by
    induction ms with
    | nil => rfl
    | cons m ms ih =>
      rw [List.mapM_cons, write_eq (h m List.mem_cons_self),
        ih fun m' hm' => h m' (List.mem_cons_of_mem m hm')]
      rfl
  rw [writeAll, hpieces]
  rfl

/-- What has been written is the stream of messages that can be written. -/
theorem of_writeAll {ms : List ChannelMessage} {bs : List UInt8} (h : writeAll ms = some bs) :
    (∀ m ∈ ms, m.Writable) ∧ bs = stream ms := by
  obtain ⟨pieces, hpieces, rfl⟩ := Option.map_eq_some_iff.mp h
  clear h
  induction ms generalizing pieces with
  | nil =>
    obtain rfl := Option.some.inj hpieces
    exact ⟨nofun, rfl⟩
  | cons m ms ih =>
    rw [List.mapM_cons] at hpieces
    obtain ⟨piece, hpiece, hpieces⟩ := Option.bind_eq_some_iff.mp hpieces
    obtain ⟨pieces', hpieces', hcons⟩ := Option.bind_eq_some_iff.mp hpieces
    obtain rfl := Option.some.inj hcons
    obtain ⟨hm, rfl⟩ := of_write hpiece
    obtain ⟨hms, hflatten⟩ := ih _ hpieces'
    exact ⟨List.forall_mem_cons.mpr ⟨hm, hms⟩, by simp [hflatten]⟩

/-- The contents of the data messages. -/
def dataOf (ms : List ChannelMessage) : List UInt8 :=
  ms.flatMap fun | .data bytes => bytes | _ => []

/-- The contents of the extended data messages. -/
def extendedDataOf (ms : List ChannelMessage) : List UInt8 :=
  ms.flatMap fun | .extendedData _ bytes => bytes | _ => []

/-! ## Boundaries

Places between two messages, given by what follows them. They are used where it must be said that
a loop begins a turn at a message, or in the middle of one. -/

/-- The message can be written: no length in it is too long for a `VarInt`. -/
def Complete (m : ChannelMessage) : Prop :=
  m.Writable ∧ ∀ rq wantReply, m = .request rq wantReply → rq.Encodable

theorem complete_data {bytes : List UInt8} (h : bytes.length < 2 ^ 62) : (data bytes).Complete :=
  ⟨h, nofun⟩

theorem complete_request (rq : SessionRequest) (wantReply : Bool) (h : rq.Encodable) :
    (request rq wantReply).Complete := by
  refine ⟨trivial, fun rq' w heq => ?_⟩
  obtain ⟨rfl, -⟩ := request.inj heq
  exact h

/-- A place in front of a message, or behind the last one. A place is given by what follows it. -/
def Boundary (ms : List ChannelMessage) (tail x : List UInt8) : Prop :=
  ∃ k ≤ ms.length, x = stream (ms.drop k) ++ tail

theorem Boundary.length_le {ms : List ChannelMessage} {tail x : List UInt8}
    (h : Boundary ms tail x) : x.length ≤ (stream ms ++ tail).length := by
  obtain ⟨k, -, rfl⟩ := h
  have hsplit := stream_append (ms.take k) (ms.drop k)
  rw [List.take_append_drop] at hsplit
  rw [hsplit]
  simp only [List.length_append]
  omega

theorem boundary_start (ms : List ChannelMessage) (tail : List UInt8) :
    Boundary ms tail (stream ms ++ tail) :=
  ⟨0, Nat.zero_le _, rfl⟩

/-- The boundaries behind the first message. -/
theorem Boundary.cons {ms : List ChannelMessage} {tail x : List UInt8} (h : Boundary ms tail x)
    (m : ChannelMessage) : Boundary (m :: ms) tail x := by
  obtain ⟨k, hk, rfl⟩ := h
  exact ⟨k + 1, Nat.succ_le_succ hk, rfl⟩

theorem boundary_cons {m : ChannelMessage} {ms : List ChannelMessage} {tail x : List UInt8}
    (hx : x.length < (stream (m :: ms) ++ tail).length) :
    Boundary (m :: ms) tail x ↔ Boundary ms tail x := by
  constructor
  · rintro ⟨k, hk, rfl⟩
    cases k with
    | zero => exact absurd hx (Nat.lt_irrefl _)
    | succ k => exact ⟨k, Nat.le_of_succ_le_succ hk, rfl⟩
  · exact fun h => h.cons m

end ChannelMessage

end Dssh
