import Dssh.Channel.Open
import Dssh.Session.StdinRelay

/-!
# The size of the messages

Both sides of a channel say how long a message they take: one in the opening, the other in the
confirmation. `open_channel` and `accept` read what the other side says, and the channel they
return does not have it. The operations of `SshChannelWriter` write what they are given.

## Nothing to violate

A limit could be kept in three places: by the channel, by the operations of the writer, or by
those who call them. The first two are settled by showing what they do. What the peer advertises
has no influence on what this side has written when it has the channel (`established_eq`), and
there is no other place it could be kept: `open_channel` and `accept` return the two halves of a
stream. And an operation writes one message whose payload is as long as the caller says
(`payloadLength_perform`).

So the messages of a channel are within a limit exactly when the callers keep to it. The
source's callers are these. The two relays of a session have buffers of 8192 bytes and send what
they have read. The server sends the message of the day, whatever its length. That is a list of
call sites, and for each of them there is a statement about all of its runs, not about single
calls.

By default both sides advertise a mebibyte, so their own relays are far below that. A peer that
advertises less is not heard.

## The length of a message

`payloadLength` is read off the bytes, with the decoder that the peer uses. Control messages of
a channel and requests have no payload of this kind. An operation that copies from a source may
write less than it announced, if the source ends early. It returns an error then, and the
announced length is the one that counts.

## Main definitions

* `WriterOp`, `WriterOp.perform` — the operations, and what they write
* `payloadLength` — how long a message is
* `Handshake` — how a side comes by a channel

## Main results

* `Handshake.established_eq` — what the peer advertises has no influence on what is written
* `WriterOp.payloadLength_perform` — an operation writes one message, as long as it is told to
* `limits` — so the messages are within a limit exactly when the callers keep to it, and what
  the callers here do
-/

namespace Dssh

/-! ## The operations of the writer

All ways of writing a message to a channel, with what each writes. The length of a payload is
announced in the head, so that it can be read off the bytes. -/

/-- The source of a copy has ended too early. -/
structure ShortSource where
  /-- The length that was announced. -/
  expected : ℕ
  /-- What the source had. -/
  actual : ℕ
  deriving DecidableEq

namespace SshChannelWriter

/-- What `io::copy` makes of a source that is limited to `length`. -/
def copied (source : List UInt8) (length : ℕ) : Except ShortSource Unit :=
  if (source.take length).length = length then .ok ()
  else .error ⟨length, (source.take length).length⟩

/-- `none` when the length is no `VarInt` and the call panics. -/
def dataFrom (source : List UInt8) (length : ℕ) :
    Option (List UInt8 × Except ShortSource Unit) := do
  let len ← VarInt.tryFrom length
  pure ([sshMsgChannelData.encode, len.encode, source.take length].flatten, copied source length)

/-- `none` when the length is no `VarInt` and the call panics. -/
def extendedDataFrom (dataType : VarInt) (source : List UInt8) (length : ℕ) :
    Option (List UInt8 × Except ShortSource Unit) := do
  let len ← VarInt.tryFrom length
  pure ([sshMsgChannelExtendedData.encode, dataType.encode, len.encode,
    source.take length].flatten, copied source length)

end SshChannelWriter

/-- An operation of `SshChannelWriter`. -/
inductive WriterOp where
  | data (bytes : List UInt8)
  | dataFrom (source : List UInt8) (length : ℕ)
  | extendedData (dataType : VarInt) (bytes : List UInt8)
  | extendedDataFrom (dataType : VarInt) (source : List UInt8) (length : ℕ)
  | notice (rq : SessionRequest)
  | eof
  | close
  deriving DecidableEq

namespace WriterOp

/-- What an operation writes, and what it returns; `none` for a call that panics. -/
def perform : WriterOp → Option (List UInt8 × Except ShortSource Unit)
  | data bytes => (SshChannelWriter.data bytes).map (·, .ok ())
  | dataFrom source length => SshChannelWriter.dataFrom source length
  | extendedData dataType bytes => (SshChannelWriter.extendedData dataType bytes).map (·, .ok ())
  | extendedDataFrom dataType source length =>
    SshChannelWriter.extendedDataFrom dataType source length
  | notice rq => some (SshChannelWriter.notice rq, .ok ())
  | eof => some (SshChannelWriter.eof, .ok ())
  | close => some (SshChannelWriter.close, .ok ())

/-- The length of the payload that the caller gives to an operation that writes data. -/
def given : WriterOp → Option ℕ
  | data bytes => some bytes.length
  | dataFrom _ length => some length
  | extendedData _ bytes => some bytes.length
  | extendedDataFrom _ _ length => some length
  | _ => none

/-- What a sequence of operations writes, message by message. -/
def performAll : List WriterOp → Option (List (List UInt8))
  | [] => some []
  | op :: ops => do
    let (message, _) ← op.perform
    let messages ← performAll ops
    pure (message :: messages)

end WriterOp

/-- The length of the payload that an event announces. -/
def ChannelEvent.payloadLength : ChannelEvent → Option ℕ
  | data remaining => some remaining
  | extendedData _ remaining => some remaining
  | _ => none

/-- The length of the payload, of a message that carries data. -/
def payloadLength (message : List UInt8) : Option ℕ :=
  match SshChannel.nextEvent.outcome message with
  | (.ok event, _) => event.payloadLength
  | (.error _, _) => none

/-- It is what the head of the message announces. -/
theorem payloadLength_of_accepts {head : List UInt8} {event : ChannelEvent}
    (h : SshChannel.nextEvent.Accepts head event) (body : List UInt8) :
    payloadLength (head ++ body) = event.payloadLength := by
  rw [payloadLength, h.outcome]

namespace WriterOp

/-- Data. -/
theorem payloadLength_data {n : ℕ} {len : VarInt} (h : VarInt.tryFrom n = some len)
    (body : List UInt8) :
    payloadLength [sshMsgChannelData.encode, len.encode, body].flatten = some n := by
  have haccepts : SshChannel.nextEvent.Accepts
      [sshMsgChannelData.encode, len.encode].flatten (.data len.val) := by
    refine Decoder.Accepts.bind (VarInt.accepts_encode _ _) ?_
    rw [if_pos rfl]
    exact Decoder.Accepts.bind (VarInt.accepts_encode _ _) rfl
  have hlength := payloadLength_of_accepts haccepts body
  rw [VarInt.tryFrom_eq_some.mp h] at hlength
  simpa [ChannelEvent.payloadLength] using hlength

/-- Extended data. -/
theorem payloadLength_extendedData {n : ℕ} {len : VarInt} (h : VarInt.tryFrom n = some len)
    (dataType : VarInt) (body : List UInt8) :
    payloadLength [sshMsgChannelExtendedData.encode, dataType.encode, len.encode, body].flatten =
      some n := by
  have haccepts : SshChannel.nextEvent.Accepts
      [sshMsgChannelExtendedData.encode, dataType.encode, len.encode].flatten
      (.extendedData dataType len.val) := by
    refine Decoder.Accepts.bind (VarInt.accepts_encode _ _) ?_
    rw [if_neg (by decide), if_pos rfl]
    refine Decoder.Accepts.bind (VarInt.accepts_encode _ _) ?_
    exact Decoder.Accepts.bind (VarInt.accepts_encode _ _) rfl
  have hlength := payloadLength_of_accepts haccepts body
  rw [VarInt.tryFrom_eq_some.mp h] at hlength
  simpa [ChannelEvent.payloadLength] using hlength

/-- The other operations write a message with no such payload. -/
theorem payloadLength_message {m : ChannelMessage} (h : m.Writable) :
    payloadLength (m.head ++ m.body) = m.event.payloadLength :=
  payloadLength_of_accepts (ChannelMessage.accepts_head h) m.body

/-- **One operation, one message.** Its payload is as long as the caller says. -/
theorem payloadLength_perform {op : WriterOp} {message : List UInt8} {r : Except ShortSource Unit}
    (h : op.perform = some (message, r)) : payloadLength message = op.given := by
  cases op with
  | data bytes =>
    obtain ⟨bs, hbs, hmessage⟩ := Option.map_eq_some_iff.mp h
    cases hmessage
    obtain ⟨len, hlen, hdata⟩ := Option.bind_eq_some_iff.mp hbs
    cases hdata
    exact payloadLength_data hlen bytes
  | dataFrom source length =>
    obtain ⟨len, hlen, hmessage⟩ := Option.bind_eq_some_iff.mp h
    cases hmessage
    exact payloadLength_data hlen _
  | extendedData dataType bytes =>
    obtain ⟨bs, hbs, hmessage⟩ := Option.map_eq_some_iff.mp h
    cases hmessage
    obtain ⟨len, hlen, hdata⟩ := Option.bind_eq_some_iff.mp hbs
    cases hdata
    exact payloadLength_extendedData hlen dataType bytes
  | extendedDataFrom dataType source length =>
    obtain ⟨len, hlen, hmessage⟩ := Option.bind_eq_some_iff.mp h
    cases hmessage
    exact payloadLength_extendedData hlen dataType _
  | notice rq =>
    cases h
    have hwrite : SshChannelWriter.notice rq = (ChannelMessage.request rq false).head ++
        (ChannelMessage.request rq false).body :=
      Option.some.inj (ChannelMessage.write_eq (m := .request rq false) trivial)
    rw [hwrite]
    exact payloadLength_message (m := .request rq false) trivial
  | eof =>
    cases h
    exact payloadLength_message (m := .eof) trivial
  | close =>
    cases h
    exact payloadLength_message (m := .close) trivial

/-- The messages of a sequence of operations are as long as the operations are told to make them. -/
theorem map_payloadLength {ops : List WriterOp} {messages : List (List UInt8)}
    (h : performAll ops = some messages) : messages.map payloadLength = ops.map given := by
  induction ops generalizing messages with
  | nil =>
    cases h
    rfl
  | cons op ops ih =>
    obtain ⟨⟨message, r⟩, hop, h⟩ := Option.bind_eq_some_iff.mp h
    obtain ⟨messages', hops, h⟩ := Option.bind_eq_some_iff.mp h
    cases h
    rw [List.map_cons, List.map_cons, payloadLength_perform hop, ih hops]

end WriterOp

/-! ## Channels

The two sides come by a channel in two ways, and both are told the limit of the peer. Neither
keeps it. -/

/-- How one side comes by a channel, with the limit that it advertises itself. -/
inductive Handshake where
  /-- `open_channel` -/
  | opens (channel : ChannelOpen) (own : VarInt)
  /-- `accept_channel`, the handler and `accept` -/
  | accepts (channel : ChannelOpen) (own : VarInt)

namespace Handshake

/-- What this side has written when it has the channel, if the peer advertises `peer`. -/
def established (peer : VarInt) : Handshake → Option (List UInt8)
  | opens channel own =>
    match readChannelOpenResponse.outcome (PendingChannel.accept peer) with
    | (.ok _, _) => some (openChannel channel own)
    | (.error _, _) => none
  | accepts channel own =>
    match acceptChannel.outcome (openChannel channel peer) with
    | (.ok incoming, rest) =>
      (consumer incoming.channelType).bind fun handler =>
        match handler.outcome rest with
        | (.ok _, _) => some (PendingChannel.accept own)
        | (.error _, _) => none
    | (.error _, _) => none

/-- The messages on the channel, if `ops` are performed on it. -/
def messages (handshake : Handshake) (peer : VarInt) (ops : List WriterOp) :
    Option (List (List UInt8)) := do
  let _ ← handshake.established peer
  WriterOp.performAll ops

/-- What this side writes of the handshake. -/
def own : Handshake → List UInt8
  | opens channel limit => openChannel channel limit
  | accepts _ limit => PendingChannel.accept limit

/-- The handler has read its payload. -/
def Bounded : Handshake → Prop
  | opens _ _ => True
  | accepts channel _ => channel.Bounded

/-- **The limit of the peer is dropped.** Whatever it advertises, the channel is the same. -/
theorem established_eq {handshake : Handshake} (h : handshake.Bounded) (peer : VarInt) :
    handshake.established peer = some handshake.own := by
  cases handshake with
  | opens channel limit =>
    have hread := readChannelOpenResponse_accept peer []
    rw [List.append_nil] at hread
    simp only [established, hread, own]
  | accepts channel limit =>
    have haccept := acceptChannel_openChannel channel peer []
    rw [List.append_nil, List.append_nil] at haccept
    obtain ⟨d, hd, hpayload⟩ := channel.accepts_payload h
    have hread := hpayload.outcome []
    rw [List.append_nil] at hread
    simp only [established, haccept, hd, Option.bind_some, hread, own]

end Handshake

/-! ## The callers

Who writes data: the relay of the output, the relay of the input, and the message of the day. The
relays have buffers, which bound what they write at once; the message of the day has none. -/

/-- The operations in `ops` write `written`, and none of them is given more than `limit`. -/
def WriterOp.Writes (limit : ℕ) (ops : List WriterOp) (written : List UInt8) : Prop :=
  ∃ messages, performAll ops = some messages ∧ written = messages.flatten ∧
    ∀ op ∈ ops, ∀ n, op.given = some n → n ≤ limit

/-- One more operation writes one more message. -/
theorem WriterOp.performAll_snoc {ops : List WriterOp}
    {messages : List (List UInt8)} {op : WriterOp}
    {message : List UInt8} {r : Except ShortSource Unit} (hops : performAll ops = some messages)
    (hop : op.perform = some (message, r)) :
    performAll (ops ++ [op]) = some (messages ++ [message]) := by
  induction ops generalizing messages with
  | nil =>
    cases hops
    simp [performAll, hop]
  | cons op' ops ih =>
    obtain ⟨⟨message', r'⟩, hop', hops⟩ := Option.bind_eq_some_iff.mp hops
    obtain ⟨messages', hops', hcons⟩ := Option.bind_eq_some_iff.mp hops
    cases hcons
    simp [performAll, hop', ih hops']

/-- One operation more. -/
theorem WriterOp.Writes.snoc {limit : ℕ} {ops : List WriterOp}
    {written : List UInt8} {op : WriterOp}
    {message : List UInt8} {r : Except ShortSource Unit} (h : Writes limit ops written)
    (hop : op.perform = some (message, r)) (hgiven : ∀ n, op.given = some n → n ≤ limit) :
    Writes limit (ops ++ [op]) (written ++ message) := by
  obtain ⟨messages, hops, rfl, hlimit⟩ := h
  refine ⟨messages ++ [message], performAll_snoc hops hop, by simp, ?_⟩
  intro op' hop'
  rcases List.mem_append.mp hop' with hop' | hop'
  · exact hlimit op' hop'
  · rw [List.mem_singleton.mp hop']
    exact hgiven

namespace OutputRelay

variable {t t' : OutputRelay}

/-- The relay writes messages that are no longer than its buffers. -/
def Short (t : OutputRelay) : Prop := ∃ ops, WriterOp.Writes bufferSize ops t.written

theorem Short.perform {message : List UInt8} {r : Except ShortSource Unit} (op : WriterOp)
    (h : Short t) (hop : op.perform = some (message, r))
    (hgiven : ∀ n, op.given = some n → n ≤ bufferSize) (ht : t'.written = t.written ++ message) :
    Short t' := by
  obtain ⟨ops, hops⟩ := h
  exact ⟨_, ht ▸ hops.snoc hop hgiven⟩

/-- A chunk of output; a call that panics writes nothing. -/
theorem Short.send {bytes : Option (List UInt8)} (op : WriterOp) (h : Short t)
    (hop : op.perform = bytes.map (·, .ok ())) (hgiven : ∀ n, op.given = some n → n ≤ bufferSize) :
    Short (t.send bytes) := by
  cases bytes with
  | none => exact h
  | some bs => exact h.perform op hop hgiven rfl

theorem Short.finish (h : Short t) : Short t.finish := by
  have heof : Short { t with written := t.written ++ SshChannelWriter.eof } :=
    h.perform .eof rfl (by simp [WriterOp.given]) rfl
  exact heof.perform .close rfl (by simp [WriterOp.given]) rfl

theorem Short.notifyExit (h : Short t) : Short t.notifyExit :=
  h.perform (.notice (exitNotice t.status)) rfl (by simp [WriterOp.given]) rfl

theorem Short.loopHead (h : Short t) : Short t.loopHead := by
  unfold OutputRelay.loopHead
  split
  · split
    · exact h.finish
    · exact h
  · exact h

theorem Short.step {a : Action} (h : Short t) (hstep : step t a = some t') : Short t' := by
  cases a with
  | readStdout n =>
    obtain ⟨⟨-, -, -, hn, -⟩, rfl⟩ := step_readStdout hstep
    have hread : Short { t with stdout := t.stdout.drop n } := h
    refine hread.send (.data (t.stdout.take n)) rfl fun k hk => ?_
    cases hk
    exact (List.length_take_le n t.stdout).trans hn
  | stdoutEnd =>
    obtain ⟨-, rfl⟩ := step_stdoutDone (Or.inl rfl) hstep
    exact Short.loopHead h
  | eio =>
    obtain ⟨-, rfl⟩ := step_stdoutDone (Or.inr rfl) hstep
    exact Short.loopHead h
  | readStderr n =>
    obtain ⟨⟨-, -, -, hn, -⟩, rfl⟩ := step_readStderr hstep
    have hread : Short { t with stderr := t.stderr.drop n } := h
    refine hread.send (.extendedData sshExtendedDataStderr (t.stderr.take n)) rfl
      fun k hk => ?_
    cases hk
    exact (List.length_take_le n t.stderr).trans hn
  | stderrEnd =>
    obtain ⟨-, rfl⟩ := step_stderrEnd hstep
    exact Short.loopHead h
  | exit =>
    obtain ⟨-, ⟨-, rfl⟩ | ⟨-, rfl⟩⟩ := step_exit hstep
    · exact h.notifyExit
    · exact h.notifyExit.finish

theorem short_of_reachable {M : Machine OutputRelay Action} (hstep : M.step = OutputRelay.step)
    (hinit : M.init.written = []) (h : M.Reachable t) : Short t := by
  have hshort : Short M.init := ⟨[], [], rfl, hinit, List.forall_mem_nil _⟩
  refine h.invariant hshort ?_
  intro s a s' _ hs _ hs'
  rw [hstep] at hs'
  exact hs.step hs'

end OutputRelay

namespace StdinRelay

variable {interactive : Bool} {s t : StdinRelay}

/-- The relay sends messages that are no longer than its buffer. -/
def Short (s : StdinRelay) : Prop :=
  ∀ m ∈ s.sent, ∀ n, m.event.payloadLength = some n → n ≤ bufferSize

theorem Short.send {m : ChannelMessage} (h : Short s)
    (hm : ∀ n, m.event.payloadLength = some n → n ≤ bufferSize) (ht : t.sent = s.sent ++ [m]) :
    Short t := by
  intro m' hm'
  rw [ht] at hm'
  rcases List.mem_append.mp hm' with hm' | hm'
  · exact h m' hm'
  · rw [List.mem_singleton.mp hm']
    exact hm

theorem Short.leave (h : Short s) : Short s.leave := by
  have heof : Short { s with sent := s.sent ++ [.eof] } :=
    h.send (m := .eof) (by simp [ChannelMessage.event, ChannelEvent.payloadLength]) rfl
  refine heof.send (m := .close) (by simp [ChannelMessage.event, ChannelEvent.payloadLength]) ?_
  simp [StdinRelay.leave]

theorem Short.onInput {n : ℕ} (h : Short s) (hn : n ≤ bufferSize) (ok : Bool) :
    Short (s.onInput n ok) := by
  have hdata : Short { s with
      stdin := s.stdin.drop n
      sent := s.sent ++ [ChannelMessage.data (s.stdin.take n)] } := by
    refine h.send (m := .data (s.stdin.take n)) (fun k hk => ?_) rfl
    cases hk
    exact (List.length_take_le n s.stdin).trans hn
  cases ok with
  | true => exact hdata
  | false => exact hdata.leave

theorem Short.onResize (h : Short s) (hstep : s.onResize = some t) : Short t := by
  have hnotice : ∀ size n, (windowChange size).event.payloadLength = some n → n ≤ bufferSize := by
    intro size n hn
    cases hn
  unfold StdinRelay.onResize at hstep
  split at hstep <;> cases hstep
  · exact h.send (hnotice _) rfl
  · exact h.send (hnotice _) rfl
  · exact h
  · exact h

theorem Short.turn {n : ℕ} {ok : Bool} (h : Short s) (hstep : s.turn interactive n ok = some t) :
    Short t := by
  cases (branch_of_turn hstep).2 with
  | done => exact h.leave
  | input _ hn => exact h.onInput hn ok
  | inputEnd => exact h.leave
  | resize _ _ _ _ hresize => exact h.onResize hresize

theorem Short.step {a : Action} (h : Short s) (hstep : s.step interactive a = some t) :
    Short t := by
  cases a with
  | turn n ok => exact h.turn hstep
  | _ =>
    rw [Short, (frame_of_not_turn rfl hstep).sent]
    exact h

theorem short_of_reachable (h : (machine interactive).Reachable s) : Short s := by
  have hinit : Short (machine interactive).init := List.forall_mem_nil _
  exact h.invariant hinit fun _ hs _ hstep => hs.step hstep

end StdinRelay

/-- The operation of `send_motd`, if any: whether `.hushlogin` exists, and what `/etc/motd` is read
as. -/
def sendMotd (hushlogin : Bool) (motd : Option (List UInt8)) : List WriterOp :=
  if hushlogin then []
  else
    match motd with
    | some data => if data = [] then [] else [.data data]
    | none => []

/-- The whole file is sent, or nothing. -/
theorem sendMotd_given (hushlogin : Bool) (motd : Option (List UInt8)) (limit : ℕ) :
    (∀ op ∈ sendMotd hushlogin motd, ∀ n, op.given = some n → n ≤ limit) ↔
      (hushlogin = false → ∀ data, motd = some data → data.length ≤ limit) := by
  unfold sendMotd
  cases hushlogin with
  | true => simp
  | false =>
    cases motd with
    | none => simp
    | some data =>
      by_cases hempty : data = []
      · simp [hempty]
      · simp [hempty, WriterOp.given]

/-! ## Limits

What is left of a limit is what the callers happen to do. It is compared with any limit that the
peer may have announced. -/

/-- **No limit but the callers'.** The channel does not have the limit of the peer, and a message is
within it exactly if the operation that writes it is given no more. The relays read no more than
their buffers hold, and `send_motd` sends the whole file. -/
theorem limits (m : VarInt) :
    (∀ handshake : Handshake, handshake.Bounded → handshake.established m = some handshake.own) ∧
    (∀ (handshake : Handshake) (ops : List WriterOp) (messages : List (List UInt8)),
      handshake.messages m ops = some messages →
        ((∀ message ∈ messages, ∀ n, payloadLength message = some n → n ≤ m.val) ↔
          ∀ op ∈ ops, ∀ n, op.given = some n → n ≤ m.val)) ∧
    (∀ out err status t, (runPiped out err status).Reachable t →
      ∃ ops, WriterOp.Writes 8192 ops t.written) ∧
    (∀ out status t, (runPty out status).Reachable t → ∃ ops, WriterOp.Writes 8192 ops t.written) ∧
    (∀ interactive s, (StdinRelay.machine interactive).Reachable s →
      ∀ message ∈ s.sent, ∀ n, message.event.payloadLength = some n → n ≤ 8192) ∧
    ∀ hushlogin motd, (∀ op ∈ sendMotd hushlogin motd, ∀ n, op.given = some n → n ≤ m.val) ↔
      (hushlogin = false → ∀ data, motd = some data → data.length ≤ m.val) := by
  refine ⟨fun handshake h => Handshake.established_eq h m, ?_, ?_, ?_, ?_,
    fun hushlogin motd => sendMotd_given hushlogin motd m.val⟩
  · intro handshake ops messages h
    obtain ⟨_, -, hops⟩ := Option.bind_eq_some_iff.mp h
    have hmap := WriterOp.map_payloadLength hops
    have hmem : (∀ message ∈ messages, ∀ n, payloadLength message = some n → n ≤ m.val) ↔
        ∀ length ∈ messages.map payloadLength, ∀ n, length = some n → n ≤ m.val := by
      rw [List.forall_mem_map]
    rw [hmem, hmap, List.forall_mem_map]
  · intro out err status t h
    exact OutputRelay.short_of_reachable rfl rfl h
  · intro out status t h
    exact OutputRelay.short_of_reachable rfl rfl h
  · intro interactive s h
    exact StdinRelay.short_of_reachable h

/-- The peer takes nothing; the motd, the output and the input are sent all the same. -/
theorem limits_nothing :
    (Handshake.accepts .session (.ofNat 7)).established (.ofNat 0) =
      some (Handshake.accepts .session (.ofNat 7)).own ∧
    ((∀ message ∈ [[64, 94, 2, 104, 105]], ∀ n, payloadLength message = some n → n ≤ 0) ↔
      ∀ op ∈ sendMotd false (some [104, 105]), ∀ n, op.given = some n → n ≤ 0) ∧
    (∃ t, (runPiped [104] [] ⟨0⟩).exec (runPiped [104] [] ⟨0⟩).init [.readStdout 1] = some t ∧
      ∃ ops, WriterOp.Writes 8192 ops t.written) ∧
    (∃ t, (runPty [104] ⟨0⟩).exec (runPty [104] ⟨0⟩).init [.readStdout 1] = some t ∧
      ∃ ops, WriterOp.Writes 8192 ops t.written) ∧
    ∃ s, (StdinRelay.machine false).exec {} [.inputs [104], .turn 1 true] = some s ∧
      ∀ message ∈ s.sent, ∀ n, message.event.payloadLength = some n → n ≤ 8192 := by
  obtain ⟨hestablished, hmessages, hpiped, hpty, hstdin, -⟩ := limits (.ofNat 0)
  have hpipedRun : ((runPiped [104] [] ⟨0⟩).exec (runPiped [104] [] ⟨0⟩).init
      [.readStdout 1]).isSome = true := by decide
  have hptyRun : ((runPty [104] ⟨0⟩).exec (runPty [104] ⟨0⟩).init
      [.readStdout 1]).isSome = true := by decide
  have hstdinRun : ((StdinRelay.machine false).exec {}
      [.inputs [104], .turn 1 true]).isSome = true := by decide
  obtain ⟨t, ht⟩ := Option.isSome_iff_exists.mp hpipedRun
  obtain ⟨t', ht'⟩ := Option.isSome_iff_exists.mp hptyRun
  obtain ⟨s, hs⟩ := Option.isSome_iff_exists.mp hstdinRun
  refine ⟨hestablished _ trivial, ?_, ⟨t, ht, ?_⟩, ⟨t', ht', ?_⟩, ⟨s, hs, ?_⟩⟩
  · exact hmessages (.accepts .session (.ofNat 7)) (sendMotd false (some [104, 105])) _ rfl
  · exact hpiped [104] [] ⟨0⟩ t (Machine.reach_of_exec .init ht)
  · exact hpty [104] ⟨0⟩ t' (Machine.reach_of_exec .init ht')
  · exact hstdin false s (Machine.reach_of_exec .init hs)

/-- **A limit that is not kept.** The peer takes messages of one byte, and is sent two. -/
theorem oneByteLimit_exceeded : ∃ messages,
    (Handshake.opens .session (.ofNat 7)).messages (.ofNat 1) [.data [1, 2]] = some messages ∧
      ¬∀ message ∈ messages, ∀ n, payloadLength message = some n → n ≤ (VarInt.ofNat 1).val := by
  refine ⟨[[64, 94, 2, 1, 2]], by decide, fun h => ?_⟩
  exact absurd (h [64, 94, 2, 1, 2] List.mem_cons_self 2 (by decide)) (by decide)

end Dssh
