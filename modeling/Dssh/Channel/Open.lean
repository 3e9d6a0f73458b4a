import Dssh.Payloads

/-!
# Opening channels

The handshake on a new stream. The initiator writes the stream kind, the size of its messages,
the type of the channel and a payload that depends on the type; the acceptor reads the first
three, chooses a handler by the type, and the handler reads the payload. The answer is a
confirmation or a failure. After a confirmation the stream belongs to the channel, so both sides
must have consumed the handshake to the byte.

The server does not use the decoders of `DirectTcpip` and `DirectStreamlocal`: its handlers read
the fields one after the other, with errors of their own. `consumer` is the decoder that is
really used for each type.

## Which decoder counts

There is a `DecodeFrom` for `DirectTcpip`, and a theorem about it would be easy and beside the
point, as no server calls it. `handle_direct_tcpip` and `handle_direct_streamlocal` take the
channel apart into its raw halves and decode field after field. The fields reserved in
`direct-streamlocal` are read and thrown away. So the statement is made for what is called:
`handleDirectTcpip`, `handleDirectStreamlocal`, and for the types that the client accepts, the
`decode_payload` it uses. `consumer` puts them in one table, by name, as the dispatchers of both
sides have them.

## What is read and not used

Both answers carry a number, and so does the opening: the size of messages that a side would
like to receive. Both sides read it and drop it. It is part of the bytes here, and of the header
of an incoming channel; nothing else mentions it, as nothing in the source does.

## Limits

A payload with a field that is too long is refused by its reader; `Bounded` is the condition.
The answers have the same limit on their description, and `reject` does not check it. A
rejection with a long description is written and then refused by the reader as undecodable
(`longRejection_refused`). The callers of `reject` use short descriptions.

## Main definitions

* `ChannelOpen` — the channels that are opened, with `openChannel`
* `acceptChannel` — what the acceptor reads, up to the payload
* `consumer` — what is read of the payload, by the type of the channel
* `PendingChannel.accept`, `PendingChannel.reject`, `readChannelOpenResponse` — the answers

## Main results

* `handshake_exact` — openings and answers are read exactly, whatever follows them
* `longRejection_refused` — but not a rejection whose description is above the length limit
-/

namespace Dssh

def dshellChannelStreamKind : VarInt := .ofNat 1

def sshMsgChannelOpenConfirmation : VarInt := .ofNat 91

def sshMsgChannelOpenFailure : VarInt := .ofNat 92

/-- A channel to be opened, with its payload. -/
inductive ChannelOpen where
  /-- A session. -/
  | session
  /-- A connection from the server to a host and a port. -/
  | directTcpip (payload : DirectTcpip)
  /-- One to a socket in its file system. -/
  | directStreamlocal (payload : DirectStreamlocal)
  /-- A connection that the server has accepted on a forwarded port. -/
  | forwardedTcpip (payload : ForwardedTcpip)
  | forwardedStreamlocal (payload : ForwardedStreamlocal)
  | socks5
  deriving DecidableEq

namespace ChannelOpen

/-- The name of its type. -/
def channelType : ChannelOpen → SshString
  | session => "session"
  | directTcpip _ => "direct-tcpip"
  | directStreamlocal _ => "direct-streamlocal@openssh.com"
  | forwardedTcpip _ => "forwarded-tcpip"
  | forwardedStreamlocal _ => "forwarded-streamlocal@openssh.com"
  | socks5 => "socks5"

/-- The bytes of the payload. -/
def payload : ChannelOpen → List UInt8
  | session => []
  | directTcpip v => Wire.encode v
  | directStreamlocal v => Wire.encode v
  | forwardedTcpip v => Wire.encode v
  | forwardedStreamlocal v => Wire.encode v
  | socks5 => []

/-- No field of the payload is longer than what a peer accepts. -/
def Bounded : ChannelOpen → Prop
  | session => True
  | directTcpip v => Wire.Bounded v
  | directStreamlocal v => Wire.Bounded v
  | forwardedTcpip v => Wire.Bounded v
  | forwardedStreamlocal v => Wire.Bounded v
  | socks5 => True

end ChannelOpen

/-! ## The opening

The header is the same for all types of channels: the kind of the stream, the maximum size and
the name of the type. The payload follows without a length of its own, so that only the handler
can tell where it ends. -/

/-- What `open_channel` writes. -/
def openChannel (channel : ChannelOpen) (maxMessageSize : VarInt) : List UInt8 :=
  [dshellChannelStreamKind.encode, maxMessageSize.encode, channel.channelType.encode,
    channel.payload].flatten

/-- What can go wrong in reading the header of a channel. -/
inductive AcceptChannelError where
  | decodeStreamKind
  | unexpectedStreamKind (kind : VarInt)
  | decodeMaxMessageSize
  | decodeChannelType (e : CodecError)
  deriving DecidableEq, Repr

/-- The header of an incoming channel. -/
structure IncomingChannel where
  /-- The name of its type. -/
  channelType : SshString
  /-- The size of messages that the initiator would like to receive. -/
  maxMessageSize : VarInt
  deriving DecidableEq

/-- What `accept_channel` reads off an accepted stream. -/
def acceptChannel : Decoder AcceptChannelError IncomingChannel := do
  let kind ← VarInt.decoder .decodeStreamKind
  if kind ≠ dshellChannelStreamKind then .fail (.unexpectedStreamKind kind)
  else
    let maxMessageSize ← VarInt.decoder .decodeMaxMessageSize
    let channelType ← SshString.decoder.mapError .decodeChannelType
    pure ⟨channelType, maxMessageSize⟩

/-! ## The handlers

Two payload types are read by their decoders, and two by hand in the handler; the others are
empty. The handlers read the fields one by one and give each of them an error of its own; the
lemmas say that they read the same bytes as the decoder would. -/

/-- What can go wrong in the handlers of direct channels. -/
inductive DirectForwardError where
  | decode (e : CodecError)
  | decodeVarint
  deriving DecidableEq, Repr

/-- The fields that `handle_direct_tcpip` reads. -/
def handleDirectTcpip : Decoder DirectForwardError DirectTcpip := do
  let destHost ← SshString.decoder.mapError .decode
  let destPort ← VarInt.decoder .decodeVarint
  let originatorHost ← SshString.decoder.mapError .decode
  let originatorPort ← VarInt.decoder .decodeVarint
  pure ⟨destHost, destPort, originatorHost, originatorPort⟩

/-- The fields that `handle_direct_streamlocal` reads. -/
def handleDirectStreamlocal : Decoder DirectForwardError DirectStreamlocal := do
  let socketPath ← SshString.decoder.mapError .decode
  let _ ← SshString.decoder.mapError .decode
  let _ ← VarInt.decoder .decodeVarint
  pure ⟨socketPath⟩

/-- What can go wrong in reading a payload. -/
inductive ConsumerError where
  | direct (e : DirectForwardError)
  | forward (e : ForwardError)
  deriving DecidableEq, Repr

/-- What the handler for a channel type reads of the payload; `none` for a type nobody handles. -/
def consumer (channelType : SshString) : Option (Decoder ConsumerError ChannelOpen) :=
  match channelType with
  | "session" => some (.done .session)
  | "direct-tcpip" =>
    some ((handleDirectTcpip.mapError .direct).bind fun v => .done (.directTcpip v))
  | "direct-streamlocal@openssh.com" =>
    some ((handleDirectStreamlocal.mapError .direct).bind fun v => .done (.directStreamlocal v))
  | "forwarded-tcpip" =>
    some ((ForwardedTcpip.decoder.mapError .forward).bind fun v => .done (.forwardedTcpip v))
  | "forwarded-streamlocal@openssh.com" =>
    some ((ForwardedStreamlocal.decoder.mapError .forward).bind fun v =>
      .done (.forwardedStreamlocal v))
  | "socks5" => some (.done .socks5)
  | _ => none

/-- The fields read by hand are the fields of the payload type. -/
theorem handleDirectTcpip_inverts : handleDirectTcpip.Inverts Wire.Bounded DirectTcpip.encode := by
  refine .bind DirectTcpip.destHost (SshString.inverts.mapError _)
    (fun _ h => (DirectTcpip.bounded_iff.mp h).1) fun _ h₁ => ?_
  refine .bind DirectTcpip.destPort (VarInt.inverts _) (fun _ _ => trivial) fun _ _ => ?_
  refine .bind DirectTcpip.originatorHost (SshString.inverts.mapError _)
    (fun _ h => (DirectTcpip.bounded_iff.mp h.1.1).2) fun _ h₂ => ?_
  refine .bind DirectTcpip.originatorPort (VarInt.inverts _) (fun _ _ => trivial) fun _ _ => ?_
  refine .done ⟨⟨⟨⟨DirectTcpip.bounded_iff.mpr ⟨h₁, h₂⟩, rfl⟩, rfl⟩, rfl⟩, rfl⟩ ?_
  rintro ⟨⟩ ⟨⟨⟨⟨-, rfl⟩, rfl⟩, rfl⟩, rfl⟩
  rfl

/-- So are these, with the reserved ones skipped. -/
theorem handleDirectStreamlocal_inverts :
    handleDirectStreamlocal.Inverts Wire.Bounded DirectStreamlocal.encode := by
  refine .bind DirectStreamlocal.socketPath (SshString.inverts.mapError _)
    (fun _ h => DirectStreamlocal.bounded_iff.mp h) fun _ h₁ => ?_
  refine .skip "" (SshString.inverts.mapError _) (by decide) ?_
  refine .skip (.ofNat 0) (VarInt.inverts _) trivial ?_
  refine .done ⟨DirectStreamlocal.bounded_iff.mpr h₁, rfl⟩ ?_
  rintro ⟨⟩ ⟨-, rfl⟩
  rfl

/-- **The handlers.** Each reads exactly the payload of its type. -/
theorem ChannelOpen.accepts_payload {channel : ChannelOpen} (h : channel.Bounded) :
    ∃ d, consumer channel.channelType = some d ∧ d.Accepts channel.payload channel := by
  have key : ∀ {α : Type} [Wire α] {d : Decoder ConsumerError α} (mk : α → ChannelOpen) {v : α},
      Wire.Bounded v → d.Inverts Wire.Bounded Wire.encode →
      (d.bind fun v => .done (mk v)).Accepts (Wire.encode v) (mk v) := by
    intro α _ d mk v hv hd
    simpa using (hd.accepts hv).bind (f := fun v => .done (mk v)) (y := []) rfl
  cases channel with
  | session => exact ⟨_, rfl, rfl⟩
  | directTcpip v =>
    exact ⟨_, rfl, key .directTcpip h (handleDirectTcpip_inverts.mapError _)⟩
  | directStreamlocal v =>
    exact ⟨_, rfl, key .directStreamlocal h (handleDirectStreamlocal_inverts.mapError _)⟩
  | forwardedTcpip v =>
    exact ⟨_, rfl, key .forwardedTcpip h (LawfulWire.inverts.mapError _)⟩
  | forwardedStreamlocal v =>
    exact ⟨_, rfl, key .forwardedStreamlocal h (LawfulWire.inverts.mapError _)⟩
  | socks5 => exact ⟨_, rfl, rfl⟩

/-- The names are short. -/
theorem ChannelOpen.utf8_channelType_length (channel : ChannelOpen) :
    channel.channelType.utf8.length ≤ maxRemoteFieldSize := by
  cases channel <;> simp only [channelType] <;> decide

/-! ## The answer

One message: a confirmation with a size, or a failure with a reason code and a description. -/

/-- Why a channel is refused. -/
structure ChannelOpenFailure where
  reasonCode : VarInt
  description : SshString
  deriving DecidableEq, Repr

namespace PendingChannel

/-- What `PendingChannel::accept` writes. -/
def accept (maxMessageSize : VarInt) : List UInt8 :=
  [sshMsgChannelOpenConfirmation.encode, maxMessageSize.encode].flatten

/-- What `PendingChannel::reject` writes. -/
def reject (reasonCode : VarInt) (description : SshString) : List UInt8 :=
  [sshMsgChannelOpenFailure.encode, reasonCode.encode, description.encode].flatten

end PendingChannel

/-- What can go wrong in waiting for the answer. -/
inductive AwaitOpenError where
  | decodeMessageType
  | decodeMaxMessageSize
  | decodeReasonCode
  | decodeDescription (e : CodecError)
  | rejected (failure : ChannelOpenFailure)
  | unexpectedMessageType (messageType : VarInt)
  deriving DecidableEq, Repr

/-- `read_channel_open_response`. -/
def readChannelOpenResponse : Decoder AwaitOpenError Unit := do
  let messageType ← VarInt.decoder .decodeMessageType
  if messageType = sshMsgChannelOpenConfirmation then
    let _ ← VarInt.decoder .decodeMaxMessageSize
    pure ()
  else if messageType = sshMsgChannelOpenFailure then
    let reasonCode ← VarInt.decoder .decodeReasonCode
    let description ← SshString.decoder.mapError .decodeDescription
    .fail (.rejected ⟨reasonCode, description⟩)
  else .fail (.unexpectedMessageType messageType)

/-! ## The handshake

Both sides put together. Behind the opening, and behind the answer, the stream is exactly where
the next party goes on. -/

/-- What `accept_channel` reads is followed by the payload. -/
theorem openChannel_eq (channel : ChannelOpen) (maxMessageSize : VarInt) :
    openChannel channel maxMessageSize =
      [dshellChannelStreamKind.encode, maxMessageSize.encode,
        channel.channelType.encode].flatten ++ channel.payload := by
  simp [openChannel]

/-- The acceptor reads the kind, the size and the type. -/
theorem acceptChannel_accepts (channel : ChannelOpen) (maxMessageSize : VarInt) :
    acceptChannel.Accepts
      [dshellChannelStreamKind.encode, maxMessageSize.encode, channel.channelType.encode].flatten
      ⟨channel.channelType, maxMessageSize⟩ := by
  refine Decoder.Accepts.bind (VarInt.accepts_encode _ _) ?_
  rw [if_neg (not_not_intro rfl)]
  refine Decoder.Accepts.bind (VarInt.accepts_encode _ _) ?_
  exact Decoder.Accepts.bind (Decoder.accepts_mapError.mpr
    (SshString.accepts_encode channel.utf8_channelType_length)) rfl

/-- `accept_channel` stops before the payload. -/
theorem acceptChannel_openChannel (channel : ChannelOpen) (maxMessageSize : VarInt)
    (rest : List UInt8) :
    acceptChannel.outcome (openChannel channel maxMessageSize ++ rest) =
      (.ok ⟨channel.channelType, maxMessageSize⟩, channel.payload ++ rest) := by
  rw [openChannel_eq, List.append_assoc,
    Decoder.outcome_of_after (acceptChannel_accepts channel maxMessageSize)]
  rfl

/-- A confirmation is read as one. -/
theorem readChannelOpenResponse_accept (maxMessageSize : VarInt) (rest : List UInt8) :
    readChannelOpenResponse.outcome (PendingChannel.accept maxMessageSize ++ rest) =
      (.ok (), rest) := by
  have haccepts : readChannelOpenResponse.Accepts (PendingChannel.accept maxMessageSize) () := by
    refine Decoder.Accepts.bind (VarInt.accepts_encode _ _) ?_
    rw [if_pos rfl]
    exact Decoder.Accepts.bind (VarInt.accepts_encode _ _) rfl
  rw [Decoder.outcome_of_after haccepts]
  rfl

/-- A rejection is read as one, unless its description is too long. -/
theorem readChannelOpenResponse_reject (reasonCode : VarInt) {description : SshString}
    (h : description.utf8.length ≤ maxRemoteFieldSize) (rest : List UInt8) :
    readChannelOpenResponse.outcome (PendingChannel.reject reasonCode description ++ rest) =
      (.error (.rejected ⟨reasonCode, description⟩), rest) := by
  have hafter : readChannelOpenResponse.after (PendingChannel.reject reasonCode description) =
      some (.fail (.rejected ⟨reasonCode, description⟩)) := by
    refine Decoder.Accepts.after_bind (VarInt.accepts_encode _ _) ?_
    rw [if_neg (by decide), if_pos rfl]
    refine Decoder.Accepts.after_bind (VarInt.accepts_encode _ _) ?_
    exact Decoder.Accepts.after_bind
      (Decoder.accepts_mapError.mpr (SshString.accepts_encode h)) rfl
  rw [Decoder.outcome_of_after hafter]
  rfl

/-- **Openings and answers are read to the byte.** -/
theorem handshake_exact {channel : ChannelOpen} (hchannel : channel.Bounded)
    {description : SshString} (hdescription : description.utf8.length ≤ maxRemoteFieldSize)
    (maxMessageSize reasonCode : VarInt) (rest : List UInt8) :
    (acceptChannel.outcome (openChannel channel maxMessageSize ++ rest) =
        (.ok ⟨channel.channelType, maxMessageSize⟩, channel.payload ++ rest) ∧
      ∃ d, consumer channel.channelType = some d ∧
        d.outcome (channel.payload ++ rest) = (.ok channel, rest)) ∧
    readChannelOpenResponse.outcome (PendingChannel.accept maxMessageSize ++ rest) =
      (.ok (), rest) ∧
    readChannelOpenResponse.outcome (PendingChannel.reject reasonCode description ++ rest) =
      (.error (.rejected ⟨reasonCode, description⟩), rest) := by
  refine ⟨⟨acceptChannel_openChannel channel maxMessageSize rest, ?_⟩,
    readChannelOpenResponse_accept maxMessageSize rest,
    readChannelOpenResponse_reject reasonCode hdescription rest⟩
  obtain ⟨d, hd, haccepts⟩ := channel.accepts_payload hchannel
  refine ⟨d, hd, ?_⟩
  rw [Decoder.outcome_of_after haccepts]
  rfl

theorem streamlocal_handshake_exact :
    (acceptChannel.outcome (openChannel (.directStreamlocal ⟨"/s"⟩) (.ofNat 7) ++ [1, 2]) =
        (.ok ⟨"direct-streamlocal@openssh.com", .ofNat 7⟩, [2, 47, 115, 0, 0] ++ [1, 2]) ∧
      ∃ d, consumer "direct-streamlocal@openssh.com" = some d ∧
        d.outcome ([2, 47, 115, 0, 0] ++ [1, 2]) = (.ok (.directStreamlocal ⟨"/s"⟩), [1, 2])) ∧
    readChannelOpenResponse.outcome (PendingChannel.accept (.ofNat 7) ++ [1, 2]) =
      (.ok (), [1, 2]) ∧
    readChannelOpenResponse.outcome (PendingChannel.reject (.ofNat 2) "no" ++ [1, 2]) =
      (.error (.rejected ⟨.ofNat 2, "no"⟩), [1, 2]) := by
  have hchannel : (ChannelOpen.directStreamlocal ⟨"/s"⟩).Bounded :=
    DirectStreamlocal.bounded_iff.mpr (by decide)
  have hdescription : (SshString.utf8 "no").length ≤ maxRemoteFieldSize := by decide
  exact handshake_exact hchannel hdescription _ _ _

/-- **`reject` has no limit.** A description above it is written, and is no rejection for the
reader. -/
theorem longRejection_refused (reasonCode : VarInt) {description : SshString}
    (h : maxRemoteFieldSize < description.utf8.length) (h62 : description.utf8.length < 2 ^ 62) :
    readChannelOpenResponse.run (PendingChannel.reject reasonCode description) = .error
      (.decodeDescription
        (.fieldTooLarge "ssh string" description.utf8.length maxRemoteFieldSize)) := by
  have hbytes : PendingChannel.reject reasonCode description =
      sshMsgChannelOpenFailure.encode ++ (reasonCode.encode ++ (description.encode ++ [])) := rfl
  rw [hbytes, readChannelOpenResponse, Decoder.bind_eq,
    (VarInt.accepts_encode AwaitOpenError.decodeMessageType _).run_bind, if_neg (by decide),
    if_pos rfl, Decoder.bind_eq, (VarInt.accepts_encode AwaitOpenError.decodeReasonCode _).run_bind,
    Decoder.bind_eq, Decoder.run_bind, Decoder.run_mapError, SshString.run_encode_of_lt h h62]
  rfl

theorem oneTooLong_rejection_refused :
    readChannelOpenResponse.run (PendingChannel.reject (.ofNat 1)
        (String.ofList (List.replicate (maxRemoteFieldSize + 1) 'a'))) = .error
      (.decodeDescription
        (.fieldTooLarge "ssh string" (maxRemoteFieldSize + 1) maxRemoteFieldSize)) := by
  have hlength := SshString.length_utf8_replicate (maxRemoteFieldSize + 1)
  have hrefused := longRejection_refused (.ofNat 1)
    (Nat.lt_of_lt_of_eq (Nat.lt_succ_self maxRemoteFieldSize) hlength.symm)
    (by rw [hlength]; decide)
  rwa [hlength] at hrefused

end Dssh
