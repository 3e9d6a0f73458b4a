import Dssh.Forward.Payload
import Dssh.Session.Payload

/-!
# All payload types

What holds of the payload types together, and the requests of the session protocol as one type.

## Why there is one type of session requests

In the source a request is a generic parameter: `request::<ExecRequest, _, _>` sends an `exec`,
and the receiving side looks at the type name and then calls `decode_payload` at the type that
belongs to it. So the sender's types and the receiver's `match` on names have to fit together,
and nothing checks that they do. `SessionRequest` is the sum of the types that are sent on a
session channel. `requestType` and `payload` are what the sender writes, `payloadDecoder` is the
receiver's choice of a decoder by the name alone, and `accepts_payload` says that they fit.

`"signal"` is sent as a request by one function and as a notice by another; the payload is the
same, and whether a reply is wanted is part of the message, not of the payload.

Requests that nobody knows are not in the sum. They can be received: `payloadDecoder` is `none`
for their names.

## Main definitions

* `SessionRequest` — a request of the session protocol
* `SessionRequest.payloadDecoder` — the decoder that belongs to a name

## Main results

* `payloads_roundTrip` — every payload type survives the wire
* `SessionRequest.accepts_payload` — the decoder for a request's type reads exactly its payload
-/

namespace Dssh

/-- **Every payload type survives the wire.** -/
theorem payloads_roundTrip :
    (Wire.RoundTrips SshString ∧ Wire.RoundTrips SshBytes ∧ Wire.RoundTrips SshBool) ∧
    (Wire.RoundTrips ExecRequest ∧ Wire.RoundTrips SubsystemRequest ∧
      Wire.RoundTrips ExitStatusRequest ∧ Wire.RoundTrips ExitSignalRequest ∧
      Wire.RoundTrips PtyRequest ∧ Wire.RoundTrips WindowChangeRequest ∧
      Wire.RoundTrips SignalRequest ∧ Wire.RoundTrips EnvRequest) ∧
    Wire.RoundTrips TcpipForwardRequest ∧ Wire.RoundTrips CancelTcpipForwardRequest ∧
      Wire.RoundTrips TcpipForwardReply ∧ Wire.RoundTrips DirectTcpip ∧
      Wire.RoundTrips ForwardedTcpip ∧ Wire.RoundTrips StreamlocalForwardRequest ∧
      Wire.RoundTrips CancelStreamlocalForwardRequest ∧ Wire.RoundTrips ForwardedStreamlocal ∧
      Wire.RoundTrips DirectStreamlocal := by
  refine ⟨⟨?_, ?_, ?_⟩, ⟨?_, ?_, ?_, ?_, ?_, ?_, ?_, ?_⟩, ?_, ?_, ?_, ?_, ?_, ?_, ?_, ?_, ?_⟩ <;>
    exact Wire.roundTrips _

/-! ## Session requests

The types that implement a request trait have a name and a payload each, and the receiver chooses
the decoder by the name. They are one type here, so that "the decoder for the name of the
request" can be written down. -/

/-- A channel request of the session protocol. `"signal"` is sent as a request and as a notice. -/
inductive SessionRequest where
  /-- Allocate a terminal. -/
  | ptyReq (r : PtyRequest)
  /-- Set a variable of the environment. -/
  | env (r : EnvRequest)
  /-- Run a command. -/
  | exec (r : ExecRequest)
  /-- Run the login shell. -/
  | shell
  /-- Run a subsystem. -/
  | subsystem (r : SubsystemRequest)
  /-- Send a signal to the process. -/
  | signal (r : SignalRequest)
  /-- The terminal has another size. -/
  | windowChange (r : WindowChangeRequest)
  /-- The process has ended. -/
  | exitStatus (r : ExitStatusRequest)
  /-- The process has been ended by a signal. -/
  | exitSignal (r : ExitSignalRequest)
  deriving DecidableEq

namespace SessionRequest

/-- The name under which it is sent. -/
def requestType : SessionRequest → SshString
  | ptyReq _ => "pty-req"
  | env _ => "env"
  | exec _ => "exec"
  | shell => "shell"
  | subsystem _ => "subsystem"
  | signal _ => "signal"
  | windowChange _ => "window-change"
  | exitStatus _ => "exit-status"
  | exitSignal _ => "exit-signal"

/-- The bytes of the payload. -/
def payload : SessionRequest → List UInt8
  | ptyReq r => Wire.encode r
  | env r => Wire.encode r
  | exec r => Wire.encode r
  | shell => Wire.encode EmptyPayload.mk
  | subsystem r => Wire.encode r
  | signal r => Wire.encode r
  | windowChange r => Wire.encode r
  | exitStatus r => Wire.encode r
  | exitSignal r => Wire.encode r

/-- No field of the payload is longer than what a peer accepts. -/
def Bounded : SessionRequest → Prop
  | ptyReq r => Wire.Bounded r
  | env r => Wire.Bounded r
  | exec r => Wire.Bounded r
  | shell => True
  | subsystem r => Wire.Bounded r
  | signal r => Wire.Bounded r
  | windowChange r => Wire.Bounded r
  | exitStatus r => Wire.Bounded r
  | exitSignal r => Wire.Bounded r

/-- Encoding the payload does not fail. -/
def Encodable : SessionRequest → Prop
  | ptyReq r => Wire.Encodable r
  | env r => Wire.Encodable r
  | exec r => Wire.Encodable r
  | shell => True
  | subsystem r => Wire.Encodable r
  | signal r => Wire.Encodable r
  | windowChange r => Wire.Encodable r
  | exitStatus r => Wire.Encodable r
  | exitSignal r => Wire.Encodable r

/-- The decoder of the payload of a request of type `ty`; `none` for a type nobody knows. -/
def payloadDecoder (ty : SshString) : Option (Decoder SessionCodecError SessionRequest) :=
  match ty with
  | "pty-req" => some (PtyRequest.decoder.bind fun r => .done (.ptyReq r))
  | "env" => some (EnvRequest.decoder.bind fun r => .done (.env r))
  | "exec" => some (ExecRequest.decoder.bind fun r => .done (.exec r))
  | "shell" => some (.done .shell)
  | "subsystem" => some (SubsystemRequest.decoder.bind fun r => .done (.subsystem r))
  | "signal" => some (SignalRequest.decoder.bind fun r => .done (.signal r))
  | "window-change" => some (WindowChangeRequest.decoder.bind fun r => .done (.windowChange r))
  | "exit-status" => some (ExitStatusRequest.decoder.bind fun r => .done (.exitStatus r))
  | "exit-signal" => some (ExitSignalRequest.decoder.bind fun r => .done (.exitSignal r))
  | _ => none

/-- **Reading a payload.** The decoder for the type of a request reads exactly its payload. -/
theorem accepts_payload {rq : SessionRequest} (h : rq.Bounded) :
    ∃ d, payloadDecoder rq.requestType = some d ∧ d.Accepts rq.payload rq := by
  have key : ∀ {α : Type} [Wire α] [LawfulWire α] {d : Decoder SessionCodecError α}
      (mk : α → SessionRequest) {r : α}, Wire.Bounded r → d.Inverts Wire.Bounded Wire.encode →
      (d.bind fun r => .done (mk r)).Accepts (Wire.encode r) (mk r) := by
    intro α _ _ d mk r hr hd
    simpa using (hd.accepts hr).bind (f := fun r => .done (mk r)) (y := []) rfl
  cases rq with
  | ptyReq r => exact ⟨_, rfl, key .ptyReq h LawfulWire.inverts⟩
  | env r => exact ⟨_, rfl, key .env h LawfulWire.inverts⟩
  | exec r => exact ⟨_, rfl, key .exec h LawfulWire.inverts⟩
  | shell => exact ⟨_, rfl, rfl⟩
  | subsystem r => exact ⟨_, rfl, key .subsystem h LawfulWire.inverts⟩
  | signal r => exact ⟨_, rfl, key .signal h LawfulWire.inverts⟩
  | windowChange r => exact ⟨_, rfl, key .windowChange h LawfulWire.inverts⟩
  | exitStatus r => exact ⟨_, rfl, key .exitStatus h LawfulWire.inverts⟩
  | exitSignal r => exact ⟨_, rfl, key .exitSignal h LawfulWire.inverts⟩

/-- The names are short. -/
theorem utf8_requestType_length (rq : SessionRequest) :
    rq.requestType.utf8.length ≤ maxRemoteFieldSize := by
  cases rq <;> simp only [requestType] <;> decide

end SessionRequest

end Dssh
