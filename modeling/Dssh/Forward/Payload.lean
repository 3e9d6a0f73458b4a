import Dssh.Wire

/-!
# The payloads of forwarding requests and channels

Encoders and decoders as they are written in the source, one beside the other. Reserved fields
are written empty, and skipped on reading whatever they hold.

There are nine of them. Four listen or stop listening, on a port or on a path. One is the reply
to the first of these. The other four open channels, with a target chosen by the client
(`direct-…`) or an origin told by the server (`forwarded-…`).

## The pattern

A payload is a record, an encoder that writes its fields in their order, and a decoder that
reads them. That the two agree is the content of a `LawfulWire` instance, and the simp set of
the decoders proves it: each field is a string or a number, and what is known of those is in
`Codec` and `Wire`. What is bounded is said once for each payload (`bounded_iff`). The lengths
of strings are, and numbers are not: a string of more than a mebibyte can be written, and is
refused when it is read.

Nothing here says what a payload is for. Ports are `VarInt`s of up to 62 bits, and it is the
business of those who use them to narrow them or to refuse. The names that head the types below
are those of the requests and channels, and which name goes with which type is decided where
they are sent.

## Reserved fields

Two channel types have fields that OpenSSH reserves. The encoder writes an empty string and a
zero. The decoder reads and drops whatever is there, so it is not injective, and the law of
`LawfulWire` is one-sided: what has been encoded is decoded. The strings in reserved fields are
within the limit like all others.

## Main definitions

* `ForwardError` — what can go wrong
* `TcpipForwardRequest` to `DirectStreamlocal` — the payloads

## Main results

* the `LawfulWire` instances — each decoder inverts its encoder
* `TcpipForwardRequest.refuses` — what is too long is refused
-/

namespace Dssh

/-! ## The payloads

Each payload type follows the same plan: a structure, an encoder that writes its fields one
behind the other, a decoder, and the instances that say that the decoder inverts the encoder.
Fields that are fixed in the encoder are skipped by the decoder. -/

/-- The errors of the decoders and encoders. -/
inductive ForwardError where
  | codec (e : CodecError)
  | readIo
  | writeIo
  deriving DecidableEq, Repr

/-- `"tcpip-forward"`: listen on a port. -/
structure TcpipForwardRequest where
  /-- The canonical host. -/
  bindAddress : SshString
  /-- Zero lets the server choose. -/
  bindPort : VarInt
  deriving DecidableEq

namespace TcpipForwardRequest

def encode (r : TcpipForwardRequest) : List UInt8 :=
  [r.bindAddress.encode, r.bindPort.encode].flatten

def decoder : Decoder ForwardError TcpipForwardRequest := do
  let bindAddress ← SshString.decoder.mapError .codec
  let bindPort ← VarInt.decoder .readIo
  pure ⟨bindAddress, bindPort⟩

instance : Wire TcpipForwardRequest :=
  ⟨_, encode, decoder, fun r => [r.bindAddress], fun _ => []⟩

theorem bounded_iff {r : TcpipForwardRequest} : Wire.Bounded r ↔
    r.bindAddress.utf8.length ≤ maxRemoteFieldSize := by
  simp [Wire.Bounded, Wire.strings, Wire.byteStrings]

instance : LawfulWire TcpipForwardRequest where
  inverts := by
    refine .bind bindAddress (SshString.inverts.mapError _)
      (fun _ h => bounded_iff.mp h) fun _ h₁ => ?_
    refine .bind bindPort (VarInt.inverts _) (fun _ _ => trivial) fun _ _ => ?_
    refine .done ⟨⟨bounded_iff.mpr h₁, rfl⟩, rfl⟩ ?_
    rintro ⟨⟩ ⟨⟨-, rfl⟩, rfl⟩
    rfl

theorem refuses {r : TcpipForwardRequest} (h : Wire.Encodable r) (hr : ¬ Wire.Bounded r) :
    decoder.Refuses (encode r) := by
  have hlong : maxRemoteFieldSize < r.bindAddress.utf8.length := by
    rw [bounded_iff] at hr
    omega
  exact ((SshString.refuses hlong (h.1 _ (by simp [Wire.strings]))).mapError _).bind_left _ _

end TcpipForwardRequest

/-- `"cancel-tcpip-forward"`: stop listening on a port. -/
structure CancelTcpipForwardRequest where
  /-- As it was typed, or as the request had it. -/
  bindAddress : SshString
  /-- The port in the reply. -/
  bindPort : VarInt
  deriving DecidableEq

namespace CancelTcpipForwardRequest

def encode (r : CancelTcpipForwardRequest) : List UInt8 :=
  [r.bindAddress.encode, r.bindPort.encode].flatten

def decoder : Decoder ForwardError CancelTcpipForwardRequest := do
  let bindAddress ← SshString.decoder.mapError .codec
  let bindPort ← VarInt.decoder .readIo
  pure ⟨bindAddress, bindPort⟩

instance : Wire CancelTcpipForwardRequest :=
  ⟨_, encode, decoder, fun r => [r.bindAddress], fun _ => []⟩

theorem bounded_iff {r : CancelTcpipForwardRequest} : Wire.Bounded r ↔
    r.bindAddress.utf8.length ≤ maxRemoteFieldSize := by
  simp [Wire.Bounded, Wire.strings, Wire.byteStrings]

instance : LawfulWire CancelTcpipForwardRequest where
  inverts := by
    refine .bind bindAddress (SshString.inverts.mapError _)
      (fun _ h => bounded_iff.mp h) fun _ h₁ => ?_
    refine .bind bindPort (VarInt.inverts _) (fun _ _ => trivial) fun _ _ => ?_
    refine .done ⟨⟨bounded_iff.mpr h₁, rfl⟩, rfl⟩ ?_
    rintro ⟨⟩ ⟨⟨-, rfl⟩, rfl⟩
    rfl

end CancelTcpipForwardRequest

/-- The success response to `"tcpip-forward"`. -/
structure TcpipForwardReply where
  /-- The port that the server listens on. -/
  allocatedPort : VarInt
  deriving DecidableEq

namespace TcpipForwardReply

def encode (r : TcpipForwardReply) : List UInt8 :=
  [r.allocatedPort.encode].flatten

def decoder : Decoder ForwardError TcpipForwardReply := do
  let allocatedPort ← VarInt.decoder .readIo
  pure ⟨allocatedPort⟩

instance : Wire TcpipForwardReply :=
  ⟨_, encode, decoder, fun _ => [], fun _ => []⟩

instance : LawfulWire TcpipForwardReply where
  inverts := by
    refine .bind allocatedPort (VarInt.inverts _) (fun _ _ => trivial) fun _ _ => ?_
    refine .done ⟨⟨by simp [Wire.strings], by simp [Wire.byteStrings]⟩, rfl⟩ ?_
    rintro ⟨⟩ ⟨-, rfl⟩
    rfl

end TcpipForwardReply

/-- Channel open payload of `"direct-tcpip"`. -/
structure DirectTcpip where
  /-- Where the server is to connect, … -/
  destHost : SshString
  destPort : VarInt
  /-- … and where the connection came from. -/
  originatorHost : SshString
  originatorPort : VarInt
  deriving DecidableEq

namespace DirectTcpip

def encode (r : DirectTcpip) : List UInt8 :=
  [r.destHost.encode, r.destPort.encode, r.originatorHost.encode, r.originatorPort.encode].flatten

def decoder : Decoder ForwardError DirectTcpip := do
  let destHost ← SshString.decoder.mapError .codec
  let destPort ← VarInt.decoder .readIo
  let originatorHost ← SshString.decoder.mapError .codec
  let originatorPort ← VarInt.decoder .readIo
  pure ⟨destHost, destPort, originatorHost, originatorPort⟩

instance : Wire DirectTcpip :=
  ⟨_, encode, decoder, fun r => [r.destHost, r.originatorHost], fun _ => []⟩

theorem bounded_iff {r : DirectTcpip} : Wire.Bounded r ↔
    r.destHost.utf8.length ≤ maxRemoteFieldSize ∧
      r.originatorHost.utf8.length ≤ maxRemoteFieldSize := by
  simp [Wire.Bounded, Wire.strings, Wire.byteStrings]

instance : LawfulWire DirectTcpip where
  inverts := by
    refine .bind destHost (SshString.inverts.mapError _)
      (fun _ h => (bounded_iff.mp h).1) fun _ h₁ => ?_
    refine .bind destPort (VarInt.inverts _) (fun _ _ => trivial) fun _ _ => ?_
    refine .bind originatorHost (SshString.inverts.mapError _)
      (fun _ h => (bounded_iff.mp h.1.1).2) fun _ h₂ => ?_
    refine .bind originatorPort (VarInt.inverts _) (fun _ _ => trivial) fun _ _ => ?_
    refine .done ⟨⟨⟨⟨bounded_iff.mpr ⟨h₁, h₂⟩, rfl⟩, rfl⟩, rfl⟩, rfl⟩ ?_
    rintro ⟨⟩ ⟨⟨⟨⟨-, rfl⟩, rfl⟩, rfl⟩, rfl⟩
    rfl

end DirectTcpip

/-- Channel open payload of `"forwarded-tcpip"`. -/
structure ForwardedTcpip where
  /-- The host of the listener, as the request had it, and not the address of the connection. -/
  connectedAddress : SshString
  connectedPort : VarInt
  /-- The peer of the connection. -/
  originatorAddress : SshString
  originatorPort : VarInt
  deriving DecidableEq

namespace ForwardedTcpip

def encode (r : ForwardedTcpip) : List UInt8 :=
  [r.connectedAddress.encode, r.connectedPort.encode, r.originatorAddress.encode,
    r.originatorPort.encode].flatten

def decoder : Decoder ForwardError ForwardedTcpip := do
  let connectedAddress ← SshString.decoder.mapError .codec
  let connectedPort ← VarInt.decoder .readIo
  let originatorAddress ← SshString.decoder.mapError .codec
  let originatorPort ← VarInt.decoder .readIo
  pure ⟨connectedAddress, connectedPort, originatorAddress, originatorPort⟩

instance : Wire ForwardedTcpip :=
  ⟨_, encode, decoder, fun r => [r.connectedAddress, r.originatorAddress], fun _ => []⟩

theorem bounded_iff {r : ForwardedTcpip} : Wire.Bounded r ↔
    r.connectedAddress.utf8.length ≤ maxRemoteFieldSize ∧
      r.originatorAddress.utf8.length ≤ maxRemoteFieldSize := by
  simp [Wire.Bounded, Wire.strings, Wire.byteStrings]

instance : LawfulWire ForwardedTcpip where
  inverts := by
    refine .bind connectedAddress (SshString.inverts.mapError _)
      (fun _ h => (bounded_iff.mp h).1) fun _ h₁ => ?_
    refine .bind connectedPort (VarInt.inverts _) (fun _ _ => trivial) fun _ _ => ?_
    refine .bind originatorAddress (SshString.inverts.mapError _)
      (fun _ h => (bounded_iff.mp h.1.1).2) fun _ h₂ => ?_
    refine .bind originatorPort (VarInt.inverts _) (fun _ _ => trivial) fun _ _ => ?_
    refine .done ⟨⟨⟨⟨bounded_iff.mpr ⟨h₁, h₂⟩, rfl⟩, rfl⟩, rfl⟩, rfl⟩ ?_
    rintro ⟨⟩ ⟨⟨⟨⟨-, rfl⟩, rfl⟩, rfl⟩, rfl⟩
    rfl

end ForwardedTcpip

/-- `"streamlocal-forward@openssh.com"`: listen on a Unix socket. -/
structure StreamlocalForwardRequest where
  socketPath : SshString
  deriving DecidableEq

namespace StreamlocalForwardRequest

def encode (r : StreamlocalForwardRequest) : List UInt8 :=
  [r.socketPath.encode].flatten

def decoder : Decoder ForwardError StreamlocalForwardRequest := do
  let socketPath ← SshString.decoder.mapError .codec
  pure ⟨socketPath⟩

instance : Wire StreamlocalForwardRequest :=
  ⟨_, encode, decoder, fun r => [r.socketPath], fun _ => []⟩

theorem bounded_iff {r : StreamlocalForwardRequest} : Wire.Bounded r ↔
    r.socketPath.utf8.length ≤ maxRemoteFieldSize := by
  simp [Wire.Bounded, Wire.strings, Wire.byteStrings]

instance : LawfulWire StreamlocalForwardRequest where
  inverts := by
    refine .bind socketPath (SshString.inverts.mapError _)
      (fun _ h => bounded_iff.mp h) fun _ h₁ => ?_
    refine .done ⟨bounded_iff.mpr h₁, rfl⟩ ?_
    rintro ⟨⟩ ⟨-, rfl⟩
    rfl

end StreamlocalForwardRequest

/-- `"cancel-streamlocal-forward@openssh.com"`: stop listening on a Unix socket. -/
structure CancelStreamlocalForwardRequest where
  socketPath : SshString
  deriving DecidableEq

namespace CancelStreamlocalForwardRequest

def encode (r : CancelStreamlocalForwardRequest) : List UInt8 :=
  [r.socketPath.encode].flatten

def decoder : Decoder ForwardError CancelStreamlocalForwardRequest := do
  let socketPath ← SshString.decoder.mapError .codec
  pure ⟨socketPath⟩

instance : Wire CancelStreamlocalForwardRequest :=
  ⟨_, encode, decoder, fun r => [r.socketPath], fun _ => []⟩

theorem bounded_iff {r : CancelStreamlocalForwardRequest} : Wire.Bounded r ↔
    r.socketPath.utf8.length ≤ maxRemoteFieldSize := by
  simp [Wire.Bounded, Wire.strings, Wire.byteStrings]

instance : LawfulWire CancelStreamlocalForwardRequest where
  inverts := by
    refine .bind socketPath (SshString.inverts.mapError _)
      (fun _ h => bounded_iff.mp h) fun _ h₁ => ?_
    refine .done ⟨bounded_iff.mpr h₁, rfl⟩ ?_
    rintro ⟨⟩ ⟨-, rfl⟩
    rfl

end CancelStreamlocalForwardRequest

/-- Channel open payload of `"forwarded-streamlocal@openssh.com"`, with a reserved string. -/
structure ForwardedStreamlocal where
  socketPath : SshString
  deriving DecidableEq

namespace ForwardedStreamlocal

def encode (r : ForwardedStreamlocal) : List UInt8 :=
  [r.socketPath.encode, SshString.encode ""].flatten

def decoder : Decoder ForwardError ForwardedStreamlocal := do
  let socketPath ← SshString.decoder.mapError .codec
  let _ ← SshString.decoder.mapError .codec
  pure ⟨socketPath⟩

instance : Wire ForwardedStreamlocal :=
  ⟨_, encode, decoder, fun r => [r.socketPath], fun _ => []⟩

theorem bounded_iff {r : ForwardedStreamlocal} : Wire.Bounded r ↔
    r.socketPath.utf8.length ≤ maxRemoteFieldSize := by
  simp [Wire.Bounded, Wire.strings, Wire.byteStrings]

instance : LawfulWire ForwardedStreamlocal where
  inverts := by
    refine .bind socketPath (SshString.inverts.mapError _)
      (fun _ h => bounded_iff.mp h) fun _ h₁ => ?_
    refine .skip "" (SshString.inverts.mapError _) (by decide) ?_
    refine .done ⟨bounded_iff.mpr h₁, rfl⟩ ?_
    rintro ⟨⟩ ⟨-, rfl⟩
    rfl

end ForwardedStreamlocal

/-- Channel open payload of `"direct-streamlocal@openssh.com"`, with a reserved string and a
reserved integer. -/
structure DirectStreamlocal where
  socketPath : SshString
  deriving DecidableEq

namespace DirectStreamlocal

def encode (r : DirectStreamlocal) : List UInt8 :=
  [r.socketPath.encode, SshString.encode "", (VarInt.ofNat 0).encode].flatten

def decoder : Decoder ForwardError DirectStreamlocal := do
  let socketPath ← SshString.decoder.mapError .codec
  let _ ← SshString.decoder.mapError .codec
  let _ ← VarInt.decoder .readIo
  pure ⟨socketPath⟩

instance : Wire DirectStreamlocal :=
  ⟨_, encode, decoder, fun r => [r.socketPath], fun _ => []⟩

theorem bounded_iff {r : DirectStreamlocal} : Wire.Bounded r ↔
    r.socketPath.utf8.length ≤ maxRemoteFieldSize := by
  simp [Wire.Bounded, Wire.strings, Wire.byteStrings]

instance : LawfulWire DirectStreamlocal where
  inverts := by
    refine .bind socketPath (SshString.inverts.mapError _)
      (fun _ h => bounded_iff.mp h) fun _ h₁ => ?_
    refine .skip "" (SshString.inverts.mapError _) (by decide) ?_
    refine .skip (.ofNat 0) (VarInt.inverts _) trivial ?_
    refine .done ⟨bounded_iff.mpr h₁, rfl⟩ ?_
    rintro ⟨⟩ ⟨-, rfl⟩
    rfl

end DirectStreamlocal

end Dssh
