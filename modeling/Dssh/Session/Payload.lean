import Dssh.Wire

/-!
# The payloads of session channel requests

Encoders and decoders as they are written in the source, one beside the other. An encoding is
the concatenation of the encodings of the fields; `deriving`, `Wire` and `LawfulWire` are what
the other modules use.

## The pattern

It is the one of the payloads of forwarding: a record, an encoder that writes the fields in
their order, a decoder that reads them, and a law which says that the decoder takes exactly what
has been written and returns it. For payloads with strings there is in addition what they are
bounded by. A decoder refuses a string of more than a mebibyte, and `refuses` says so for the
four payloads of setup and input where a theorem needs it.

Nothing here depends on the direction. `exec`, `shell`, `pty-req`, `env` and `subsystem` set up
a session, `window-change` and `signal` go along with the input, `exit-status` and `exit-signal`
with the output. `shell` has no payload, and so no record.

## Numbers and texts

Sizes and statuses are `VarInt`s. They are narrowed where they are used, and how that is done
differs: by a cast on the client and by a check on the server. Commands and terminal modes are
bytes. Everything else is text, and a payload whose text is not UTF-8 does not decode.

An exit signal has a message and a language tag, which the server leaves empty and the client
does not look at. They are decoded all the same, since they stand on the stream.

## Main definitions

* `SessionCodecError` — what can go wrong
* `ExecRequest` to `EnvRequest` — the payloads

## Main results

* the `LawfulWire` instances — each decoder inverts its encoder
-/

namespace Dssh

/-! ## The payloads

The payload types of the session protocol, each with its encoder, its decoder and the law between
them. An error of a field is wrapped in the error of the payload. -/

/-- The errors of the decoders and encoders. -/
inductive SessionCodecError where
  | codec (e : CodecError)
  | readIo
  | writeIo
  deriving DecidableEq, Repr

/-- `"exec"`: run a command. -/
structure ExecRequest where
  /-- As it is given to the shell; it need not be text. -/
  command : SshBytes
  deriving DecidableEq

namespace ExecRequest

def encode (r : ExecRequest) : List UInt8 :=
  [SshBytes.encode r.command].flatten

def decoder : Decoder SessionCodecError ExecRequest := do
  let command ← SshBytes.decoder.mapError .codec
  pure ⟨command⟩

instance : Wire ExecRequest :=
  ⟨_, encode, decoder, fun _ => [], fun r => [r.command]⟩

theorem bounded_iff {r : ExecRequest} : Wire.Bounded r ↔
    r.command.length ≤ maxRemoteFieldSize := by
  simp [Wire.Bounded, Wire.strings, Wire.byteStrings]

instance : LawfulWire ExecRequest where
  inverts := by
    refine .bind command (SshBytes.inverts.mapError _) (fun _ h => bounded_iff.mp h) fun _ h₁ => ?_
    refine .done ⟨bounded_iff.mpr h₁, rfl⟩ ?_
    rintro ⟨⟩ ⟨-, rfl⟩
    rfl

theorem refuses {r : ExecRequest} (h : Wire.Encodable r) (hr : ¬ Wire.Bounded r) :
    decoder.Refuses (encode r) := by
  have hlong : maxRemoteFieldSize < r.command.length := by
    rw [bounded_iff] at hr
    omega
  exact ((SshBytes.refuses hlong (h.2 _ (by simp [Wire.byteStrings]))).mapError _).bind_left _ _

end ExecRequest

/-- `"subsystem"`. -/
structure SubsystemRequest where
  /-- No subsystem is known to the server. -/
  subsystemName : SshString
  deriving DecidableEq

namespace SubsystemRequest

def encode (r : SubsystemRequest) : List UInt8 :=
  [r.subsystemName.encode].flatten

def decoder : Decoder SessionCodecError SubsystemRequest := do
  let subsystemName ← SshString.decoder.mapError .codec
  pure ⟨subsystemName⟩

instance : Wire SubsystemRequest :=
  ⟨_, encode, decoder, fun r => [r.subsystemName], fun _ => []⟩

theorem bounded_iff {r : SubsystemRequest} : Wire.Bounded r ↔
    r.subsystemName.utf8.length ≤ maxRemoteFieldSize := by
  simp [Wire.Bounded, Wire.strings, Wire.byteStrings]

instance : LawfulWire SubsystemRequest where
  inverts := by
    refine .bind subsystemName (SshString.inverts.mapError _)
      (fun _ h => bounded_iff.mp h) fun _ h₁ => ?_
    refine .done ⟨bounded_iff.mpr h₁, rfl⟩ ?_
    rintro ⟨⟩ ⟨-, rfl⟩
    rfl

end SubsystemRequest

/-- `"exit-status"`: the process has exited. -/
structure ExitStatusRequest where
  exitStatus : VarInt
  deriving DecidableEq

namespace ExitStatusRequest

def encode (r : ExitStatusRequest) : List UInt8 :=
  [r.exitStatus.encode].flatten

def decoder : Decoder SessionCodecError ExitStatusRequest := do
  let exitStatus ← VarInt.decoder .readIo
  pure ⟨exitStatus⟩

instance : Wire ExitStatusRequest :=
  ⟨_, encode, decoder, fun _ => [], fun _ => []⟩

instance : LawfulWire ExitStatusRequest where
  inverts := by
    refine .bind exitStatus (VarInt.inverts _) (fun _ _ => trivial) fun _ _ => ?_
    refine .done ⟨⟨by simp [Wire.strings], by simp [Wire.byteStrings]⟩, rfl⟩ ?_
    rintro ⟨⟩ ⟨-, rfl⟩
    rfl

end ExitStatusRequest

/-- `"exit-signal"`: the process was killed by a signal. -/
structure ExitSignalRequest where
  /-- Without SIG in front. -/
  signalName : SshString
  /-- Whether there is a core dump. -/
  coreDumped : SshBool
  /-- For people, and empty here. -/
  errorMessage : SshString
  languageTag : SshString
  deriving DecidableEq

namespace ExitSignalRequest

def encode (r : ExitSignalRequest) : List UInt8 :=
  [r.signalName.encode, SshBool.encode r.coreDumped, r.errorMessage.encode,
    r.languageTag.encode].flatten

def decoder : Decoder SessionCodecError ExitSignalRequest := do
  let signalName ← SshString.decoder.mapError .codec
  let coreDumped ← SshBool.decoder.mapError .codec
  let errorMessage ← SshString.decoder.mapError .codec
  let languageTag ← SshString.decoder.mapError .codec
  pure ⟨signalName, coreDumped, errorMessage, languageTag⟩

instance : Wire ExitSignalRequest :=
  ⟨_, encode, decoder, fun r => [r.signalName, r.errorMessage, r.languageTag], fun _ => []⟩

theorem bounded_iff {r : ExitSignalRequest} : Wire.Bounded r ↔
    r.signalName.utf8.length ≤ maxRemoteFieldSize ∧
      r.errorMessage.utf8.length ≤ maxRemoteFieldSize ∧
      r.languageTag.utf8.length ≤ maxRemoteFieldSize := by
  simp [Wire.Bounded, Wire.strings, Wire.byteStrings]

instance : LawfulWire ExitSignalRequest where
  inverts := by
    refine .bind signalName (SshString.inverts.mapError _)
      (fun _ h => (bounded_iff.mp h).1) fun _ h₁ => ?_
    refine .bind coreDumped (SshBool.inverts.mapError _) (fun _ _ => trivial) fun _ _ => ?_
    refine .bind errorMessage (SshString.inverts.mapError _)
      (fun _ h => (bounded_iff.mp h.1.1).2.1) fun _ h₂ => ?_
    refine .bind languageTag (SshString.inverts.mapError _)
      (fun _ h => (bounded_iff.mp h.1.1.1).2.2) fun _ h₃ => ?_
    refine .done ⟨⟨⟨⟨bounded_iff.mpr ⟨h₁, h₂, h₃⟩, rfl⟩, rfl⟩, rfl⟩, rfl⟩ ?_
    rintro ⟨⟩ ⟨⟨⟨⟨-, rfl⟩, rfl⟩, rfl⟩, rfl⟩
    rfl

end ExitSignalRequest

/-- `"pty-req"`: allocate a terminal. -/
structure PtyRequest where
  /-- The value of `TERM`. -/
  termType : SshString
  /-- In characters, … -/
  widthCols : VarInt
  heightRows : VarInt
  /-- … and in pixels, where that is known. -/
  widthPx : VarInt
  heightPx : VarInt
  /-- Opcodes with their arguments, see `TerminalModes`. -/
  terminalModes : SshBytes
  deriving DecidableEq

namespace PtyRequest

def encode (r : PtyRequest) : List UInt8 :=
  [r.termType.encode, r.widthCols.encode, r.heightRows.encode, r.widthPx.encode,
    r.heightPx.encode, SshBytes.encode r.terminalModes].flatten

def decoder : Decoder SessionCodecError PtyRequest := do
  let termType ← SshString.decoder.mapError .codec
  let widthCols ← VarInt.decoder .readIo
  let heightRows ← VarInt.decoder .readIo
  let widthPx ← VarInt.decoder .readIo
  let heightPx ← VarInt.decoder .readIo
  let terminalModes ← SshBytes.decoder.mapError .codec
  pure ⟨termType, widthCols, heightRows, widthPx, heightPx, terminalModes⟩

instance : Wire PtyRequest :=
  ⟨_, encode, decoder, fun r => [r.termType], fun r => [r.terminalModes]⟩

theorem bounded_iff {r : PtyRequest} : Wire.Bounded r ↔
    r.termType.utf8.length ≤ maxRemoteFieldSize ∧ r.terminalModes.length ≤ maxRemoteFieldSize := by
  simp [Wire.Bounded, Wire.strings, Wire.byteStrings]

instance : LawfulWire PtyRequest where
  inverts := by
    refine .bind termType (SshString.inverts.mapError _)
      (fun _ h => (bounded_iff.mp h).1) fun _ h₁ => ?_
    refine .bind widthCols (VarInt.inverts _) (fun _ _ => trivial) fun _ _ => ?_
    refine .bind heightRows (VarInt.inverts _) (fun _ _ => trivial) fun _ _ => ?_
    refine .bind widthPx (VarInt.inverts _) (fun _ _ => trivial) fun _ _ => ?_
    refine .bind heightPx (VarInt.inverts _) (fun _ _ => trivial) fun _ _ => ?_
    refine .bind terminalModes (SshBytes.inverts.mapError _)
      (fun _ h => (bounded_iff.mp h.1.1.1.1.1).2) fun _ h₂ => ?_
    refine .done ⟨⟨⟨⟨⟨⟨bounded_iff.mpr ⟨h₁, h₂⟩, rfl⟩, rfl⟩, rfl⟩, rfl⟩, rfl⟩, rfl⟩ ?_
    rintro ⟨⟩ ⟨⟨⟨⟨⟨⟨-, rfl⟩, rfl⟩, rfl⟩, rfl⟩, rfl⟩, rfl⟩
    rfl

theorem refuses {r : PtyRequest} (h : Wire.Encodable r) (hr : ¬ Wire.Bounded r) :
    decoder.Refuses (encode r) := by
  rw [bounded_iff] at hr
  by_cases hterm : r.termType.utf8.length ≤ maxRemoteFieldSize
  · refine .bind_right (Decoder.accepts_mapError.mpr (SshString.accepts_encode hterm)) ?_
    refine .bind_right (VarInt.accepts_encode _ _) ?_
    refine .bind_right (VarInt.accepts_encode _ _) ?_
    refine .bind_right (VarInt.accepts_encode _ _) ?_
    refine .bind_right (VarInt.accepts_encode _ _) ?_
    have hlong : maxRemoteFieldSize < r.terminalModes.length := by omega
    exact ((SshBytes.refuses hlong (h.2 _ (by simp [Wire.byteStrings]))).mapError _).bind_left _ _
  · exact ((SshString.refuses (Nat.lt_of_not_le hterm)
      (h.1 _ (by simp [Wire.strings]))).mapError _).bind_left _ _

end PtyRequest

/-- `"window-change"`: the size of the terminal has changed. -/
structure WindowChangeRequest where
  widthCols : VarInt
  heightRows : VarInt
  widthPx : VarInt
  heightPx : VarInt
  deriving DecidableEq

namespace WindowChangeRequest

def encode (r : WindowChangeRequest) : List UInt8 :=
  [r.widthCols.encode, r.heightRows.encode, r.widthPx.encode, r.heightPx.encode].flatten

def decoder : Decoder SessionCodecError WindowChangeRequest := do
  let widthCols ← VarInt.decoder .readIo
  let heightRows ← VarInt.decoder .readIo
  let widthPx ← VarInt.decoder .readIo
  let heightPx ← VarInt.decoder .readIo
  pure ⟨widthCols, heightRows, widthPx, heightPx⟩

instance : Wire WindowChangeRequest :=
  ⟨_, encode, decoder, fun _ => [], fun _ => []⟩

instance : LawfulWire WindowChangeRequest where
  inverts := by
    refine .bind widthCols (VarInt.inverts _) (fun _ _ => trivial) fun _ _ => ?_
    refine .bind heightRows (VarInt.inverts _) (fun _ _ => trivial) fun _ _ => ?_
    refine .bind widthPx (VarInt.inverts _) (fun _ _ => trivial) fun _ _ => ?_
    refine .bind heightPx (VarInt.inverts _) (fun _ _ => trivial) fun _ _ => ?_
    refine .done ⟨⟨⟨⟨⟨by simp [Wire.strings], by simp [Wire.byteStrings]⟩, rfl⟩, rfl⟩, rfl⟩, rfl⟩ ?_
    rintro ⟨⟩ ⟨⟨⟨⟨-, rfl⟩, rfl⟩, rfl⟩, rfl⟩
    rfl

end WindowChangeRequest

/-- `"signal"`: send a signal to the process. -/
structure SignalRequest where
  /-- Without SIG in front. -/
  signalName : SshString
  deriving DecidableEq

namespace SignalRequest

def encode (r : SignalRequest) : List UInt8 :=
  [r.signalName.encode].flatten

def decoder : Decoder SessionCodecError SignalRequest := do
  let signalName ← SshString.decoder.mapError .codec
  pure ⟨signalName⟩

instance : Wire SignalRequest :=
  ⟨_, encode, decoder, fun r => [r.signalName], fun _ => []⟩

theorem bounded_iff {r : SignalRequest} : Wire.Bounded r ↔
    r.signalName.utf8.length ≤ maxRemoteFieldSize := by
  simp [Wire.Bounded, Wire.strings, Wire.byteStrings]

instance : LawfulWire SignalRequest where
  inverts := by
    refine .bind signalName (SshString.inverts.mapError _)
      (fun _ h => bounded_iff.mp h) fun _ h₁ => ?_
    refine .done ⟨bounded_iff.mpr h₁, rfl⟩ ?_
    rintro ⟨⟩ ⟨-, rfl⟩
    rfl

theorem refuses {r : SignalRequest} (h : Wire.Encodable r) (hr : ¬ Wire.Bounded r) :
    decoder.Refuses (encode r) := by
  have hlong : maxRemoteFieldSize < r.signalName.utf8.length := by
    rw [bounded_iff] at hr
    omega
  exact ((SshString.refuses hlong (h.1 _ (by simp [Wire.strings]))).mapError _).bind_left _ _

end SignalRequest

/-- `"env"`: set an environment variable. -/
structure EnvRequest where
  name : SshString
  value : SshString
  deriving DecidableEq

namespace EnvRequest

def encode (r : EnvRequest) : List UInt8 :=
  [r.name.encode, r.value.encode].flatten

def decoder : Decoder SessionCodecError EnvRequest := do
  let name ← SshString.decoder.mapError .codec
  let value ← SshString.decoder.mapError .codec
  pure ⟨name, value⟩

instance : Wire EnvRequest :=
  ⟨_, encode, decoder, fun r => [r.name, r.value], fun _ => []⟩

theorem bounded_iff {r : EnvRequest} : Wire.Bounded r ↔
    r.name.utf8.length ≤ maxRemoteFieldSize ∧ r.value.utf8.length ≤ maxRemoteFieldSize := by
  simp [Wire.Bounded, Wire.strings, Wire.byteStrings]

instance : LawfulWire EnvRequest where
  inverts := by
    refine .bind name (SshString.inverts.mapError _)
      (fun _ h => (bounded_iff.mp h).1) fun _ h₁ => ?_
    refine .bind value (SshString.inverts.mapError _)
      (fun _ h => (bounded_iff.mp h.1).2) fun _ h₂ => ?_
    refine .done ⟨⟨bounded_iff.mpr ⟨h₁, h₂⟩, rfl⟩, rfl⟩ ?_
    rintro ⟨⟩ ⟨⟨-, rfl⟩, rfl⟩
    rfl

theorem refuses {r : EnvRequest} (h : Wire.Encodable r) (hr : ¬ Wire.Bounded r) :
    decoder.Refuses (encode r) := by
  rw [bounded_iff] at hr
  by_cases hname : r.name.utf8.length ≤ maxRemoteFieldSize
  · refine .bind_right (Decoder.accepts_mapError.mpr (SshString.accepts_encode hname)) ?_
    have hlong : maxRemoteFieldSize < r.value.utf8.length := by omega
    exact ((SshString.refuses hlong (h.1 _ (by simp [Wire.strings]))).mapError _).bind_left _ _
  · exact ((SshString.refuses (Nat.lt_of_not_le hname)
      (h.1 _ (by simp [Wire.strings]))).mapError _).bind_left _ _

end EnvRequest

end Dssh
