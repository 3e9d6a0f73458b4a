import Dssh.Codec

/-!
# Wire types

A type with a hand-written encoder and a hand-written decoder, and the contents of its string
fields. `LawfulWire` says that the two agree on the values whose fields keep the length limit.

## Hand-written pairs

The payload types of the protocol implement `EncodeInto` and `DecodeFrom` by hand, field after
field, and nothing but care keeps the two in step: a field left out, two fields of one type in
the wrong order, an `SshString` read as `SshBytes`. `Wire` pairs the two functions as they are,
and the instance of `LawfulWire` for a type is the proof that they agree. It is proved once for
each type, next to the type, with the record rules of the library, so changing a type means
changing one module.

## The limit is in the laws

A decoder refuses a field above `maxRemoteFieldSize`, an encoder writes fields of any length. So
no law can say that everything that is written is read back, and `Bounded` is the exact
condition: a value is read back if no field of it is too long, and what has been read never has
such a field. `Encodable` is the much weaker condition under which encoding does not fail, and
`overWire` puts both together: what the other side gets to see of a value.

The length fields are `VarInt`s, hence the two limits `2 ^ 20` and `2 ^ 62`.

## What is absent

Errors of the encoder other than its limit. An `encode_into` fails when the stream does, which
is not a property of the value; streams that fail are modelled where the stream is.

## Main definitions

* `Wire`, `LawfulWire` — the pairs of functions, and that they agree
* `Wire.Bounded`, `Wire.Encodable` — the values that are read back, and those that are written
* `Wire.overWire` — what becomes of a value that is sent

## Main results

* `Wire.roundTrips` — a lawful type survives encoding and decoding, and decoding, encoding and
  decoding, in front of any bytes
-/

namespace Dssh

/-- A type that is put on the wire: `EncodeInto` and `DecodeFrom`. -/
class Wire (α : Type) where
  /-- What decoding can report. -/
  Error : Type
  /-- The bytes it is written as. -/
  encode : α → List UInt8
  /-- How it is read. -/
  decoder : Decoder Error α
  /-- The values of its string fields. -/
  strings : α → List SshString
  /-- The values of its byte string fields. -/
  byteStrings : α → List SshBytes

namespace Wire

variable {α : Type} [Wire α]

/-- No field is longer than what a peer accepts. -/
def Bounded (v : α) : Prop :=
  (∀ s ∈ strings v, (SshString.utf8 s).length ≤ maxRemoteFieldSize) ∧
    ∀ bs ∈ byteStrings v, bs.length ≤ maxRemoteFieldSize

/-- The length of every field is a `VarInt`, so that encoding it does not fail. -/
def Encodable (v : α) : Prop :=
  (∀ s ∈ strings v, (SshString.utf8 s).length < 2 ^ 62) ∧ ∀ bs ∈ byteStrings v, bs.length < 2 ^ 62

end Wire

/-- The decoder of a type inverts its encoder. -/
class LawfulWire (α : Type) [Wire α] : Prop where
  /-- What is written is read back, and nothing else is read than what could be. -/
  inverts : (Wire.decoder (α := α)).Inverts Wire.Bounded Wire.encode

namespace Wire

/-- Values with short fields are read back, exactly, whatever follows them; and what any bytes are
read as has valid and short fields and is read back. -/
structure RoundTrips (α : Type) [Wire α] : Prop where
  /-- A value with short fields is read back, and what follows it is left. -/
  read_back : ∀ (v : α) (rest : List UInt8), Bounded v →
    decoder.run (encode v ++ rest) = .ok (v, rest)
  /-- What has been read has valid and short fields, and is read back itself. -/
  valid : ∀ (bs rest : List UInt8) (v : α), decoder.run bs = .ok (v, rest) →
    (∀ s ∈ strings v, ByteArray.IsValidUTF8 ⟨(SshString.utf8 s).toArray⟩) ∧ Bounded v ∧
      decoder.run (encode v ++ rest) = .ok (v, rest)

/-- **Lawful types survive the wire**, in both directions. -/
theorem roundTrips (α : Type) [Wire α] [LawfulWire α] : RoundTrips α where
  read_back v rest h := (LawfulWire.inverts.accepts h).run rest
  valid bs rest v h := by
    obtain ⟨hbounded, hback⟩ := (LawfulWire.inverts (α := α)).roundTrip h
    refine ⟨fun s _ => ?_, hbounded, hback⟩
    have hs : (⟨(SshString.utf8 s).toArray⟩ : ByteArray) = s.toByteArray := by
      simp [SshString.utf8]
    rw [hs]
    exact s.isValidUTF8

/-! ### From one side to the other

The composition of writing and reading, for models in which the two sides are one step. It is the
identity on values with short fields, and undefined on the others. -/

variable {α : Type} [Wire α]

instance (v : α) : Decidable (Encodable v) := inferInstanceAs (Decidable (_ ∧ _))

/-- What the other side decodes of a value, if encoding does not fail and decoding does not. -/
def overWire (v : α) : Option α :=
  if Encodable v then (decoder.run (encode v)).toOption.map Prod.fst else none

/-- What is short enough to be read can be written. -/
theorem Bounded.encodable {v : α} (h : Bounded v) : Encodable v :=
  ⟨fun s hs => lt_of_le_of_lt (h.1 s hs) (by decide),
    fun bs hbs => lt_of_le_of_lt (h.2 bs hbs) (by decide)⟩

/-- Such a value gets to the other side unchanged. -/
theorem overWire_of_bounded [LawfulWire α] {v : α} (h : Bounded v) :
    overWire v = some v := by
  have hrun := (LawfulWire.inverts.accepts h).run []
  rw [List.append_nil] at hrun
  rw [overWire, if_pos h.encodable, hrun]
  rfl

/-- A value that the decoder refuses does not get there. -/
theorem overWire_of_refuses {v : α} (h : (decoder (α := α)).Refuses (encode v)) :
    overWire v = none := by
  rw [overWire]
  split_ifs
  · obtain ⟨e, he⟩ := h.run
    rw [he]
    rfl
  · rfl

end Wire

/-! ## The field types

Strings, byte strings and booleans are wire types themselves, and a payload with one field
inherits its laws from them. -/

instance : Wire SshString :=
  ⟨CodecError, SshString.encode, SshString.decoder, fun s => [s], fun _ => []⟩

/-- A string is a field of its own. -/
theorem SshString.bounded_iff {s : SshString} :
    Wire.Bounded s ↔ s.utf8.length ≤ maxRemoteFieldSize := by
  simp [Wire.Bounded, Wire.strings, Wire.byteStrings]

instance : LawfulWire SshString where
  inverts := ⟨fun h => SshString.accepts_encode (SshString.bounded_iff.mp h),
    fun h => SshString.bounded_iff.mpr (SshString.inverts.of_accepts h)⟩

instance : Wire SshBytes :=
  ⟨CodecError, SshBytes.encode, SshBytes.decoder, fun _ => [], fun bs => [bs]⟩

/-- So is a byte string. -/
theorem SshBytes.bounded_iff {bs : SshBytes} :
    Wire.Bounded bs ↔ bs.length ≤ maxRemoteFieldSize := by
  simp [Wire.Bounded, Wire.strings, Wire.byteStrings]

instance : LawfulWire SshBytes where
  inverts := ⟨fun h => SshBytes.inverts.accepts (SshBytes.bounded_iff.mp h),
    fun h => SshBytes.bounded_iff.mpr (SshBytes.inverts.of_accepts h)⟩

instance : Wire SshBool :=
  ⟨CodecError, SshBool.encode, SshBool.decoder, fun _ => [], fun _ => []⟩

instance : LawfulWire SshBool where
  inverts := ⟨fun _ => SshBool.accepts_encode _, fun _ => ⟨nofun, nofun⟩⟩

/-- No payload. -/
structure EmptyPayload where
  deriving DecidableEq

instance : Wire EmptyPayload :=
  ⟨Empty, fun _ => [], .done ⟨⟩, fun _ => [], fun _ => []⟩

instance : LawfulWire EmptyPayload where
  inverts := .done ⟨nofun, nofun⟩ fun _ _ => rfl

end Dssh
