import Dssh.Lib.Format
import Dssh.Lib.VarInt

/-!
# The wire codec

The length-prefixed fields of the DShell wire format: a string is its length as a
variable-length integer followed by its UTF-8 bytes, a byte string the same without the UTF-8, a
boolean one byte. Encoders are byte lists. Decoders are `Decoder`s, so that a decode can be
suspended, abandoned or cut short after any byte.

The length limit is on the decoding side only: `SshString.encode` writes strings of any length,
and `SshString.decoder` refuses a length above `maxRemoteFieldSize` before it reads the content.

## The order of the checks

`decode_from` for a string does four things in turn: it reads the length, checks it, reads as
many bytes, and checks that they are UTF-8. Each can fail, each with an error of its own, and
after a failure the stream stands where the failing step has left it. That a length is refused
*before* anything is allocated or read is what the limit is for, and it is visible here: the
decoder is at `.fail` right behind the length.

`checkedRemoteFieldLen` has two branches, in the order of the source. The first, for lengths
that do not fit in a `usize`, is dead on a 64-bit machine, where every `VarInt` fits; it is
kept, because the error it would report exists.

## Strings

A string is Lean's `String`. The source's type is a `Bytes` that is known to be UTF-8, so the
two have the same values; `SshString.utf8` is the view as bytes that goes on the wire. Which
byte arrays are valid is decided by `String.fromUTF8?`.

## What is absent

The conversions between `SshString`, `Bytes`, `String` and `&str`, which do not change the
content, the `Deserialize` instance that only tests use, and `RawRemainder`, which reads to the
end of a stream and has no decoder of its own.

## Main definitions

* `CodecError` — what the field codecs can report
* `checkedRemoteFieldLen` — the limit
* `SshString`, `SshBytes`, `SshBool` with their `encode` and `decoder`

## Main results

* `SshString.inverts`, `SshBytes.inverts`, `SshBool.inverts` — decoding inverts encoding, and no
  field longer than the limit is accepted
* `SshString.run_encode_of_lt` — a string above the limit is not read back
-/

namespace Dssh

/-- What the field codecs can report. -/
inductive CodecError where
  /-- The length does not fit in a `usize`. -/
  | fieldLengthOverflow (fieldName : String) (length : ℕ)
  /-- The length is above the limit. -/
  | fieldTooLarge (fieldName : String) (length maximum : ℕ)
  /-- A string to be written is too long for its length field. -/
  | sshStringTooLong
  /-- So is a byte string. -/
  | sshBytesTooLong
  /-- The content of a string is not UTF-8. -/
  | invalidSshStringUtf8
  /-- A boolean is neither `0` nor `1`. -/
  | invalidSshBoolByte (byte : UInt8)
  /-- The stream could not be read, or has ended. -/
  | readIo
  /-- The stream could not be written. -/
  | writeIo
  deriving DecidableEq, Repr

/-- The longest field accepted from the peer. -/
def maxRemoteFieldSize : ℕ := 2 ^ 20

/-- The length a remote field may have. `usize` is 64 bits wide, so the first case is for lengths
no `VarInt` holds. -/
def checkedRemoteFieldLen (len : ℕ) (fieldName : String) : Except CodecError ℕ :=
  if 2 ^ 64 ≤ len then .error (.fieldLengthOverflow fieldName len)
  else if maxRemoteFieldSize < len then .error (.fieldTooLarge fieldName len maxRemoteFieldSize)
  else .ok len

/-- A length within the limit passes. -/
theorem checkedRemoteFieldLen_of_le {len : ℕ} (h : len ≤ maxRemoteFieldSize) (name : String) :
    checkedRemoteFieldLen len name = .ok len := by
  have : maxRemoteFieldSize < 2 ^ 64 := by decide
  rw [checkedRemoteFieldLen, if_neg (by omega), if_neg (by omega)]

/-- A length above it does not. -/
theorem checkedRemoteFieldLen_of_lt {len : ℕ} (h : maxRemoteFieldSize < len) (h62 : len < 2 ^ 62)
    (name : String) :
    checkedRemoteFieldLen len name = .error (.fieldTooLarge name len maxRemoteFieldSize) := by
  rw [checkedRemoteFieldLen, if_neg (by omega), if_pos h]

/-- What passes is not changed and is within the limit. -/
theorem checkedRemoteFieldLen_eq_ok {len n : ℕ} {name : String}
    (h : checkedRemoteFieldLen len name = .ok n) : len = n ∧ n ≤ maxRemoteFieldSize := by
  rw [checkedRemoteFieldLen] at h
  split_ifs at h with h₁ h₂
  obtain rfl := Except.ok.inj h
  exact ⟨rfl, Nat.le_of_not_lt h₂⟩

/-! ## Strings

A length prefix and the bytes. The checks are made in the order of the source, the length before
the content is read and UTF-8 behind it. The encoder makes none of them. -/

/-- A UTF-8 string of the protocol. -/
abbrev SshString := String

namespace SshString

/-- The content of the field. -/
def utf8 (s : SshString) : List UInt8 := s.toUTF8.data.toList

/-- Length prefix and content. The prefix is the low 62 bits of the length, which is the length
itself for every string that fits in memory. -/
def encode (s : SshString) : List UInt8 := (VarInt.ofNat s.utf8.length).encode ++ s.utf8

/-- Read the length, check it, read that many bytes and check that they are UTF-8. -/
def decoder : Decoder CodecError SshString := do
  let len ← VarInt.decoder .readIo
  match checkedRemoteFieldLen len.val "ssh string" with
  | .error e => .fail e
  | .ok n =>
    let buf ← Decoder.bytes .readIo n
    match String.fromUTF8? ⟨buf.toArray⟩ with
    | some s => pure s
    | none => .fail .invalidSshStringUtf8

/-- The bytes of a string are those of that string. -/
theorem fromUTF8?_utf8 (s : SshString) : String.fromUTF8? ⟨s.utf8.toArray⟩ = some s := by
  have hb : (⟨s.utf8.toArray⟩ : ByteArray) = s.toByteArray := by simp [utf8]
  rw [hb, String.fromUTF8?, dif_pos s.isValidUTF8]
  rfl

/-- **Decoding inverts encoding**, up to the length limit. -/
theorem accepts_encode {s : SshString} (h : s.utf8.length ≤ maxRemoteFieldSize) :
    decoder.Accepts s.encode s := by
  have hlt : s.utf8.length < 2 ^ 62 := lt_of_le_of_lt h (by decide)
  refine Decoder.Accepts.bind (VarInt.accepts_encode CodecError.readIo _) ?_
  rw [show (VarInt.ofNat s.utf8.length).val = s.utf8.length from Nat.mod_eq_of_lt hlt,
    checkedRemoteFieldLen_of_le h]
  have := Decoder.Accepts.bind (b := s) (y := []) (Decoder.accepts_bytes CodecError.readIo s.utf8)
    (f := fun buf => match String.fromUTF8? ⟨buf.toArray⟩ with
      | some s => pure s
      | none => .fail .invalidSshStringUtf8)
    (by rw [fromUTF8?_utf8]; rfl)
  simpa using this

/-- And of no other. -/
theorem utf8_of_fromUTF8? {buf : List UInt8} {s : SshString}
    (h : String.fromUTF8? ⟨buf.toArray⟩ = some s) : s.utf8 = buf := by
  rw [String.fromUTF8?] at h
  split_ifs at h with hvalid
  obtain rfl := Option.some.inj h
  simp [utf8, String.fromUTF8]

/-- **The decoder of strings.** It inverts the encoder up to the length limit, and never returns a
string above it. -/
theorem inverts : decoder.Inverts (fun s => s.utf8.length ≤ maxRemoteFieldSize) encode where
  accepts := accepts_encode
  of_accepts {bs s} hacc := by
    obtain ⟨xs, ys, len, -, -, hy⟩ := hacc.of_bind
    cases hlen : checkedRemoteFieldLen len.val "ssh string" with
    | error e => rw [hlen] at hy; cases ys <;> cases hy
    | ok n =>
      rw [hlen] at hy
      obtain ⟨us, vs, buf, -, hbuf, hdone⟩ := Decoder.Accepts.of_bind (d := Decoder.bytes _ n) hy
      obtain ⟨-, hlength⟩ := Decoder.eq_of_accepts_bytes hbuf
      cases hs : String.fromUTF8? ⟨buf.toArray⟩ with
      | none => simp only [hs] at hdone; cases vs <;> cases hdone
      | some t =>
        simp only [hs] at hdone
        obtain rfl := Decoder.Halted.eq_nil (Decoder.halted_done t) hdone
        obtain rfl := Decoder.done.inj (Option.some.inj hdone)
        rw [utf8_of_fromUTF8? hs, hlength]
        exact (checkedRemoteFieldLen_eq_ok hlen).2

/-- **The limit is on the reading side only.** A longer string is written and refused. -/
theorem run_encode_of_lt {s : SshString} (h : maxRemoteFieldSize < s.utf8.length)
    (h62 : s.utf8.length < 2 ^ 62) (rest : List UInt8) :
    decoder.run (s.encode ++ rest) =
      .error (.fieldTooLarge "ssh string" s.utf8.length maxRemoteFieldSize) := by
  have hval : (VarInt.ofNat s.utf8.length).val = s.utf8.length := Nat.mod_eq_of_lt h62
  have hcheck : checkedRemoteFieldLen (VarInt.ofNat s.utf8.length).val "ssh string"
      = .error (.fieldTooLarge "ssh string" s.utf8.length maxRemoteFieldSize) := by
    rw [hval, checkedRemoteFieldLen_of_lt h h62]
  rw [encode, List.append_assoc, decoder, Decoder.bind_eq,
    (VarInt.accepts_encode CodecError.readIo _).run_bind, hcheck]
  rfl

theorem refuses {s : SshString} (h : maxRemoteFieldSize < s.utf8.length)
    (h62 : s.utf8.length < 2 ^ 62) : decoder.Refuses s.encode := by
  refine Decoder.Refuses.bind_right (VarInt.accepts_encode _ _) ?_
  rw [show (VarInt.ofNat s.utf8.length).val = s.utf8.length from Nat.mod_eq_of_lt h62,
    checkedRemoteFieldLen_of_lt h h62]
  exact ⟨[], _, _, rfl, rfl⟩

/-- Strings of any length, for examples. -/
theorem length_utf8_replicate (n : ℕ) :
    (utf8 (String.ofList (List.replicate n 'a'))).length = n := by
  have key : (List.replicate n 'a').utf8Encode.size = n := by
    induction n with
    | zero => rfl
    | succ n ih =>
      rw [List.replicate_succ, List.utf8Encode_cons, ByteArray.size_append, ih]
      have : ['a'].utf8Encode.size = 1 := by decide
      omega
  simpa [utf8] using key

end SshString

/-! ## Byte strings

The same without the last check. -/

/-- A string of raw bytes. -/
abbrev SshBytes := List UInt8

namespace SshBytes

/-- Length prefix and content, as for `SshString.encode`. -/
def encode (bs : SshBytes) : List UInt8 := (VarInt.ofNat bs.length).encode ++ bs

/-- Read the length, check it and read that many bytes. -/
def decoder : Decoder CodecError SshBytes := do
  let len ← VarInt.decoder .readIo
  match checkedRemoteFieldLen len.val "ssh bytes" with
  | .error e => .fail e
  | .ok n => Decoder.bytes .readIo n

/-- **The decoder of byte strings.** -/
theorem inverts : decoder.Inverts (fun bs => bs.length ≤ maxRemoteFieldSize) encode where
  accepts {bs} h := by
    have hlt : bs.length < 2 ^ 62 := lt_of_le_of_lt h (by decide)
    refine Decoder.Accepts.bind (VarInt.accepts_encode CodecError.readIo _) ?_
    rw [show (VarInt.ofNat bs.length).val = bs.length from Nat.mod_eq_of_lt hlt,
      checkedRemoteFieldLen_of_le h]
    exact Decoder.accepts_bytes CodecError.readIo bs
  of_accepts {xs bs} hacc := by
    obtain ⟨us, vs, len, -, -, hy⟩ := hacc.of_bind
    cases hlen : checkedRemoteFieldLen len.val "ssh bytes" with
    | error e => rw [hlen] at hy; cases vs <;> cases hy
    | ok n =>
      rw [hlen] at hy
      obtain ⟨-, hlength⟩ := Decoder.eq_of_accepts_bytes hy
      rw [hlength]
      exact (checkedRemoteFieldLen_eq_ok hlen).2

theorem refuses {bs : SshBytes} (h : maxRemoteFieldSize < bs.length) (h62 : bs.length < 2 ^ 62) :
    decoder.Refuses (encode bs) := by
  refine Decoder.Refuses.bind_right (VarInt.accepts_encode _ _) ?_
  rw [show (VarInt.ofNat bs.length).val = bs.length from Nat.mod_eq_of_lt h62,
    checkedRemoteFieldLen_of_lt h h62]
  exact ⟨[], _, _, rfl, rfl⟩

end SshBytes

/-! ## Booleans

One byte. Anything but `0` and `1` is an error with the byte in it. -/

/-- A truth value of the protocol. -/
abbrev SshBool := Bool

namespace SshBool

/-- One byte: `1` for true, `0` for false. -/
def encode (b : Bool) : List UInt8 := [if b then 1 else 0]

/-- Any byte other than `0` and `1` is refused. -/
def decoder : Decoder CodecError Bool :=
  .read .readIo fun b =>
    if b = 0 then .done false else if b = 1 then .done true else .fail (.invalidSshBoolByte b)

theorem accepts_encode (b : Bool) : decoder.Accepts (encode b) b := by
  cases b <;> rfl

theorem inverts : decoder.Inverts (fun _ => True) encode where
  accepts _ := accepts_encode _
  of_accepts _ := trivial

end SshBool

end Dssh
