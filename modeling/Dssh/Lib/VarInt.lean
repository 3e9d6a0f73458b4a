import Dssh.Lib.Format
import Mathlib.Tactic.Ring

/-!
# QUIC variable-length integers

The integers below `2 ^ 62`, written big-endian in 1, 2, 4 or 8 bytes; the two top bits of the
first byte say which. `VarInt.encode` uses the shortest form. `VarInt.decoder` accepts every
form, so a value has several encodings and only `encode` is canonical.

## Consequences of several forms

A decoder followed by an encoder is not the identity on bytes, and no statement here says so.
What holds is that a *value* survives: `inverts` is about values. Where a protocol compares or
hashes encoded bytes, this is a trap; the protocols at hand do not.

There is no invalid encoding. Every first byte announces a length, any bytes may follow, and all
values that can be expressed are below `2 ^ 62`; so the decoder has no error but that of the
stream (`after_decoder_ne_fail`).

## Casts

Values that come from elsewhere have to fit in 62 bits. `tryFrom` checks; `ofNat` takes the low
bits, and is used where the value is known to fit. Neither is part of the encoding.

## Main results

* `VarInt.accepts_encode` — decoding inverts encoding and reads exactly the encoded bytes
* `VarInt.inverts` — the same as a pair of an encoder and its decoder
* `VarInt.encode_ne_nil` — an encoding is never empty
-/

/-! ## Values

The bound is a field, so that an encoding always exists and nothing has to be said about values
that do not fit. `tryFrom` is the conversion that may fail; `ofNat` keeps the low 62 bits, and is
used where a number is known to fit. -/

/-- An unsigned integer below `2 ^ 62`. -/
@[ext] structure VarInt where
  /-- The value. -/
  val : ℕ
  /-- It fits in 62 bits. -/
  isLt : val < 2 ^ 62
  deriving DecidableEq, Repr

namespace VarInt

/-- The integer with the low 62 bits of `n`. -/
def ofNat (n : ℕ) : VarInt := ⟨n % 2 ^ 62, Nat.mod_lt _ (by decide)⟩

/-- The integer `n`, if it fits. -/
def tryFrom (n : ℕ) : Option VarInt := if h : n < 2 ^ 62 then some ⟨n, h⟩ else none

/-- What fits is not changed. -/
theorem tryFrom_eq_some {n : ℕ} {v : VarInt} : tryFrom n = some v ↔ v.val = n := by
  rw [tryFrom]
  split_ifs with h
  · rw [Option.some.injEq, VarInt.ext_iff]
    exact eq_comm
  · refine ⟨nofun, fun hv => absurd v.isLt ?_⟩
    rwa [hv]

/-- And what is small enough fits. -/
theorem tryFrom_of_lt {n : ℕ} (h : n < 2 ^ 62) : tryFrom n = some (ofNat n) :=
  tryFrom_eq_some.mpr (Nat.mod_eq_of_lt h)

/-- The low bits of an integer that fits. -/
theorem ofNat_val (v : VarInt) : ofNat v.val = v := by
  ext
  exact Nat.mod_eq_of_lt v.isLt

/-! ## The codec

The encoder writes the shortest of the four forms. The decoder accepts all of them, so that a
value has several encodings, and only one direction of the round trip holds. -/

/-- The low `n` bytes of `v`, most significant first. -/
def bigEndian : ℕ → ℕ → List UInt8
  | 0, _ => []
  | n + 1, v => UInt8.ofNat (v / 256 ^ n) :: bigEndian n v

/-- The shortest encoding. The tag in the two top bits is added as a multiple of the place value
it has in each form. -/
def encode (v : VarInt) : List UInt8 :=
  if v.val < 2 ^ 6 then bigEndian 1 v.val
  else if v.val < 2 ^ 14 then bigEndian 2 (2 ^ 14 + v.val)
  else if v.val < 2 ^ 30 then bigEndian 4 (2 * 2 ^ 30 + v.val)
  else bigEndian 8 (3 * 2 ^ 62 + v.val)

/-- Read `n` more bytes of a big-endian number of which `acc` has been read. -/
def readBigEndian {ε : Type} (io : ε) : ℕ → ℕ → Decoder ε ℕ
  | 0, acc => .done acc
  | n + 1, acc => .read io fun b => readBigEndian io n (acc * 256 + b.toNat)

/-- The decoder: the two top bits of the first byte give the number of bytes that follow. -/
def decoder {ε : Type} (io : ε) : Decoder ε VarInt :=
  .read io fun b =>
    (readBigEndian io (2 ^ (b.toNat / 64) - 1) (b.toNat % 64)).bind fun n => .done (ofNat n)

/-- There are `n` of them. -/
theorem length_bigEndian (n v : ℕ) : (bigEndian n v).length = n := by
  induction n with
  | zero => rfl
  | succ n ih => simp [bigEndian, ih]

/-- An encoding is never empty. -/
theorem encode_ne_nil (v : VarInt) : v.encode ≠ [] := by
  intro h
  have := congrArg List.length h
  simp only [encode] at this
  split_ifs at this <;> simp [length_bigEndian] at this

/-- Reading `n` bytes of `v` appends its low `8 * n` bits to what has been read. -/
theorem accepts_readBigEndian {ε : Type} (io : ε) (n v acc : ℕ) :
    (readBigEndian io n acc).Accepts (bigEndian n v) (acc * 256 ^ n + v % 256 ^ n) := by
  induction n generalizing acc with
  | zero => simp [readBigEndian, bigEndian, Decoder.Accepts, Nat.mod_one]
  | succ n ih =>
    have h := ih (acc * 256 + (UInt8.ofNat (v / 256 ^ n)).toNat)
    have hval : (acc * 256 + (UInt8.ofNat (v / 256 ^ n)).toNat) * 256 ^ n + v % 256 ^ n
        = acc * 256 ^ (n + 1) + v % 256 ^ (n + 1) := by
      rw [UInt8.toNat_ofNat', show (2 : ℕ) ^ 8 = 256 from rfl,
        pow_succ 256 n, Nat.mod_mul (x := v) (a := 256 ^ n) (b := 256)]
      ring
    rw [hval] at h
    exact h

/-- The first byte of an `n + 1`-byte form with tag `k`, and what the decoder makes of the rest. -/
private theorem accepts_form {ε : Type} (io : ε) {k n w : ℕ} (hk : k < 4) (hn : 2 ^ k = n + 1)
    (hw : w < 64 * 256 ^ n) :
    (decoder io).Accepts (bigEndian (n + 1) (k * (64 * 256 ^ n) + w)) (ofNat w) := by
  have hpos : 0 < 256 ^ n := pow_pos (by decide) n
  have hdiv : (k * (64 * 256 ^ n) + w) / 256 ^ n = k * 64 + w / 256 ^ n := by
    rw [show k * (64 * 256 ^ n) + w = w + k * 64 * 256 ^ n by ring, Nat.add_mul_div_right _ _ hpos]
    ring
  have hlt : w / 256 ^ n < 64 := Nat.div_lt_of_lt_mul (by rwa [mul_comm] at hw)
  have hbyte : (UInt8.ofNat (k * 64 + w / 256 ^ n)).toNat = k * 64 + w / 256 ^ n := by
    rw [UInt8.toNat_ofNat']
    exact Nat.mod_eq_of_lt (by omega)
  have htag : (k * 64 + w / 256 ^ n) / 64 = k := by
    rw [mul_comm, Nat.mul_add_div (by decide), Nat.div_eq_of_lt hlt, add_zero]
  have hlow : (k * 64 + w / 256 ^ n) % 64 = w / 256 ^ n := by
    rw [mul_comm, Nat.mul_add_mod, Nat.mod_eq_of_lt hlt]
  have hrest := accepts_readBigEndian io n (k * (64 * 256 ^ n) + w) (w / 256 ^ n)
  have hval : w / 256 ^ n * 256 ^ n + (k * (64 * 256 ^ n) + w) % 256 ^ n = w := by
    rw [show k * (64 * 256 ^ n) + w = w + k * 64 * 256 ^ n by ring, Nat.add_mul_mod_self_right]
    exact Nat.div_add_mod' w (256 ^ n)
  rw [hval] at hrest
  rw [bigEndian, hdiv, Decoder.Accepts, decoder, Decoder.after_read_cons, hbyte, htag, hlow, hn,
    Nat.add_sub_cancel]
  exact Decoder.after_bind hrest _

/-- **Decoding inverts encoding** and consumes exactly the encoded bytes. -/
theorem accepts_encode {ε : Type} (io : ε) (v : VarInt) : (decoder io).Accepts v.encode v := by
  have hlt := v.isLt
  rw [← congrArg ((decoder io).Accepts v.encode) (ofNat_val v)]
  rw [encode]
  split_ifs with h₁ h₂ h₃
  · simpa using accepts_form io (k := 0) (n := 0) (w := v.val) (by decide) rfl (by omega)
  · exact accepts_form io (k := 1) (n := 1) (by decide) rfl (by omega)
  · exact accepts_form io (k := 2) (n := 3) (by decide) rfl (by omega)
  · exact accepts_form io (k := 3) (n := 7) (by decide) rfl (by omega)

/-- All integers are read back, and only integers are read. -/
theorem inverts {ε : Type} (io : ε) : (decoder io).Inverts (fun _ => True) encode where
  accepts _ := accepts_encode io _
  of_accepts _ := trivial

/-! ### What a decode cannot do

It cannot refuse bytes. The only error is that the stream has ended or failed, and this error is
the parameter of the decoder: messages of several types are read through it, each with a name for
the error of its own. -/

/-- An error context only renames the error of the stream. -/
theorem decoder_mapError {ε ε' : Type} (f : ε → ε') (io : ε) :
    (decoder io).mapError f = decoder (f io) := by
  have hread : ∀ n acc, (readBigEndian io n acc).mapError f = readBigEndian (f io) n acc := by
    intro n
    induction n with
    | zero => exact fun _ => rfl
    | succ n ih =>
      intro acc
      simp only [readBigEndian, Decoder.mapError, ih]
  simp only [decoder, Decoder.mapError, Decoder.mapError_bind, hread]

/-- What bytes decode to does not depend on the name of the I/O error. -/
theorem accepts_iff {ε ε' : Type} (io : ε) (io' : ε') {bs : List UInt8} {v : VarInt} :
    (decoder io).Accepts bs v ↔ (decoder io').Accepts bs v := by
  rw [← decoder_mapError (fun _ => io') io, Decoder.accepts_mapError]

/-- And that error is the only one. -/
theorem reports {ε : Type} {p : ε → Prop} {io : ε} (h : p io) : (decoder io).Reports p := by
  have hread : ∀ n acc, (readBigEndian io n acc).Reports p := by
    intro n
    induction n with
    | zero => intro acc; trivial
    | succ n ih => intro acc; exact ⟨h, fun b => ih _⟩
  exact ⟨h, fun b => (hread _ _).bind fun _ => trivial⟩

/-- No bytes are refused. -/
theorem after_decoder_ne_fail {ε : Type} (io e : ε) (bs : List UInt8) :
    (decoder io).after bs ≠ some (.fail e) := by
  have hread : ∀ (n acc : ℕ) (bs : List UInt8),
      (readBigEndian io n acc).after bs ≠ some (.fail e) := by
    intro n
    induction n with
    | zero => intro acc bs h; cases bs <;> cases h
    | succ n ih =>
      intro acc bs h
      cases bs with
      | nil => cases h
      | cons b bs => exact ih _ _ h
  intro h
  cases bs with
  | nil => cases h
  | cons b bs =>
    rw [decoder, Decoder.after_read_cons] at h
    rcases Decoder.after_bind_cases h with ⟨d', hd', hfail, -⟩ | ⟨xs, ys, n, -, -, hdone⟩
    · cases d' with
      | fail e' => cases hfail; exact hread _ _ _ hd'
      | done n => cases hfail
      | read io' k => cases hfail
    · cases ys <;> cases hdone

example : (ofNat 80).encode = [0x40, 0x50] := by decide

end VarInt
