import Mathlib.Data.List.Basic

/-!
# Base64

Three bytes are written as four characters of an alphabet of 64, and what is left at the end is
filled up with `=`. Only texts that are written so are read: a text is read if its length is a
multiple of four, its padding is at the end, and the bits that stand for nothing are zero.

## Which base64

There are several alphabets, and decoders differ in what they let pass. This is the standard
alphabet with canonical padding, the configuration that libraries call *standard*: padding is
required, trailing bits have to be zero, and no white space or other character is skipped. The
strictness makes decoding the exact inverse of encoding, though only one direction is needed
here: `decode_encode`.

## How the decoder reads

Both functions go by blocks, of three bytes and of four characters. A block is a number of 24
bits (`number` reads it, six bits a character, from the left), and a shorter block at the end is
the front part of one. That a digit is read back is one lemma about the alphabet
(`idxOf?_digit`), decided over the 64 values; the rest is arithmetic.

## Main results

* `Base64.decode_encode` — what is written is read back
* `Base64.mem_encode` — which characters are written
-/

namespace Base64

/-- The characters, in the order of what they stand for. -/
def alphabet : List Char :=
  "ABCDEFGHIJKLMNOPQRSTUVWXYZabcdefghijklmnopqrstuvwxyz0123456789+/".toList

/-- The character for six bits. -/
def digit (n : ℕ) : Char := alphabet.getD n '='

/-- Read on from a number, six bits for each character. -/
def number : ℕ → List Char → Option ℕ
  | n, [] => some n
  | n, c :: cs => do
    let v ← alphabet.idxOf? c
    number (n * 64 + v) cs

/-- The text of some bytes. -/
def encode : List UInt8 → List Char
  | [] => []
  | [a] =>
    let n := a.toNat * 16
    [digit (n / 64), digit (n % 64), '=', '=']
  | [a, b] =>
    let n := a.toNat * 1024 + b.toNat * 4
    [digit (n / 4096), digit (n / 64 % 64), digit (n % 64), '=']
  | a :: b :: c :: bs =>
    let n := a.toNat * 65536 + b.toNat * 256 + c.toNat
    digit (n / 262144) :: digit (n / 4096 % 64) :: digit (n / 64 % 64) ::
      digit (n % 64) :: encode bs

/-- The bytes of a text. -/
def decode : List Char → Option (List UInt8)
  | [] => some []
  | w :: x :: y :: z :: cs =>
    if z = '=' then
      if cs ≠ [] then none
      else if y = '=' then do
        let n ← number 0 [w, x]
        if n % 16 = 0 then some [UInt8.ofNat (n / 16)] else none
      else do
        let n ← number 0 [w, x, y]
        if n % 4 = 0 then some [UInt8.ofNat (n / 1024), UInt8.ofNat (n / 4 % 256)] else none
    else do
      let n ← number 0 [w, x, y, z]
      let bs ← decode cs
      some (UInt8.ofNat (n / 65536) :: UInt8.ofNat (n / 256 % 256) :: UInt8.ofNat (n % 256) :: bs)
  | _ => none

variable {n : ℕ}

/-- A digit stands for its number. -/
theorem idxOf?_digit (h : n < 64) : alphabet.idxOf? (digit n) = some n := by
  have hall : ∀ m < 64, alphabet.idxOf? (digit m) = some m := by decide +kernel
  exact hall n h

/-- A digit is in the alphabet … -/
theorem digit_mem (h : n < 64) : digit n ∈ alphabet := by
  have hlength : alphabet.length = 64 := by decide
  rw [digit, List.getD_eq_getElem?_getD, List.getElem?_eq_getElem (by rwa [hlength])]
  exact List.getElem_mem _

/-- … so it is no padding. -/
theorem digit_ne (h : n < 64) : digit n ≠ '=' := by
  intro heq
  have hnot : '=' ∉ alphabet := by decide
  exact hnot (heq ▸ digit_mem h)

/-- A digit adds six bits. -/
theorem number_digit (h : n < 64) (m : ℕ) (cs : List Char) :
    number m (digit n :: cs) = number (m * 64 + n) cs := by
  rw [number, idxOf?_digit h]
  rfl

/-! ## Blocks

Three bytes make four characters, and the end of the bytes makes a block with padding. A decoder
of blocks has to see that the padding is where it may be and that the bits that are not used are
zero; what is proved here is only that it accepts each of the three forms which the encoder
writes, and gives back the bytes. -/

/-- One byte is left at the end. -/
theorem decode_one (a : UInt8) : decode (encode [a]) = some [a] := by
  have ha := a.toNat_lt
  rw [encode, decode, if_pos rfl, if_neg (by simp), if_pos rfl,
    number_digit (by omega), number_digit (by omega), number]
  have hn : (0 * 64 + a.toNat * 16 / 64) * 64 + a.toNat * 16 % 64 = a.toNat * 16 := by omega
  have hzero : a.toNat * 16 % 16 = 0 := by omega
  have hfirst : a.toNat * 16 / 16 = a.toNat := by omega
  rw [hn]
  simp [hzero, hfirst]

/-- Two bytes are left. -/
theorem decode_two (a b : UInt8) : decode (encode [a, b]) = some [a, b] := by
  have ha := a.toNat_lt
  have hb := b.toNat_lt
  rw [encode, decode, if_pos rfl, if_neg (by simp), if_neg (digit_ne (by omega)),
    number_digit (by omega), number_digit (by omega), number_digit (by omega), number]
  set n := a.toNat * 1024 + b.toNat * 4 with hdef
  have hn : ((0 * 64 + n / 4096) * 64 + n / 64 % 64) * 64 + n % 64 = n := by omega
  have hzero : n % 4 = 0 := by omega
  have hfirst : n / 1024 = a.toNat := by omega
  have hsecond : n / 4 % 256 = b.toNat := by omega
  rw [hn]
  simp [hzero, hfirst, hsecond]

/-- A whole block, and what follows it. -/
theorem decode_three (a b c : UInt8) (bs : List UInt8) :
    decode (encode (a :: b :: c :: bs)) = (decode (encode bs)).map (a :: b :: c :: ·) := by
  have ha := a.toNat_lt
  have hb := b.toNat_lt
  have hc := c.toNat_lt
  rw [encode, decode, if_neg (digit_ne (by omega)), number_digit (by omega),
    number_digit (by omega), number_digit (by omega), number_digit (by omega), number]
  set n := a.toNat * 65536 + b.toNat * 256 + c.toNat with hdef
  have hn : (((0 * 64 + n / 262144) * 64 + n / 4096 % 64) * 64 + n / 64 % 64) * 64 +
      n % 64 = n := by
    omega
  have hfirst : n / 65536 = a.toNat := by omega
  have hsecond : n / 256 % 256 = b.toNat := by omega
  have hthird : n % 256 = c.toNat := by omega
  rw [hn]
  simp only [Option.bind_eq_bind, Option.bind_some, hfirst, hsecond, hthird, UInt8.ofNat_toNat]
  exact Option.map_eq_bind.symm

/-- What is written is read back. -/
theorem decode_encode (bs : List UInt8) : decode (encode bs) = some bs := by
  fun_induction encode bs with
  | case1 => rfl
  | case2 a => exact decode_one a
  | case3 a b => exact decode_two a b
  | case4 a b c bs n ih =>
    have hthree := decode_three a b c bs
    rw [ih, Option.map_some] at hthree
    exact hthree

/-- Which characters are written. -/
theorem mem_encode {bs : List UInt8} {d : Char} (hd : d ∈ encode bs) : d ∈ alphabet ∨ d = '=' := by
  have hdigit : ∀ n, digit n ∈ alphabet ∨ digit n = '=' := by
    intro n
    by_cases hn : n < 64
    · exact .inl (digit_mem hn)
    · refine .inr ?_
      rw [digit, List.getD_eq_getElem?_getD, List.getElem?_eq_none (Nat.not_lt.mp hn),
        Option.getD_none]
  fun_induction encode bs with
  | case1 => cases hd
  | case2 a n =>
    simp only [List.mem_cons, List.not_mem_nil, or_false] at hd
    rcases hd with rfl | rfl | rfl | rfl
    · exact hdigit _
    · exact hdigit _
    · exact .inr rfl
    · exact .inr rfl
  | case3 a b n =>
    simp only [List.mem_cons, List.not_mem_nil, or_false] at hd
    rcases hd with rfl | rfl | rfl | rfl
    · exact hdigit _
    · exact hdigit _
    · exact hdigit _
    · exact .inr rfl
  | case4 a b c bs n ih =>
    simp only [List.mem_cons] at hd
    rcases hd with rfl | rfl | rfl | rfl | hd
    · exact hdigit _
    · exact hdigit _
    · exact hdigit _
    · exact hdigit _
    · exact ih hd

example : encode ("user:pass".toList.map Char.toUInt8) = "dXNlcjpwYXNz".toList := by decide

example : decode "dXNlcjpwYXNzd29yZB==".toList = none := by decide

end Base64
