import Mathlib.Data.List.Basic
import Mathlib.Tactic.Ring

/-!
# Unsigned numbers in decimal

A text is read as an unsigned number of some width from the left to the right, with an optional
`+` in front. A character that is not a digit and a number that gets too large both end it,
whichever comes first.

## The order of the errors

Parsers of this kind differ in what they say about a text that is wrong in two ways, such as
`65536x` for 16 bits. Here each character is judged in turn: first whether it is a digit, then
whether the number with it is still in range. So `65536x` overflows before the `x` is seen, and
`6553x6` has an invalid digit. A program that shows the error to a user depends on this order,
so it is part of the specification (`Stops`), and not just that there is *some* error.

A sign alone is an invalid digit, not an empty text, and a `-` is an invalid digit in front of a
number.

## Specification

`IsNumeral` is the declarative side: digits, perhaps behind a `+`, whose value is `n`. It does
not mention a width. `parse_ok_iff` says that a text is read as the number `v` exactly if it is
a numeral for `v`; that `v` is in range is in the type `BitVec bits`. `parse_error_iff` gives
each error its exact texts. Together they describe the parser completely.

## Main definitions

* `Decimal.parse` — the parser
* `Decimal.IsNumeral`, `Decimal.Refused` — the texts that are numbers, and why others are not

## Main results

* `Decimal.parse_ok_iff` — which texts are read, and as which numbers
* `Decimal.parse_error_iff` — which are refused, and why
* `Decimal.isNumeral_toDigits` — what is written is among them
-/

namespace Decimal

/-- What is wrong with a text. -/
inductive Error where
  /-- There is nothing. -/
  | empty
  /-- There is something else than a digit. -/
  | invalidDigit
  /-- The number is too large. -/
  | posOverflow
  deriving DecidableEq, Repr

/-- Read on behind digits with the value `n`. -/
def digits (bits : ℕ) : ℕ → List Char → Except Error ℕ
  | n, [] => .ok n
  | n, c :: cs =>
    if c.isDigit then
      let m := 10 * n + (c.toNat - '0'.toNat)
      if m < 2 ^ bits then digits bits m cs else .error .posOverflow
    else .error .invalidDigit

/-- The number that a text stands for. -/
def parse (bits : ℕ) : List Char → Except Error (BitVec bits)
  | [] => .error .empty
  | ['+'] => .error .invalidDigit
  | ['-'] => .error .invalidDigit
  | '+' :: cs => (digits bits 0 cs).map (BitVec.ofNat bits)
  | cs => (digits bits 0 cs).map (BitVec.ofNat bits)

/-- What is left without the sign. -/
def IsBody (s body : List Char) : Prop := s = '+' :: body ∨ s = body ∧ s.head? ≠ some '+'

/-- Digits, perhaps with a `+` in front. -/
def IsNumeral (s : List Char) (n : ℕ) : Prop :=
  ∃ body, IsBody s body ∧ body ≠ [] ∧ (∀ c ∈ body, c.isDigit = true) ∧
    Nat.ofDigitChars 10 body 0 = n

/-- Behind digits with the value `n`, some more, and then a character with which it cannot go on. -/
def Stops (bits n : ℕ) (cs : List Char) (e : Error) : Prop :=
  ∃ ds c rest, cs = ds ++ c :: rest ∧ (∀ d ∈ ds, d.isDigit = true) ∧
    Nat.ofDigitChars 10 ds n < 2 ^ bits ∧
    (e = .invalidDigit ∧ c.isDigit = false ∨
      e = .posOverflow ∧ c.isDigit = true ∧ 2 ^ bits ≤ Nat.ofDigitChars 10 (ds ++ [c]) n)

/-- Why a text is refused. -/
def Refused (bits : ℕ) (s : List Char) (e : Error) : Prop :=
  s = [] ∧ e = .empty ∨ s = ['+'] ∧ e = .invalidDigit ∨
    ∃ body, IsBody s body ∧ body ≠ [] ∧ Stops bits 0 body e

variable {bits n m : ℕ} {c : Char} {s body cs ds : List Char} {e : Error}

/-! ### Digits

Reading stops at the first digit with which the number is too large, or at the first character
that is no digit, whichever comes first. `digits_cases` says that one of three things happens,
and the two equivalences behind it that the results tell which. -/

/-- A digit with which the number is still in range. -/
theorem digits_digit (hc : c.isDigit = true) (h : Nat.ofDigitChars 10 [c] n < 2 ^ bits) :
    digits bits n (c :: cs) = digits bits (Nat.ofDigitChars 10 [c] n) cs := by
  rw [Nat.ofDigitChars_cons, Nat.ofDigitChars_nil] at h ⊢
  rw [digits, if_pos hc, if_pos h]

/-- Any other character. -/
theorem digits_stop (hc : c.isDigit = false ∨ 2 ^ bits ≤ Nat.ofDigitChars 10 [c] n) :
    digits bits n (c :: cs) = .error (if c.isDigit then .posOverflow else .invalidDigit) := by
  rw [digits]
  split
  · rename_i hdigit
    have hle := hc.resolve_left (fun hnot => by rw [hdigit] at hnot; cases hnot)
    rw [Nat.ofDigitChars_cons, Nat.ofDigitChars_nil] at hle
    exact if_neg (Nat.not_lt.mpr hle)
  · rfl

/-- A number only grows. -/
theorem le_ofDigitChars (cs : List Char) (n : ℕ) : n ≤ Nat.ofDigitChars 10 cs n := by
  induction cs generalizing n with
  | nil => exact Nat.le_of_eq Nat.ofDigitChars_nil.symm
  | cons c cs ih =>
    rw [Nat.ofDigitChars_cons]
    have := ih (10 * n + (c.toNat - '0'.toNat))
    omega

/-- Reading on behind digits. -/
theorem digits_append (cs : List Char) (hds : ∀ d ∈ ds, d.isDigit = true)
    (h : Nat.ofDigitChars 10 ds n < 2 ^ bits) :
    digits bits n (ds ++ cs) = digits bits (Nat.ofDigitChars 10 ds n) cs := by
  induction ds generalizing n with
  | nil => rw [List.nil_append, Nat.ofDigitChars_nil]
  | cons d ds ih =>
    obtain ⟨hd, hds⟩ := List.forall_mem_cons.mp hds
    have hcons : Nat.ofDigitChars 10 (d :: ds) n =
        Nat.ofDigitChars 10 ds (Nat.ofDigitChars 10 [d] n) :=
      Nat.ofDigitChars_append (l := [d]) (m := ds) n
    rw [hcons] at h ⊢
    rw [List.cons_append, digits_digit hd (Nat.lt_of_le_of_lt (le_ofDigitChars ds _) h), ih hds h]

/-- Either all are digits and the number is not too large, or it stops. -/
theorem digits_cases (hn : n < 2 ^ bits) (cs : List Char) :
    ((∀ c ∈ cs, c.isDigit = true) ∧ Nat.ofDigitChars 10 cs n < 2 ^ bits) ∨
      ∃ e, Stops bits n cs e := by
  induction cs generalizing n with
  | nil => exact .inl ⟨fun c hc => absurd hc List.not_mem_nil, by rwa [Nat.ofDigitChars_nil]⟩
  | cons c cs ih =>
    cases hc : c.isDigit with
    | false =>
      refine .inr ⟨.invalidDigit, [], c, cs, rfl, fun d hd => absurd hd List.not_mem_nil, ?_, ?_⟩
      · rwa [Nat.ofDigitChars_nil]
      · exact .inl ⟨rfl, hc⟩
    | true =>
      by_cases hlt : Nat.ofDigitChars 10 [c] n < 2 ^ bits
      · have hcons : ∀ ds, Nat.ofDigitChars 10 (c :: ds) n =
            Nat.ofDigitChars 10 ds (Nat.ofDigitChars 10 [c] n) :=
          fun ds => Nat.ofDigitChars_append (l := [c]) (m := ds) n
        obtain ⟨hds, hvalue⟩ | ⟨e, ds, c', rest, rfl, hds, hvalue, hstop⟩ := ih hlt
        · exact .inl ⟨List.forall_mem_cons.mpr ⟨hc, hds⟩, by rwa [hcons]⟩
        · refine .inr ⟨e, c :: ds, c', rest, rfl, List.forall_mem_cons.mpr ⟨hc, hds⟩, ?_, ?_⟩
          · rwa [hcons]
          · rwa [List.cons_append, hcons]
      · refine .inr ⟨.posOverflow, [], c, cs, rfl, fun d hd => absurd hd List.not_mem_nil, ?_, ?_⟩
        · rwa [Nat.ofDigitChars_nil]
        · exact .inr ⟨rfl, hc, Nat.not_lt.mp hlt⟩

/-- Where the text cannot go on, reading it ends with that error. -/
theorem Stops.digits (h : Stops bits n cs e) : digits bits n cs = .error e := by
  obtain ⟨ds, c, rest, rfl, hds, hvalue, hstop⟩ := h
  rw [digits_append _ hds hvalue]
  obtain ⟨rfl, hc⟩ | ⟨rfl, hc, hle⟩ := hstop
  · rw [digits_stop (.inl hc), hc]
    rfl
  · rw [Nat.ofDigitChars_append] at hle
    rw [digits_stop (.inr hle), hc]
    rfl

/-- What is read behind digits … -/
theorem digits_ok_iff (hn : n < 2 ^ bits) : digits bits n cs = .ok m ↔
    (∀ c ∈ cs, c.isDigit = true) ∧ Nat.ofDigitChars 10 cs n = m ∧ m < 2 ^ bits := by
  have hdigits : ∀ {m}, (∀ c ∈ cs, c.isDigit = true) → Nat.ofDigitChars 10 cs n = m →
      m < 2 ^ bits → digits bits n cs = .ok m := by
    rintro m hcs rfl hlt
    have happend := digits_append [] hcs hlt
    rwa [List.append_nil] at happend
  constructor
  · intro h
    obtain ⟨hcs, hlt⟩ | ⟨e, hstops⟩ := digits_cases hn cs
    · rw [hdigits hcs rfl hlt] at h
      exact ⟨hcs, Except.ok.inj h, Except.ok.inj h ▸ hlt⟩
    · rw [hstops.digits] at h
      cases h
  · rintro ⟨hcs, hvalue, hlt⟩
    exact hdigits hcs hvalue hlt

/-- … and what is refused. -/
theorem digits_error_iff (hn : n < 2 ^ bits) : digits bits n cs = .error e ↔ Stops bits n cs e := by
  refine ⟨fun h => ?_, Stops.digits⟩
  obtain ⟨hcs, hlt⟩ | ⟨e', hstops⟩ := digits_cases hn cs
  · rw [(digits_ok_iff hn).mpr ⟨hcs, rfl, hlt⟩] at h
    cases h
  · rw [hstops.digits] at h
    exact Except.error.inj h ▸ hstops

/-! ### Texts

A text is empty, is a sign, or has a body. The empty text and the sign alone are refused with
different errors, and for all others only the body matters. -/

/-- A text is empty, a sign, or has a body. -/
theorem exists_body (s : List Char) : s = [] ∨ s = ['+'] ∨ ∃ body, IsBody s body ∧ body ≠ [] := by
  obtain - | ⟨c, cs⟩ := s
  · exact .inl rfl
  · by_cases hc : c = '+'
    · subst hc
      obtain rfl | hcs := eq_or_ne cs []
      · exact .inr (.inl rfl)
      · exact .inr (.inr ⟨cs, .inl rfl, hcs⟩)
    · exact .inr (.inr ⟨c :: cs, .inr ⟨rfl, fun h => hc (Option.some.inj h)⟩,
        List.cons_ne_nil c cs⟩)

/-- Only the body matters. -/
theorem parse_body (h : IsBody s body) (hne : body ≠ []) :
    parse bits s = (digits bits 0 body).map (BitVec.ofNat bits) := by
  obtain rfl | ⟨rfl, hhead⟩ := h
  · unfold parse
    split <;> simp_all
  · unfold parse
    split
    · exact absurd rfl hne
    · exact absurd rfl hhead
    · rfl
    · exact absurd rfl hhead
    · rfl

/-- **What is read.** -/
theorem parse_ok_iff {v : BitVec bits} : parse bits s = .ok v ↔ IsNumeral s v.toNat := by
  have hpos : 0 < 2 ^ bits := Nat.two_pow_pos bits
  have hmap : ∀ body, (digits bits 0 body).map (BitVec.ofNat bits) = .ok v ↔
      digits bits 0 body = .ok v.toNat := by
    intro body
    cases hdigits : digits bits 0 body with
    | error e => exact iff_of_false (by intro h; cases h) (by intro h; cases h)
    | ok m =>
      obtain ⟨-, -, hlt⟩ := (digits_ok_iff hpos).mp hdigits
      constructor
      · intro h
        rw [← Except.ok.inj h, BitVec.toNat_ofNat, Nat.mod_eq_of_lt hlt]
      · intro h
        rw [Except.ok.inj h]
        exact congrArg Except.ok (BitVec.eq_of_toNat_eq
          (by rw [BitVec.toNat_ofNat, Nat.mod_eq_of_lt v.isLt]))
  constructor
  · intro h
    obtain rfl | rfl | ⟨body, hbody, hne⟩ := exists_body s
    · cases h
    · cases h
    · rw [parse_body hbody hne, hmap, digits_ok_iff hpos] at h
      exact ⟨body, hbody, hne, h.1, h.2.1⟩
  · rintro ⟨body, hbody, hne, hdigits, hvalue⟩
    rw [parse_body hbody hne, hmap, digits_ok_iff hpos]
    exact ⟨hdigits, hvalue, v.isLt⟩

/-- **What is refused.** -/
theorem parse_error_iff : parse bits s = .error e ↔ Refused bits s e := by
  have hpos : 0 < 2 ^ bits := Nat.two_pow_pos bits
  have hmap : ∀ body, (digits bits 0 body).map (BitVec.ofNat bits) = .error e ↔
      Stops bits 0 body e := by
    intro body
    rw [← digits_error_iff hpos]
    cases digits bits 0 body with
    | error e' =>
      refine ⟨fun h => ?_, fun h => ?_⟩
      · exact congrArg _ (Except.error.inj h)
      · exact congrArg _ (Except.error.inj h)
    | ok m => exact iff_of_false (by intro h; cases h) (by intro h; cases h)
  constructor
  · intro h
    obtain rfl | rfl | ⟨body, hbody, hne⟩ := exists_body s
    · exact .inl ⟨rfl, (Except.error.inj h).symm⟩
    · exact .inr (.inl ⟨rfl, (Except.error.inj h).symm⟩)
    · rw [parse_body hbody hne, hmap] at h
      exact .inr (.inr ⟨body, hbody, hne, h⟩)
  · rintro (⟨rfl, rfl⟩ | ⟨rfl, rfl⟩ | ⟨body, hbody, hne, hstops⟩)
    · rfl
    · rfl
    · rw [parse_body hbody hne, hmap]
      exact hstops

/-- **What is written is read**: the digits of a number are a numeral for it. -/
theorem isNumeral_toDigits (n : ℕ) : IsNumeral (Nat.toDigits 10 n) n := by
  have hdigit : ∀ c ∈ Nat.toDigits 10 n, c.isDigit = true :=
    fun c hc => Nat.isDigit_of_mem_toDigits (by decide) (by decide) hc
  refine ⟨Nat.toDigits 10 n, .inr ⟨rfl, fun hhead => ?_⟩, Nat.toDigits_ne_nil, hdigit,
    Nat.ofDigitChars_ten_toDigits⟩
  exact absurd (hdigit '+' (List.mem_of_mem_head? hhead)) (by decide)

-- a digit too much before a letter, and a letter before a digit too much
example : parse 16 "+65535".toList = .ok 65535#16 ∧ parse 16 "65536x".toList = .error .posOverflow ∧
    parse 16 "6553x6".toList = .error .invalidDigit := by decide +kernel

end Decimal
