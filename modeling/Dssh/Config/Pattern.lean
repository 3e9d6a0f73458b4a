import Dssh.Config.Match
import Dssh.Lib.Glob
import Mathlib.Data.List.Forall2

/-!
# Patterns

`glob_match` compares a pattern and a text byte by byte, where a `?` takes one byte. What a
pattern says is about characters, and a `?` is for one of these. The difference is one of
measuring what stands between two literals: these are found at the same places in both readings,
since the bytes of a character are found at characters only.

## What the documentation says

A `*` matches zero or more characters, a `?` exactly one, and letters match regardless of case.
`Pattern.Splits` is this, over the characters of the text, with no algorithm in it: the text can
be cut into consecutive pieces, one for each character of the pattern. Case is ASCII case on
both sides, as the function that compares bytes has no other.

## From bytes to characters

The matcher is a backtracking recursion over byte slices. `globMatch_iff` says what it computes:
whether the *bytes* can be cut into pieces. Nothing is lost by backtracking in a fixed order,
since it tries everything before it gives up.

The two notions of a cut are then compared in the normal form of the library, in which wildcards
between two literals are one run. A literal is found at the same places in both readings.
Between two of them the matcher counts bytes and the documentation characters
(`globMatches_iff`, `Pattern.splits_iff`). A run that does not count is harmless: without a `?`
it accepts anything, and with one `?` and a `*` it asks for something, which is a byte exactly
if it is a character. A text in ASCII is harmless as well.

Conversely there is a text on which a pattern with any other run goes wrong, and for a text that
is not in ASCII there is a pattern that goes wrong on it: as many `?` as it has characters. Both
are constructed.

## What is left for the next module

Whether the matcher is right on *one* pattern and *one* text is a finer question. A run that
counts may never be compared with a wide character, because a literal fails first. That depends
on the order in which the search proceeds.

## Main definitions

* `globMatch`, `Pattern.globMatches`, `Pattern.matchesText` — the matcher
* `Pattern.Splits` — what a pattern says
* `Pattern.MatchesAsSplit` — the matcher is right about a pattern and a text

## Main results

* `globMatch_iff` — the recursion finds exactly the ways to cut the bytes
* `globMatches_iff` — which are the ways to cut the text, with runs of wildcards measured in
  bytes
* `globMatches_iff_splits` — patterns whose runs are lenient, and texts in ASCII, are matched
  right
* `exists_not_iff`, `exists_pattern_not_iff` — and no other patterns, and no other texts
-/

namespace Dssh

/-! ## The matcher

Over bytes, as in the source. A star tries the rest of the pattern in place first; a byte is
compared up to the case of ASCII letters. -/

/-- `u8::to_ascii_lowercase` -/
def toAsciiLowercaseByte (b : UInt8) : UInt8 := if 65 ≤ b ∧ b ≤ 90 then b + 32 else b

/-- `u8::eq_ignore_ascii_case` -/
def eqIgnoreAsciiCase (p t : UInt8) : Bool := toAsciiLowercaseByte p == toAsciiLowercaseByte t

/-- The recursion over the bytes of a pattern and of a text. -/
def globMatch : List UInt8 → List UInt8 → Bool
  | [], [] => true
  | p :: pat, txt =>
    if p = '*'.toUInt8 then
      globMatch pat txt || match txt with
        | [] => false
        | _ :: txt => globMatch (p :: pat) txt
    else
      match txt with
      | t :: txt => (p = '?'.toUInt8 || eqIgnoreAsciiCase p t) && globMatch pat txt
      | [] => false
  | [], _ :: _ => false
termination_by pat txt => pat.length + txt.length

namespace Pattern

variable (p : Pattern) (text : List Char)

/-- `Pattern::glob_matches` -/
def globMatches : Bool := globMatch (utf8 p.value) (utf8 text)

/-- `Pattern::matches` -/
def matchesText : Bool :=
  let m := globMatch (utf8 p.value) (utf8 text)
  if p.negated then !m else m

end Pattern

/-! ## What a pattern says

Over characters, as in the documentation. -/

/-- The character of a pattern as an item. -/
def globItem (c : Char) : GlobItem Char :=
  if c = '*' then .any else if c = '?' then .one else .lit c

/-- One character, equal to `c` up to ASCII case. -/
def SameLetter (c : Char) (x : List Char) : Prop := ∃ d, x = [d] ∧ c.toLower = d.toLower

namespace Pattern

/-- The text can be cut into consecutive pieces, one for each character of the pattern. -/
def Splits (p : Pattern) (text : List Char) : Prop :=
  Glob.Splits SameLetter (p.value.map globItem) text

/-- `glob_matches` finds whether the text can be cut so, and `matches` respects the negation. -/
def MatchesAsSplit (p : Pattern) (text : List Char) : Prop :=
  (p.globMatches text = true ↔ p.Splits text) ∧
    (p.matchesText text = true ↔ if p.negated then ¬ p.Splits text else p.Splits text)

/-- The runs of wildcards, in front of each literal and at the end. -/
def wilds (p : Pattern) : List Wild := (Glob.ofItems (p.value.map globItem)).wilds

end Pattern

/-! ## Letters and bytes

A letter and its byte have the same lower case. Outside ASCII nothing has a case in this sense,
neither a byte nor a character. -/

variable {c d : Char} {b p t : UInt8} {pat txt x y : List UInt8}

/-- Bytes are compared in lower case. -/
theorem eqIgnoreAsciiCase_iff :
    eqIgnoreAsciiCase p t = true ↔ toAsciiLowercaseByte p = toAsciiLowercaseByte t :=
  beq_iff_eq

/-- Bytes from 128 on have no case … -/
theorem toAsciiLowercaseByte_of_le (h : 128 ≤ b.toNat) : toAsciiLowercaseByte b = b := by
  refine if_neg fun hb => ?_
  have hle := UInt8.le_iff_toNat_le.mp hb.2
  exact absurd (Nat.le_trans h hle) (by decide)

/-- … and do not become others. -/
theorem toAsciiLowercaseByte_lt_iff : (toAsciiLowercaseByte b).toNat < 128 ↔ b.toNat < 128 := by
  rcases Nat.lt_or_ge b.toNat 128 with hb | hb
  · refine iff_of_true ?_ hb
    unfold toAsciiLowercaseByte
    split
    · rename_i hupper
      have hle : b.toNat ≤ 90 := UInt8.le_iff_toNat_le.mp hupper.2
      rw [UInt8.toNat_add]
      show (b.toNat + 32) % 256 < 128
      omega
    · exact hb
  · rw [toAsciiLowercaseByte_of_le hb]

/-- An ASCII character is its byte … -/
theorem toUInt8_toNat (h : c.toNat < 128) : c.toUInt8.toNat = c.toNat := by
  show c.toNat % 256 = c.toNat
  omega

/-- … and no other character is. -/
theorem toUInt8_inj (hc : c.toNat < 128) (hd : d.toNat < 128) (h : c.toUInt8 = d.toUInt8) :
    c = d := by
  apply Char.toNat_inj.mp
  rw [← toUInt8_toNat hc, ← toUInt8_toNat hd, h]

/-- Bytes below 128 are characters. -/
theorem exists_toUInt8 (h : b.toNat < 128) : ∃ c : Char, c.toNat < 128 ∧ c.toUInt8 = b := by
  have hall : ∀ n < 128, (Char.ofNat n).toNat = n := by decide
  have hc := hall b.toNat h
  have hlt : (Char.ofNat b.toNat).toNat < 128 := by rwa [hc]
  exact ⟨Char.ofNat b.toNat, hlt, UInt8.toNat_inj.mp ((toUInt8_toNat hlt).trans hc)⟩

/-- Characters outside ASCII have no case … -/
theorem toLower_of_le (h : 128 ≤ c.toNat) : c.toLower = c := by
  refine dif_neg fun hc => ?_
  have hle := UInt32.le_iff_toNat_le.mp hc.2
  exact absurd (Nat.le_trans h hle) (by decide)

/-- … and those in ASCII have that of their bytes … -/
theorem toLower_of_lt (h : c.toNat < 128) :
    c.toLower.toUInt8 = toAsciiLowercaseByte c.toUInt8 ∧ c.toLower.toNat < 128 := by
  have hall : ∀ n < 128, (Char.ofNat n).toLower.toUInt8 =
      toAsciiLowercaseByte (Char.ofNat n).toUInt8 ∧ (Char.ofNat n).toLower.toNat < 128 := by
    decide
  have hc := hall c.toNat h
  rwa [Char.ofNat_toNat] at hc

/-- … which stays in ASCII. -/
theorem toLower_lt_iff : c.toLower.toNat < 128 ↔ c.toNat < 128 := by
  rcases Nat.lt_or_ge c.toNat 128 with hc | hc
  · exact iff_of_true (toLower_of_lt hc).2 hc
  · rw [toLower_of_le hc]

/-- Letters that are the same up to case are both in ASCII or both not. -/
theorem lt_iff_of_toLower_eq (h : c.toLower = d.toLower) : c.toNat < 128 ↔ d.toNat < 128 := by
  rw [← toLower_lt_iff, h, toLower_lt_iff]

/-- Bytes that are equal, up to ASCII case, to those of the character. -/
def SameBytes (c : Char) (x : List UInt8) : Prop :=
  List.Forall₂ (fun p t => eqIgnoreAsciiCase p t = true) (String.utf8EncodeChar c) x

/-- From 128 on, there is no case. -/
theorem eq_of_forall₂ {ps : List UInt8} (hps : ∀ p ∈ ps, 128 ≤ p.toNat)
    (h : List.Forall₂ (fun p t => eqIgnoreAsciiCase p t = true) ps x) : x = ps := by
  induction h with
  | nil => rfl
  | @cons p t ps ts hpt _ ih =>
    obtain ⟨hp, hps⟩ := List.forall_mem_cons.mp hps
    rw [eqIgnoreAsciiCase_iff, toAsciiLowercaseByte_of_le hp] at hpt
    have ht : 128 ≤ t.toNat := by
      by_contra hlt
      rw [Nat.not_le, ← toAsciiLowercaseByte_lt_iff, ← hpt] at hlt
      exact absurd hp (Nat.not_le.mpr hlt)
    rw [ih hps, hpt, toAsciiLowercaseByte_of_le ht]

/-- Such bytes are those of the same letter. -/
theorem sameBytes_iff :
    SameBytes c x ↔ ∃ d, x = String.utf8EncodeChar d ∧ c.toLower = d.toLower := by
  rcases Nat.lt_or_ge c.toNat 128 with hc | hc
  · rw [SameBytes, utf8EncodeChar_ascii hc]
    constructor
    · intro h
      obtain ⟨b, y, hb, hy, rfl⟩ := List.forall₂_cons_left_iff.mp h
      obtain rfl := List.forall₂_nil_left_iff.mp hy
      rw [eqIgnoreAsciiCase_iff, ← (toLower_of_lt hc).1] at hb
      have hlt : b.toNat < 128 := by
        rw [← toAsciiLowercaseByte_lt_iff, ← hb, toUInt8_toNat (toLower_of_lt hc).2]
        exact (toLower_of_lt hc).2
      obtain ⟨d, hd, rfl⟩ := exists_toUInt8 hlt
      rw [← (toLower_of_lt hd).1] at hb
      exact ⟨d, (utf8EncodeChar_ascii hd).symm,
        toUInt8_inj (toLower_of_lt hc).2 (toLower_of_lt hd).2 hb⟩
    · rintro ⟨d, rfl, hd⟩
      have hlt := (lt_iff_of_toLower_eq hd).mp hc
      rw [utf8EncodeChar_ascii hlt]
      refine .cons ?_ .nil
      rw [eqIgnoreAsciiCase_iff, ← (toLower_of_lt hc).1, ← (toLower_of_lt hlt).1, hd]
  · constructor
    · intro h
      exact ⟨c, eq_of_forall₂ (fun b hb => le_of_mem_utf8EncodeChar hc hb) h, rfl⟩
    · rintro ⟨d, rfl, hd⟩
      have hle : 128 ≤ d.toNat := by
        rw [← Nat.not_lt, ← lt_iff_of_toLower_eq hd, Nat.not_lt]
        exact hc
      rw [toLower_of_le hc, toLower_of_le hle] at hd
      subst hd
      exact List.forall₂_same.mpr fun b _ => eqIgnoreAsciiCase_iff.mpr rfl

/-! ## The recursion

The matcher finds a way to cut the bytes if there is one. For a star this is an induction on the
text. -/

/-- The end of the pattern is for the end of the text. -/
theorem globMatch_nil : globMatch [] txt = true ↔ txt = [] := by
  cases txt with
  | nil => simp [globMatch]
  | cons t txt => simp [globMatch]

/-- A star takes any part of the text in front. -/
theorem globMatch_star : globMatch ('*'.toUInt8 :: pat) txt = true ↔
    ∃ x y, txt = x ++ y ∧ globMatch pat y = true := by
  induction txt with
  | nil =>
    rw [globMatch, if_pos rfl, Bool.or_false]
    constructor
    · intro h
      exact ⟨[], [], rfl, h⟩
    · rintro ⟨x, y, hxy, h⟩
      obtain ⟨-, rfl⟩ := List.append_eq_nil_iff.mp hxy.symm
      exact h
  | cons t txt ih =>
    rw [globMatch, if_pos rfl, Bool.or_eq_true, ih]
    constructor
    · rintro (h | ⟨x, y, rfl, h⟩)
      · exact ⟨[], t :: txt, rfl, h⟩
      · exact ⟨t :: x, y, rfl, h⟩
    · rintro ⟨x, y, hxy, h⟩
      cases x with
      | nil =>
        obtain rfl : t :: txt = y := hxy
        exact .inl h
      | cons a x => exact .inr ⟨x, y, (List.cons.inj hxy).2, h⟩

/-- A byte of the pattern that is no star takes one of the text. -/
theorem globMatch_cons (hp : p ≠ '*'.toUInt8) : globMatch (p :: pat) txt = true ↔
    ∃ t y, txt = t :: y ∧ (p = '?'.toUInt8 ∨ eqIgnoreAsciiCase p t = true) ∧
      globMatch pat y = true := by
  cases txt with
  | nil => simp [globMatch, hp]
  | cons t txt => simp [globMatch, hp]

/-- Bytes that are no wildcards take those that are equal up to case. -/
theorem globMatch_append (hx : ∀ p ∈ x, p ≠ '*'.toUInt8 ∧ p ≠ '?'.toUInt8) :
    globMatch (x ++ pat) txt = true ↔ ∃ y z, txt = y ++ z ∧
      List.Forall₂ (fun p t => eqIgnoreAsciiCase p t = true) x y ∧ globMatch pat z = true := by
  induction x generalizing txt with
  | nil => simp [List.forall₂_nil_left_iff]
  | cons p x ih =>
    obtain ⟨⟨hstar, hone⟩, hx⟩ := List.forall_mem_cons.mp hx
    rw [List.cons_append, globMatch_cons hstar]
    constructor
    · rintro ⟨t, y, rfl, hp, h⟩
      obtain ⟨y, z, rfl, hy, hz⟩ := (ih hx).mp h
      exact ⟨t :: y, z, rfl, .cons (hp.resolve_left hone) hy, hz⟩
    · rintro ⟨y, z, rfl, hy, hz⟩
      obtain ⟨t, y', ht, hy', rfl⟩ := List.forall₂_cons_left_iff.mp hy
      exact ⟨t, y' ++ z, rfl, .inr ht, (ih hx).mpr ⟨y', z, rfl, hy', hz⟩⟩

/-- **The recursion** finds exactly the ways to cut the bytes. -/
theorem globMatch_iff (value : List Char) : globMatch (utf8 value) txt = true ↔
    Glob.Splits SameBytes (value.map globItem) txt := by
  induction value generalizing txt with
  | nil => rw [utf8_nil, globMatch_nil, List.map_nil, Glob.splits_nil]
  | cons c value ih =>
    simp only [List.map_cons, Glob.splits_cons, ← ih, utf8_cons, globItem]
    split
    · rename_i hc
      subst hc
      rw [utf8EncodeChar_ascii (by decide), List.singleton_append, globMatch_star]
      simp only [Glob.Stands, true_and]
    split
    · rename_i hc
      subst hc
      rw [utf8EncodeChar_ascii (by decide), List.singleton_append, globMatch_cons (by decide)]
      constructor
      · rintro ⟨t, y, rfl, -, h⟩
        exact ⟨[t], y, rfl, rfl, h⟩
      · rintro ⟨x, y, rfl, hx, h⟩
        obtain ⟨t, rfl⟩ := List.length_eq_one_iff.mp hx
        exact ⟨t, y, rfl, .inl rfl, h⟩
    · rename_i hstar hone
      refine globMatch_append fun b hb => ?_
      have hbyte : ∀ {a : Char}, a.toNat < 128 → c ≠ a → b ≠ a.toUInt8 := by
        intro a ha hne
        exact beq_eq_false_iff_ne.mp ((agrees_ascii ha c b hb).trans (beq_eq_false_iff_ne.mpr hne))
      exact ⟨hbyte (by decide) hstar, hbyte (by decide) hone⟩

/-! ## Bytes and characters

A literal stands for the bytes of one character in both readings. Only the wildcards differ: they
stand for a number of bytes in one reading, and for a number of characters in the other. -/

/-- A match of the bytes is a match of the characters, with the runs of wildcards measured in
bytes. -/
theorem matches_utf8 {g : Glob Char} {text : List Char} :
    g.Matches List.length SameBytes (utf8 text) ↔ g.Matches byteLen SameLetter text := by
  induction g generalizing text with
  | last w =>
    show w.Fits (utf8 text).length ↔ w.Fits (byteLen text)
    rw [length_utf8]
  | seg w c g ih =>
    constructor
    · rintro ⟨u, v, y, htext, hu, hv, hy⟩
      obtain ⟨d, rfl, hd⟩ := sameBytes_iff.mp hv
      obtain ⟨u, z, rfl, rfl, rfl⟩ := exists_of_utf8_eq_append htext
      rw [length_utf8] at hu
      exact ⟨u, [d], z, rfl, hu, ⟨d, rfl, hd⟩, ih.mp hy⟩
    · rintro ⟨u, v, z, rfl, hu, ⟨d, rfl, hd⟩, hz⟩
      refine ⟨utf8 u, String.utf8EncodeChar d, utf8 z, ?_, ?_, sameBytes_iff.mpr ⟨d, rfl, hd⟩,
        ih.mpr hz⟩
      · rw [utf8_append, List.singleton_append, utf8_cons]
      · rw [length_utf8]
        exact hu

variable {q : Pattern} {text : List Char}

/-- **In bytes.** The matcher measures runs of wildcards in bytes. -/
theorem globMatches_iff : q.globMatches text = true ↔
    (Glob.ofItems (q.value.map globItem)).Matches byteLen SameLetter text := by
  rw [Pattern.globMatches, globMatch_iff, Glob.splits_iff, matches_utf8]

/-- **In characters.** What the pattern says measures them in characters. -/
theorem Pattern.splits_iff : q.Splits text ↔
    (Glob.ofItems (q.value.map globItem)).Matches List.length SameLetter text :=
  Glob.splits_iff

/-- Negation adds nothing. -/
theorem matchesAsSplit_of_iff (h : q.globMatches text = true ↔ q.Splits text) :
    q.MatchesAsSplit text := by
  refine ⟨h, ?_⟩
  show (if q.negated then !q.globMatches text else q.globMatches text) = true ↔ _
  split
  · rw [Bool.not_eq_true', ← h, Bool.not_eq_true]
  · exact h

/-! ## Where it is right

A lenient run does not tell the two numbers apart, and in a text in ASCII they are equal. -/

/-- Both measures agree on nothing … -/
theorem byteLen_eq_zero_iff {u : List Char} : byteLen u = 0 ↔ u.length = 0 := by
  cases u with
  | nil => exact Iff.rfl
  | cons c u =>
    have hpos := c.utf8Size_pos
    rw [byteLen_cons, List.length_cons]
    omega

/-- … on ASCII characters … -/
theorem utf8Size_eq_one_iff : c.utf8Size = 1 ↔ c.toNat < 128 := by
  have hval : c.val.toNat = c.toNat := rfl
  rw [Char.utf8Size_eq_one_iff, UInt32.le_iff_toNat_le, hval]
  exact Nat.lt_succ_iff.symm

/-- … and so on texts in ASCII. -/
theorem byteLen_of_ascii {u : List Char} (h : ∀ c ∈ u, c.toNat < 128) : byteLen u = u.length := by
  induction u with
  | nil => rfl
  | cons c u ih =>
    obtain ⟨hc, hu⟩ := List.forall_mem_cons.mp h
    rw [byteLen_cons, utf8Size_eq_one_iff.mpr hc, ih hu, List.length_cons, Nat.add_comm]

/-- A text has at least as many bytes as characters. -/
theorem length_le_byteLen_text (u : List Char) : u.length ≤ byteLen u := by
  induction u with
  | nil => exact Nat.le_refl 0
  | cons c u ih =>
    have hpos := c.utf8Size_pos
    rw [byteLen_cons, List.length_cons]
    omega

/-- The other texts have more bytes than characters. -/
theorem length_lt_byteLen {u : List Char} (h : ∃ c ∈ u, ¬ c.toNat < 128) :
    u.length < byteLen u := by
  obtain ⟨c, hc, hwide⟩ := h
  obtain ⟨v, y, rfl⟩ := List.append_of_mem hc
  have hone := mt utf8Size_eq_one_iff.mp hwide
  have hpos := c.utf8Size_pos
  have hv := length_le_byteLen_text v
  have hy := length_le_byteLen_text y
  rw [List.length_append, List.length_cons, byteLen_append, byteLen_cons]
  omega

/-- **Where it is right**: for lenient runs, and for texts in ASCII. -/
theorem globMatches_iff_splits (h : (∀ w ∈ q.wilds, w.Lenient) ∨ ∀ c ∈ text, c.toNat < 128) :
    q.globMatches text = true ↔ q.Splits text := by
  rw [globMatches_iff, Pattern.splits_iff]
  refine Glob.matches_congr fun w hw u hu => ?_
  obtain hlenient | hascii := h
  · exact (hlenient w hw).fits_congr byteLen_eq_zero_iff
  · rw [byteLen_of_ascii fun c hc => hascii c (hu.subset hc)]

/-! ## Where it is wrong

For every other run there is a text. Where two `?` are in it, a character of two bytes is taken
by both; where there is one and no star, such a character is not taken. -/

/-- As many bytes as the run has `?`, with fewer characters if these are more than one. -/
def widened (w : Wild) : List Char :=
  if 2 ≤ w.count then 'é' :: List.replicate (w.count - 2) 'z' else List.replicate w.count 'z'

/-- So many equal characters. -/
theorem byteLen_replicate (n : ℕ) (c : Char) : byteLen (List.replicate n c) = n * c.utf8Size := by
  induction n with
  | zero => exact (Nat.zero_mul _).symm
  | succ n ih => rw [List.replicate_succ, byteLen_cons, ih, Nat.succ_mul, Nat.add_comm]

/-- It has as many bytes as the run has `?` … -/
theorem byteLen_widened (w : Wild) : byteLen (widened w) = w.count := by
  have hz : 'z'.utf8Size = 1 := by decide
  have he : 'é'.utf8Size = 2 := by decide
  unfold widened
  split
  · rw [byteLen_cons, byteLen_replicate, hz, he]
    omega
  · rw [byteLen_replicate, hz, Nat.mul_one]

/-- … and fewer characters if there are two. -/
theorem length_widened (w : Wild) :
    (widened w).length = if 2 ≤ w.count then w.count - 1 else w.count := by
  unfold widened
  split
  · rw [List.length_cons, List.length_replicate]
    omega
  · rw [List.length_replicate]

/-- Two `?` in a run take the two bytes of one character. -/
theorem exists_matches_bytes {g : Glob Char} (h : ∃ w ∈ g.wilds, 2 ≤ w.count) :
    ∃ text, g.Matches byteLen SameLetter text ∧ ¬ g.Matches List.length SameLetter text := by
  refine ⟨g.fill widened fun c => [c], ?_, fun hmatch => ?_⟩
  · refine Glob.matches_fill (fun w _ => ?_) fun c => ⟨c, rfl, rfl⟩
    rw [byteLen_widened]
    exact w.fits_count
  · have hle : g.sum Wild.count (fun _ => 1) ≤ (g.fill widened fun c => [c]).length := by
      refine Glob.sum_le_of_matches (fun x y => List.length_append) (fun w u hu => ?_) ?_ hmatch
      · exact hu.count_le
      · rintro c v ⟨d, rfl, -⟩
        exact Nat.le_refl 1
    rw [Glob.measure_fill fun x y => List.length_append] at hle
    refine absurd hle (Nat.not_le.mpr (Glob.sum_lt_sum (fun w _ => ?_) ?_))
    · rw [length_widened]
      split <;> omega
    · obtain ⟨w, hw, hcount⟩ := h
      refine ⟨w, hw, ?_⟩
      rw [length_widened, if_pos hcount]
      omega

/-- How many characters of a text are in ASCII. -/
def asciiCount (t : List Char) : ℕ := t.countP fun c => decide (c.toNat < 128)

/-- They add up. -/
theorem asciiCount_append (x y : List Char) : asciiCount (x ++ y) = asciiCount x + asciiCount y :=
  List.countP_append

/-- One byte is one of them. -/
theorem asciiCount_of_byteLen {u : List Char} (h : byteLen u = 1) : asciiCount u = 1 := by
  cases u with
  | nil => cases h
  | cons c u =>
    have hpos := c.utf8Size_pos
    rw [byteLen_cons] at h
    have hu : u = [] := List.length_eq_zero_iff.mp (byteLen_eq_zero_iff.mp (by omega))
    subst hu
    have hc : c.toNat < 128 := utf8Size_eq_one_iff.mp (by rw [byteLen_nil] at h; omega)
    simp [asciiCount, hc]

/-- A `?` with no `*` beside it does not take a character of two bytes. -/
theorem exists_matches_characters {g : Glob Char} (h : ∃ w ∈ g.wilds, w = ⟨1, false⟩) :
    ∃ text, g.Matches List.length SameLetter text ∧ ¬ g.Matches byteLen SameLetter text := by
  refine ⟨g.fill (fun w => List.replicate w.count 'é') fun c => [c], ?_, fun hmatch => ?_⟩
  · refine Glob.matches_fill (fun w _ => ?_) fun c => ⟨c, rfl, rfl⟩
    rw [List.length_replicate]
    exact w.fits_count
  -- every match has an ASCII character for that `?`, besides those for the literals
  · have hle : g.sum (fun w => if w = ⟨1, false⟩ then 1 else 0) (fun c => asciiCount [c]) ≤
        asciiCount (g.fill (fun w => List.replicate w.count 'é') fun c => [c]) := by
      refine Glob.sum_le_of_matches asciiCount_append (fun w u hu => ?_) ?_ hmatch
      · split
        · rename_i hw
          subst hw
          exact Nat.le_of_eq (asciiCount_of_byteLen hu).symm
        · exact Nat.zero_le _
      · rintro c v ⟨d, rfl, hd⟩
        simp only [asciiCount, List.countP_singleton, decide_eq_true_eq, lt_iff_of_toLower_eq hd,
          Nat.le_refl]
    rw [Glob.measure_fill asciiCount_append] at hle
    refine absurd hle (Nat.not_le.mpr (Glob.sum_lt_sum (fun w _ => ?_) ?_))
    · have hnone : asciiCount (List.replicate w.count 'é') = 0 := by
        refine List.countP_eq_zero.mpr fun c hc => ?_
        rw [List.eq_of_mem_replicate hc]
        decide
      rw [hnone]
      exact Nat.zero_le _
    · obtain ⟨w, hw, rfl⟩ := h
      exact ⟨_, hw, by decide⟩

/-- **Where it is wrong**: a run that counts has a text on which it counts wrong. -/
theorem exists_not_iff (h : ¬ ∀ w ∈ q.wilds, w.Lenient) :
    ∃ text, ¬ (q.globMatches text = true ↔ q.Splits text) := by
  simp only [globMatches_iff, Pattern.splits_iff]
  by_cases htwo : ∃ w ∈ q.wilds, 2 ≤ w.count
  · obtain ⟨text, hbytes, hcharacters⟩ := exists_matches_bytes htwo
    exact ⟨text, fun hiff => hcharacters (hiff.mp hbytes)⟩
  · have hcount : ∀ w ∈ q.wilds, w.count < 2 := by
      intro w hw
      by_contra hle
      exact htwo ⟨w, hw, Nat.not_lt.mp hle⟩
    have hbare : ∃ w ∈ q.wilds, w = ⟨1, false⟩ := by
      by_contra hnone
      refine h fun w hw => ?_
      have hlt := hcount w hw
      have hne : w ≠ ⟨1, false⟩ := fun heq => hnone ⟨w, hw, heq⟩
      obtain ⟨count, more⟩ := w
      change count < 2 at hlt
      cases more with
      | true =>
        have hle : count = 0 ∨ count = 1 := by omega
        exact hle.imp id fun hone => ⟨hone, rfl⟩
      | false =>
        left
        show count = 0
        have hone : count ≠ 1 := fun heq => hne (by rw [heq])
        omega
    obtain ⟨text, hcharacters, hbytes⟩ := exists_matches_characters hbare
    exact ⟨text, fun hiff => hbytes (hiff.mpr hcharacters)⟩

/-- As many `?` as there are characters. -/
theorem ofItems_replicate (n : ℕ) : Glob.ofItems (List.replicate n (GlobItem.one : GlobItem Char)) =
    .last ⟨n, false⟩ := by
  induction n with
  | zero => rfl
  | succ n ih => rw [List.replicate_succ, Glob.ofItems, ih, Glob.front]

/-- And a text outside ASCII has a pattern. -/
theorem exists_pattern_not_iff (h : ¬ ∀ c ∈ text, c.toNat < 128) :
    ∃ q : Pattern, ¬ (q.globMatches text = true ↔ q.Splits text) := by
  refine ⟨⟨false, List.replicate text.length '?'⟩, ?_⟩
  simp only [globMatches_iff, Pattern.splits_iff, List.map_replicate]
  rw [show globItem '?' = .one from rfl, ofItems_replicate]
  intro hiff
  have hlt : text.length < byteLen text := by
    refine length_lt_byteLen ?_
    by_contra hnone
    exact h fun c hc => by
      by_contra hwide
      exact hnone ⟨c, hc, hwide⟩
  exact absurd (hiff.mpr rfl) (Nat.ne_of_gt hlt)

end Dssh
