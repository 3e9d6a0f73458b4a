import Mathlib.Data.List.Basic
import Mathlib.Tactic.SplitIfs

/-!
# Texts as bytes

A text is a list of characters; its bytes are those of its UTF-8 encoding. Programs look for
ASCII characters among the bytes, cut texts at byte offsets, and rely on two facts: a byte below
128 is a character of its own, and an offset behind a whole number of characters is a place to
cut.

## Which type a text has

A text could be a `String`, or the bytes themselves. Lists of characters are taken because
proofs about texts are inductions over characters, because a character class is a predicate on
`Char`, and because a list cannot be ill-formed. A list of bytes would need the hypothesis that
it is valid UTF-8 everywhere. The bytes of a single character are Lean's own
`String.utf8EncodeChar`, so nothing about the encoding is defined here.

## Offsets

An offset counts bytes, and may be inside of a character. Slicing there is a panic in the
languages this models, so `splitAtByte` and `sliceBytes` return `none`. Whoever slices has to
show that the offsets are boundaries, and `sliceBytes_eq_some_iff` says what that means: the
text is three parts, of which the first two have the right number of bytes.

## Scanning

A loop that advances a byte index while a test holds is `scan`. It is written over bytes, as
such loops are; `Agrees` relates a test of bytes to one of characters, and then the index the
loop stops at is the boundary behind the characters of the class (`scan_utf8`). The tests that
occur compare a byte with an ASCII character, and `agrees_ascii` covers those: no byte of
another character can be mistaken for one.

## Main definitions

* `byteLen`, `utf8` — the bytes of a text
* `splitAtByte`, `sliceBytes` — cutting a text at byte offsets, which may be inside of a
  character
* `Agrees` — a class of bytes that stands for a class of characters
* `scan`, `findChar` — the usual loops

## Main results

* `exists_of_utf8_eq_append` — the bytes of a character are found at characters only
* `Agrees.takeWhile` — scanning the bytes is scanning the characters
* `sliceBytes_append`, `sliceBytes_eq_some_iff` — cutting out a part
* `scan_utf8`, `findChar_append` — where a scan ends
-/

/-- The length of a text in UTF-8. -/
def byteLen : List Char → ℕ
  | [] => 0
  | c :: s => c.utf8Size + byteLen s

@[simp] theorem byteLen_nil : byteLen [] = 0 := rfl

@[simp] theorem byteLen_cons (c : Char) (s : List Char) :
    byteLen (c :: s) = c.utf8Size + byteLen s := rfl

@[simp] theorem byteLen_append (s t : List Char) : byteLen (s ++ t) = byteLen s + byteLen t := by
  induction s with
  | nil => rw [List.nil_append, byteLen_nil, Nat.zero_add]
  | cons c s ih => rw [List.cons_append, byteLen_cons, byteLen_cons, ih, Nat.add_assoc]

/-- The bytes of a text in UTF-8. -/
def utf8 (s : List Char) : List UInt8 := s.flatMap String.utf8EncodeChar

@[simp] theorem utf8_nil : utf8 [] = [] := rfl

theorem utf8_cons (c : Char) (s : List Char) : utf8 (c :: s) = String.utf8EncodeChar c ++ utf8 s :=
  List.flatMap_cons

@[simp] theorem utf8_append (s t : List Char) : utf8 (s ++ t) = utf8 s ++ utf8 t :=
  List.flatMap_append

/-- There are as many of them as the length says. -/
@[simp] theorem length_utf8 (s : List Char) : (utf8 s).length = byteLen s := by
  induction s with
  | nil => rfl
  | cons c s ih =>
    rw [utf8_cons, List.length_append, String.length_utf8EncodeChar, ih, byteLen_cons]

/-- Dropping the bytes of a first part. -/
theorem drop_utf8 (s t : List Char) : (utf8 (s ++ t)).drop (byteLen s) = utf8 t := by
  rw [utf8_append, List.drop_left' (length_utf8 s)]

/-- The byte behind a first part is the first one of the rest. -/
theorem getElem?_utf8 (s t : List Char) : (utf8 (s ++ t))[byteLen s]? = (utf8 t).head? := by
  rw [← drop_utf8 s t, List.head?_drop]

/-- A text that is not empty begins with a byte of its first character. -/
theorem exists_head?_utf8 (c : Char) (s : List Char) :
    ∃ b ∈ String.utf8EncodeChar c, (utf8 (c :: s)).head? = some b := by
  have hpos := c.utf8Size_pos
  rw [← String.length_utf8EncodeChar] at hpos
  obtain ⟨b, bs, hbytes⟩ := List.exists_cons_of_length_pos hpos
  refine ⟨b, hbytes ▸ List.mem_cons_self, ?_⟩
  rw [utf8_cons, hbytes]
  rfl

/-! ## Characters among the bytes

The bytes of one character are no beginning of those of another. So, read from the front, a text
is determined by its bytes, and a character occurs in the bytes only where it occurs in the text. -/

/-- The bytes of a character do not begin those of another one. -/
theorem utf8EncodeChar_append_inj {c d : Char} {x y : List UInt8}
    (h : String.utf8EncodeChar c ++ x = String.utf8EncodeChar d ++ y) : c = d ∧ x = y := by
  have hc := ByteArray.utf8DecodeChar?_utf8EncodeChar_append (b := x.toByteArray) (c := c)
  have hd := ByteArray.utf8DecodeChar?_utf8EncodeChar_append (b := y.toByteArray) (c := d)
  rw [← List.toByteArray_append, h, List.toByteArray_append] at hc
  obtain rfl := Option.some.inj (hc.symm.trans hd)
  exact ⟨rfl, List.append_cancel_left h⟩

/-- Where the bytes of a text have those of a character, the text has the character. -/
theorem exists_of_utf8_eq_append {t : List Char} {x y : List UInt8} {d : Char}
    (h : utf8 t = x ++ (String.utf8EncodeChar d ++ y)) :
    ∃ u v, t = u ++ d :: v ∧ x = utf8 u ∧ y = utf8 v := by
  have hpos : String.utf8EncodeChar d ≠ [] := by
    intro hnil
    have hlength := String.length_utf8EncodeChar d
    rw [hnil] at hlength
    exact absurd hlength.symm (Nat.ne_of_gt d.utf8Size_pos)
  induction t generalizing x with
  | nil =>
    have hnil := (List.append_eq_nil_iff.mp (List.append_eq_nil_iff.mp h.symm).2).1
    exact absurd hnil hpos
  | cons a t ih =>
    rw [utf8_cons] at h
    obtain ⟨z, rfl, hz⟩ | ⟨z, hz, hrest⟩ := List.append_eq_append_iff.mp h
    · obtain ⟨u, v, rfl, rfl, rfl⟩ := ih hz
      exact ⟨a :: u, v, rfl, (utf8_cons a u).symm, rfl⟩
    · cases x with
      | nil =>
        obtain rfl : String.utf8EncodeChar a = z := hz
        obtain ⟨rfl, rfl⟩ := utf8EncodeChar_append_inj hrest
        exact ⟨[], t, rfl, rfl, rfl⟩
      | cons b x =>
        cases z with
        | nil =>
          obtain ⟨u, v, rfl, hu, rfl⟩ := ih (x := []) hrest.symm
          refine ⟨a :: u, v, rfl, ?_, rfl⟩
          rw [utf8_cons, ← hu, hz, List.append_nil, List.append_nil]
        | cons b' z =>
          -- the character would begin inside of `a`
          obtain ⟨b₀, bs, hd⟩ := List.exists_cons_of_ne_nil hpos
          rw [hd, List.cons_append, List.cons_append, List.cons.injEq] at hrest
          have hfirst : b₀.IsUTF8FirstByte := by
            have hzero := UInt8.isUTF8FirstByte_getElem_zero_utf8EncodeChar (c := d)
            simpa only [hd, List.getElem_cons_zero] using hzero
          have hlt : (b :: x).length < (String.utf8EncodeChar a).length := by
            rw [hz, List.length_append]
            exact Nat.lt_add_of_pos_right (Nat.succ_pos _)
          have hget : (String.utf8EncodeChar a)[(b :: x).length] = b₀ := by
            simp only [hz, List.getElem_append_right (Nat.le_refl _), Nat.sub_self,
              List.getElem_cons_zero, hrest.1]
          have hindex := UInt8.isUTF8FirstByte_getElem_utf8EncodeChar.mp (hget ▸ hfirst)
          exact absurd hindex (Nat.succ_ne_zero _)

/-! ## Classes of bytes

Code that looks for bytes below 128 in a text is right about characters, because the bytes of
other characters are all above. `Agrees` names this property of a class, so that it can be
composed and used for scans and for conditions on whole texts. -/

/-- A byte is in the class `p` exactly if the character it belongs to is in the class `f`. -/
def Agrees (p : UInt8 → Bool) (f : Char → Bool) : Prop :=
  ∀ c, ∀ b ∈ String.utf8EncodeChar c, p b = f c

/-- Two classes together. -/
theorem Agrees.or {p q : UInt8 → Bool} {f g : Char → Bool} (h : Agrees p f) (h' : Agrees q g) :
    Agrees (fun b => p b || q b) (fun c => f c || g c) := by
  intro c b hb
  exact congrArg₂ _ (h c b hb) (h' c b hb)

/-- An ASCII character is one byte. -/
theorem utf8EncodeChar_ascii {c : Char} (hc : c.toNat < 128) :
    String.utf8EncodeChar c = [c.toUInt8] := by
  refine String.utf8EncodeChar_eq_singleton (Char.utf8Size_eq_one_iff.mpr ?_)
  have hval : c.val.toNat = c.toNat := rfl
  rw [UInt32.le_iff_toNat_le, hval]
  exact Nat.le_of_lt_succ hc

/-- The bytes of a character that is not in ASCII are no bytes of one that is. -/
theorem le_of_mem_utf8EncodeChar {c : Char} (hc : 128 ≤ c.toNat) {b : UInt8}
    (hb : b ∈ String.utf8EncodeChar c) : 128 ≤ b.toNat := by
  have hval : c.val.toNat = c.toNat := rfl
  rw [String.utf8EncodeChar, hval] at hb
  split_ifs at hb with h1 h2 h3
  · exact absurd (Nat.le_trans hc h1) (by decide)
  all_goals
    simp only [List.mem_cons, List.not_mem_nil, or_false] at hb
    rcases hb with rfl | rfl | rfl | rfl <;> simp only [UInt8.toNat_ofNat'] <;> omega

/-- The first byte of such a character is above those that continue one. -/
theorem le_head_utf8EncodeChar {c : Char} (hc : 128 ≤ c.toNat) {b : UInt8}
    (hb : b ∈ (String.utf8EncodeChar c).head?) : 192 ≤ b.toNat := by
  have hval : c.val.toNat = c.toNat := rfl
  rw [String.utf8EncodeChar, hval] at hb
  split_ifs at hb with h1 h2 h3
  · exact absurd (Nat.le_trans hc h1) (by decide)
  all_goals
    simp only [List.head?_cons, Option.mem_some_iff] at hb
    subst hb
    simp only [UInt8.toNat_ofNat']
    omega

/-- **Looking for an ASCII character** among the bytes is looking for it among the characters. -/
theorem agrees_ascii {a : Char} (ha : a.toNat < 128) : Agrees (· == a.toUInt8) (· == a) := by
  intro c b hb
  have hbyte {d : Char} (hd : d.toNat < 128) : d.toUInt8.toNat = d.toNat := by
    change d.toNat % 256 = d.toNat
    omega
  rcases Nat.lt_or_ge c.toNat 128 with hc | hc
  · rw [utf8EncodeChar_ascii hc, List.mem_singleton] at hb
    subst hb
    rw [Bool.eq_iff_iff, beq_iff_eq, beq_iff_eq, ← UInt8.toNat_inj, hbyte hc, hbyte ha]
    exact Char.toNat_inj
  · have hle := le_of_mem_utf8EncodeChar hc hb
    have hb' : b ≠ a.toUInt8 := by
      rintro rfl
      rw [hbyte ha] at hle
      omega
    have hc' : c ≠ a := by
      rintro rfl
      omega
    exact (beq_eq_false_iff_ne.mpr hb').trans (beq_eq_false_iff_ne.mpr hc').symm

section

variable {p : UInt8 → Bool} {f : Char → Bool}

/-- Scanning the bytes is scanning the characters. -/
theorem Agrees.takeWhile (h : Agrees p f) (s : List Char) :
    (utf8 s).takeWhile p = utf8 (s.takeWhile f) := by
  induction s with
  | nil => rfl
  | cons c s ih =>
    rw [utf8_cons]
    rcases Bool.eq_false_or_eq_true (f c) with hc | hc
    · rw [List.takeWhile_append_of_pos (fun b hb => (h c b hb).trans hc), ih,
        List.takeWhile_cons_of_pos hc, utf8_cons]
    · rw [List.takeWhile_cons_of_neg (by rw [hc]; exact Bool.false_ne_true), utf8_nil]
      obtain ⟨b, hmem, hhead⟩ := exists_head?_utf8 c s
      obtain ⟨bs, hbytes⟩ := List.head?_eq_some_iff.mp hhead
      have hb : p b = false := by rw [h c b hmem, hc]
      rw [← utf8_cons, hbytes, List.takeWhile_cons_of_neg (by rw [hb]; exact Bool.false_ne_true)]

/-- A text without characters of the class has no bytes of it. -/
theorem Agrees.forall_false (h : Agrees p f) {s : List Char} (hs : ∀ c ∈ s, f c = false) :
    ∀ b ∈ utf8 s, p b = false := by
  intro b hb
  obtain ⟨c, hc, hb⟩ := List.mem_flatMap.mp hb
  rw [h c b hb, hs c hc]

end

/-! ## Cutting a text at byte offsets

An offset inside of a character is no place to cut. For code that computes with offsets this has
to be shown at every cut, and the lemmas say it in the form in which it comes up: the offset is
the length of a part that is known to be in front. -/

/-- The characters in front of a byte offset and behind it, if it is not inside of one. -/
def splitAtByte : List Char → ℕ → Option (List Char × List Char)
  | s, 0 => some ([], s)
  | [], _ + 1 => none
  | c :: s, n + 1 =>
    if n + 1 < c.utf8Size then none
    else (splitAtByte s (n + 1 - c.utf8Size)).map fun r => (c :: r.1, r.2)

/-- The part of a text between two byte offsets. -/
def sliceBytes (s : List Char) (start stop : ℕ) : Option (List Char) :=
  (splitAtByte s stop).bind fun r => (splitAtByte r.1 start).map Prod.snd

/-- The offset behind a part is a place to cut. -/
theorem splitAtByte_append (x y : List Char) : splitAtByte (x ++ y) (byteLen x) = some (x, y) := by
  induction x with
  | nil => rw [List.nil_append, byteLen_nil, splitAtByte]
  | cons c x ih =>
    obtain ⟨n, hn⟩ := Nat.exists_eq_succ_of_ne_zero (Nat.ne_of_gt c.utf8Size_pos)
    have hlen : byteLen (c :: x) = n + byteLen x + 1 := by
      rw [byteLen_cons, hn]
      omega
    have hrest : n + byteLen x + 1 - c.utf8Size = byteLen x := by omega
    rw [hlen, List.cons_append, splitAtByte, if_neg (by omega), hrest, ih, Option.map_some]

/-- A part between two others can be cut out. -/
theorem sliceBytes_append (x v y : List Char) :
    sliceBytes (x ++ (v ++ y)) (byteLen x) (byteLen x + byteLen v) = some v := by
  rw [sliceBytes, ← byteLen_append, ← List.append_assoc, splitAtByte_append, Option.bind_some,
    splitAtByte_append, Option.map_some]

/-- A text is cut in one way only at an offset. -/
theorem append_inj_of_byteLen {x x' y y' : List Char} (h : x ++ y = x' ++ y')
    (hlength : byteLen x = byteLen x') : x = x' ∧ y = y' := by
  have hsplit := splitAtByte_append x y
  rw [h, hlength, splitAtByte_append] at hsplit
  obtain ⟨hx, hy⟩ := Prod.mk.inj (Option.some.inj hsplit)
  exact ⟨hx.symm, hy.symm⟩

/-- And nothing else is a place to cut. -/
theorem of_splitAtByte_eq_some {s x y : List Char} {n : ℕ} (h : splitAtByte s n = some (x, y)) :
    s = x ++ y ∧ byteLen x = n := by
  induction s generalizing x n with
  | nil =>
    cases n with
    | zero =>
      rw [splitAtByte] at h
      obtain ⟨rfl, rfl⟩ := Prod.mk.inj (Option.some.inj h)
      exact ⟨rfl, rfl⟩
    | succ n => cases h
  | cons c s ih =>
    cases n with
    | zero =>
      rw [splitAtByte] at h
      obtain ⟨rfl, rfl⟩ := Prod.mk.inj (Option.some.inj h)
      exact ⟨rfl, rfl⟩
    | succ n =>
      rw [splitAtByte] at h
      split_ifs at h with hlt
      obtain ⟨⟨x', y'⟩, hsplit, heq⟩ := Option.map_eq_some_iff.mp h
      obtain ⟨rfl, rfl⟩ := Prod.mk.inj heq
      obtain ⟨rfl, hlength⟩ := ih hsplit
      refine ⟨rfl, ?_⟩
      rw [byteLen_cons, hlength]
      omega

/-- A part that can be cut out stands between the two offsets. -/
theorem sliceBytes_eq_some_iff {s v : List Char} {start stop : ℕ} :
    sliceBytes s start stop = some v ↔
      ∃ x y, s = x ++ (v ++ y) ∧ byteLen x = start ∧ byteLen x + byteLen v = stop := by
  constructor
  · intro h
    obtain ⟨⟨w, y⟩, hstop, h⟩ := Option.bind_eq_some_iff.mp h
    obtain ⟨⟨x, v'⟩, hstart, rfl⟩ := Option.map_eq_some_iff.mp h
    obtain ⟨rfl, rfl⟩ := of_splitAtByte_eq_some hstop
    obtain ⟨rfl, rfl⟩ := of_splitAtByte_eq_some hstart
    exact ⟨x, y, List.append_assoc x v' y, rfl, (byteLen_append x v').symm⟩
  · rintro ⟨x, y, rfl, rfl, rfl⟩
    exact sliceBytes_append x v y

/-- The rest of a text. -/
theorem sliceBytes_append_end (x v : List Char) :
    sliceBytes (x ++ v) (byteLen x) (byteLen x + byteLen v) = some v := by
  have h := sliceBytes_append x v []
  rwa [List.append_nil] at h

/-! ## Scanning a text

A loop may advance an index as long as the byte at it is in a class. It ends behind the
characters of the class, and the index is the length of these. -/

/-- Advance over the bytes in a class. -/
def scan (p : UInt8 → Bool) (bs : List UInt8) (i : ℕ) : ℕ := i + ((bs.drop i).takeWhile p).length

/-- **Where a scan ends**: behind the characters of the class. -/
theorem scan_utf8 {p : UInt8 → Bool} {f : Char → Bool} (h : Agrees p f) (x s : List Char) :
    scan p (utf8 (x ++ s)) (byteLen x) = byteLen x + byteLen (s.takeWhile f) := by
  rw [scan, drop_utf8, h.takeWhile, length_utf8]

/-- The byte offset of a character in a text. -/
def findChar (d : Char) (s : List Char) : Option ℕ :=
  if d ∈ s then some (byteLen (s.takeWhile (· != d))) else none

/-- The first occurrence of a character is behind a part without it. -/
theorem findChar_append {d : Char} {x : List Char} (hx : d ∉ x) (y : List Char) :
    findChar d (x ++ d :: y) = some (byteLen x) := by
  have hne : ∀ c ∈ x, (c != d) = true := by
    intro c hc
    rw [bne_iff_ne]
    rintro rfl
    exact hx hc
  rw [findChar, if_pos (by simp), List.takeWhile_append_of_pos hne,
    List.takeWhile_cons_of_neg (by simp), List.append_nil]
