import Dssh.Config.Entries
import Dssh.Config.Match

/-!
# Spans

The keyword and the arguments of a directive are located by the grammar, the tokens are located
in the arguments, and the pieces between commas in their token. Each is a part of the text it
comes from, and a part of a part of the file is a part of the file, without a line feed in
between. So all of them are where their spans say.

## Three layers of offsets

A piece of a pattern list has been located three times: the grammar counts bytes from the start
of the file, the tokenizer from the start of the arguments, `split_comma` from the start of the
token. Each layer adds its own offset to that of the layer below, and to the *column*, which is
right only as long as no line feed is passed. It is never checked that the sums are boundaries
of characters; if they were not, slicing would panic.

`IsPart` is the invariant of such a step: the value is a part of the value it was cut from, and
the location is moved by the bytes in front of it. `SourceFile.Places` is what one wants of a
located value: the file *has* this text at this span. The one carries the other along
(`SourceFile.Places.part`).

## Order

Tokens are one behind the other, disjoint, and inside of the arguments (`InOrder`). An empty
token counts as well: `""` is a token, between its quotes. So the spans increase strictly at
their starts although they may be empty, and this needs an argument about each round of the
tokenizer, made in `Round`: what is consumed lies behind the start of the token.

## No panics

The tokenizer slices at byte offsets that it has found by scanning. It returns an option here,
and `isPart_of_tokenize` says that it returns, for arguments of any kind.

## Main definitions

* `SourceFile.Places` — the file has this value at this place
* `Located.IsPart` — a value is cut out of another one
* `InOrder` — spans one behind the other
* `Round` — what a round of the tokenizer does

## Main results

* `isPart_of_tokenize` — there are tokens, and they are parts of the arguments, one behind the
  other
* `spans_sound` — the spans of a directive, its tokens and their pieces
-/

namespace Dssh

open Config

/-! ## What a span should say

A value is placed in a file if cutting the file at its span gives the value, and the line and
column are those of its start. Cutting is partial, so a span inside of a character places
nothing. -/

/-- The value is what the file has at the span, cut at the boundaries of characters, and the line
and the column are those of its start. -/
structure SourceFile.Places (f : SourceFile) (a : Located (List Char)) : Prop where
  /-- The file is the right one. -/
  path : a.location.path = f.path
  /-- Its bytes at the span are those of the value. -/
  cut : sliceBytes f.content a.location.span.start a.location.span.stop = some a.value
  /-- The line and the column are those of the start. -/
  lineCol : f.lineCol a.location.span.start = (a.location.line, a.location.column)

/-- The first span ends where the second one begins or before, and begins before it. -/
def Precedes (a b : Located (List Char)) : Prop :=
  a.location.span.stop ≤ b.location.span.start ∧ a.location.span.start < b.location.span.start

/-- The spans are inside of `s`, disjoint and strictly increasing. -/
structure InOrder (s : Span) (as : List (Located (List Char))) : Prop where
  /-- Between the start and the end. -/
  inside : ∀ a ∈ as, s.start ≤ a.location.span.start ∧ a.location.span.stop ≤ s.stop
  /-- One behind the other. -/
  increasing : as.Pairwise Precedes

namespace Located

/-- `b` is a part of the value of `a`, and it is located there. -/
def IsPart (a b : Located (List Char)) : Prop :=
  ∃ x y, a.value = x ++ (b.value ++ y) ∧
    b.location = a.location.part (byteLen x) (byteLen x + byteLen b.value)

end Located

/-! ## Parts

A part of something that is placed is placed, if the part is on one line: then its column is the
column of the whole and the bytes in front. -/

variable {f : SourceFile} {a b : Located (List Char)} {as : List (Located (List Char))}
  {x y z t l r : List Char} {fuel : ℕ}

/-- What is in front of it in the file, and what is behind it. -/
theorem SourceFile.Places.exists_append (h : f.Places a) : ∃ x y,
    f.content = x ++ (a.value ++ y) ∧ byteLen x = a.location.span.start ∧
      byteLen x + byteLen a.value = a.location.span.stop :=
  sliceBytes_eq_some_iff.mp h.cut

/-- A part has no other characters. -/
theorem Located.IsPart.mem (h : a.IsPart b) {c : Char} (hc : c ∈ b.value) : c ∈ a.value := by
  obtain ⟨x, y, hvalue, -⟩ := h
  rw [hvalue]
  simp [hc]

/-- A span of the file is where it is. -/
theorem places_locate {v : List Char} (h : f.content = x ++ (v ++ y)) :
    f.Places (f.locate ⟨v, byteLen x, byteLen x + byteLen v⟩) where
  path := rfl
  cut := sliceBytes_eq_some_iff.mpr ⟨x, y, h, rfl, rfl⟩
  lineCol := rfl

/-- A part of what is in one line of the file. -/
theorem SourceFile.Places.part (h : f.Places a) (hline : '\n' ∉ a.value) (hpart : a.IsPart b) :
    f.Places b := by
  obtain ⟨z, w, hcontent, hstart, -⟩ := h.exists_append
  obtain ⟨x, y, hvalue, hlocation⟩ := hpart
  have hle : byteLen x ≤ byteLen a.value := by
    rw [hvalue, byteLen_append]
    exact Nat.le_add_right _ _
  refine ⟨?_, sliceBytes_eq_some_iff.mpr ⟨z ++ x, y ++ w, ?_, ?_, ?_⟩, ?_⟩
  · rw [hlocation]
    exact h.path
  · rw [hcontent, hvalue]
    simp only [List.append_assoc]
  · rw [hlocation, byteLen_append, hstart]
    rfl
  · rw [hlocation, byteLen_append, hstart, Nat.add_assoc]
    rfl
  · rw [hlocation]
    show f.lineCol (a.location.span.start + byteLen x) = (a.location.line, _)
    have hcol := f.lineCol_append hcontent hline hle
    have hzero := f.lineCol_append hcontent hline (Nat.zero_le _)
    rw [Nat.add_zero, hstart, h.lineCol] at hzero
    rw [← hstart, hcol, hstart, h.lineCol]
    exact Prod.ext (congrArg Prod.fst hzero).symm rfl

/-- Parts that begin one behind the other. -/
theorem SourceFile.Places.inOrder (h : f.Places a) (hparts : ∀ b ∈ as, a.IsPart b)
    (hincreasing : as.Pairwise Precedes) : InOrder a.location.span as := by
  refine ⟨fun b hb => ?_, hincreasing⟩
  obtain ⟨z, w, -, hstart, hstop⟩ := h.exists_append
  obtain ⟨x, y, hvalue, hlocation⟩ := hparts b hb
  have hlength : byteLen a.value = byteLen x + (byteLen b.value + byteLen y) := by
    rw [hvalue, byteLen_append, byteLen_append]
  rw [hlocation, ← hstop, ← hstart]
  constructor
  · show _ ≤ a.location.span.start + byteLen x
    omega
  · show a.location.span.start + (byteLen x + byteLen b.value) ≤ _
    omega

/-! ## Pieces between commas

The offsets are sums, of the pieces in front and the commas between them. -/

namespace Located

/-- The parts between commas are parts, one behind the other. -/
theorem isPart_of_partsFrom {parts : List (List Char)}
    (h : a.value = x ++ [','].intercalate parts) :
    (∀ b ∈ a.partsFrom (byteLen x) parts,
      a.IsPart b ∧ a.location.span.start + byteLen x ≤ b.location.span.start) ∧
    (a.partsFrom (byteLen x) parts).Pairwise Precedes := by
  induction parts generalizing x with
  | nil => exact ⟨fun b hb => absurd hb List.not_mem_nil, .nil⟩
  | cons part parts ih =>
    have hfirst : ∃ y, a.value = x ++ (part ++ y) := by
      rw [h, intercalate_cons]
      exact ⟨_, rfl⟩
    obtain ⟨y, hy⟩ := hfirst
    have hrest : (∀ b ∈ a.partsFrom (byteLen x + byteLen part + 1) parts, a.IsPart b ∧
        a.location.span.start + (byteLen x + byteLen part + 1) ≤ b.location.span.start) ∧
        (a.partsFrom (byteLen x + byteLen part + 1) parts).Pairwise Precedes := by
      cases parts with
      | nil => exact ⟨fun b hb => absurd hb List.not_mem_nil, .nil⟩
      | cons part' parts =>
        have hnext : byteLen (x ++ part ++ [',']) = byteLen x + byteLen part + 1 := by
          rw [byteLen_append, byteLen_append]
          rfl
        rw [← hnext]
        refine ih ?_
        rw [h, List.intercalate_cons_cons]
        simp only [List.append_assoc]
    rw [partsFrom]
    constructor
    · refine List.forall_mem_cons.mpr ⟨⟨⟨x, y, hy, rfl⟩, Nat.le_refl _⟩, fun b hb => ?_⟩
      obtain ⟨hpart, hle⟩ := hrest.1 b hb
      exact ⟨hpart, by omega⟩
    · refine List.pairwise_cons.mpr ⟨fun b hb => ?_, hrest.2⟩
      have hle := (hrest.1 b hb).2
      constructor
      · show a.location.span.start + (byteLen x + byteLen part) ≤ _
        omega
      · show a.location.span.start + byteLen x < _
        omega

/-- So are the pieces of a token. -/
theorem isPart_of_splitComma (a : Located (List Char)) :
    (∀ b ∈ a.splitComma, a.IsPart b) ∧ a.splitComma.Pairwise Precedes := by
  have hjoined : a.value = [] ++ [','].intercalate (a.value.splitOn ',') := by
    rw [List.intercalate_splitOn, List.nil_append]
  have hparts := isPart_of_partsFrom hjoined
  exact ⟨fun b hb => (hparts.1 b hb).1, hparts.2⟩

/-! ## Tokens

A round of the tokenizer skips blanks and cuts out a token. The index is at a boundary of
characters at the start of each round, and so it is behind it, because blanks and quotes are in
ASCII. -/

variable {c : Char} {s : List Char}

/-- A quote that is not closed. -/
theorem quotedToken_open (h : a.value = x ++ '"' :: t) (ht : '"' ∉ t) : a.quotedToken (byteLen x) =
    some (⟨t, a.location.part (byteLen x + 1) (byteLen x + 1 + byteLen t)⟩, byteLen a.value) := by
  have hvalue : a.value = (x ++ ['"']) ++ t := by
    rw [h, List.append_assoc]
    rfl
  have hstart : byteLen (x ++ ['"']) = byteLen x + 1 := byteLen_append x ['"']
  have hlength : byteLen a.value = byteLen x + 1 + byteLen t := by
    rw [hvalue, byteLen_append, hstart]
  have hrest : sliceBytes a.value (byteLen x + 1) (byteLen a.value) = some t := by
    rw [hlength, hvalue, ← hstart]
    exact sliceBytes_append_end _ _
  have hnone : findChar '"' t = none := if_neg ht
  have htoken : a.token (byteLen x + 1) (byteLen a.value) =
      some ⟨t, a.location.part (byteLen x + 1) (byteLen x + 1 + byteLen t)⟩ := by
    rw [token, hrest, hlength]
    rfl
  rw [quotedToken, hrest]
  simp only [Option.bind_eq_bind, Option.bind_some, hnone, Option.map_none, Option.getD_none,
    htoken, Nat.lt_irrefl, if_false]

/-- The bytes of a plain token are those of its characters. -/
theorem agrees_plain : Agrees (fun b => !(isBlankByte b || isQuoteByte b))
    (fun c => !(isBlank c || c == '"')) := by
  intro c b hb
  exact congrArg not (agrees_isBlank.or (agrees_ascii (by decide)) c b hb)

/-- A plain token extends to the next blank or quote. -/
theorem plainToken_eq (h : a.value = x ++ (t ++ y)) (ht : ∀ c ∈ t, isBlank c = false ∧ c ≠ '"')
    (hy : ∀ c ∈ y.head?, isBlank c = true ∨ c = '"') : a.plainToken (byteLen x) =
      some (⟨t, a.location.part (byteLen x) (byteLen x + byteLen t)⟩, byteLen (x ++ t)) := by
  have hscan : scan (fun b => !(isBlankByte b || isQuoteByte b)) (utf8 a.value) (byteLen x) =
      byteLen x + byteLen t := by
    have htake : (t ++ y).takeWhile (fun c => !(isBlank c || c == '"')) = t := by
      rw [List.takeWhile_append_of_pos fun c hc => by simp [ht c hc]]
      cases y with
      | nil => exact List.append_nil t
      | cons d y =>
        have hd := hy d rfl
        have hstop : (!(isBlank d || d == '"')) = false := by
          rcases hd with hd | hd <;> simp [hd]
        rw [List.takeWhile_cons_of_neg (by rw [hstop]; exact Bool.false_ne_true), List.append_nil]
    rw [h, scan_utf8 agrees_plain, htake]
  rw [plainToken, hscan]
  simp only [Option.bind_eq_bind, token_append h, Option.bind_some, byteLen_append]

/-- A round behind blanks, with a token that begins at `c`. -/
theorem tokensFrom_cons {next : ℕ} {w : List Char} {t : Located (List Char)}
    (h : a.value = x ++ (w ++ c :: y)) (hw : IsBlanks w) (hc : isBlank c = false)
    (ht : (if c = '"' then a.quotedToken (byteLen (x ++ w))
      else a.plainToken (byteLen (x ++ w))) = some (t, next)) (fuel : ℕ) :
    a.tokensFrom (fuel + 1) (byteLen x) = (a.tokensFrom fuel next).map (t :: ·) := by
  have hscan : scan isBlankByte (utf8 a.value) (byteLen x) = byteLen (x ++ w) := by
    rw [h, scan_utf8 agrees_isBlank, List.takeWhile_append_of_pos hw,
      List.takeWhile_cons_of_neg (by rw [hc]; exact Bool.false_ne_true), List.append_nil,
      byteLen_append]
  obtain ⟨b, hb, hhead⟩ := exists_head?_utf8 c y
  have hbyte : (utf8 a.value)[byteLen (x ++ w)]? = some b := by
    rw [h, ← List.append_assoc, getElem?_utf8, hhead]
  have hquote : isQuoteByte b = true ↔ c = '"' := by
    have hagrees : Agrees isQuoteByte (· == '"') := agrees_ascii (by decide)
    rw [hagrees c b hb, beq_iff_eq]
  rw [tokensFrom, hscan, hbyte]
  split at ht
  · rename_i hcase
    simp only [hquote, if_pos hcase, ht, Option.bind_eq_bind, Option.bind_some]
    exact Option.map_eq_bind.symm
  · rename_i hcase
    simp only [hquote, if_neg hcase, ht, Option.bind_eq_bind, Option.bind_some]
    exact Option.map_eq_bind.symm

/-- There is nothing behind the last blanks. -/
theorem tokensFrom_blanks (h : a.value = x ++ y) (hy : IsBlanks y) (fuel : ℕ) :
    a.tokensFrom (fuel + 1) (byteLen x) = some [] := by
  have hscan : scan isBlankByte (utf8 a.value) (byteLen x) = (utf8 a.value).length := by
    have htake : y.takeWhile isBlank = y := List.takeWhile_eq_self_iff.mpr hy
    rw [length_utf8, h, scan_utf8 agrees_isBlank, htake, byteLen_append]
  rw [tokensFrom, hscan, List.getElem?_eq_none (Nat.le_refl _)]

/-- A round of the tokenizer from `x` on: a token, and what is consumed. Nothing is left behind a
token that begins at its end. -/
structure Round (a : Located (List Char)) (x : List Char) (t : Located (List Char))
    (x' y' : List Char) : Prop where
  /-- The arguments are what has been consumed and what is left. -/
  value : a.value = x' ++ y'
  /-- Something has been consumed. -/
  progress : byteLen x < byteLen x'
  /-- The token is a part of the arguments. -/
  isPart : a.IsPart t
  /-- The token does not begin before the round. -/
  start_le : a.location.span.start + byteLen x ≤ t.location.span.start
  /-- It does not end behind it. -/
  stop_le : t.location.span.stop ≤ a.location.span.start + byteLen x'
  /-- What is left begins behind the start of the token, if it is not nothing. -/
  start_lt : y' = [] ∨ t.location.span.start < a.location.span.start + byteLen x'

/-- A round that cuts out a part. -/
theorem round_of_part {x' y' u v w : List Char} (hvalue : a.value = x' ++ y')
    (hpart : a.value = u ++ (v ++ w)) (hprogress : byteLen x < byteLen x')
    (hstart : byteLen x ≤ byteLen u) (hstop : byteLen u + byteLen v ≤ byteLen x')
    (hlt : y' = [] ∨ byteLen u < byteLen x') :
    Round a x ⟨v, a.location.part (byteLen u) (byteLen u + byteLen v)⟩ x' y' where
  value := hvalue
  progress := hprogress
  isPart := ⟨u, w, hpart, rfl⟩
  start_le := Nat.add_le_add_left hstart _
  stop_le := Nat.add_le_add_left hstop _
  start_lt := hlt.imp id fun h => Nat.add_lt_add_left h _

/-- A round that finds a quote, which is closed or not. -/
theorem round_of_quote (h : a.value = x ++ (y ++ '"' :: s)) (hy : IsBlanks y) (fuel : ℕ) :
    ∃ t x' y', Round a x t x' y' ∧
      a.tokensFrom (fuel + 1) (byteLen x) = (a.tokensFrom fuel (byteLen x')).map (t :: ·) := by
  obtain ⟨t, v, rfl, ht, hv⟩ := Peg.exists_span (· != '"') s
  have hnot : '"' ∉ t := fun hmem => absurd (ht _ hmem) (by decide)
  have hfront : byteLen (x ++ y ++ ['"']) = byteLen (x ++ y) + 1 := byteLen_append _ _
  have hle : byteLen x ≤ byteLen (x ++ y) := by
    rw [byteLen_append]
    exact Nat.le_add_right _ _
  have hvalue : a.value = (x ++ y ++ ['"']) ++ (t ++ v) := by simp [h]
  cases v with
  | nil =>
    have hopen : a.value = (x ++ y) ++ '"' :: t := by simp [h]
    have hlength : byteLen a.value = byteLen (x ++ y) + 1 + byteLen t := by
      rw [hvalue, byteLen_append, hfront, List.append_nil]
    have hround := tokensFrom_cons h hy (by decide)
      (by rw [if_pos rfl, quotedToken_open hopen hnot]) fuel
    rw [← hfront] at hround
    refine ⟨_, a.value, [], round_of_part (List.append_nil _).symm hvalue ?_ ?_ ?_ (.inl rfl),
      hround⟩ <;> omega
  | cons d v =>
    obtain rfl : d = '"' := by simpa using Peg.stops_cons.mp hv
    have hclosed : a.value = (x ++ y) ++ (quote t ++ v) := by simp [h, quote]
    have hnext : a.value = (x ++ y ++ quote t) ++ v := by rw [hclosed, List.append_assoc (x ++ y)]
    have hlength : byteLen (x ++ y ++ quote t) = byteLen (x ++ y) + (byteLen t + 2) := by
      rw [byteLen_append, byteLen_quote]
    have hround := tokensFrom_cons h hy (by decide)
      (by rw [if_pos rfl, quotedToken_quote hclosed hnot]) fuel
    rw [← hfront] at hround
    refine ⟨_, x ++ y ++ quote t, v, round_of_part hnext hvalue ?_ ?_ ?_ (.inr ?_), hround⟩ <;>
      omega

/-- A round that finds something else. -/
theorem round_of_plain (h : a.value = x ++ (y ++ c :: s)) (hy : IsBlanks y)
    (hc : isBlank c = false) (hquote : c ≠ '"') (fuel : ℕ) :
    ∃ t x' y', Round a x t x' y' ∧
      a.tokensFrom (fuel + 1) (byteLen x) = (a.tokensFrom fuel (byteLen x')).map (t :: ·) := by
  obtain ⟨t, v, htext, ht, hv⟩ := Peg.exists_span (fun d => !(isBlank d || d == '"')) (c :: s)
  have hplain : ∀ d ∈ t, isBlank d = false ∧ d ≠ '"' := by
    intro d hd
    simpa using ht d hd
  have hnext : ∀ d ∈ v.head?, isBlank d = true ∨ d = '"' := by
    intro d hd
    have hstop := hv d hd
    simp only [Bool.not_eq_false', Bool.or_eq_true, beq_iff_eq] at hstop
    exact hstop
  have hpos : 0 < byteLen t := by
    cases t with
    | nil =>
      rw [List.nil_append] at htext
      have hstop := hnext c (by rw [← htext]; rfl)
      rw [hc] at hstop
      exact absurd (hstop.resolve_left Bool.false_ne_true) hquote
    | cons d t =>
      rw [byteLen_cons]
      have hd := d.utf8Size_pos
      omega
  have hvalue : a.value = (x ++ y) ++ (t ++ v) := by rw [← htext, h, List.append_assoc]
  have hrest : a.value = (x ++ y ++ t) ++ v := by rw [hvalue, List.append_assoc (x ++ y)]
  have hlength : byteLen (x ++ y ++ t) = byteLen x + byteLen y + byteLen t := by
    rw [byteLen_append, byteLen_append]
  have hfront : byteLen (x ++ y) = byteLen x + byteLen y := byteLen_append x y
  have hround := tokensFrom_cons h hy hc
    (by rw [if_neg hquote, plainToken_eq hvalue hplain hnext]) fuel
  refine ⟨_, x ++ y ++ t, v, round_of_part hrest hvalue ?_ ?_ ?_ (.inr ?_), hround⟩ <;> omega

/-- The tokenizer is done, or it makes a round. -/
theorem exists_round (h : a.value = x ++ y) (fuel : ℕ) :
    a.tokensFrom (fuel + 1) (byteLen x) = some [] ∨
    ∃ t x' y', Round a x t x' y' ∧
      a.tokensFrom (fuel + 1) (byteLen x) = (a.tokensFrom fuel (byteLen x')).map (t :: ·) := by
  obtain ⟨w, u, rfl, hw, hu⟩ := Peg.exists_span isBlank y
  cases u with
  | nil => exact .inl (tokensFrom_blanks h (by rwa [List.append_nil]) fuel)
  | cons c s =>
    refine .inr ?_
    by_cases hquote : c = '"'
    · subst hquote
      exact round_of_quote h hw fuel
    · exact round_of_plain h hw (Peg.stops_cons.mp hu) hquote fuel

/-- **The tokenizer** comes to its end without a panic. -/
theorem isPart_of_tokensFrom (h : a.value = x ++ y) (hfuel : byteLen y < fuel) :
    ∃ ts, a.tokensFrom fuel (byteLen x) = some ts ∧
      (∀ t ∈ ts, a.IsPart t ∧ a.location.span.start + byteLen x ≤ t.location.span.start) ∧
      ts.Pairwise Precedes := by
  induction fuel generalizing x y with
  | zero => exact absurd hfuel (Nat.not_lt_zero _)
  | succ fuel ih =>
    obtain hend | ⟨t, x', y', hround, heq⟩ := exists_round h fuel
    · exact ⟨[], hend, fun t ht => absurd ht List.not_mem_nil, .nil⟩
    have hlt : byteLen y' < fuel := by
      have hlength : byteLen a.value = byteLen x' + byteLen y' := by
        rw [hround.value, byteLen_append]
      rw [h, byteLen_append] at hlength
      have hprogress := hround.progress
      omega
    obtain ⟨ts, hts, hparts, hincreasing⟩ := ih hround.value hlt
    refine ⟨t :: ts, by rw [heq, hts, Option.map_some], ?_, ?_⟩
    · refine List.forall_mem_cons.mpr ⟨⟨hround.isPart, hround.start_le⟩, fun t' ht' => ?_⟩
      obtain ⟨hpart, hle⟩ := hparts t' ht'
      have hprogress := hround.progress
      exact ⟨hpart, by omega⟩
    · refine List.pairwise_cons.mpr ⟨fun t' ht' => ?_, hincreasing⟩
      have hle := (hparts t' ht').2
      refine ⟨Nat.le_trans hround.stop_le hle, ?_⟩
      obtain rfl | hstart := hround.start_lt
      · obtain ⟨m, rfl⟩ := Nat.exists_eq_succ_of_ne_zero (Nat.ne_of_gt (Nat.zero_lt_of_lt hlt))
        have hnone := tokensFrom_blanks hround.value (by simp [IsBlanks]) m
        obtain rfl := Option.some.inj (hts.symm.trans hnone)
        cases ht'
      · exact Nat.lt_of_lt_of_le hstart hle

/-- **Tokens** are parts of the arguments, one behind the other. -/
theorem isPart_of_tokenize (a : Located (List Char)) : ∃ ts, a.tokenize = some ts ∧
    (∀ t ∈ ts, a.IsPart t) ∧ ts.Pairwise Precedes := by
  obtain ⟨ts, hts, hparts, hincreasing⟩ :=
    isPart_of_tokensFrom (a := a) (x := []) rfl (Nat.lt_succ_self (byteLen a.value))
  exact ⟨ts, hts, fun t ht => (hparts t ht).1, hincreasing⟩

end Located

/-! ## Directives

The span of a keyword or of arguments comes from the grammar, which counts bytes from the start
of the file. -/

/-- Trimming takes something off the end. -/
theorem exists_trimEnd (v : List Char) : ∃ w, v = trimEnd v ++ w := by
  obtain ⟨w, hw⟩ := List.rdropWhile_prefix isWhitespace (l := v)
  exact ⟨w, hw.symm⟩

/-- A directive of the file: its keyword and its arguments, which are in one line. -/
theorem places_of_mem_parse {d : Directive} (h : .directive d ∈ f.parse) :
    f.Places d.keyword ∧ f.Places d.arguments ∧ '\n' ∉ d.arguments.value := by
  obtain ⟨e, he, hd⟩ := List.mem_map.mp h
  have hsplit : ¬ HasSplit f.content := by
    intro hsplit
    rw [parse_of_hasSplit hsplit, List.mem_singleton] at he
    subst he
    cases hd
  obtain ⟨n, z, l, r, e', hcontent, rfl, -, hl, -, hform, rfl⟩ := exists_entryAt hsplit he
  cases hform with
  | blank hb => cases hd
  | comment hb => cases hd
  | unknown hb hc hletter hhash => cases hd
  | @directive b k s v hb hk hs =>
    obtain ⟨w, hw⟩ := exists_trimEnd v
    rw [shift_directiveAt] at hd
    obtain rfl := Entry.directive.inj hd
    have hkeyword : f.content = (z ++ b) ++ (k ++ (s ++ v ++ r)) := by
      rw [hcontent]
      simp only [List.append_assoc]
    have harguments : f.content = (z ++ b ++ k ++ s) ++ (trimEnd v ++ (w ++ r)) := by
      rw [hcontent, ← List.append_assoc (trimEnd v), ← hw]
      simp only [List.append_assoc]
    have hplaces := places_locate harguments
    simp only [byteLen_append] at hplaces
    refine ⟨?_, hplaces, fun hmem => ?_⟩
    · have hplaces := places_locate hkeyword
      rwa [byteLen_append] at hplaces
    · refine hl.not_mem_newline ?_
      have hv : '\n' ∈ v := by
        rw [hw]
        exact List.mem_append_left _ hmem
      simp [hv]
  | @keyword b k hb hk =>
    rw [shift_directiveAt] at hd
    obtain rfl := Entry.directive.inj hd
    have hkeyword : f.content = (z ++ b) ++ (k ++ r) := by
      rw [hcontent]
      simp only [List.append_assoc]
    have harguments : f.content = (z ++ b ++ k) ++ ([] ++ r) := by
      rw [hcontent]
      simp only [List.append_assoc, List.nil_append]
    have hplaces := places_locate harguments
    simp only [byteLen_append] at hplaces
    refine ⟨?_, hplaces, List.not_mem_nil⟩
    have hplaces := places_locate hkeyword
    rwa [byteLen_append] at hplaces

/-- **Spans.** The keyword and the arguments of a directive, the tokens of these and their pieces
between commas are where their spans say, the tokens are one behind the other inside of the
arguments, and the pieces inside of their token. Nothing panics on the way. -/
theorem spans_sound {d : Directive} (h : .directive d ∈ f.parse) :
    f.Places d.keyword ∧ f.Places d.arguments ∧
    ∃ tokens, d.arguments.tokenize = some tokens ∧ InOrder d.arguments.location.span tokens ∧
      ∀ t ∈ tokens, f.Places t ∧ InOrder t.location.span t.splitComma ∧
        ∀ p ∈ t.splitComma, f.Places p := by
  obtain ⟨hkeyword, harguments, hline⟩ := places_of_mem_parse h
  obtain ⟨tokens, htokens, hparts, hincreasing⟩ := d.arguments.isPart_of_tokenize
  refine ⟨hkeyword, harguments, tokens, htokens, harguments.inOrder hparts hincreasing,
    fun t ht => ?_⟩
  have htoken := harguments.part hline (hparts t ht)
  have hline' : '\n' ∉ t.value := fun hmem => hline ((hparts t ht).mem hmem)
  obtain ⟨hpieces, hincreasing⟩ := t.isPart_of_splitComma
  exact ⟨htoken, htoken.inOrder hpieces hincreasing, fun p hp => htoken.part hline' (hpieces p hp)⟩

/-- `Host "é,b" x` -/
def wideHost : SourceFile := SourceFile.new "config" "Host \"é,b\" x".toList

/-- It is parsed to this directive. -/
def wideHostDirective : Directive where
  keyword := ⟨"Host".toList, "config", ⟨0, 4⟩, 1, 1⟩
  arguments := ⟨"\"é,b\" x".toList, "config", ⟨5, 13⟩, 1, 6⟩

/-- Its first token has a character of two bytes and a comma. -/
theorem wideHost_spans : wideHost.Places wideHostDirective.keyword ∧
    wideHost.Places wideHostDirective.arguments ∧
    ∃ tokens, wideHostDirective.arguments.tokenize = some tokens ∧
      InOrder wideHostDirective.arguments.location.span tokens ∧
      ∀ t ∈ tokens, wideHost.Places t ∧ InOrder t.location.span t.splitComma ∧
        ∀ p ∈ t.splitComma, wideHost.Places p :=
  spans_sound (f := wideHost) (d := wideHostDirective) (by decide)

end Dssh
