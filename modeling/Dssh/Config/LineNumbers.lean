import Dssh.Config.Entries

/-!
# Line numbers

The grammar ends a line at `\r\n`, `\n` or a lone `\r`, and the line starts of a source file are
counted from the `\n` among the bytes. The two disagree behind a lone `\r`: the entry of the
next line has the number of the line before.

## The two notions

`compute_line_starts` runs over the bytes of the file once, when it is loaded, and notes the
offset behind each line feed. `line_col` then finds the line of an offset by a binary search.
The parser has its own idea of a line, the rule `newline`, with three alternatives. For files
from current systems, where a carriage return stands in front of a line feed if it stands
anywhere, they agree. The rule's third alternative is for files with lone carriage returns, and
for these files the locations in errors are wrong.

The specification is the grammar's: an entry's number should be one more than the number of
terminators before it (`SourceFile.LineAgrees`). `LinesDiffer` is the weaker thing one would
like to rely on, that entries on different lines can be told apart by their numbers.

## The exact condition

For one entry: there is no lone carriage return in front of it (`lineAgrees_iff`). For all
entries of a file it is not simply that there is none in the file. A file with a line that
splits is parsed as a single entry, at offset 0, and that is on line 1 whatever is in the file.
`lineNumbers_iff` has both cases.

The proof counts in two ways what is in front of an entry. Terminators that are not lone
carriage returns end with a line feed, and every line feed ends one; so the counts agree exactly
if there is no other (`count_eq_length_terminatorEnds_iff`). An entry begins in a line, not
necessarily at its start, because of the indentation in front of a keyword, and `InLineBehind`
keeps what is needed of that.

## Main definitions

* `terminatorsBefore` — the number of terminators before an offset
* `SourceFile.LineAgrees`, `SourceFile.LinesDiffer` — the line numbers that an entry should have
* `HasLoneReturn`, `LoneReturnBefore` — a carriage return on its own

## Main results

* `lineAgrees_iff` — an entry has the number of its line if there is no lone `\r` in front of it
* `lineNumbers_iff` — the files whose entries all do
-/

namespace Dssh

open Config

/-- Where an entry is; for a directive this is where its keyword is. -/
def Entry.location : Entry → Location
  | .empty l => l
  | .comment t => t.location
  | .directive d => d.keyword.location
  | .unknown t => t.location

/-- How many terminators lie wholly before the offset. -/
def terminatorsBefore (text : List Char) (offset : ℕ) : ℕ :=
  (terminatorEnds 0 text).countP fun stop => decide (stop ≤ offset)

/-- The number of the line is one more than that of the terminators before the entry. -/
def SourceFile.LineAgrees (f : SourceFile) (e : Entry) : Prop :=
  e.location.line = 1 + terminatorsBefore f.content e.location.span.start

instance (f : SourceFile) : DecidablePred f.LineAgrees :=
  fun _ => inferInstanceAs (Decidable (_ = _))

/-- Entries with different numbers of terminators before them have different line numbers. -/
def SourceFile.LinesDiffer (f : SourceFile) : Prop :=
  ∀ e ∈ f.parse, ∀ e' ∈ f.parse,
    terminatorsBefore f.content e.location.span.start ≠
      terminatorsBefore f.content e'.location.span.start →
    e.location.line ≠ e'.location.line

/-- A carriage return with no line feed behind it. -/
def HasLoneReturn (text : List Char) : Prop :=
  ∃ y s, text = y ++ '\r' :: s ∧ s.head? ≠ some '\n'

/-- There is one before the offset. -/
def LoneReturnBefore (text : List Char) (offset : ℕ) : Prop :=
  ∃ y s, text = y ++ '\r' :: s ∧ s.head? ≠ some '\n' ∧ byteLen y < offset

/-! ## Counting terminators

Line starts are counted by line feeds, and lines by terminators. The two numbers differ by the
lone carriage returns, if the place at which one counts is not in the middle of a terminator. -/

variable {c : Char} {l r s z : List Char} {n p : ℕ}

/-- No terminator begins in `z` and ends in `s`. -/
def Cut (z s : List Char) : Prop := z.getLast? = some '\r' → s.head? ≠ some '\n'

/-- It depends on the last character only. -/
theorem Cut.tail (h : Cut (c :: z) s) : Cut z s := by
  intro hlast
  cases z with
  | nil => cases hlast
  | cons d z => exact h (by rw [List.getLast?_cons_cons, hlast])

/-- Where a line begins, no terminator is cut. -/
theorem Config.LineStart.cut (h : LineStart z s) : Cut z s := by
  intro hlast
  obtain rfl | ⟨y, t, rfl, ht⟩ := h
  · cases hlast
  · cases ht with
    | crlf => simp at hlast
    | lf => simp at hlast
    | cr hhead => exact hhead

/-- A terminator of one character. -/
theorem terminator_singleton (hc : ¬ inLine c = true) (h : ∀ s', c = '\r' → s ≠ '\n' :: s') :
    Terminator [c] s := by
  by_cases hlf : c = '\n'
  · subst hlf
    exact .lf
  · have hcr : c = '\r' := by
      by_contra hne
      exact hc (inLine_iff.mpr ⟨hlf, hne⟩)
    subst hcr
    refine .cr fun hhead => ?_
    obtain ⟨s', rfl⟩ := List.head?_eq_some_iff.mp hhead
    exact h s' rfl rfl

/-- The characters of terminators are in ASCII. -/
theorem utf8Size_of_not_inLine (hc : ¬ inLine c = true) : c.utf8Size = 1 := by
  have hor : c = '\n' ∨ c = '\r' := by
    by_contra hne
    exact hc (inLine_iff.mpr (not_or.mp hne))
  rcases hor with rfl | rfl <;> rfl

/-- And so are counted as one byte each. -/
theorem byteLen_crlf (z : List Char) : byteLen ('\r' :: '\n' :: z) = 2 + byteLen z := by
  show 1 + (1 + byteLen z) = _
  omega

/-- Where no terminator is cut, the two parts have their own. -/
theorem terminatorEnds_append (h : Cut z s) (n : ℕ) :
    terminatorEnds n (z ++ s) = terminatorEnds n z ++ terminatorEnds (n + byteLen z) s := by
  fun_induction terminatorEnds n z with
  | case1 n => rfl
  | case2 n z ih =>
    show (n + 2) :: terminatorEnds (n + 2) (z ++ s) = _
    rw [ih h.tail.tail, byteLen_crlf, List.cons_append, Nat.add_assoc]
  | case3 n c z hlong hc ih =>
    rw [List.cons_append, terminatorEnds_cons hc, ih h.tail, byteLen_cons, Nat.add_assoc]
  | case4 n c z hlong hc ih =>
    have ht : Terminator [c] (z ++ s) := by
      refine terminator_singleton hc fun s' hcr hhead => ?_
      cases z with
      | nil =>
        rw [List.nil_append] at hhead
        exact h (by rw [hcr]; rfl) (by rw [hhead]; rfl)
      | cons d z =>
        obtain ⟨rfl, rfl⟩ := List.cons.inj hhead
        exact hlong z hcr rfl
    have hone := utf8Size_of_not_inLine hc
    rw [List.cons_append, ← List.singleton_append, ht.terminatorEnds, byteLen_cons, byteLen_cons,
      hone, byteLen_nil, ih h.tail, List.cons_append, Nat.add_assoc]

/-- Terminators end in the text. -/
theorem mem_terminatorEnds {stop : ℕ} (h : stop ∈ terminatorEnds n z) :
    n < stop ∧ stop ≤ n + byteLen z := by
  fun_induction terminatorEnds n z with
  | case1 n => cases h
  | case2 n z ih =>
    rw [byteLen_crlf]
    rcases List.mem_cons.mp h with rfl | h
    · omega
    · have hmem := ih h
      omega
  | case3 n c z hlong hc ih =>
    have hmem := ih h
    rw [byteLen_cons]
    omega
  | case4 n c z hlong hc ih =>
    have hpos := c.utf8Size_pos
    rw [byteLen_cons]
    rcases List.mem_cons.mp h with rfl | h
    · omega
    · have hmem := ih h
      omega

/-- Behind a terminator, a line begins. -/
theorem mem_terminatorEnds_of_last (h : z.getLast? = some c) (hc : inLine c = false) :
    n + byteLen z ∈ terminatorEnds n z := by
  fun_induction terminatorEnds n z with
  | case1 n => cases h
  | case2 n z ih =>
    rw [byteLen_crlf, ← Nat.add_assoc]
    cases z with
    | nil => exact List.mem_cons_self
    | cons d z => exact List.mem_cons_of_mem _ (ih (by simpa using h))
  | case3 n d z hlong hd ih =>
    cases z with
    | nil =>
      obtain rfl : d = c := Option.some.inj h
      rw [hd] at hc
      cases hc
    | cons d' z =>
      rw [byteLen_cons, ← Nat.add_assoc]
      exact ih (by simpa using h)
  | case4 n d z hlong hd ih =>
    rw [byteLen_cons, utf8Size_of_not_inLine hd, ← Nat.add_assoc]
    cases z with
    | nil => exact List.mem_cons_self
    | cons d' z => exact List.mem_cons_of_mem _ (ih (by simpa using h))

/-- There is none in nothing. -/
theorem not_hasLoneReturn_nil : ¬ HasLoneReturn [] := by
  rintro ⟨y, s, h, -⟩
  exact absurd h.symm (by simp)

/-- It is the first character, or behind it. -/
theorem hasLoneReturn_cons :
    HasLoneReturn (c :: z) ↔ c = '\r' ∧ z.head? ≠ some '\n' ∨ HasLoneReturn z := by
  constructor
  · rintro ⟨y, s, h, hhead⟩
    cases y with
    | nil =>
      obtain ⟨rfl, rfl⟩ := List.cons.inj h
      exact .inl ⟨rfl, hhead⟩
    | cons d y =>
      obtain ⟨rfl, rfl⟩ := List.cons.inj h
      exact .inr ⟨y, s, rfl, hhead⟩
  · rintro (⟨rfl, hhead⟩ | ⟨y, s, rfl, hhead⟩)
    · exact ⟨[], z, rfl, hhead⟩
    · exact ⟨c :: y, s, rfl, hhead⟩

/-- Every line feed ends a terminator. -/
theorem count_le_length_terminatorEnds (z : List Char) (n : ℕ) :
    z.count '\n' ≤ (terminatorEnds n z).length := by
  fun_induction terminatorEnds n z with
  | case1 n => exact Nat.le_refl 0
  | case2 n z ih =>
    rw [List.count_cons_of_ne (by decide), List.count_cons_self, List.length_cons]
    exact Nat.succ_le_succ ih
  | case3 n c z hlong hc ih =>
    rw [List.count_cons_of_ne (inLine_iff.mp hc).1]
    exact ih
  | case4 n c z hlong hc ih =>
    rw [List.length_cons, List.count_cons]
    split <;> omega

/-- Terminators other than a lone carriage return end with a line feed. -/
theorem count_eq_length_terminatorEnds_iff (z : List Char) (n : ℕ) :
    z.count '\n' = (terminatorEnds n z).length ↔ ¬ HasLoneReturn z := by
  fun_induction terminatorEnds n z with
  | case1 n => exact iff_of_true rfl not_hasLoneReturn_nil
  | case2 n z ih =>
    rw [List.count_cons_of_ne (by decide), List.count_cons_self, List.length_cons,
      Nat.add_right_cancel_iff, ih, hasLoneReturn_cons, hasLoneReturn_cons]
    simp
  | case3 n c z hlong hc ih =>
    obtain ⟨hlf, hcr⟩ := inLine_iff.mp hc
    rw [List.count_cons_of_ne hlf, ih, hasLoneReturn_cons]
    simp [hcr]
  | case4 n c z hlong hc ih =>
    rw [List.length_cons, hasLoneReturn_cons]
    cases terminator_singleton hc hlong with
    | lf =>
      rw [List.count_cons_self, Nat.add_right_cancel_iff, ih]
      simp
    | cr hhead =>
      have hle := count_le_length_terminatorEnds z (n + 1)
      rw [List.count_cons_of_ne (by decide)]
      refine iff_of_false (by omega) fun hnot => hnot (.inl ⟨rfl, hhead⟩)

/-! ## The line of an entry

An entry begins in its line, behind the indentation at most. So what is in front of the entry is
what is in front of the line, as far as terminators are concerned. -/

/-- The span that an entry is located by. -/
def RawEntry.span : RawEntry → Span
  | .empty s => s
  | .comment t => t.span
  | .directive d => d.keyword.span
  | .unknown t => t.span

/-- The entry begins in the line behind `z`, and its line number is that of the line feeds. -/
def SourceFile.InLineBehind (f : SourceFile) (z : List Char) (e : Entry) : Prop :=
  ∃ l r p, f.content = z ++ (l ++ r) ∧ LineStart z (l ++ r) ∧ IsLine l ∧ LineEnd r ∧
    p ≤ byteLen l ∧ e.location.span.start = byteLen z + p ∧ e.location.line = z.count '\n' + 1

variable {f : SourceFile} {e : Entry}

/-- An entry is located where it is. -/
@[simp] theorem location_locateEntry (f : SourceFile) (e : RawEntry) :
    (f.locateEntry e).location = f.location e.span := by
  cases e <;> rfl

/-- Moving an entry moves its place. -/
theorem span_shift (n : ℕ) (e : RawEntry) : (e.shift n).span = e.span.shift n := by
  cases e <;> rfl

/-- An entry begins in its line. -/
theorem Config.LineForm.start_le {e : RawEntry} (h : LineForm l e) : e.span.start ≤ byteLen l := by
  have hstart := h.startsWithin
  cases e with
  | empty s => exact hstart
  | comment t => exact hstart
  | directive d => exact hstart.1
  | unknown t => exact hstart

/-- So does the entry of a line in the file. -/
theorem inLineBehind_of_entryAt {e : RawEntry} (h : EntryAt f.content n e) :
    ∃ z, byteLen z = n ∧ f.InLineBehind z (f.locateEntry e) := by
  obtain ⟨z, l, r, e', hcontent, rfl, hstart, hl, hr, hform, rfl⟩ := h
  have hcol := f.lineCol_append hcontent hl.not_mem_newline hform.start_le
  refine ⟨z, rfl, l, r, e'.span.start, hcontent, hstart, hl, hr, hform.start_le, ?_, ?_⟩
  · rw [location_locateEntry, span_shift]
    rfl
  · rw [location_locateEntry, span_shift]
    exact congrArg Prod.fst hcol

/-- Every entry begins in some line. -/
theorem exists_inLineBehind (he : e ∈ f.parse) : ∃ z, f.InLineBehind z e := by
  obtain ⟨e, hmem, rfl⟩ := List.mem_map.mp he
  by_cases hsplit : HasSplit f.content
  · rw [parse_of_hasSplit hsplit, List.mem_singleton] at hmem
    subst hmem
    obtain ⟨l, r, hcontent, hl, hr⟩ := exists_line f.content
    have hcol := f.lineCol_append (z := []) hcontent hl.not_mem_newline (Nat.zero_le _)
    exact ⟨[], l, r, 0, hcontent, .inl rfl, hl, hr.lineEnd, Nat.zero_le _, rfl,
      congrArg Prod.fst hcol⟩
  · obtain ⟨n, hentry⟩ := exists_entryAt hsplit hmem
    obtain ⟨z, -, h⟩ := inLineBehind_of_entryAt hentry
    exact ⟨z, h⟩

/-- Every line has an entry, if none splits. -/
theorem exists_mem_inLineBehind (hsplit : ¬ HasSplit f.content) (hcontent : f.content = z ++ s)
    (hstart : LineStart z s) : ∃ e ∈ f.parse, f.InLineBehind z e := by
  have hmem : byteLen z ∈ 0 :: terminatorEnds 0 f.content := by
    obtain rfl | ⟨y, t, rfl, ht⟩ := hstart
    · exact List.mem_cons_self
    · refine List.mem_cons_of_mem _ ?_
      have hcut := LineStart.cut (LineStart.terminator ht y)
      rw [hcontent, terminatorEnds_append hcut, List.mem_append]
      have hlast : ∃ c, (y ++ t).getLast? = some c ∧ inLine c = false := by
        cases ht <;> exact ⟨_, by simp; rfl, by decide⟩
      obtain ⟨c, hlast, hc⟩ := hlast
      have hin := mem_terminatorEnds_of_last (n := 0) hlast hc
      rw [Nat.zero_add] at hin
      exact .inl hin
  obtain ⟨e, he, hentry⟩ := exists_mem_parse hsplit hmem
  obtain ⟨z', hlength, h⟩ := inLineBehind_of_entryAt hentry
  have hz : z' = z := by
    obtain ⟨l, r, p, hcontent', -⟩ := h
    exact (append_inj_of_byteLen (hcontent'.symm.trans hcontent) hlength).1
  subst hz
  exact ⟨_, List.mem_map_of_mem he, h⟩

/-- The terminators before it are those in front of its line. -/
theorem SourceFile.InLineBehind.terminatorsBefore (h : f.InLineBehind z e) :
    terminatorsBefore f.content e.location.span.start = (terminatorEnds 0 z).length := by
  obtain ⟨l, r, p, hcontent, hstart, hl, -, hp, hspan, -⟩ := h
  rw [Dssh.terminatorsBefore, hcontent, hspan, terminatorEnds_append (LineStart.cut hstart),
    terminatorEnds_line hl, List.countP_append]
  have hfront : (terminatorEnds 0 z).countP (fun stop => decide (stop ≤ byteLen z + p)) =
      (terminatorEnds 0 z).length := by
    refine List.countP_eq_length.mpr fun stop hmem => decide_eq_true ?_
    have hle := (mem_terminatorEnds hmem).2
    omega
  have hbehind : (terminatorEnds (0 + byteLen z + byteLen l) r).countP
      (fun stop => decide (stop ≤ byteLen z + p)) = 0 := by
    refine List.countP_eq_zero.mpr fun stop hmem => ?_
    have hlt := (mem_terminatorEnds hmem).1
    simp only [decide_eq_true_eq]
    omega
  rw [hfront, hbehind, Nat.add_zero]

/-- What is in no line is behind the line. -/
theorem Config.IsLine.byteLen_le {y : List Char} (hl : IsLine l) (hc : inLine c = false)
    (h : l ++ r = y ++ c :: s) : byteLen l ≤ byteLen y := by
  obtain ⟨x, rfl, -⟩ | ⟨x, rfl, hx⟩ := List.append_eq_append_iff.mp h
  · rw [byteLen_append]
    exact Nat.le_add_right _ _
  · cases x with
    | nil => rw [List.append_nil]
    | cons d x =>
      obtain ⟨rfl, -⟩ := List.cons.inj hx
      rw [hl c (by simp)] at hc
      cases hc

/-- So are the lone carriage returns. -/
theorem SourceFile.InLineBehind.loneReturnBefore_iff (h : f.InLineBehind z e) :
    LoneReturnBefore f.content e.location.span.start ↔ HasLoneReturn z := by
  obtain ⟨l, r, p, hcontent, hstart, hl, -, hp, hspan, -⟩ := h
  rw [hcontent, hspan]
  constructor
  · rintro ⟨y, s, htext, hhead, hlt⟩
    obtain ⟨x, rfl, hx⟩ | ⟨x, rfl, hx⟩ := List.append_eq_append_iff.mp htext
    · have hle := hl.byteLen_le (by decide) hx
      rw [byteLen_append] at hlt
      omega
    · cases x with
      | nil =>
        have hle := hl.byteLen_le (y := []) (by decide) hx.symm
        rw [List.append_nil, byteLen_nil] at *
        omega
      | cons d x =>
        obtain ⟨rfl, rfl⟩ := List.cons.inj hx
        refine ⟨y, x, rfl, fun hlast => hhead ?_⟩
        obtain ⟨x, rfl⟩ := List.head?_eq_some_iff.mp hlast
        exact rfl
  · rintro ⟨y, s, rfl, hhead⟩
    refine ⟨y, s ++ (l ++ r), by simp, ?_, ?_⟩
    · cases s with
      | nil => exact LineStart.cut hstart (by simp)
      | cons d s => exact hhead
    · rw [byteLen_append, byteLen_cons]
      have hpos := '\r'.utf8Size_pos
      omega

/-- **One entry.** It has the number of its line exactly if no lone carriage return is in front of
it. -/
theorem lineAgrees_iff (he : e ∈ f.parse) :
    f.LineAgrees e ↔ ¬ LoneReturnBefore f.content e.location.span.start := by
  obtain ⟨z, h⟩ := exists_inLineBehind he
  rw [h.loneReturnBefore_iff, ← count_eq_length_terminatorEnds_iff z 0, SourceFile.LineAgrees,
    h.terminatorsBefore]
  obtain ⟨l, r, p, -, -, -, -, -, -, hline⟩ := h
  rw [hline, Nat.add_comm, Nat.add_left_cancel_iff]

/-! ## Files with a lone carriage return

Both directions for a whole file. A lone carriage return has a line in front of it and one
behind, each with an entry, and the two entries have the same number. -/

/-- What is in front of a lone carriage return is some lines and the beginning of one. -/
theorem exists_lineStart (y : List Char) (hs : s.head? ≠ some '\n') :
    ∃ z l, y = z ++ l ∧ IsLine l ∧ LineStart z (l ++ s) := by
  obtain ⟨l, z, hy, hl, hz⟩ := Peg.exists_span inLine y.reverse
  refine ⟨z.reverse, l.reverse, ?_, fun c hc => hl c (List.mem_reverse.mp hc), ?_⟩
  · rw [← List.reverse_append, ← hy, List.reverse_reverse]
  · cases z with
    | nil => exact .inl rfl
    | cons c z =>
      refine .inr ⟨z.reverse, [c], List.reverse_cons, terminator_singleton ?_ ?_⟩
      · rw [Peg.stops_cons.mp hz]
        exact Bool.false_ne_true
      · rintro s' - hhead
        cases hrev : l.reverse with
        | nil =>
          rw [hrev, List.nil_append] at hhead
          exact hs (by rw [hhead]; rfl)
        | cons d l' =>
          rw [hrev] at hhead
          have hd := hl d (List.mem_reverse.mp (hrev ▸ List.mem_cons_self))
          rw [(List.cons.inj hhead).1] at hd
          exact absurd hd (by decide)

/-- Around a lone carriage return there are two entries on different lines with one number. -/
theorem exists_same_line (hsplit : ¬ HasSplit f.content) (h : HasLoneReturn f.content) :
    ∃ e ∈ f.parse, ∃ e' ∈ f.parse, ¬ f.LineAgrees e' ∧
      terminatorsBefore f.content e.location.span.start ≠
        terminatorsBefore f.content e'.location.span.start ∧
      e.location.line = e'.location.line := by
  obtain ⟨y, s, hcontent, hhead⟩ := h
  obtain ⟨z, l, rfl, hl, hstart⟩ := exists_lineStart (s := '\r' :: s) y (by simp)
  rw [List.append_assoc] at hcontent
  obtain ⟨e, he, hin⟩ := exists_mem_inLineBehind hsplit hcontent hstart
  have hcontent' : f.content = (z ++ l ++ ['\r']) ++ s := by
    rw [hcontent]
    simp only [List.append_assoc, List.singleton_append]
  obtain ⟨e', he', hin'⟩ :=
    exists_mem_inLineBehind hsplit hcontent' (.terminator (.cr hhead) (z ++ l))
  refine ⟨e, he, e', he', ?_, ?_, ?_⟩
  · rw [lineAgrees_iff he', hin'.loneReturnBefore_iff, not_not]
    exact ⟨z ++ l, [], rfl, by simp⟩
  · have hcut : Cut z (l ++ ['\r']) := by
      intro hlast
      have hcut := LineStart.cut hstart hlast
      cases l with
      | nil => simp
      | cons d l => exact hcut
    rw [hin.terminatorsBefore, hin'.terminatorsBefore, List.append_assoc,
      terminatorEnds_append hcut, terminatorEnds_line hl, List.length_append]
    exact Nat.ne_of_lt (Nat.lt_succ_self _)
  · obtain ⟨-, -, -, -, -, -, -, -, -, hline⟩ := hin
    obtain ⟨-, -, -, -, -, -, -, -, -, hline'⟩ := hin'
    have hcount : l.count '\n' = 0 := List.count_eq_zero_of_not_mem hl.not_mem_newline
    rw [hline, hline', List.count_append, List.count_append, hcount]
    rfl

/-- Without any of them all entries do, and so does the only entry of a file with a line that
splits. -/
theorem lineAgrees_of_not (h : ¬ HasLoneReturn f.content ∨ HasSplit f.content) (he : e ∈ f.parse) :
    f.LineAgrees e := by
  rw [lineAgrees_iff he]
  rintro ⟨y, s, hcontent, hhead, hlt⟩
  obtain hlone | hsplit := h
  · exact hlone ⟨y, s, hcontent, hhead⟩
  · obtain ⟨e, hmem, rfl⟩ := List.mem_map.mp he
    rw [parse_of_hasSplit hsplit, List.mem_singleton] at hmem
    subst hmem
    exact absurd hlt (Nat.not_lt_zero _)

/-- **Exactly when.** An entry has the number of its line exactly if there is no lone carriage
return in front of it. All entries of a file do, and those on different lines have different
numbers, exactly if there is none in the file, or the file is a single entry because of a line that
splits. -/
theorem lineNumbers_iff (f : SourceFile) :
    (∀ e ∈ f.parse, f.LineAgrees e ↔ ¬ LoneReturnBefore f.content e.location.span.start) ∧
    ((∀ e ∈ f.parse, f.LineAgrees e) ↔ ¬ HasLoneReturn f.content ∨ HasSplit f.content) ∧
    (f.LinesDiffer ↔ ¬ HasLoneReturn f.content ∨ HasSplit f.content) := by
  refine ⟨fun e he => lineAgrees_iff he, ⟨fun h => ?_, fun h e he => lineAgrees_of_not h he⟩,
    fun h => ?_, fun h e he e' he' hne => ?_⟩
  · by_contra hnot
    obtain ⟨hlone, hsplit⟩ := not_or.mp hnot
    obtain ⟨-, -, e', he', hdisagrees, -⟩ := exists_same_line hsplit (not_not.mp hlone)
    exact hdisagrees (h e' he')
  · by_contra hnot
    obtain ⟨hlone, hsplit⟩ := not_or.mp hnot
    obtain ⟨e, he, e', he', -, hne, hline⟩ := exists_same_line hsplit (not_not.mp hlone)
    exact h e he e' he' hne hline
  · rw [lineAgrees_of_not h he, lineAgrees_of_not h he', Ne, Nat.add_left_cancel_iff]
    exact hne

/-- `Port 22` is in the second line, and its number is 1. -/
theorem loneReturn_disagrees :
    (SourceFile.new "config" "Host a\rPort 22".toList).parse.map (fun e => e.location.line) =
        [1, 1] ∧
      ¬ ∀ e ∈ (SourceFile.new "config" "Host a\rPort 22".toList).parse,
        (SourceFile.new "config" "Host a\rPort 22".toList).LineAgrees e := by
  constructor <;> decide

end Dssh
