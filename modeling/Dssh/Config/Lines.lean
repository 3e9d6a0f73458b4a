import Dssh.Config.Parser

/-!
# Configuration files line by line

The text of a file is its lines, joined by line terminators. If every line is of one of the
forms that are read to their end, the file has one entry for each, at the place where its line
begins. A single line that splits is enough for the whole text not to match, and then it becomes
one entry.

## Files that are written

Here the text is built up: from a list of lines and a choice of the terminator, `\n` or `\r\n`,
the same one throughout. This is the direction for files that somebody writes, and the
statements are about what becomes of the lines its author had in mind. For a text that is given,
with terminators of all kinds in it, the lines have to be found first; that is another module.

A `WholeLine` is a line together with its entry and the proof that it is read to its end. Lists
of such lines are what the induction is on, and `placed` is their entries with the offsets that
the lines have in the text.

## Main definitions

* `Newline`, `Newline.join` — the terminators, and lines joined by them
* `WholeLine`, `placed` — lines that are read to their end, and their entries in the text

## Main results

* `parse_lines` — the entries of a file of lines that do not split
* `parse_of_splits` — the one entry of a file with a line that does
-/

namespace Dssh

open Peg

theorem intercalate_cons {α : Type} (sep l : List α) (ls : List (List α)) :
    sep.intercalate (l :: ls) = l ++ ls.flatMap (sep ++ ·) := by
  induction ls generalizing l with
  | nil => rw [List.intercalate_singleton, List.flatMap_nil, List.append_nil]
  | cons l' ls ih => rw [List.intercalate_cons_cons, ih, List.flatMap_cons, List.append_assoc,
      List.append_assoc]

/-! ## Lines and texts

A text is written from lines, with the same terminator between any two. The place of a line in
the text is the number of bytes of the lines in front of it, each with its terminator. -/

/-- What the lines of a text are joined by. -/
inductive Newline where
  /-- The line feed. -/
  | lf
  /-- The carriage return and the line feed. -/
  | crlf
  deriving DecidableEq, Repr

/-- Its characters. -/
def Newline.text : Newline → List Char
  | .lf => ['\n']
  | .crlf => ['\r', '\n']

/-- The text of some lines. -/
def Newline.join (nl : Newline) (ls : List (List Char)) : List Char := nl.text.intercalate ls

/-- What is in front of the line with index `i`. -/
def Newline.front (nl : Newline) (ls : List (List Char)) (i : ℕ) : List Char :=
  (ls.take i).flatMap (· ++ nl.text)

/-- Where the line with index `i` begins. -/
def Newline.offset (nl : Newline) (ls : List (List Char)) (i : ℕ) : ℕ := byteLen (nl.front ls i)

section

variable (nl : Newline) (l : List Char) (ls : List (List Char))

/-- A first line, and each of the others behind a terminator. -/
theorem Newline.join_cons : nl.join (l :: ls) = l ++ ls.flatMap (nl.text ++ ·) :=
  intercalate_cons nl.text l ls

variable {ls} in
/-- A first line, a terminator, and the text of the others. -/
theorem Newline.join_cons_of_ne_nil (h : ls ≠ []) :
    nl.join (l :: ls) = l ++ (nl.text ++ nl.join ls) := by
  rw [join, List.intercalate_cons_of_ne_nil h, List.append_assoc, join]

/-- One line more is in front. -/
theorem Newline.front_cons (i : ℕ) :
    nl.front (l :: ls) (i + 1) = l ++ nl.text ++ nl.front ls i := by
  rw [front, List.take_succ_cons, List.flatMap_cons, front]

/-- So the offset is larger by it. -/
theorem Newline.offset_cons (i : ℕ) :
    nl.offset (l :: ls) (i + 1) = byteLen l + byteLen nl.text + nl.offset ls i := by
  rw [offset, front_cons, byteLen_append, byteLen_append, offset]

variable {l ls} in
/-- A line in its file. -/
theorem Newline.join_eq_front {i : ℕ} (h : ls[i]? = some l) :
    ∃ x, nl.join ls = nl.front ls i ++ (l ++ x) := by
  induction ls generalizing i with
  | nil => cases h
  | cons l' ls ih =>
    cases i with
    | zero =>
      obtain rfl := Option.some.inj h
      exact ⟨_, join_cons nl l' ls⟩
    | succ i =>
      rw [List.getElem?_cons_succ] at h
      obtain ⟨x, hx⟩ := ih h
      have hne : ls ≠ [] := List.ne_nil_of_mem (List.mem_of_getElem? h)
      refine ⟨x, ?_⟩
      rw [join_cons_of_ne_nil nl l' hne, hx, front_cons]
      simp only [List.append_assoc]

end

namespace Config

/-- A line that is read to its end, and its entry. -/
structure WholeLine where
  /-- The line. -/
  text : List Char
  /-- What it is read as. -/
  entry : RawEntry
  /-- There is no terminator in it. -/
  isLine : IsLine text
  /-- It is of one of the forms that are read to their end. -/
  form : LineForm text entry

/-- The entries of lines that are joined by `nl`, the first of which begins at `n`. -/
def placed (nl : Newline) : ℕ → List WholeLine → List RawEntry
  | _, [] => []
  | n, w :: ws => w.entry.shift n :: placed nl (n + byteLen w.text + byteLen nl.text) ws

variable {n : ℕ} {l r : List Char} {ls : List (List Char)}

/-- Each entry is where its line is. -/
theorem getElem?_placed (nl : Newline) (n : ℕ) (ws : List WholeLine) (i : ℕ) :
    (placed nl n ws)[i]? =
      ws[i]?.map fun w => w.entry.shift (n + nl.offset (ws.map WholeLine.text) i) := by
  induction ws generalizing n i with
  | nil => rfl
  | cons w ws ih =>
    cases i with
    | zero => rfl
    | succ i =>
      rw [placed, List.getElem?_cons_succ, ih, List.getElem?_cons_succ, List.map_cons,
        Newline.offset_cons]
      simp only [Nat.add_assoc]

/-- There are as many of them as lines. -/
@[simp] theorem length_placed (nl : Newline) (n : ℕ) (ws : List WholeLine) :
    (placed nl n ws).length = ws.length := by
  induction ws generalizing n with
  | nil => rfl
  | cons w ws ih => rw [placed, List.length_cons, ih, List.length_cons]

/-! ## Terminators

What is put between two lines is a terminator of the grammar, the longest one that can be read
there. -/

/-- The terminators are terminators of the grammar. -/
theorem reads_newline (nl : Newline) (n : ℕ) (r : List Char) : newline.Reads n nl.text () r := by
  cases nl with
  | lf => exact (fails_lit_cons (by simp [Newline.text]) n).orElse (reads_lit n ['\n'] r).orElse
  | crlf => exact (reads_lit n ['\r', '\n'] r).orElse

/-- A line ends in front of a terminator … -/
theorem lineEnd_newline (nl : Newline) (r : List Char) : LineEnd (nl.text ++ r) := by
  cases nl with
  | lf => exact stops_cons.mpr (by decide)
  | crlf => exact stops_cons.mpr (by decide)

/-- … and so in front of the lines behind it. -/
theorem lineEnd_lines (nl : Newline) (ls : List (List Char)) :
    LineEnd (ls.flatMap (nl.text ++ ·)) := by
  cases ls with
  | nil => exact stops_nil inLine
  | cons l ls =>
    rw [List.flatMap_cons, List.append_assoc]
    exact lineEnd_newline nl _

/-- A line with its terminator is not empty. -/
theorem progresses_nextLine : nextLine.Progresses := by
  refine progresses_of_reads fun {n x e r} h => ?_
  obtain ⟨y, z, u, rfl, hy, -⟩ := reads_bind_iff.mp h
  rcases reads_orElse_iff.mp hy with hy | ⟨-, hy⟩
  · rw [reads_lit_iff.mp hy]
    exact List.cons_ne_nil _ _
  rcases reads_orElse_iff.mp hy with hy | ⟨-, hy⟩
  · rw [reads_lit_iff.mp hy]
    exact List.cons_ne_nil _ _
  · rw [reads_lit_iff.mp hy]
    exact List.cons_ne_nil _ _

/-! ## Lines that are read to their end

By induction on the lines: the first one is read to its end, whatever line follows, and its entry
is moved by what stands in front of it. -/

/-- **The lines behind the first one.** They are read one by one. -/
theorem reads_nextLines (nl : Newline) (ws : List WholeLine) (n : ℕ) :
    (many nextLine).Reads n ((ws.map WholeLine.text).flatMap (nl.text ++ ·))
      (placed nl (n + byteLen nl.text) ws) [] := by
  induction ws generalizing n with
  | nil => exact Fails.many_nil (fails_newline (by simp) n).bind
  | cons w ws ih =>
    have hend : LineEnd ((ws.map WholeLine.text).flatMap (nl.text ++ ·) ++ []) := by
      rw [List.append_nil]
      exact lineEnd_lines nl _
    have hline := reads_line w.form w.isLine hend (n + byteLen nl.text)
    have hnext := (reads_newline nl n _).bind (f := fun _ => line) hline
    rw [List.map_cons, List.flatMap_cons]
    refine Reads.many_cons progresses_nextLine hnext ?_
    rw [byteLen_append, ← Nat.add_assoc]
    exact ih _

/-- The entries of a file are those of its lines. -/
theorem parse_lines (nl : Newline) (w : WholeLine) (ws : List WholeLine) :
    parse (nl.join ((w :: ws).map WholeLine.text)) = placed nl 0 (w :: ws) := by
  have hline := reads_line w.form w.isLine (lineEnd_lines nl (ws.map WholeLine.text)) 0
  have hend : (optional newline).Reads (0 + byteLen w.text +
      byteLen ((ws.map WholeLine.text).flatMap (nl.text ++ ·))) [] none [] :=
    Fails.orElse (fails_newline (by simp) _).bind (reads_pure _ _ _)
  have hconfig : config.Reads 0 (w.text ++ (ws.map WholeLine.text).flatMap (nl.text ++ ·))
      (placed nl 0 (w :: ws)) [] := by
    rw [← List.append_nil ((ws.map WholeLine.text).flatMap _)] at hline
    exact hline.bind ((reads_nextLines nl ws _).bind_nil (hend.bind_nil (reads_pure _ _ _)))
  rw [List.map_cons, Newline.join_cons, parse, parse_eq_some_iff.mpr hconfig]
  rfl

/-- A file of one line. -/
theorem parse_wholeLine (w : WholeLine) : parse w.text = [w.entry.shift 0] := by
  have h := parse_lines .lf w []
  rwa [List.map_cons, List.map_nil, Newline.join, List.intercalate_singleton] at h

/-- Lines that do not split are read to their ends. -/
theorem exists_wholeLines (hl : ∀ l ∈ ls, IsLine l) (h : ∀ l ∈ ls, ¬ Splits l) :
    ∃ ws : List WholeLine, ws.map WholeLine.text = ls := by
  induction ls with
  | nil => exact ⟨[], rfl⟩
  | cons l ls ih =>
    obtain ⟨hline, hl⟩ := List.forall_mem_cons.mp hl
    obtain ⟨hnot, h⟩ := List.forall_mem_cons.mp h
    obtain ⟨ws, hws⟩ := ih hl h
    obtain ⟨e, hform⟩ := (lineForm_or_splits l).resolve_right hnot
    exact ⟨⟨l, e, hline, hform⟩ :: ws, by rw [List.map_cons, hws]⟩

/-! ## A line that splits

The first line that splits ends the repetition, and there is something behind it. -/

/-- The lines are read up to a character of the first one that splits. -/
theorem reads_lines_of_splits (nl : Newline) (hl : ∀ l ∈ ls, IsLine l) (h : ∃ l ∈ ls, Splits l)
    (n : ℕ) : ∃ x y c s e es, nl.join ls = x ++ (y ++ c :: s) ∧ inLine c = true ∧
      line.Reads n x e (y ++ c :: s) ∧ (many nextLine).Reads (n + byteLen x) y es (c :: s) := by
  induction ls generalizing n with
  | nil =>
    obtain ⟨l, hmem, -⟩ := h
    cases hmem
  | cons l ls ih =>
    obtain ⟨hline, hl⟩ := List.forall_mem_cons.mp hl
    by_cases hsplits : Splits l
    · obtain ⟨x, c, s, e, rfl, hc, hreads⟩ :=
        reads_line_of_splits hsplits hline n (ls.flatMap (nl.text ++ ·))
      refine ⟨x, [], c, s ++ ls.flatMap (nl.text ++ ·), e, [], ?_, hc, hreads, ?_⟩
      · rw [Newline.join_cons, List.append_assoc]
        rfl
      · exact Fails.many_nil (fails_newline (by simpa using hc) _).bind
    · obtain ⟨l', hmem, hsplits'⟩ := h
      have hmem' : l' ∈ ls := List.mem_of_ne_of_mem (by rintro rfl; exact hsplits hsplits') hmem
      have hne : ls ≠ [] := List.ne_nil_of_mem hmem'
      obtain ⟨x, y, c, s, e, es, hjoin, hc, hx, hy⟩ :=
        ih hl ⟨l', hmem', hsplits'⟩ (n + byteLen l + byteLen nl.text)
      obtain ⟨e', hform⟩ := (lineForm_or_splits l).resolve_right hsplits
      have hnext := (reads_newline nl (n + byteLen l) _).bind (f := fun _ => line) hx
      refine ⟨l, nl.text ++ x ++ y, c, s, e'.shift n, e :: es, ?_, hc, ?_, ?_⟩
      · rw [Newline.join_cons_of_ne_nil nl l hne, hjoin]
        simp only [List.append_assoc]
      · rw [List.append_assoc, List.append_assoc]
        exact reads_line hform hline (lineEnd_newline nl _) n
      · refine Reads.many_cons progresses_nextLine hnext ?_
        rwa [byteLen_append, ← Nat.add_assoc]

/-- A text with a line that splits becomes one entry. -/
theorem parse_of_splits (nl : Newline) (hl : ∀ l ∈ ls, IsLine l) (h : ∃ l ∈ ls, Splits l) :
    parse (nl.join ls) = [.unknown ⟨nl.join ls, 0, byteLen (nl.join ls)⟩] := by
  obtain ⟨x, y, c, s, e, es, hjoin, hc, hx, hy⟩ := reads_lines_of_splits nl hl h 0
  have hend : (optional newline).Reads (0 + byteLen x + byteLen y) [] none (c :: s) :=
    Fails.orElse (fails_newline (by simpa using hc) _).bind (reads_pure _ _ _)
  have hconfig : config.Reads 0 (x ++ y) (e :: es) (c :: s) :=
    hx.bind (hy.bind_nil (hend.bind_nil (reads_pure _ _ _)))
  have hnone := parse_eq_none hconfig rfl (List.cons_ne_nil c s)
  rw [List.append_assoc, ← hjoin] at hnone
  rw [parse, hnone]
  rfl

end Config

end Dssh
