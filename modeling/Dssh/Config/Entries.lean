import Dssh.Config.SourceFile
import Mathlib.Data.List.Forall2

/-!
# The entries of any text

The lines of a text may end in different ways, with `\r\n`, `\n` or a lone `\r`. The grammar
takes the longest terminator, so that the text is a line, followed by a terminator and a line
any number of times, and there is one way to read it so.

## Two ways to say where lines are

`linesOf` cuts a text into its lines, and `terminatorEnds` lists the offsets behind its
terminators. Both are functions on the text, written without the grammar, and so they say what a
line *is* independently of how it is parsed. `Terminated` is the same in the shape that the
proofs need: what is behind a line consists of terminators and lines in turn.

A carriage return in front of a line feed is not a terminator of its own. So the condition on
what follows is a part of `Terminator`, and an offset between the two characters is no line
start.

## What an entry is the entry of

`EntryAt text n e` says that `e` is what the line at offset `n` is read as, with everything in
it moved to its place in the text. `forall₂_entryAt_parse` is the theorem of this module: unless
a line splits, the entries of the text are those of its lines, one for each, in order. The other
case is as definite: then there is a single entry, for all of the text (`parse_of_hasSplit`).

## Main definitions

* `Terminator`, `terminatorEnds`, `linesOf` — terminators and lines of a text
* `HasSplit` — a line of the text splits
* `EntryAt` — the entry of the line at an offset

## Main results

* `reads_newline_iff` — the terminators are those of the grammar
* `forall₂_entryAt_parse` — without a line that splits there is one entry for each line, in
  order
* `parse_of_hasSplit` — with one, there is a single entry
-/

namespace Dssh

namespace Config

open Peg

/-- A line terminator, of which there is no longer one in front of the rest. -/
inductive Terminator : List Char → List Char → Prop
  /-- A carriage return and a line feed. -/
  | crlf {s : List Char} : Terminator ['\r', '\n'] s
  /-- A line feed. -/
  | lf {s : List Char} : Terminator ['\n'] s
  /-- A carriage return on its own. -/
  | cr {s : List Char} (h : s.head? ≠ some '\n') : Terminator ['\r'] s

/-- The offsets behind the terminators of a text that begins at `n`. -/
def terminatorEnds : ℕ → List Char → List ℕ
  | _, [] => []
  | n, '\r' :: '\n' :: s => (n + 2) :: terminatorEnds (n + 2) s
  | n, c :: s =>
    if inLine c then terminatorEnds (n + c.utf8Size) s
    else (n + 1) :: terminatorEnds (n + 1) s

/-- The lines of a text, without their terminators. -/
def linesOf : List Char → List (List Char)
  | [] => [[]]
  | '\r' :: '\n' :: s => [] :: linesOf s
  | c :: s =>
    if inLine c then
      match linesOf s with
      | [] => [[c]]
      | l :: ls => (c :: l) :: ls
    else [] :: linesOf s

/-- A line that is not read to its end. -/
def HasSplit (text : List Char) : Prop := ∃ l ∈ linesOf text, Splits l

/-- In front of `s` there is nothing or a terminator. -/
def LineStart (z s : List Char) : Prop := z = [] ∨ ∃ y t, z = y ++ t ∧ Terminator t s

/-- `e` is the entry of the line that begins at the offset `n`. -/
def EntryAt (text : List Char) (n : ℕ) (e : RawEntry) : Prop :=
  ∃ z l r e', text = z ++ (l ++ r) ∧ byteLen z = n ∧ LineStart z (l ++ r) ∧ IsLine l ∧
    LineEnd r ∧ LineForm l e' ∧ e = e'.shift n

/-! ## Terminators

A terminator is read greedily: a carriage return with a line feed behind it is one. So where the
terminators of a text end can be said without the grammar, and a text is cut into lines in one
way. -/

variable {c : Char} {n : ℕ} {l r s t z : List Char} {ls : List (List Char)}

/-- **Terminators** are what the rule reads. -/
theorem reads_newline_iff : newline.Reads n t () s ↔ Terminator t s := by
  unfold newline
  rw [reads_orElse_iff, reads_orElse_iff, reads_lit_iff, reads_lit_iff, reads_lit_iff]
  constructor
  · rintro (rfl | ⟨hlong, rfl | ⟨-, rfl⟩⟩)
    · exact .crlf
    · exact .lf
    · refine .cr fun hhead => ?_
      obtain ⟨s, rfl⟩ := List.head?_eq_some_iff.mp hhead
      exact (reads_lit n ['\r', '\n'] s).not_fails hlong
  · rintro (_ | _ | hhead)
    · exact .inl rfl
    · exact .inr ⟨fails_lit_cons (by simp) n, .inl rfl⟩
    · refine .inr ⟨fails_lit (fun hprefix => ?_) n, .inr ⟨fails_lit_cons (by simp) n, rfl⟩⟩
      obtain ⟨s, rfl⟩ := List.prefix_cons_inj '\r' |>.mp hprefix
      exact hhead rfl

/-- A line ends in front of one. -/
theorem Terminator.lineEnd (h : Terminator t s) : LineEnd (t ++ s) := by
  cases h with
  | crlf => exact stops_cons.mpr (by decide)
  | lf => exact stops_cons.mpr (by decide)
  | cr => exact stops_cons.mpr (by decide)

/-- A character of a line is passed over. -/
theorem terminatorEnds_cons (hc : inLine c = true) (n : ℕ) (s : List Char) :
    terminatorEnds n (c :: s) = terminatorEnds (n + c.utf8Size) s := by
  rw [terminatorEnds, if_pos hc]
  rintro s rfl
  exact absurd hc (by decide)

/-- It belongs to the first line. -/
theorem linesOf_cons (hc : inLine c = true) (h : linesOf s = l :: ls) :
    linesOf (c :: s) = (c :: l) :: ls := by
  rw [linesOf, if_pos hc, h]
  rintro s rfl
  exact absurd hc (by decide)

/-- Behind a terminator the next line begins. -/
theorem Terminator.terminatorEnds (h : Terminator t s) (n : ℕ) :
    terminatorEnds n (t ++ s) = (n + byteLen t) :: terminatorEnds (n + byteLen t) s := by
  cases h with
  | crlf => rfl
  | lf => rfl
  | cr hhead =>
    show Config.terminatorEnds n ('\r' :: s) = _
    rw [Config.terminatorEnds, if_neg (by decide)]
    · rfl
    · rintro s - rfl
      exact hhead rfl

/-- The line in front of a terminator is empty. -/
theorem Terminator.linesOf (h : Terminator t s) : linesOf (t ++ s) = [] :: linesOf s := by
  cases h with
  | crlf => rfl
  | lf => rfl
  | cr hhead =>
    show Config.linesOf ('\r' :: s) = _
    rw [Config.linesOf, if_neg (by decide)]
    rintro s - rfl
    exact hhead rfl

/-- Behind a line, a text consists of a terminator and a line any number of times. -/
inductive Terminated : List Char → Prop
  /-- There is nothing behind it. -/
  | nil : Terminated []
  /-- A terminator and a line, and so on. -/
  | cons {t l r : List Char} (ht : Terminator t (l ++ r)) (hl : IsLine l) (hr : Terminated r) :
      Terminated (t ++ (l ++ r))

/-- Where a line ends, there is nothing or a terminator. -/
theorem LineEnd.exists_terminator (h : LineEnd r) :
    r = [] ∨ ∃ t s, r = t ++ s ∧ Terminator t s := by
  rcases h.cases with rfl | ⟨c, s, rfl, rfl | rfl⟩
  · exact .inl rfl
  · exact .inr ⟨['\n'], s, rfl, .lf⟩
  · by_cases hhead : s.head? = some '\n'
    · obtain ⟨s, rfl⟩ := List.head?_eq_some_iff.mp hhead
      exact .inr ⟨['\r', '\n'], s, rfl, .crlf⟩
    · exact .inr ⟨['\r'], s, rfl, .cr hhead⟩

/-- What begins at the end of a line is terminators and lines. -/
theorem terminated_of_length_le {m : ℕ} (hm : r.length ≤ m) (h : LineEnd r) : Terminated r := by
  induction m generalizing r with
  | zero =>
    obtain rfl := List.length_eq_zero_iff.mp (Nat.le_zero.mp hm)
    exact .nil
  | succ m ih =>
    obtain rfl | ⟨t, s, rfl, ht⟩ := h.exists_terminator
    · exact .nil
    · obtain ⟨l, r, rfl, hl, hr⟩ := exists_span inLine s
      refine .cons ht hl (ih ?_ hr)
      have hpos : 0 < t.length := by cases ht <;> decide
      rw [List.length_append, List.length_append] at hm
      omega

/-- And conversely. -/
theorem Terminated.lineEnd (h : Terminated r) : LineEnd r := by
  cases h with
  | nil => exact stops_nil inLine
  | cons ht hl hr => exact ht.lineEnd

/-- A text is a line and what is behind it. -/
theorem exists_line (text : List Char) : ∃ l r, text = l ++ r ∧ IsLine l ∧ Terminated r := by
  obtain ⟨l, r, rfl, hl, hr⟩ := exists_span inLine text
  exact ⟨l, r, rfl, hl, terminated_of_length_le (Nat.le_refl _) hr⟩

/-- No terminator ends in a line. -/
theorem terminatorEnds_line (hl : IsLine l) (n : ℕ) (r : List Char) :
    terminatorEnds n (l ++ r) = terminatorEnds (n + byteLen l) r := by
  induction l generalizing n with
  | nil => rfl
  | cons c l ih =>
    obtain ⟨hc, hl⟩ := List.forall_mem_cons.mp hl
    rw [List.cons_append, terminatorEnds_cons hc, ih hl, byteLen_cons, Nat.add_assoc]

/-- What is behind a line begins with the end of that line. -/
theorem Terminated.linesOf (h : Terminated r) : ∃ ls, linesOf r = [] :: ls := by
  cases h with
  | nil => exact ⟨[], rfl⟩
  | cons ht hl hr => exact ⟨_, ht.linesOf⟩

/-- So the line itself is the first one. -/
theorem linesOf_line (hl : IsLine l) (h : linesOf r = [] :: ls) : linesOf (l ++ r) = l :: ls := by
  induction l with
  | nil => exact h
  | cons c l ih =>
    obtain ⟨hc, hl⟩ := List.forall_mem_cons.mp hl
    exact linesOf_cons hc (ih hl)

/-- A line begins behind a terminator. -/
theorem LineStart.terminator (h : Terminator t s) (z : List Char) : LineStart (z ++ t) s :=
  .inr ⟨z, t, rfl, h⟩

/-! ## Lines that are read to their end

If no line splits, the grammar reads a line, a terminator, and so on, up to the end. Each line
gives an entry at its offset. -/

/-- Without a line that splits, what is behind a line is read to its end. -/
theorem reads_terminated (h : Terminated r) (hls : linesOf r = [] :: ls)
    (hsplit : ∀ l ∈ ls, ¬ Splits l) (z : List Char) :
    ∃ es, (many nextLine).Reads (byteLen z) r es [] ∧
      List.Forall₂ (EntryAt (z ++ r)) (terminatorEnds (byteLen z) r) es := by
  induction h generalizing ls z with
  | nil => exact ⟨[], (fails_newline (by simp) (byteLen z)).bind.many_nil, .nil⟩
  | @cons t l r ht hl hr ih =>
    obtain ⟨ls', hls'⟩ := hr.linesOf
    rw [ht.linesOf, linesOf_line hl hls'] at hls
    obtain rfl := (List.cons.inj hls).2
    obtain ⟨hsplit, hsplit'⟩ := List.forall_mem_cons.mp hsplit
    obtain ⟨e, hform⟩ := (lineForm_or_splits l).resolve_right hsplit
    obtain ⟨es, hes, hentries⟩ := ih hls' hsplit' (z ++ t ++ l)
    have hline := reads_line hform hl hr.lineEnd (byteLen z + byteLen t)
    have hnext := (reads_newline_iff.mpr ht).bind (f := fun _ => line) hline
    rw [byteLen_append, byteLen_append] at hes hentries
    refine ⟨e.shift (byteLen z + byteLen t) :: es, ?_, ?_⟩
    · rw [← List.append_assoc]
      exact Reads.many_cons progresses_nextLine (by rwa [List.append_nil])
        (by rwa [byteLen_append, ← Nat.add_assoc])
    · rw [ht.terminatorEnds, terminatorEnds_line hl]
      refine .cons
        ⟨z ++ t, l, r, e, ?_, byteLen_append z t, .terminator ht z, hl, hr.lineEnd, hform,
        rfl⟩ ?_
      · rw [List.append_assoc]
      · rwa [List.append_assoc, List.append_assoc] at hentries

/-! ## A line that splits

Such a line is read up to a character that no terminator begins with. There the rule for a
further line fails, the repetition ends, and the whole does not match. -/

/-- What is behind a line is read up to a character of the first line that splits. -/
theorem reads_terminated_of_splits (h : Terminated r) (hls : linesOf r = [] :: ls)
    (hsplit : ∃ l ∈ ls, Splits l) (n : ℕ) : ∃ y c s es, r = y ++ c :: s ∧ inLine c = true ∧
      (many nextLine).Reads n y es (c :: s) := by
  induction h generalizing ls n with
  | nil =>
    obtain rfl : ls = [] := (List.cons.inj hls).2.symm
    obtain ⟨l, hmem, -⟩ := hsplit
    cases hmem
  | @cons t l r ht hl hr ih =>
    obtain ⟨ls', hls'⟩ := hr.linesOf
    rw [ht.linesOf, linesOf_line hl hls'] at hls
    obtain rfl := (List.cons.inj hls).2
    by_cases hfirst : Splits l
    · obtain ⟨x, c, s, e, rfl, hc, hreads⟩ :=
        reads_line_of_splits hfirst hl (n + byteLen t) r
      have hnewline : newline.Reads n t () (x ++ (c :: s ++ r)) := by
        rw [← List.append_assoc]
        exact reads_newline_iff.mpr ht
      have hnext := hnewline.bind (f := fun _ => line) hreads
      refine ⟨t ++ x, c, s ++ r, [e], ?_, hc, ?_⟩
      · simp only [List.append_assoc, List.cons_append]
      · have hmany := Reads.many_cons (y := []) progresses_nextLine hnext
          (fails_newline (x := c :: s ++ r) (by simpa using hc) _).bind.many_nil
        rwa [List.append_nil] at hmany
    · obtain ⟨e, hform⟩ := (lineForm_or_splits l).resolve_right hfirst
      have hrest : ∃ l ∈ ls', Splits l := by
        obtain ⟨l', hmem, hsplits⟩ := hsplit
        obtain rfl | hmem := List.mem_cons.mp hmem
        · exact absurd hsplits hfirst
        · exact ⟨l', hmem, hsplits⟩
      obtain ⟨y, c, s, es, rfl, hc, hes⟩ := ih hls' hrest (n + byteLen t + byteLen l)
      have hline := reads_line hform hl hr.lineEnd (n + byteLen t)
      have hnext := (reads_newline_iff.mpr ht).bind (f := fun _ => line) hline
      refine ⟨t ++ l ++ y, c, s, e.shift (n + byteLen t) :: es, ?_, hc, ?_⟩
      · simp only [List.append_assoc]
      · exact Reads.many_cons progresses_nextLine hnext (by rwa [byteLen_append, ← Nat.add_assoc])

/-! ## The whole text

The two cases put together. In the first one the entries and the lines correspond; in the second
one there is a single entry, for the whole of the file. -/

/-- It is the first line, or one of the others. -/
theorem hasSplit_iff (hl : IsLine l) (hls : linesOf r = [] :: ls) :
    HasSplit (l ++ r) ↔ Splits l ∨ ∃ l ∈ ls, Splits l := by
  rw [HasSplit, linesOf_line hl hls, List.exists_mem_cons_iff]

/-- Without a line that splits, there is one entry for each line. -/
theorem forall₂_entryAt_parse {text : List Char} (h : ¬ HasSplit text) :
    List.Forall₂ (EntryAt text) (0 :: terminatorEnds 0 text) (parse text) := by
  obtain ⟨l, r, rfl, hl, hr⟩ := exists_line text
  obtain ⟨ls, hls⟩ := hr.linesOf
  rw [hasSplit_iff hl hls, not_or] at h
  obtain ⟨e, hform⟩ := (lineForm_or_splits l).resolve_right h.1
  obtain ⟨es, hes, hentries⟩ := reads_terminated hr hls (fun l' hmem hsplits =>
    h.2 ⟨l', hmem, hsplits⟩) l
  have hend : (optional newline).Reads (byteLen l + byteLen r) [] none [] :=
    Fails.orElse (fails_newline (by simp) _).bind (reads_pure _ _ _)
  have hconfig : config.Reads 0 (l ++ r) (e.shift 0 :: es) [] := by
    have hline := reads_line hform hl hr.lineEnd 0
    rw [← List.append_nil r] at hline
    refine hline.bind ?_
    rw [Nat.zero_add]
    exact hes.bind_nil (hend.bind_nil (reads_pure _ _ _))
  rw [parse, parse_eq_some_iff.mpr hconfig, terminatorEnds_line hl, Nat.zero_add]
  exact .cons ⟨[], l, r, e, rfl, rfl, .inl rfl, hl, hr.lineEnd, hform, rfl⟩ hentries

/-- So every entry is that of a line … -/
theorem exists_entryAt {text : List Char} (h : ¬ HasSplit text) {e : RawEntry}
    (he : e ∈ parse text) : ∃ n, EntryAt text n e := by
  obtain ⟨hlength, hentries⟩ := List.forall₂_iff_get.mp (forall₂_entryAt_parse h)
  obtain ⟨i, rfl⟩ := List.get_of_mem he
  exact ⟨_, hentries i (Nat.lt_of_lt_of_eq i.isLt hlength.symm) i.isLt⟩

/-- … and every line has one. -/
theorem exists_mem_parse {text : List Char} (h : ¬ HasSplit text)
    (hn : n ∈ 0 :: terminatorEnds 0 text) : ∃ e ∈ parse text, EntryAt text n e := by
  obtain ⟨hlength, hentries⟩ := List.forall₂_iff_get.mp (forall₂_entryAt_parse h)
  obtain ⟨i, rfl⟩ := List.get_of_mem hn
  exact ⟨_, List.get_mem _ _, hentries i i.isLt (Nat.lt_of_lt_of_eq i.isLt hlength)⟩

/-- A text with a line that splits becomes one entry. -/
theorem parse_of_hasSplit {text : List Char} (h : HasSplit text) :
    parse text = [.unknown ⟨text, 0, byteLen text⟩] := by
  obtain ⟨l, r, rfl, hl, hr⟩ := exists_line text
  obtain ⟨ls, hls⟩ := hr.linesOf
  -- what is read of the first line, and of the others
  have hreads : ∃ x y c s e es, l ++ r = x ++ (y ++ c :: s) ∧ inLine c = true ∧
      line.Reads 0 x e (y ++ c :: s) ∧ (many nextLine).Reads (byteLen x) y es (c :: s) := by
    by_cases hfirst : Splits l
    · obtain ⟨x, c, s, e, rfl, hc, hx⟩ := reads_line_of_splits hfirst hl 0 r
      refine ⟨x, [], c, s ++ r, e, [], List.append_assoc x (c :: s) r, hc, hx, ?_⟩
      exact (fails_newline (by simpa using hc) _).bind.many_nil
    · obtain ⟨e, hform⟩ := (lineForm_or_splits l).resolve_right hfirst
      have hrest := ((hasSplit_iff hl hls).mp h).resolve_left hfirst
      obtain ⟨y, c, s, es, rfl, hc, hy⟩ := reads_terminated_of_splits hr hls hrest (byteLen l)
      exact ⟨l, y, c, s, e.shift 0, es, rfl, hc, reads_line hform hl hr.lineEnd 0, hy⟩
  obtain ⟨x, y, c, s, e, es, htext, hc, hx, hy⟩ := hreads
  have hend : (optional newline).Reads (byteLen x + byteLen y) [] none (c :: s) :=
    Fails.orElse (fails_newline (by simpa using hc) _).bind (reads_pure _ _ _)
  have hconfig : config.Reads 0 (x ++ y) (e :: es) (c :: s) := by
    refine hx.bind ?_
    rw [Nat.zero_add]
    exact hy.bind_nil (hend.bind_nil (reads_pure _ _ _))
  have hnone := parse_eq_none hconfig rfl (List.cons_ne_nil c s)
  rw [List.append_assoc, ← htext] at hnone
  rw [parse, hnone]
  rfl

end Config

end Dssh
