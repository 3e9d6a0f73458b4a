import Dssh.Config.Lines

/-!
# Source files

A source file knows where its lines begin, so that a byte offset can be turned into a line and a
column. Its entries are those the grammar finds, with their spans resolved to locations.

## Line starts

`SourceFile::new` computes the starts once; the field is private and nothing else sets it. So
the structure carries the equation (`lineStarts_eq`), and every statement about lines can use it
without a hypothesis. `read` is `new` on the content of a file in the file system and adds
nothing to the logic.

`line_col` indexes into the starts. There is one at 0, so the index is in range for any offset,
also for one behind the end of the file; the subtraction saturates and never has to. Columns are
counted in bytes, as the source says.

## One entry for each line

What a user of the parser wants to know is that line 17 of the file is entry 17, and that it
means what it means on its own. `OnePerLine` is that: as many entries as lines, and the entry of
each line is the one of a file with this line only, moved to its place. `onePerLine_iff` says
exactly when: no line splits, or there is only one.

The exception for a single line is real, and looks odd. A file that consists of one line that
splits has one entry as well, an unknown one with the text of the line, which is what the last
rule of the grammar would have made of it.

## Lines that are joined

The statements are about files made of lines, with one terminator throughout, not about texts.
For a text with terminators of all kinds see the modules on entries and line numbers.

## Main definitions

* `Location`, `Located`, `Directive`, `Entry` — the public types
* `SourceFile`, `SourceFile.lineCol`, `SourceFile.parse` — a file, and what is computed from it
* `OnePerLine` — the entries of a file are those of its lines

## Main results

* `SourceFile.lineCol_of_line` — the line and the column of an offset inside of a line
* `onePerLine_iff` — when a file has exactly the entries of its lines
-/

namespace Dssh

/-- A span with the line and the column at which it begins, both counted from 1. -/
structure Location where
  /-- The file. -/
  path : String
  /-- The bytes. -/
  span : Span
  /-- The line at which they begin. -/
  line : ℕ
  /-- The column, in bytes. -/
  column : ℕ
  deriving DecidableEq, Repr

/-- A value with its place in a file. -/
structure Located (α : Type) where
  value : α
  location : Location
  deriving DecidableEq

/-- What a line says: a keyword and its arguments, not yet split into tokens. -/
structure Directive where
  /-- The keyword. -/
  keyword : Located (List Char)
  /-- The text behind it. -/
  arguments : Located (List Char)
  deriving DecidableEq

/-- What a line of a file is. -/
inductive Entry where
  | empty (location : Location)
  | comment (text : Located (List Char))
  | directive (d : Directive)
  | unknown (text : Located (List Char))
  deriving DecidableEq

/-- `slice::partition_point`, of a list in which all that is in `p` comes first. -/
def partitionPoint {α : Type} (p : α → Bool) (xs : List α) : ℕ := (xs.takeWhile p).length

/-- The offsets behind the line feeds among the bytes, the first of which is at `n`. -/
def lineFeeds (n : ℕ) (bs : List UInt8) : List ℕ :=
  (bs.zipIdx n).filterMap fun r => if r.1 == '\n'.toUInt8 then some (r.2 + 1) else none

/-- The start of the file, and of each line behind a line feed. -/
def computeLineStarts (content : List Char) : List ℕ := 0 :: lineFeeds 0 (utf8 content)

/-- A file, with the places at which its lines begin. -/
structure SourceFile where
  /-- Where it was read from. -/
  path : String
  /-- What is in it. -/
  content : List Char
  /-- The offset of each line; the line with index 0 is line 1. -/
  lineStarts : List ℕ
  /-- They are what `new` computes. -/
  lineStarts_eq : lineStarts = computeLineStarts content

namespace SourceFile

/-- A file with this content. -/
def new (path : String) (content : List Char) : SourceFile :=
  ⟨path, content, computeLineStarts content, rfl⟩

/-- Line and column of a byte offset. There is a line start at 0, so the index is in range. -/
def lineCol (f : SourceFile) (offset : ℕ) : ℕ × ℕ :=
  let lineIdx := partitionPoint (fun start => decide (start ≤ offset)) f.lineStarts - 1
  (lineIdx + 1, offset - f.lineStarts.getD lineIdx 0 + 1)

/-- The place of a span. -/
def location (f : SourceFile) (span : Span) : Location :=
  ⟨f.path, span, (f.lineCol span.start).1, (f.lineCol span.start).2⟩

/-- A value at the place of its span. -/
def locate {α : Type} (f : SourceFile) (s : Spanned α) : Located α := ⟨s.value, f.location s.span⟩

/-- An entry at its place. -/
def locateEntry (f : SourceFile) : RawEntry → Entry
  | .empty s => .empty (f.location s)
  | .comment s => .comment (f.locate s)
  | .directive d => .directive ⟨f.locate d.keyword, f.locate d.arguments⟩
  | .unknown s => .unknown (f.locate s)

/-- The entries of a file. -/
def parse (f : SourceFile) : List Entry := (Config.parse f.content).map f.locateEntry

end SourceFile

/-! ## Line and column

`line_col` finds the last line start that is not behind an offset. The line starts are those
behind line feeds, and the first one is 0, so that there always is one. -/

section

variable {x z l : List Char} {p : ℕ}

/-- The line feeds of two parts. -/
theorem lineFeeds_append (n : ℕ) (x y : List Char) :
    lineFeeds n (utf8 (x ++ y)) = lineFeeds n (utf8 x) ++ lineFeeds (n + byteLen x) (utf8 y) := by
  rw [lineFeeds, utf8_append, List.zipIdx_append, List.filterMap_append, length_utf8]
  rfl

/-- There are none. -/
theorem lineFeeds_of_not_mem (h : '\n' ∉ x) (n : ℕ) : lineFeeds n (utf8 x) = [] := by
  refine List.filterMap_eq_nil_iff.mpr ?_
  rintro ⟨b, i⟩ hb
  have hagrees : Agrees (· == '\n'.toUInt8) (· == '\n') := agrees_ascii (by decide)
  have hnot := hagrees.forall_false (fun c hc => by
    rw [beq_eq_false_iff_ne]
    rintro rfl
    exact h hc) b (List.fst_mem_of_mem_zipIdx hb)
  simp [hnot]

/-- There is one. -/
theorem lineFeeds_newline (n : ℕ) : lineFeeds n (utf8 ['\n']) = [n + 1] := by
  rw [utf8_cons, utf8EncodeChar_ascii (by decide)]
  rfl

/-- As many line starts as line feeds. -/
theorem length_lineFeeds (n : ℕ) (x : List Char) :
    (lineFeeds n (utf8 x)).length = x.count '\n' := by
  induction x generalizing n with
  | nil => rfl
  | cons c x ih =>
    rw [← List.singleton_append, lineFeeds_append, List.length_append, ih]
    by_cases hc : c = '\n'
    · subst hc
      rw [lineFeeds_newline, List.singleton_append, List.count_cons_self]
      exact Nat.add_comm _ _
    · rw [lineFeeds_of_not_mem (by simpa using Ne.symm hc), List.singleton_append,
        List.count_cons_of_ne hc]
      exact Nat.zero_add _

/-- They are in the text. -/
theorem mem_lineFeeds {n i : ℕ} (h : i ∈ lineFeeds n (utf8 x)) : n < i ∧ i ≤ n + byteLen x := by
  obtain ⟨⟨b, j⟩, hmem, heq⟩ := List.mem_filterMap.mp h
  split_ifs at heq
  obtain rfl := Option.some.inj heq
  obtain ⟨hlow, hhigh, -⟩ := List.mem_zipIdx hmem
  rw [length_utf8] at hhigh
  exact ⟨Nat.lt_succ_of_le hlow, hhigh⟩

/-- What comes next begins a line, as far as the line starts are concerned. -/
def BeginsLine (z : List Char) : Prop := z = [] ∨ ∃ y, z = y ++ ['\n']

/-- Where a line begins, there is a line start, behind as many others as there are line feeds. -/
theorem BeginsLine.lineStarts (h : BeginsLine z) :
    ∃ starts, computeLineStarts z = starts ++ [byteLen z] ∧ starts.length = z.count '\n' := by
  rcases h with rfl | ⟨y, rfl⟩
  · exact ⟨[], rfl, rfl⟩
  · refine ⟨0 :: lineFeeds 0 (utf8 y), ?_, ?_⟩
    · rw [computeLineStarts, lineFeeds_append, lineFeeds_newline, byteLen_append, Nat.zero_add]
      rfl
    · rw [List.length_cons, length_lineFeeds, List.count_append]
      rfl

/-- An offset inside of a line. -/
theorem SourceFile.lineCol_of_line (f : SourceFile) (hcontent : f.content = z ++ (l ++ x))
    (hz : BeginsLine z) (hl : '\n' ∉ l) (hp : p ≤ byteLen l) :
    f.lineCol (byteLen z + p) = (z.count '\n' + 1, p + 1) := by
  obtain ⟨starts, hstarts, hlength⟩ := hz.lineStarts
  have hall : f.lineStarts =
      (starts ++ [byteLen z]) ++ lineFeeds (byteLen z + byteLen l) (utf8 x) := by
    rw [f.lineStarts_eq, ← hstarts, hcontent, computeLineStarts, lineFeeds_append, lineFeeds_append,
      lineFeeds_of_not_mem hl, List.nil_append, Nat.zero_add]
    rfl
  have hbehind : (lineFeeds (byteLen z + byteLen l) (utf8 x)).takeWhile
      (fun start => decide (start ≤ byteLen z + p)) = [] := by
    cases hfeeds : lineFeeds (byteLen z + byteLen l) (utf8 x) with
    | nil => rfl
    | cons i is =>
      have hi := (mem_lineFeeds (hfeeds ▸ List.mem_cons_self : i ∈ _)).1
      exact List.takeWhile_cons_of_neg (by simp; omega)
  have hfront : ∀ start ∈ starts ++ [byteLen z], decide (start ≤ byteLen z + p) = true := by
    intro start hmem
    rw [← hstarts] at hmem
    rcases List.mem_cons.mp hmem with rfl | hmem
    · exact decide_eq_true (Nat.zero_le _)
    · have hle := (mem_lineFeeds hmem).2
      exact decide_eq_true (by omega)
  have hpoint : partitionPoint (fun start => decide (start ≤ byteLen z + p)) f.lineStarts =
      z.count '\n' + 1 := by
    rw [partitionPoint, hall, List.takeWhile_append_of_pos hfront, hbehind, List.append_nil,
      List.length_append, hlength]
    rfl
  have hstart : f.lineStarts.getD (z.count '\n') 0 = byteLen z := by
    rw [hall, List.append_assoc, List.getD_eq_getElem?_getD, ← hlength,
      List.getElem?_append_right (Nat.le_refl _), Nat.sub_self]
    rfl
  rw [lineCol, hpoint, Nat.add_sub_cancel, hstart, Nat.add_sub_cancel_left]

/-- Every place is in some line. -/
theorem exists_beginsLine (x : List Char) : ∃ z w, x = z ++ w ∧ BeginsLine z ∧ '\n' ∉ w := by
  obtain ⟨w, z, hx, hw, hz⟩ := Peg.exists_span (· != '\n') x.reverse
  refine ⟨z.reverse, w.reverse, ?_, ?_, fun hmem => ?_⟩
  · rw [← List.reverse_append, ← hx, List.reverse_reverse]
  · cases z with
    | nil => exact .inl rfl
    | cons c z =>
      have hc : c = '\n' := by simpa using Peg.stops_cons.mp hz
      exact .inr ⟨z.reverse, by rw [hc, List.reverse_cons]⟩
  · exact absurd (hw _ (List.mem_reverse.mp hmem)) (by decide)

/-- The line feeds in front of an offset are counted, and the columns go on up to the next one. -/
theorem SourceFile.lineCol_append (f : SourceFile) (hcontent : f.content = z ++ (l ++ x))
    (hl : '\n' ∉ l) (hp : p ≤ byteLen l) :
    f.lineCol (byteLen z + p) = (z.count '\n' + 1, (f.lineCol (byteLen z)).2 + p) := by
  obtain ⟨y, w, rfl, hy, hw⟩ := exists_beginsLine z
  have hline : '\n' ∉ w ++ l := by
    rw [List.mem_append, not_or]
    exact ⟨hw, hl⟩
  have hcontent' : f.content = y ++ ((w ++ l) ++ x) := by
    rw [hcontent]
    simp only [List.append_assoc]
  have hlineCol {q : ℕ} (hq : q ≤ byteLen l) : f.lineCol (byteLen (y ++ w) + q) =
      ((y ++ w).count '\n' + 1, byteLen w + q + 1) := by
    rw [byteLen_append, Nat.add_assoc, f.lineCol_of_line hcontent' hy hline
      (by rw [byteLen_append]; omega), List.count_append, List.count_eq_zero_of_not_mem hw,
      Nat.add_zero]
  have hzero := hlineCol (Nat.zero_le _)
  rw [Nat.add_zero] at hzero
  rw [hlineCol hp, hzero]
  exact Prod.ext rfl (by dsimp only; omega)

end

/-! ## One entry for each line

The entry of a line, and the entry that the line has in its file, differ by a shift: of the
offsets by what is in front, and of the line number by the number of lines. The column is the
same. -/

/-- The location in a file in which `n` more bytes and `i` more lines are in front. -/
def Location.shift (n i : ℕ) (l : Location) : Location :=
  { l with span := l.span.shift n, line := l.line + i }

/-- The same for what is there. -/
def Located.shift {α : Type} (n i : ℕ) (l : Located α) : Located α :=
  { l with location := l.location.shift n i }

/-- The same for an entry. -/
def Entry.shift (n i : ℕ) : Entry → Entry
  | .empty l => .empty (l.shift n i)
  | .comment t => .comment (t.shift n i)
  | .directive d => .directive ⟨d.keyword.shift n i, d.arguments.shift n i⟩
  | .unknown t => .unknown (t.shift n i)

/-- The file of these lines has exactly one entry for each, and it is the entry of the line alone
at the place of the line. -/
def OnePerLine (path : String) (nl : Newline) (ls : List (List Char)) : Prop :=
  (SourceFile.new path (nl.join ls)).parse.length = ls.length ∧
    ∀ (i : ℕ) (l : List Char), ls[i]? = some l → ∃ e, (SourceFile.new path l).parse = [e] ∧
      (SourceFile.new path (nl.join ls)).parse[i]? = some (e.shift (nl.offset ls i) i)

namespace Config

/-- All parts of the entry begin in the first `m` bytes. -/
def StartsWithin (m : ℕ) : RawEntry → Prop
  | .empty s => s.start ≤ m
  | .comment t => t.span.start ≤ m
  | .directive d => d.keyword.span.start ≤ m ∧ d.arguments.span.start ≤ m
  | .unknown t => t.span.start ≤ m

variable {l : List Char} {ls : List (List Char)} {e : RawEntry}

/-- The entry of a line begins in the line. -/
theorem LineForm.startsWithin (h : LineForm l e) : StartsWithin (byteLen l) e := by
  cases h with
  | blank hb => exact Nat.zero_le _
  | comment hb => exact Nat.zero_le _
  | directive hb hk hs =>
    simp only [byteLen_append]
    constructor <;> dsimp only <;> omega
  | keyword hb hk =>
    simp only [byteLen_append]
    constructor <;> dsimp only [byteLen_nil] <;> omega
  | unknown hb hc hletter hhash => exact Nat.zero_le _

/-- There is no line feed in a line. -/
theorem IsLine.not_mem_newline (h : IsLine l) : '\n' ∉ l := by
  intro hmem
  exact absurd (h _ hmem) (by decide)

/-- The files agree on the place of an entry up to a shift. -/
theorem locateEntry_shift {f g : SourceFile} {m n i : ℕ} (hpath : f.path = g.path)
    (h : ∀ p ≤ m, f.lineCol (n + p) = ((g.lineCol p).1 + i, (g.lineCol p).2))
    (he : StartsWithin m e) : f.locateEntry (e.shift n) = (g.locateEntry e).shift n i := by
  have hlocation {s : Span} (hs : s.start ≤ m) :
      f.location (s.shift n) = (g.location s).shift n i := by
    have hcol : f.lineCol (s.shift n).start = _ := h s.start hs
    rw [SourceFile.location, hcol, hpath]
    rfl
  have hlocate {t : Spanned (List Char)} (ht : t.span.start ≤ m) :
      f.locate (t.shift n) = (g.locate t).shift n i := by
    rw [SourceFile.locate, Spanned.shift, hlocation ht]
    rfl
  cases e with
  | empty s => exact congrArg Entry.empty (hlocation he)
  | comment t => exact congrArg Entry.comment (hlocate he)
  | directive d =>
    refine congrArg Entry.directive ?_
    rw [hlocate he.1, hlocate he.2]
  | unknown t => exact congrArg Entry.unknown (hlocate he)

/-- Behind some lines and their terminators, a line begins. -/
theorem beginsLine_front (nl : Newline) (ls : List (List Char)) (i : ℕ) :
    BeginsLine (nl.front ls i) := by
  induction i generalizing ls with
  | zero => exact Or.inl rfl
  | succ i ih =>
    cases ls with
    | nil => exact Or.inl rfl
    | cons l ls =>
      obtain ⟨x, hx⟩ : ∃ x, nl.text = x ++ ['\n'] := by
        cases nl with
        | lf => exact ⟨[], rfl⟩
        | crlf => exact ⟨['\r'], rfl⟩
      rw [Newline.front_cons]
      rcases ih ls with hfront | ⟨y, hfront⟩
      · exact Or.inr ⟨l ++ x, by rw [hfront, hx, List.append_nil, List.append_assoc]⟩
      · exact Or.inr ⟨l ++ nl.text ++ y, by rw [hfront, List.append_assoc (l ++ nl.text)]⟩

/-- Their line feeds are as many as they are. -/
theorem count_front (nl : Newline) (hl : ∀ l ∈ ls, IsLine l) {i : ℕ} (hi : i ≤ ls.length) :
    (nl.front ls i).count '\n' = i := by
  induction i generalizing ls with
  | zero => rfl
  | succ i ih =>
    cases ls with
    | nil => cases hi
    | cons l ls =>
      obtain ⟨hline, hl⟩ := List.forall_mem_cons.mp hl
      have htext : nl.text.count '\n' = 1 := by cases nl <;> rfl
      rw [Newline.front_cons, List.count_append, List.count_append,
        List.count_eq_zero_of_not_mem (IsLine.not_mem_newline hline), htext,
        ih hl (Nat.le_of_succ_le_succ hi), Nat.zero_add, Nat.add_comm]

/-- An offset inside of a line of a file, and in the line alone. -/
theorem lineCol_join (path : String) (nl : Newline) (hl : ∀ l ∈ ls, IsLine l) {i : ℕ}
    (h : ls[i]? = some l) {p : ℕ} (hp : p ≤ byteLen l) :
    (SourceFile.new path (nl.join ls)).lineCol (nl.offset ls i + p) =
      (((SourceFile.new path l).lineCol p).1 + i, ((SourceFile.new path l).lineCol p).2) := by
  obtain ⟨x, hjoin⟩ := Newline.join_eq_front nl h
  have hnot := IsLine.not_mem_newline (hl l (List.mem_of_getElem? h))
  have hi : i ≤ ls.length := by
    obtain ⟨hlt, -⟩ := List.getElem?_eq_some_iff.mp h
    exact Nat.le_of_lt hlt
  have hfile := SourceFile.lineCol_of_line (SourceFile.new path (nl.join ls)) hjoin
    (beginsLine_front nl ls i) hnot hp
  have halone := SourceFile.lineCol_of_line (SourceFile.new path l) (z := []) (x := [])
    (by rw [List.append_nil]; rfl) (Or.inl rfl) hnot hp
  rw [byteLen_nil, Nat.zero_add] at halone
  rw [Newline.offset, hfile, halone, count_front nl hl hi]
  exact Prod.ext (by rw [List.count_nil]; omega) rfl

end Config

/-- Not moved. -/
@[simp] theorem RawEntry.shift_zero (e : RawEntry) : e.shift 0 = e := by
  cases e <;> simp [shift, Spanned.shift, Span.shift]

/-- Not moved. -/
@[simp] theorem Entry.shift_zero (e : Entry) : e.shift 0 0 = e := by
  cases e <;> simp [shift, Located.shift, Location.shift, Span.shift]

open Config

section

variable {path : String} {nl : Newline} {l : List Char} {ls : List (List Char)}

/-- A file of lines that do not split. -/
theorem onePerLine_of_wholeLines (path : String) (nl : Newline) (w : WholeLine)
    (ws : List WholeLine) : OnePerLine path nl ((w :: ws).map WholeLine.text) := by
  set ls := (w :: ws).map WholeLine.text with hls
  have hlines : ∀ l ∈ ls, IsLine l := by
    intro l hl
    obtain ⟨w', -, rfl⟩ := List.mem_map.mp hl
    exact w'.isLine
  have hparse : (SourceFile.new path (nl.join ls)).parse =
      (placed nl 0 (w :: ws)).map (SourceFile.new path (nl.join ls)).locateEntry := by
    change (Config.parse (nl.join ls)).map _ = _
    rw [hls, parse_lines]
  constructor
  · rw [hparse, List.length_map, length_placed, hls, List.length_map]
  · intro i l hl
    have hl' := hl
    rw [hls, List.getElem?_map] at hl'
    obtain ⟨w', hw', rfl⟩ := Option.map_eq_some_iff.mp hl'
    refine ⟨(SourceFile.new path w'.text).locateEntry w'.entry, ?_, ?_⟩
    · change (Config.parse w'.text).map _ = _
      rw [parse_wholeLine, RawEntry.shift_zero]
      rfl
    · rw [hparse, List.getElem?_map, getElem?_placed, hw', Option.map_some, Option.map_some,
        Nat.zero_add]
      exact congrArg some (locateEntry_shift rfl (fun p hp => lineCol_join path nl hlines hl hp)
        w'.form.startsWithin)

/-- A file with a line that splits has one entry. -/
theorem length_parse_of_splits (path : String) (nl : Newline) (hl : ∀ l ∈ ls, IsLine l)
    (h : ∃ l ∈ ls, Splits l) : (SourceFile.new path (nl.join ls)).parse.length = 1 := by
  change ((Config.parse (nl.join ls)).map _).length = 1
  rw [parse_of_splits nl hl h]
  rfl

/-- A file has the entries of its lines if no line splits, or if it is the only one. -/
theorem onePerLine_iff (path : String) (nl : Newline) {ls : List (List Char)}
    (hl : ∀ l ∈ ls, IsLine l) :
    OnePerLine path nl ls ↔ ls.length = 1 ∨ ls ≠ [] ∧ ∀ l ∈ ls, ¬ Splits l := by
  by_cases h : ∃ l ∈ ls, Splits l
  · have hlength := length_parse_of_splits path nl hl h
    constructor
    · intro hone
      exact Or.inl (hone.1.symm.trans hlength)
    · rintro (hsingle | ⟨-, hnone⟩)
      · obtain ⟨l, rfl⟩ := List.length_eq_one_iff.mp hsingle
        obtain ⟨e, he⟩ := List.length_eq_one_iff.mp hlength
        have hjoin : nl.join [l] = l := List.intercalate_singleton
        rw [hjoin] at he
        refine ⟨hlength, fun i l' hl' => ?_⟩
        cases i with
        | zero =>
          obtain rfl := Option.some.inj hl'
          have hoffset : nl.offset [l] 0 = 0 := rfl
          exact ⟨e, he, by rw [hjoin, he, hoffset, Entry.shift_zero]; rfl⟩
        | succ i => cases hl'
      · obtain ⟨l, hmem, hsplits⟩ := h
        exact absurd hsplits (hnone l hmem)
  · have hnone : ∀ l ∈ ls, ¬ Splits l := fun l hmem hsplits => h ⟨l, hmem, hsplits⟩
    obtain ⟨ws, hws⟩ := exists_wholeLines hl hnone
    cases ws with
    | nil =>
      obtain rfl : ls = [] := hws.symm
      constructor
      · intro hone
        cases hone.1
      · rintro (hsingle | ⟨hne, -⟩)
        · cases hsingle
        · exact absurd rfl hne
    | cons w ws =>
      have hne : ls ≠ [] := by
        rw [← hws]
        exact List.cons_ne_nil _ _
      refine ⟨fun _ => Or.inr ⟨hne, hnone⟩, fun _ => ?_⟩
      rw [← hws]
      exact onePerLine_of_wholeLines path nl w ws

end

/-- Lines of every form, none of which splits: among them one that fits no rule but the last. -/
def plainLines : List (List Char) :=
  ["# hosts".toList, "".toList, "Host web".toList, "\tPort=22".toList, "ForwardAgent".toList,
    " %include".toList, "Match all".toList]

/-- They have seven entries. -/
theorem plainLines_onePerLine : OnePerLine "config" .crlf plainLines :=
  (onePerLine_iff "config" .crlf (by decide)).mpr (Or.inr ⟨by decide, by decide⟩)

/-- A hyphen in a keyword hides the other lines. -/
theorem dashLine_not_onePerLine :
    ¬ OnePerLine "config" .lf ["foo-bar".toList, "Port 22".toList] := by
  rintro ⟨hlength, -⟩
  exact absurd hlength (by decide)

end Dssh
