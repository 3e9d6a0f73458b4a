import Dssh.Lib.Peg
import Mathlib.Data.List.DropRight

/-!
# The grammar of configuration files

A configuration file is read line by line, and a line by the first alternative that matches it:
an empty line, a comment, a directive, and anything else as an unknown line. An alternative that
has matched is not reconsidered, and the second form of a directive does not look for the end of
the line: a keyword followed by something that is no separator is taken for a directive without
arguments, and then the line is not at its end. `Splits` describes these lines.

## The grammar and its translation

The source is a PEG of a dozen rules, from which a macro generates the parser. Each rule is one
definition here, with the expressions of the library standing for those of the generator, so
that the two can be read side by side:

```
rule separator() = _ "=" _ / __()
```

is `separator`, and so on. The library's `Peg` has the generator's semantics: ordered choice,
greedy repetition, byte positions. White space is what the rules say it is in each place. The
blanks between the parts of a line are spaces and tabs; what is trimmed off the end of the
arguments is `char::is_whitespace`, the Unicode property, so that a line may lose a no-break
space at its end, but may not have one for a separator.

## The surprise

The rule for unknown lines is there for lines that nothing else matches, and a reader of the
grammar expects it to take the line `foo-bar`. It does not. The second form of a directive takes
`foo` for a keyword without arguments, and succeeds. The choice is made; the file rule then
wants a line terminator, finds `-bar`, and has no alternative left. So the *whole file* does not
match, and `parse` makes a single unknown entry of it.

`lineForm_or_splits` is the analysis behind this: a line has one of five forms, each with its
entry, or it splits. Every statement about files starts from it.

## Shape of the proofs

For each rule there is a lemma `reads_…` for the texts that it matches, with what may follow,
and one `fails_…` for those that it does not. A rule that fails is as important as one that
matches, since an alternative is tried only behind failures. The classes of characters are
related by a few lemmas (`isAlnum_of_isLetter` and the like), which say why one repetition stops
where the next begins.

## Main definitions

* `Config.config`, `Config.line`, `Config.directive`, … — the rules
* `Config.parse` — the parser, with its fallback
* `Config.LineForm`, `Config.Splits` — the forms of a line

## Main results

* `lineForm_or_splits` — the forms of a line, one of which is not read to its end
* `reads_line`, `reads_line_of_splits` — what `line` makes of each
-/

namespace Dssh

open Peg

/-- Byte offsets. -/
structure Span where
  /-- Where it begins. -/
  start : ℕ
  /-- Where it ends. -/
  stop : ℕ
  deriving DecidableEq, Repr

/-- Something with its place in the text. -/
structure Spanned (α : Type) where
  value : α
  span : Span
  deriving DecidableEq

/-- A keyword and the text behind it. -/
structure RawDirective where
  keyword : Spanned (List Char)
  arguments : Spanned (List Char)
  deriving DecidableEq

/-- What a line is read as. -/
inductive RawEntry where
  | empty (span : Span)
  | comment (text : Spanned (List Char))
  | directive (d : RawDirective)
  | unknown (text : Spanned (List Char))
  deriving DecidableEq

/-! ## Characters

The classes of characters that the grammar mentions. White space is a property of Unicode, since
the arguments are trimmed by the standard library. -/

/-- `char::is_whitespace`, the Unicode property `White_Space`. -/
def isWhitespace (c : Char) : Bool :=
  let n := c.toNat
  (9 ≤ n && n ≤ 13) || n == 0x20 || n == 0x85 || n == 0xA0 || n == 0x1680 ||
    (0x2000 ≤ n && n ≤ 0x200A) || n == 0x2028 || n == 0x2029 || n == 0x202F || n == 0x205F ||
    n == 0x3000

/-- `str::trim_end` -/
def trimEnd (s : List Char) : List Char := s.rdropWhile isWhitespace

/-- `str::trim` -/
def trim (s : List Char) : List Char := trimEnd (s.dropWhile isWhitespace)

namespace Config

/-- A space or a tab. -/
def isBlank (c : Char) : Bool := c = ' ' || c = '\t'

/-- A letter of the ASCII alphabet. -/
def isLetter (c : Char) : Bool := ('a' ≤ c && c ≤ 'z') || ('A' ≤ c && c ≤ 'Z')

/-- A letter or a digit. -/
def isAlnum (c : Char) : Bool := isLetter c || ('0' ≤ c && c ≤ '9')

/-- Not a part of a line terminator. -/
def inLine (c : Char) : Bool := c ≠ '\n' && c ≠ '\r'

/-! ## The grammar

Rule by rule, under the names of the source, with the expressions of the library. The actions
build entries with spans. -/

/-- `_` -/
def blanks : Peg (List Char) := many (satisfy isBlank)

/-- `__` -/
def blanks1 : Peg (List Char) := many1 (satisfy isBlank)

/-- A line terminator, the longest one first. -/
def newline : Peg Unit := lit ['\r', '\n'] <|> lit ['\n'] <|> lit ['\r']

/-- A letter, and letters and digits behind it. -/
def keyword : Peg (Spanned (List Char)) := do
  let s ← position
  let k ← slice do
    let _ ← satisfy isLetter
    many (satisfy isAlnum)
  let e ← position
  pure ⟨k, ⟨s, e⟩⟩

/-- The rest of the line, without white space at its end. -/
def rawArguments : Peg (Spanned (List Char)) := do
  let s ← position
  let v ← slice (many (satisfy inLine))
  let trimmed := trimEnd v
  pure ⟨trimmed, ⟨s, s + byteLen trimmed⟩⟩

/-- An equals sign with blanks around it, or blanks. -/
def separator : Peg Unit :=
  (do let _ ← blanks
      lit ['=']
      let _ ← blanks
      pure ()) <|>
  (do let _ ← blanks1
      pure ())

/-- A keyword with arguments, or a keyword. -/
def directive : Peg RawEntry :=
  (do let _ ← blanks
      let kw ← keyword
      separator
      let args ← rawArguments
      pure (.directive ⟨kw, args⟩)) <|>
  (do let _ ← blanks
      let kw ← keyword
      let _ ← blanks
      let e ← position
      pure (.directive ⟨kw, ⟨[], ⟨e, e⟩⟩⟩))

/-- A hash sign, and the rest of the line. -/
def comment : Peg RawEntry := do
  let s ← position
  let _ ← blanks
  lit ['#']
  let v ← slice (many (satisfy inLine))
  let e ← position
  pure (.comment ⟨trim v, ⟨s, e⟩⟩)

/-- `&(newline() / ![_])` -/
def atLineEnd : Peg Unit := lookahead (newline <|> notFollowedBy (satisfy fun _ => true))

/-- Nothing, or blanks. -/
def emptyLine : Peg RawEntry :=
  (do let s ← position
      atLineEnd
      let e ← position
      pure (.empty ⟨s, e⟩)) <|>
  (do let s ← position
      let _ ← many1 (satisfy isBlank)
      atLineEnd
      let e ← position
      pure (.empty ⟨s, e⟩))

/-- Anything. -/
def unknownLine : Peg RawEntry := do
  let s ← position
  let v ← slice (many1 (satisfy inLine))
  let e ← position
  pure (.unknown ⟨v, ⟨s, e⟩⟩)

/-- The alternatives, in this order. -/
def line : Peg RawEntry := emptyLine <|> comment <|> directive <|> unknownLine

/-- A line terminator and the next line. -/
def nextLine : Peg RawEntry := do
  newline
  line

/-- Lines with terminators in between, and perhaps one behind. -/
def config : Peg (List RawEntry) := do
  let first ← line
  let rest ← many nextLine
  let _ ← optional newline
  pure (first :: rest)

/-- A text that does not match becomes a single entry. -/
def parse (input : List Char) : List RawEntry :=
  (config.parse input).getD [.unknown ⟨input, ⟨0, byteLen input⟩⟩]

/-! ## The end of a line

A line ends at a terminator or at the end of the text. Whatever consists of characters of a line
stops there. -/

/-- The text is at its end, or a line terminator comes next. -/
def LineEnd (r : List Char) : Prop := Stops inLine r

/-- There is no line terminator in the line. -/
def IsLine (l : List Char) : Prop := ∀ c ∈ l, inLine c = true

instance : DecidablePred IsLine := List.decidableBAll (inLine · = true)

variable {n : ℕ} {l r x y : List Char}

/-- A line ends at the end of the text or in front of a terminator. -/
theorem LineEnd.cases (h : LineEnd r) : r = [] ∨ ∃ c s, r = c :: s ∧ (c = '\n' ∨ c = '\r') := by
  cases r with
  | nil => exact Or.inl rfl
  | cons c s =>
    have hc := stops_cons.mp h
    refine Or.inr ⟨c, s, rfl, ?_⟩
    by_contra hne
    rw [not_or] at hne
    simp [inLine, hne.1, hne.2] at hc

/-- What is not in a line stops whatever consists of characters of a line. -/
theorem LineEnd.stops {f : Char → Bool} (h : LineEnd r) (hn : f '\n' = false)
    (hr : f '\r' = false) : Stops f r := by
  rcases h.cases with rfl | ⟨c, s, rfl, rfl | rfl⟩
  · exact stops_nil f
  · exact stops_cons.mpr hn
  · exact stops_cons.mpr hr

/-- A class stops at the end of a part if it stops at what follows it. -/
theorem stops_append {f : Char → Bool} (hx : Stops f x) (hr : Stops f r) : Stops f (x ++ r) := by
  cases x with
  | nil => exact hr
  | cons c x => exact hx

/-- At the end of a line, the test succeeds and consumes nothing. -/
theorem reads_newline_or_end (h : LineEnd r) (n : ℕ) : atLineEnd.Reads n [] () r := by
  rcases h.cases with rfl | ⟨c, s, rfl, hc⟩
  · have hend : (newline <|> notFollowedBy (satisfy fun _ => true)).Reads n [] () [] := rfl
    exact hend.lookahead
  · have hnewline : ∃ x t, c :: s = x ++ t ∧ newline.Reads n x () t := by
      rcases hc with rfl | rfl
      · refine ⟨['\n'], s, rfl, ?_⟩
        exact (fails_lit_cons (by simp) n).orElse (reads_lit n ['\n'] s).orElse
      · cases s with
        | nil => exact ⟨['\r'], [], rfl, rfl⟩
        | cons d s =>
          by_cases hd : d = '\n'
          · exact ⟨['\r', '\n'], s, by rw [hd]; rfl, (reads_lit n ['\r', '\n'] s).orElse⟩
          · refine ⟨['\r'], d :: s, rfl, ?_⟩
            have hlit : (lit ['\r', '\n']).Fails n ('\r' :: d :: s) := by
              refine fails_lit ?_ n
              simpa using fun h => hd h.symm
            exact hlit.orElse ((fails_lit_cons (by simp) n).orElse (reads_lit n ['\r'] _))
    obtain ⟨x, t, hxt, hreads⟩ := hnewline
    rw [hxt]
    exact hreads.orElse.lookahead

/-- In front of a character of a line, there is no terminator. -/
theorem fails_newline (h : ∀ c ∈ x.head?, inLine c = true) (n : ℕ) : newline.Fails n x := by
  have hn : x.head? ≠ some '\n' := by
    intro hx
    exact absurd (h _ hx) (by decide)
  have hr : x.head? ≠ some '\r' := by
    intro hx
    exact absurd (h _ hx) (by decide)
  exact (fails_lit_cons hr n).orElse_fails
    ((fails_lit_cons hn n).orElse_fails (fails_lit_cons hr n))

/-- In front of a character of a line, it is not at its end. -/
theorem fails_atLineEnd {c : Char} (hc : inLine c = true) (s : List Char) (n : ℕ) :
    atLineEnd.Fails n (c :: s) := by
  have hnewline : newline.Fails n (c :: s) := fails_newline (by simpa using hc) n
  have hany : (satisfy fun _ => true).Reads n [c] c s := reads_satisfy rfl n s
  exact (hnewline.orElse_fails hany.notFollowedBy).lookahead

/-! ## The forms of a line

A line is blank, a comment, a keyword with or without arguments, or something that begins with no
keyword. For these there is an entry. What is left is a keyword with something directly behind it
that neither separates nor ends. -/

end Config

/-- The place of a span in a text that has `n` more bytes in front. -/
def Span.shift (n : ℕ) (s : Span) : Span := ⟨n + s.start, n + s.stop⟩

/-- The same for what is there. -/
def Spanned.shift {α : Type} (n : ℕ) (s : Spanned α) : Spanned α :=
  { s with span := s.span.shift n }

/-- The same for an entry. -/
def RawEntry.shift (n : ℕ) : RawEntry → RawEntry
  | .empty s => .empty (s.shift n)
  | .comment t => .comment (t.shift n)
  | .directive d => .directive ⟨d.keyword.shift n, d.arguments.shift n⟩
  | .unknown t => .unknown (t.shift n)

namespace Config

/-- There are blanks only. -/
def IsBlanks (b : List Char) : Prop := ∀ c ∈ b, isBlank c = true

instance : DecidablePred IsBlanks := List.decidableBAll (isBlank · = true)

/-- A letter, and letters and digits behind it. -/
def IsKeyword (k : List Char) : Prop :=
  ∃ c s, k = c :: s ∧ isLetter c = true ∧ ∀ d ∈ s, isAlnum d = true

/-- `s` separates a keyword from arguments that begin with `v`. -/
inductive Separates : List Char → List Char → Prop
  /-- With an equals sign. -/
  | assign {x y v : List Char} (hx : IsBlanks x) (hy : IsBlanks y) (hv : Stops isBlank v) :
      Separates (x ++ '=' :: y) v
  /-- Without one. -/
  | blank {x v : List Char} (hne : x ≠ []) (hx : IsBlanks x) (hv : Stops isBlank v)
      (heq : v.head? ≠ some '=') : Separates x v

/-- A directive without its indentation, and where its parts are in the text. -/
def directiveAt (n : ℕ) (k s v : List Char) : RawEntry :=
  .directive ⟨⟨k, n, n + byteLen k⟩, ⟨trimEnd v, n + byteLen k + byteLen s,
    n + byteLen k + byteLen s + byteLen (trimEnd v)⟩⟩

/-- The forms of a line that is read to its end, and the entry it is for. -/
inductive LineForm : List Char → RawEntry → Prop
  /-- Nothing but blanks. -/
  | blank {b : List Char} (hb : IsBlanks b) : LineForm b (.empty ⟨0, byteLen b⟩)
  /-- A comment. -/
  | comment {b v : List Char} (hb : IsBlanks b) :
      LineForm (b ++ '#' :: v) (.comment ⟨trim v, 0, byteLen (b ++ '#' :: v)⟩)
  /-- A keyword with arguments. -/
  | directive {b k s v : List Char} (hb : IsBlanks b) (hk : IsKeyword k) (hs : Separates s v) :
      LineForm (b ++ (k ++ (s ++ v))) (directiveAt (byteLen b) k s v)
  /-- A keyword without any. -/
  | keyword {b k : List Char} (hb : IsBlanks b) (hk : IsKeyword k) :
      LineForm (b ++ k) (directiveAt (byteLen b) k [] [])
  /-- What begins with neither a letter nor a hash sign. -/
  | unknown {b : List Char} {c : Char} {v : List Char} (hb : IsBlanks b) (hc : isBlank c = false)
      (hletter : isLetter c = false) (hhash : c ≠ '#') :
      LineForm (b ++ c :: v) (.unknown ⟨b ++ c :: v, 0, byteLen (b ++ c :: v)⟩)

/-- The line begins with a keyword, and behind it is neither its end nor a separator. -/
def Splits (l : List Char) : Prop :=
  ∃ b k c s, l = b ++ (k ++ c :: s) ∧ IsBlanks b ∧ IsKeyword k ∧ isAlnum c = false ∧
    isBlank c = false ∧ c ≠ '='

/-- **The forms of a line.** There are five that are read to their end, and one that is not. -/
theorem lineForm_or_splits (l : List Char) : (∃ e, LineForm l e) ∨ Splits l := by
  obtain ⟨b, t, rfl, hb, ht⟩ := exists_span isBlank l
  rcases t with _ | ⟨c, t⟩
  · rw [List.append_nil]
    exact Or.inl ⟨_, .blank hb⟩
  have hc := stops_cons.mp ht
  by_cases hhash : c = '#'
  · subst hhash
    exact Or.inl ⟨_, .comment hb⟩
  rcases Bool.eq_false_or_eq_true (isLetter c) with hletter | hletter
  swap
  · exact Or.inl ⟨_, .unknown hb hc hletter hhash⟩
  obtain ⟨k, u, rfl, hk, hu⟩ := exists_span isAlnum t
  have hkey : IsKeyword (c :: k) := ⟨c, k, rfl, hletter, hk⟩
  obtain ⟨x, v, rfl, hx, hv⟩ := exists_span isBlank u
  rcases v with _ | ⟨d, v⟩
  · -- nothing but blanks behind the keyword
    rcases eq_or_ne x [] with rfl | hne
    · exact Or.inl ⟨_, by simpa using LineForm.keyword hb hkey⟩
    · exact Or.inl ⟨_, .directive hb hkey (.blank hne hx hv (by simp))⟩
  have hd := stops_cons.mp hv
  by_cases heq : d = '='
  · subst heq
    obtain ⟨y, w, rfl, hy, hw⟩ := exists_span isBlank v
    refine Or.inl ⟨directiveAt (byteLen b) (c :: k) (x ++ '=' :: y) w, ?_⟩
    simpa using LineForm.directive hb hkey (.assign hx hy hw)
  rcases eq_or_ne x [] with rfl | hne
  · exact Or.inr ⟨b, c :: k, d, v, rfl, hb, hkey, stops_cons.mp hu, hd, heq⟩
  · exact Or.inl ⟨_, .directive hb hkey (.blank hne hx hv (by simpa using heq))⟩

/-! ### The classes of characters

How the classes overlap. Each of these is a finite check on characters below 128 or a consequence
of one. -/

variable {b k s v t : List Char} {c : Char} {e : RawEntry}

theorem isBlank_iff : isBlank c = true ↔ c = ' ' ∨ c = '\t' := by
  simp [isBlank]

theorem isLetter_of_isBlank (h : isBlank c = true) : isLetter c = false := by
  rcases isBlank_iff.mp h with rfl | rfl <;> decide

theorem isAlnum_of_isBlank (h : isBlank c = true) : isAlnum c = false := by
  rcases isBlank_iff.mp h with rfl | rfl <;> decide

theorem inLine_of_isBlank (h : isBlank c = true) : inLine c = true := by
  rcases isBlank_iff.mp h with rfl | rfl <;> decide

theorem isAlnum_of_isLetter (h : isLetter c = true) : isAlnum c = true := by
  rw [isAlnum, h, Bool.true_or]

theorem isBlank_of_isLetter (h : isLetter c = true) : isBlank c = false := by
  by_contra hblank
  rw [Bool.not_eq_false] at hblank
  rw [isLetter_of_isBlank hblank] at h
  exact Bool.false_ne_true h

theorem inLine_iff : inLine c = true ↔ c ≠ '\n' ∧ c ≠ '\r' := by
  simp [inLine]

theorem inLine_of_isAlnum (h : isAlnum c = true) : inLine c = true := by
  rw [inLine_iff]
  constructor
  · rintro rfl
    exact absurd h (by decide)
  · rintro rfl
    exact absurd h (by decide)

/-! ### Which lines split

The form that is not read to its end can be computed, so that it can be decided of a concrete
line. -/

/-- Whether a line splits: what stands behind its blanks and its first letters and digits. -/
def splits (l : List Char) : Bool :=
  match l.dropWhile isBlank with
  | [] => false
  | c :: t => isLetter c && (t.dropWhile isAlnum).head?.any fun d => !isBlank d && d != '='

/-- The test is right. -/
theorem splits_iff {l : List Char} : splits l = true ↔ Splits l := by
  constructor
  · intro h
    rw [splits] at h
    split at h
    · cases h
    · rename_i c t hdrop
      obtain ⟨hc, hany⟩ := Bool.and_eq_true_iff.mp h
      obtain ⟨d, hhead, hd⟩ := (Option.any_eq_true _ _).mp hany
      obtain ⟨s, hs⟩ := List.head?_eq_some_iff.mp hhead
      simp only [Bool.and_eq_true, Bool.not_eq_true', bne_iff_ne] at hd
      refine ⟨l.takeWhile isBlank, c :: t.takeWhile isAlnum, d, s, ?_, ?_, ?_, ?_, hd.1, hd.2⟩
      · rw [← hs, List.cons_append, List.takeWhile_append_dropWhile, ← hdrop,
          List.takeWhile_append_dropWhile]
      · exact fun x hx => List.mem_takeWhile_imp hx
      · exact ⟨c, _, rfl, hc, fun x hx => List.mem_takeWhile_imp hx⟩
      · have hnot := List.head?_dropWhile_not isAlnum t
        rw [hhead] at hnot
        exact hnot
  · rintro ⟨b, k, d, s, rfl, hb, ⟨c, t, rfl, hc, ht⟩, halnum, hblank, heq⟩
    have hdrop : (b ++ (c :: t ++ d :: s)).dropWhile isBlank = c :: (t ++ d :: s) := by
      rw [List.dropWhile_append_of_pos hb, List.cons_append,
        List.dropWhile_cons_of_neg (by simp [isBlank_of_isLetter hc])]
    have hrest : (t ++ d :: s).dropWhile isAlnum = d :: s := by
      rw [List.dropWhile_append_of_pos ht, List.dropWhile_cons_of_neg (by simp [halnum])]
    rw [splits, hdrop]
    simp [hrest, hc, hblank, heq]

instance : DecidablePred Splits := fun _ => decidable_of_iff _ splits_iff

/-! ### The rules

For each rule, what it reads and where it fails, in terms of the forms. The failures are needed
because a choice goes to its next alternative only there. -/

/-- White space does not hide what comes behind it. -/
theorem reads_blanks (hb : IsBlanks b) (hr : Stops isBlank r) (n : ℕ) : blanks.Reads n b b r :=
  .span hb hr n

/-- A keyword stops what does not go on at letters. -/
theorem IsKeyword.stops (h : IsKeyword k) {f : Char → Bool}
    (hf : ∀ c, isLetter c = true → f c = false) (r : List Char) : Stops f (k ++ r) := by
  obtain ⟨c, s, rfl, hc, -⟩ := h
  exact stops_cons.mpr (hf c hc)

/-- A keyword is on one line. -/
theorem IsKeyword.inLine (h : IsKeyword k) : IsLine k := by
  obtain ⟨c, s, rfl, hc, hs⟩ := h
  refine List.forall_mem_cons.mpr ⟨inLine_of_isAlnum (isAlnum_of_isLetter hc), ?_⟩
  intro d hd
  exact inLine_of_isAlnum (hs d hd)

/-- A keyword is read as far as it goes. -/
theorem reads_keyword (h : IsKeyword k) (hr : Stops isAlnum r) (n : ℕ) :
    keyword.Reads n k ⟨k, n, n + byteLen k⟩ r := by
  obtain ⟨c, s, rfl, hc, hs⟩ := h
  refine reads_position_bind.mpr (Reads.bind_nil (Reads.slice (a := s) ?_) ?_)
  · exact Reads.bind (x := [c]) (reads_satisfy hc n _) (.span hs hr _)
  · exact reads_position_bind.mpr (reads_pure _ _ r)

/-- Without a letter there is none. -/
theorem fails_keyword (h : Stops isLetter t) (n : ℕ) : keyword.Fails n t :=
  fails_position_bind.mpr (fails_satisfy h n).bind.slice.bind

/-- The arguments are the rest of the line. -/
theorem reads_rawArguments (hv : IsLine v) (hr : LineEnd r) (n : ℕ) :
    rawArguments.Reads n v ⟨trimEnd v, n, n + byteLen (trimEnd v)⟩ r := by
  refine reads_position_bind.mpr (Reads.bind_nil (Reads.slice (.span hv hr n)) ?_)
  exact reads_pure _ _ r

/-- A separator is read as far as it goes. -/
theorem reads_separator (h : Separates s v) (hr : LineEnd r) (n : ℕ) :
    separator.Reads n s () (v ++ r) := by
  cases h with
  | assign hx hy hv =>
    refine Reads.orElse ((reads_blanks hx (stops_cons.mpr (by decide)) n).bind ?_)
    refine Reads.bind (x := ['=']) (reads_lit _ _ _) ?_
    exact (reads_blanks hy (stops_append hv (hr.stops (by decide) (by decide))) _).bind_nil
      (reads_pure _ _ _)
  | blank hne hx hv heq =>
    have hstop := stops_append hv (hr.stops (by decide) (by decide))
    have hlit : (v ++ r).head? ≠ some '=' := by
      cases v with
      | nil =>
        rcases hr.cases with rfl | ⟨c, t, rfl, rfl | rfl⟩ <;> simp
      | cons d v => exact heq
    refine Fails.orElse ((reads_blanks hx hstop n).bind_fails (fails_lit_cons hlit _).bind) ?_
    exact (Reads.span1 hne hx hstop n).bind_nil (reads_pure _ _ _)

/-- Without a blank or an equals sign there is none. -/
theorem fails_separator (ht : Stops isBlank t) (heq : t.head? ≠ some '=') (n : ℕ) :
    separator.Fails n t := by
  refine Fails.orElse_fails ?_ (fails_span1 ht n).bind
  exact Reads.bind_fails (x := []) (reads_blanks (by simp [IsBlanks]) ht n)
    (fails_lit_cons heq _).bind

/-- Blanks up to the end of the line are an empty line. -/
theorem reads_emptyLine (hb : IsBlanks b) (hr : LineEnd r) (n : ℕ) :
    emptyLine.Reads n b (.empty ⟨n, n + byteLen b⟩) r := by
  cases b with
  | nil =>
    refine Reads.orElse (reads_position_bind.mpr ?_)
    exact (reads_newline_or_end hr n).bind_nil (reads_position_bind.mpr (reads_pure _ _ _))
  | cons c b =>
    have hc := inLine_of_isBlank (hb c List.mem_cons_self)
    refine Fails.orElse (fails_position_bind.mpr (fails_atLineEnd hc _ n).bind) ?_
    refine reads_position_bind.mpr (Reads.bind_nil
      (.span1 (List.cons_ne_nil c b) hb (hr.stops (by decide) (by decide)) n) ?_)
    exact (reads_newline_or_end hr _).bind_nil (reads_position_bind.mpr (reads_pure _ _ _))

/-- Anything behind them is not. -/
theorem fails_emptyLine (hb : IsBlanks b) (hblank : isBlank c = false) (hc : inLine c = true)
    (t : List Char) (n : ℕ) : emptyLine.Fails n (b ++ c :: t) := by
  have hstop : Stops isBlank (c :: t) := stops_cons.mpr hblank
  cases b with
  | nil =>
    refine Fails.orElse_fails (fails_position_bind.mpr (fails_atLineEnd hc t n).bind) ?_
    exact fails_position_bind.mpr (fails_span1 hstop n).bind
  | cons d b =>
    have hd := inLine_of_isBlank (hb d List.mem_cons_self)
    refine Fails.orElse_fails (fails_position_bind.mpr (fails_atLineEnd hd _ n).bind) ?_
    refine fails_position_bind.mpr
      (Reads.bind_fails (.span1 (List.cons_ne_nil d b) hb hstop n) ?_)
    exact (fails_atLineEnd hc t _).bind

/-- A hash sign behind blanks begins a comment. -/
theorem reads_comment (hb : IsBlanks b) (hv : IsLine v) (hr : LineEnd r) (n : ℕ) :
    comment.Reads n (b ++ '#' :: v) (.comment ⟨trim v, n, n + byteLen (b ++ '#' :: v)⟩) r := by
  refine reads_position_bind.mpr
    ((reads_blanks hb (stops_cons.mpr (by decide)) n).bind ?_)
  refine Reads.bind (x := ['#']) (reads_lit _ _ _) ((Reads.slice (.span hv hr _)).bind_nil ?_)
  refine reads_position_bind.mpr (reads_pure_iff.mpr ⟨rfl, ?_⟩)
  simp [Nat.add_assoc]

/-- Nothing else does. -/
theorem fails_comment (hb : IsBlanks b) (hblank : isBlank c = false) (hhash : c ≠ '#')
    (t : List Char) (n : ℕ) : comment.Fails n (b ++ c :: t) := by
  refine fails_position_bind.mpr
    ((reads_blanks hb (stops_cons.mpr hblank) n).bind_fails (Fails.bind ?_))
  exact fails_lit_cons (by simpa using hhash) _

/-- A keyword and its arguments are read to the end of the line. -/
theorem reads_directive (hb : IsBlanks b) (hk : IsKeyword k) (hs : Separates s v) (hv : IsLine v)
    (hr : LineEnd r) (n : ℕ) :
    directive.Reads n (b ++ (k ++ (s ++ v))) (directiveAt (n + byteLen b) k s v) r := by
  have hstop : Stops isAlnum (s ++ v ++ r) := by
    cases hs with
    | @assign x y v hx hy hv =>
      cases x with
      | nil => exact stops_cons.mpr (by decide)
      | cons d x => exact stops_cons.mpr (isAlnum_of_isBlank (hx d List.mem_cons_self))
    | blank hne hx hv heq =>
      cases s with
      | nil => exact absurd rfl hne
      | cons d s => exact stops_cons.mpr (isAlnum_of_isBlank (hx d List.mem_cons_self))
  have hblank : Stops isBlank (k ++ (s ++ v) ++ r) := by
    rw [List.append_assoc]
    exact hk.stops (fun _ => isBlank_of_isLetter) _
  refine Reads.orElse ((reads_blanks hb hblank n).bind ?_)
  refine (reads_keyword hk hstop _).bind ((reads_separator hs hr _).bind ?_)
  exact (reads_rawArguments hv hr _).bind_nil (reads_pure _ _ _)

/-- Without a separator the keyword is all that is read. -/
theorem reads_directive_keyword (hb : IsBlanks b) (hk : IsKeyword k) (halnum : Stops isAlnum t)
    (hblank : Stops isBlank t) (heq : t.head? ≠ some '=') (n : ℕ) :
    directive.Reads n (b ++ k) (directiveAt (n + byteLen b) k [] []) t := by
  have hstop : Stops isBlank (k ++ t) := hk.stops (fun _ => isBlank_of_isLetter) t
  have hkeyword := reads_keyword hk halnum (n + byteLen b)
  refine Fails.orElse ?_ ?_
  · rw [List.append_assoc]
    refine (reads_blanks hb hstop n).bind_fails (hkeyword.bind_fails ?_)
    exact (fails_separator hblank heq _).bind
  · refine (reads_blanks hb hstop n).bind (hkeyword.bind_nil ?_)
    refine Reads.bind_nil (x := []) (reads_blanks (by simp [IsBlanks]) hblank _) ?_
    exact reads_position_bind.mpr (reads_pure _ _ _)

/-- Without a letter there is no directive. -/
theorem fails_directive (hb : IsBlanks b) (hblank : isBlank c = false)
    (hletter : isLetter c = false) (t : List Char) (n : ℕ) : directive.Fails n (b ++ c :: t) := by
  have hblanks := reads_blanks hb (stops_cons.mpr hblank : Stops isBlank (c :: t)) n
  have hkeyword := fails_keyword (stops_cons.mpr hletter : Stops isLetter (c :: t)) (n + byteLen b)
  exact (hblanks.bind_fails hkeyword.bind).orElse_fails (hblanks.bind_fails hkeyword.bind)

/-- Any other line is read to its end. -/
theorem reads_unknownLine (hne : v ≠ []) (hv : IsLine v) (hr : LineEnd r) (n : ℕ) :
    unknownLine.Reads n v (.unknown ⟨v, n, n + byteLen v⟩) r := by
  refine reads_position_bind.mpr ((Reads.slice (.span1 hne hv hr n)).bind_nil ?_)
  exact reads_position_bind.mpr (reads_pure _ _ _)

/-! ### The line

The alternatives in their order. A line of one of the forms is read by the first rule that is for
it; a line that splits is read in part by the rule for directives, and the catch-all behind it is
not reached. -/

@[simp] theorem shift_directiveAt (n m : ℕ) (k s v : List Char) :
    (directiveAt m k s v).shift n = directiveAt (n + m) k s v := by
  simp [directiveAt, RawEntry.shift, Spanned.shift, Span.shift, Nat.add_assoc]

/-- A line that begins with a keyword is neither empty nor a comment. -/
theorem reads_line_of_directive (hb : IsBlanks b) (hk : IsKeyword k)
    (h : directive.Reads n (b ++ (k ++ v)) e r) : line.Reads n (b ++ (k ++ v)) e r := by
  obtain ⟨c, s, rfl, hc, -⟩ := hk
  have hblank := isBlank_of_isLetter hc
  have hhash : c ≠ '#' := by
    rintro rfl
    exact absurd hc (by decide)
  refine Fails.orElse ?_ (Fails.orElse ?_ h.orElse)
  · rw [List.append_assoc]
    exact fails_emptyLine hb hblank (inLine_of_isAlnum (isAlnum_of_isLetter hc)) _ n
  · rw [List.append_assoc]
    exact fails_comment hb hblank hhash _ n

/-- A line of one of the forms is read to its end. -/
theorem reads_line (h : LineForm l e) (hl : IsLine l) (hr : LineEnd r) (n : ℕ) :
    line.Reads n l (e.shift n) r := by
  cases h with
  | blank hb => exact (reads_emptyLine hb hr n).orElse
  | @comment b v hb =>
    have hv : IsLine v := fun c hc => hl c (by simp [hc])
    refine Fails.orElse ?_ (reads_comment hb hv hr n).orElse
    rw [List.append_assoc]
    exact fails_emptyLine hb (by decide) (by decide) _ n
  | @directive b k s v hb hk hs =>
    have hv : IsLine v := fun c hc => hl c (by simp [hc])
    rw [shift_directiveAt]
    exact reads_line_of_directive hb hk (reads_directive hb hk hs hv hr n)
  | @keyword b k hb hk =>
    have heq : r.head? ≠ some '=' := by
      rcases hr.cases with rfl | ⟨c, t, rfl, rfl | rfl⟩ <;> simp
    have hdirective := reads_directive_keyword hb hk (hr.stops (by decide) (by decide))
      (hr.stops (by decide) (by decide)) heq n
    have hline := reads_line_of_directive (v := []) hb hk (by rwa [List.append_nil])
    rwa [List.append_nil, ← shift_directiveAt] at hline
  | @unknown b c v hb hblank hletter hhash =>
    have hc : inLine c = true := hl c (by simp)
    refine Fails.orElse ?_ (Fails.orElse ?_ (Fails.orElse ?_ ?_))
    · rw [List.append_assoc]
      exact fails_emptyLine hb hblank hc _ n
    · rw [List.append_assoc]
      exact fails_comment hb hblank hhash _ n
    · rw [List.append_assoc]
      exact fails_directive hb hblank hletter _ n
    · exact reads_unknownLine (by simp) hl hr n

/-- A line that splits is read up to a character of the line. -/
theorem reads_line_of_splits (h : Splits l) (hl : IsLine l) (n : ℕ) (r : List Char) :
    ∃ x c s e, l = x ++ c :: s ∧ inLine c = true ∧ line.Reads n x e (c :: s ++ r) := by
  obtain ⟨b, k, c, s, rfl, hb, hk, halnum, hblank, heq⟩ := h
  refine ⟨b ++ k, c, s, directiveAt (n + byteLen b) k [] [], by simp, hl c (by simp), ?_⟩
  have hdirective := reads_directive_keyword (t := c :: s ++ r) hb hk (stops_cons.mpr halnum)
    (stops_cons.mpr hblank) (by simpa using heq) n
  have hline := reads_line_of_directive (v := []) hb hk (by rwa [List.append_nil])
  rwa [List.append_nil] at hline

end Config

end Dssh
