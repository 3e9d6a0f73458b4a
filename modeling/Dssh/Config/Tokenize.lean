import Dssh.Config.SourceFile

/-!
# Tokens

The arguments of a directive are split at blanks, and what stands between double quotes is one
token whatever it contains. The tokenizer works on byte offsets of the arguments and cuts the
tokens out of them; a cut inside of a character would be a panic, which is the result `none`.

A file written from directives, with the tokens in double quotes, is read as these directives.

## The tokenizer

It is a loop with an index into the bytes. A round skips blanks, and looks at the byte that
follows. At a quote the token goes up to the next quote, or to the end if there is none; an
unterminated quote is not an error. At any other byte it goes up to the next blank or quote, and
so `a"b"` is two tokens. Nothing is escaped: a quote cannot be a part of a token.

The loop consumes at least a byte in each round, and `tokensFrom` has one round more than there
are bytes. The result is `none` for a cut that is not at a boundary, and would be if the rounds
ran out; both are shown not to happen where it matters.

## The round trip

What can be written? Tokens without quotes and line terminators, any other characters included,
blanks and hash signs too, since a token may be written in double quotes. So `render` quotes
every token, and `written_read` is the round trip: keywords and tokens come back, in the right
lines.

The exception is the empty file. It is written from no directives and read as one entry, an
empty line. This is deliberate in the source, which has a test for it, and the statement says
what there is.

A keyword without tokens is written without anything behind it, and read by the other form of a
directive.

## Main definitions

* `Located.tokenize` — the tokenizer
* `Written`, `Written.render` — directives that can be written, and how
* `ReadAsWritten` — a file is read as what it was written from

## Main results

* `tokensFrom_quoted` — a token in double quotes
* `tokenize_quoted` — tokens in double quotes are what tokenizing gives
* `written_read` — a file of directives
-/

namespace Dssh

open Config

/-! ## The tokenizer

The loop of the source with its index. Where it slices, the model cuts, and `none` stands for a
panic; the bound on the rounds is one more than there are bytes. -/

/-- `b' ' | b'\t'` -/
def isBlankByte (b : UInt8) : Bool := b == ' '.toUInt8 || b == '\t'.toUInt8

/-- `b'"'` -/
def isQuoteByte (b : UInt8) : Bool := b == '"'.toUInt8

/-- The bytes of blanks are those of blanks. -/
theorem agrees_isBlank : Agrees isBlankByte isBlank :=
  (agrees_ascii (by decide)).or (agrees_ascii (by decide))

/-- The location of a part of what is here, between two offsets in it. -/
def Location.part (l : Location) (start stop : ℕ) : Location :=
  ⟨l.path, ⟨l.span.start + start, l.span.start + stop⟩, l.line, l.column + start⟩

namespace Located

variable (a : Located (List Char))

/-- The token between two offsets, if these are at boundaries. -/
def token (start stop : ℕ) : Option (Located (List Char)) :=
  (sliceBytes a.value start stop).map fun v => ⟨v, a.location.part start stop⟩

/-- A token that begins with the quote at `i`, and where the next one may begin. Without a closing
quote it extends to the end. -/
def quotedToken (i : ℕ) : Option (Located (List Char) × ℕ) := do
  let contentStart := i + 1
  let rest ← sliceBytes a.value contentStart (byteLen a.value)
  let contentEnd := ((findChar '"' rest).map (contentStart + ·)).getD (byteLen a.value)
  let t ← a.token contentStart contentEnd
  some (t, if contentEnd < byteLen a.value then contentEnd + 1 else contentEnd)

/-- A token up to the next blank or quote. -/
def plainToken (i : ℕ) : Option (Located (List Char) × ℕ) := do
  let stop := scan (fun b => !(isBlankByte b || isQuoteByte b)) (utf8 a.value) i
  let t ← a.token i stop
  some (t, stop)

/-- The tokens from `i` on. The number bounds the rounds. -/
def tokensFrom : ℕ → ℕ → Option (List (Located (List Char)))
  | 0, _ => none
  | fuel + 1, i =>
    let j := scan isBlankByte (utf8 a.value) i
    match (utf8 a.value)[j]? with
    | none => some []
    | some b => do
      let (t, next) ← if isQuoteByte b then a.quotedToken j else a.plainToken j
      let ts ← tokensFrom fuel next
      some (t :: ts)

/-- Each round consumes a byte, so there is one to spare. -/
def tokenize : Option (List (Located (List Char))) := a.tokensFrom (byteLen a.value + 1) 0

end Located

/-! ## Tokens in double quotes

Any token without a double quote can be written between two of them, the empty token and blanks
included. The tokenizer gives the tokens back, in order. -/

/-- A token as it is written. -/
def quote (t : List Char) : List Char := '"' :: (t ++ ['"'])

/-- The quotes are two bytes. -/
theorem byteLen_quote (t : List Char) : byteLen (quote t) = byteLen t + 2 := by
  rw [quote, byteLen_cons, byteLen_append]
  change 1 + (byteLen t + 1) = _
  omega

/-- There are fewer tokens than bytes. -/
theorem length_le_byteLen (ts : List (List Char)) :
    ts.length ≤ byteLen (ts.flatMap fun t => [' '] ++ quote t) := by
  induction ts with
  | nil => exact Nat.zero_le _
  | cons t ts ih =>
    rw [List.flatMap_cons, byteLen_append, byteLen_append, byteLen_quote, List.length_cons]
    omega

namespace Located

variable {a : Located (List Char)} {x y b t : List Char}

/-- A token that is there is cut out. -/
theorem token_append (h : a.value = x ++ (t ++ y)) : a.token (byteLen x) (byteLen x + byteLen t) =
    some ⟨t, a.location.part (byteLen x) (byteLen x + byteLen t)⟩ := by
  rw [token, h, sliceBytes_append, Option.map_some]

/-- A token in quotes is what is between them. -/
theorem quotedToken_quote (h : a.value = x ++ (quote t ++ y)) (ht : '"' ∉ t) :
    a.quotedToken (byteLen x) =
      some (⟨t, a.location.part (byteLen x + 1) (byteLen x + 1 + byteLen t)⟩,
        byteLen (x ++ quote t)) := by
  have hvalue : a.value = (x ++ ['"']) ++ (t ++ '"' :: y) := by
    rw [h]
    simp [quote]
  have hstart : byteLen (x ++ ['"']) = byteLen x + 1 := byteLen_append x ['"']
  have hlength : byteLen a.value = byteLen x + 1 + byteLen (t ++ '"' :: y) := by
    rw [hvalue, byteLen_append, hstart]
  have hrest : sliceBytes a.value (byteLen x + 1) (byteLen a.value) = some (t ++ '"' :: y) := by
    rw [hlength, hvalue, ← hstart]
    exact sliceBytes_append_end _ _
  have htoken := token_append hvalue
  rw [hstart] at htoken
  have hlt : byteLen x + 1 + byteLen t < byteLen a.value := by
    rw [hlength, byteLen_append, byteLen_cons]
    have := '"'.utf8Size_pos
    omega
  have hend : byteLen (x ++ quote t) = byteLen x + 1 + byteLen t + 1 := by
    rw [byteLen_append, byteLen_quote]
    omega
  rw [quotedToken, hrest, hend]
  simp only [Option.bind_eq_bind, Option.bind_some, findChar_append ht, Option.map_some,
    Option.getD_some, htoken, if_pos hlt]

/-- Blanks and a token in double quotes. -/
theorem tokensFrom_quoted (h : a.value = x ++ (b ++ (quote t ++ y))) (hb : IsBlanks b)
    (ht : '"' ∉ t) (fuel : ℕ) :
    a.tokensFrom (fuel + 1) (byteLen x) =
      (a.tokensFrom fuel (byteLen (x ++ b ++ quote t))).map
        (⟨t, a.location.part (byteLen (x ++ b) + 1) (byteLen (x ++ b) + 1 + byteLen t)⟩ :: ·) := by
  have hscan : scan isBlankByte (utf8 a.value) (byteLen x) = byteLen (x ++ b) := by
    rw [h, scan_utf8 agrees_isBlank, List.takeWhile_append_of_pos hb, quote, List.cons_append,
      List.takeWhile_cons_of_neg (by decide), List.append_nil, byteLen_append]
  rw [← List.append_assoc] at h
  have hbyte : (utf8 a.value)[byteLen (x ++ b)]? = some '"'.toUInt8 := by
    rw [h, getElem?_utf8, quote, List.cons_append, utf8_cons, utf8EncodeChar_ascii (by decide)]
    rfl
  have hquote : isQuoteByte '"'.toUInt8 = true := by decide
  rw [tokensFrom, hscan, hbyte]
  simp only [hquote, if_true, quotedToken_quote h ht, Option.bind_eq_bind, Option.bind_some]
  exact Option.map_eq_bind.symm

/-- Nothing is left. -/
theorem tokensFrom_end (h : a.value = x) (fuel : ℕ) :
    a.tokensFrom (fuel + 1) (byteLen x) = some [] := by
  have hscan : scan isBlankByte (utf8 a.value) (byteLen x) = byteLen x := by
    have hscan := scan_utf8 agrees_isBlank x []
    rw [List.append_nil] at hscan
    rw [h, hscan]
    rfl
  rw [tokensFrom, hscan, h, List.getElem?_eq_none (Nat.le_of_eq (length_utf8 x))]

/-- The values of the tokens, from the first one on. -/
theorem map_value_quoted {ts : List (List Char)} (h : a.value = x ++ (b ++ (quote t ++ y)))
    (hb : IsBlanks b) (ht : '"' ∉ t) {fuel : ℕ}
    (hrest : (a.tokensFrom fuel (byteLen (x ++ b ++ quote t))).map (List.map value) = some ts) :
    (a.tokensFrom (fuel + 1) (byteLen x)).map (List.map value) = some (t :: ts) := by
  obtain ⟨rest, hfrom, rfl⟩ := Option.map_eq_some_iff.mp hrest
  rw [tokensFrom_quoted h hb ht, hfrom, Option.map_some, Option.map_some, List.map_cons]

/-- Tokens in double quotes with a blank in front of each. -/
theorem tokensFrom_flatMap {ts : List (List Char)}
    (h : a.value = x ++ ts.flatMap fun t => [' '] ++ quote t) (ht : ∀ t ∈ ts, '"' ∉ t) {fuel : ℕ}
    (hfuel : ts.length < fuel) :
    (a.tokensFrom fuel (byteLen x)).map (List.map value) = some ts := by
  obtain ⟨m, rfl⟩ := Nat.exists_eq_succ_of_ne_zero (Nat.ne_of_gt (Nat.zero_lt_of_lt hfuel))
  induction ts generalizing x m with
  | nil =>
    rw [tokensFrom_end (by rw [h, List.flatMap_nil, List.append_nil])]
    rfl
  | cons t ts ih =>
    obtain ⟨htoken, ht⟩ := List.forall_mem_cons.mp ht
    rw [List.flatMap_cons, List.append_assoc] at h
    rw [List.length_cons] at hfuel
    obtain ⟨k, rfl⟩ := Nat.exists_eq_succ_of_ne_zero (n := m) (by omega)
    refine map_value_quoted h (by decide) htoken (ih ?_ ht k (by omega))
    rw [h]
    simp only [List.append_assoc]

/-- Tokens in double quotes are what tokenizing gives. -/
theorem tokenize_quoted {ts : List (List Char)} (h : a.value = [' '].intercalate (ts.map quote))
    (ht : ∀ t ∈ ts, '"' ∉ t) : a.tokenize.map (List.map value) = some ts := by
  cases ts with
  | nil =>
    have hvalue : a.value = [] := h
    have hend := tokensFrom_end hvalue (byteLen a.value)
    rw [byteLen_nil] at hend
    rw [tokenize, hend]
    rfl
  | cons t ts =>
    obtain ⟨htoken, ht⟩ := List.forall_mem_cons.mp ht
    rw [List.map_cons, intercalate_cons, List.flatMap_map] at h
    refine map_value_quoted (x := []) (b := []) h (by decide) htoken (tokensFrom_flatMap h ht ?_)
    have hle := length_le_byteLen ts
    rw [h, byteLen_append, byteLen_quote]
    omega

end Located

/-! ## Writing directives

A line with a keyword and quoted tokens is of one of the forms of a line, and nothing is trimmed
off its end. So a file of such lines is read line by line. -/

/-- A keyword and its arguments as tokens, to be written in double quotes. -/
structure Written where
  /-- The keyword. -/
  keyword : List Char
  /-- The tokens, without their quotes. -/
  tokens : List (List Char)
  /-- The grammar takes it for a keyword. -/
  isKeyword : IsKeyword keyword
  /-- The tokens are on one line. -/
  isLine : ∀ t ∈ tokens, IsLine t
  /-- There is no quote in them. -/
  noQuote : ∀ t ∈ tokens, '"' ∉ t

namespace Written

/-- The keyword and the tokens in double quotes, separated by blanks. -/
def render (d : Written) : List Char := [' '].intercalate (d.keyword :: d.tokens.map quote)

/-- The arguments in the line. -/
def arguments (d : Written) : List Char := [' '].intercalate (d.tokens.map quote)

/-- Quotes are on the line. -/
theorem isLine_quote {t : List Char} (h : IsLine t) : IsLine (quote t) := by
  intro c hc
  rw [quote, List.mem_cons, List.mem_append, List.mem_singleton] at hc
  rcases hc with rfl | hc | rfl
  · decide
  · exact h c hc
  · decide

/-- A directive is written on one line. -/
theorem isLine_render (d : Written) : IsLine d.render := by
  intro c hc
  rw [render, intercalate_cons, List.mem_append, List.mem_flatMap] at hc
  rcases hc with hc | ⟨q, hq, hc⟩
  · exact d.isKeyword.inLine c hc
  · obtain ⟨t, ht, rfl⟩ := List.mem_map.mp hq
    rcases List.mem_append.mp hc with hc | hc
    · rw [List.mem_singleton.mp hc]
      decide
    · exact isLine_quote (d.isLine t ht) c hc

/-- Arguments end with a quote. -/
theorem intercalate_quote (t : List Char) (ts : List (List Char)) :
    ∃ z, [' '].intercalate ((t :: ts).map quote) = z ++ ['"'] := by
  induction ts generalizing t with
  | nil => exact ⟨'"' :: t, by rw [List.map_cons, List.map_nil, List.intercalate_singleton]; rfl⟩
  | cons t' ts ih =>
    obtain ⟨z, hz⟩ := ih t'
    refine ⟨quote t ++ [' '] ++ z, ?_⟩
    rw [List.map_cons, List.map_cons, List.intercalate_cons_cons, ← List.map_cons, hz,
      List.append_assoc (quote t ++ [' '])]

/-- So nothing is trimmed off them. -/
theorem trimEnd_arguments (d : Written) : trimEnd d.arguments = d.arguments := by
  rw [arguments]
  cases d.tokens with
  | nil => rfl
  | cons t ts =>
    obtain ⟨z, hz⟩ := intercalate_quote t ts
    rw [hz, trimEnd, List.rdropWhile_concat_neg _ _ _ (by decide)]

/-- What is between the keyword and the arguments. -/
def separator (d : Written) : List Char := if d.tokens = [] then [] else [' ']

/-- What is written is of one of the forms of a line. -/
theorem lineForm_render (d : Written) :
    LineForm d.render (directiveAt 0 d.keyword d.separator d.arguments) := by
  rw [render, arguments, separator]
  cases d.tokens with
  | nil =>
    rw [List.map_nil, List.intercalate_singleton, if_pos rfl]
    exact LineForm.keyword (b := []) (by decide) d.isKeyword
  | cons t ts =>
    rw [List.map_cons, List.intercalate_cons_cons, List.append_assoc,
      if_neg (List.cons_ne_nil t ts)]
    refine LineForm.directive (b := []) (by decide) d.isKeyword (.blank (by simp) (by decide) ?_ ?_)
    · rw [intercalate_cons]
      exact Peg.stops_cons.mpr (by decide)
    · rw [intercalate_cons, quote]
      simp

/-- The line that is written, with its entry. -/
def line (d : Written) : WholeLine where
  text := d.render
  entry := directiveAt 0 d.keyword d.separator d.arguments
  isLine := d.isLine_render
  form := d.lineForm_render

end Written

/-- The directive is what was written in line `n`. -/
structure Directive.IsWritten (d : Written) (n : ℕ) (e : Directive) : Prop where
  /-- The keyword is the one written … -/
  keyword : e.keyword.value = d.keyword
  /-- … and so are the tokens … -/
  tokens : e.arguments.tokenize.map (List.map Located.value) = some d.tokens
  /-- … in this line … -/
  line : e.keyword.location.line = n
  /-- … at its start. -/
  column : e.keyword.location.column = 1

/-- The file that is written from directives. -/
def writtenFile (path : String) (nl : Newline) (ds : List Written) : SourceFile :=
  SourceFile.new path (nl.join (ds.map Written.render))

/-- The file has exactly the directives it was written from, one in each line. -/
def ReadAsWritten (path : String) (nl : Newline) (ds : List Written) : Prop :=
  (writtenFile path nl ds).parse.length = ds.length ∧
    ∀ (i : ℕ) (d : Written), ds[i]? = some d →
      ∃ e, (writtenFile path nl ds).parse[i]? = some (.directive e) ∧ e.IsWritten d (i + 1)

/-- It is read as the directive, wherever it is in the file. -/
theorem isWritten_line (path : String) (d : Written) (n i : ℕ) :
    ∃ e, (SourceFile.new path d.render).parse = [.directive e] ∧
      Directive.IsWritten d (i + 1) ⟨e.keyword.shift n i, e.arguments.shift n i⟩ := by
  have hparse : (SourceFile.new path d.render).parse =
      [(SourceFile.new path d.render).locateEntry (d.line.entry.shift 0)] := by
    change (Config.parse d.line.text).map _ = _
    rw [parse_wholeLine]
    rfl
  have hcol : (SourceFile.new path d.render).lineCol 0 = (1, 1) :=
    SourceFile.lineCol_of_line _ (z := []) (l := d.render) (x := []) (p := 0)
      (by rw [List.append_nil]; rfl) (Or.inl rfl) (IsLine.not_mem_newline d.isLine_render)
      (Nat.zero_le _)
  rw [RawEntry.shift_zero] at hparse
  refine ⟨_, hparse, rfl, ?_, ?_, ?_⟩
  · exact Located.tokenize_quoted d.trimEnd_arguments d.noQuote
  · change (SourceFile.lineCol _ 0).1 + i = i + 1
    rw [hcol, Nat.add_comm]
  · exact congrArg Prod.snd hcol

/-- Every line is a directive of its own, and is read as it would be alone. -/
theorem readAsWritten_of_ne_nil (path : String) (nl : Newline) {ds : List Written} (hne : ds ≠ []) :
    ReadAsWritten path nl ds := by
  obtain ⟨d, ds, rfl⟩ := List.exists_cons_of_ne_nil hne
  have hrender : ((d :: ds).map Written.line).map WholeLine.text = (d :: ds).map Written.render :=
    List.map_map
  have hone := onePerLine_of_wholeLines path nl d.line (ds.map Written.line)
  rw [← List.map_cons, hrender] at hone
  refine ⟨hone.1.trans (List.length_map _), fun i d' hd' => ?_⟩
  obtain ⟨e, halone, hentry⟩ := hone.2 i d'.render (by rw [List.getElem?_map, hd']; rfl)
  obtain ⟨e', hparse, hwritten⟩ := isWritten_line path d'
    (nl.offset ((d :: ds).map Written.render) i) i
  obtain rfl := List.singleton_inj.mp (halone.symm.trans hparse)
  exact ⟨_, hentry, hwritten⟩

/-- A file is read as the directives it was written from. One without directives is an empty line.
-/
theorem written_read (path : String) (nl : Newline) (ds : List Written) :
    (ds ≠ [] → ReadAsWritten path nl ds) ∧
      (ds = [] → (writtenFile path nl ds).parse = [.empty ⟨path, ⟨0, 0⟩, 1, 1⟩]) := by
  refine ⟨readAsWritten_of_ne_nil path nl, ?_⟩
  rintro rfl
  rfl

/-- `Host "" "a # b"` -/
def emptyAndComment : Written where
  keyword := "Host".toList
  tokens := [[], "a # b".toList]
  isKeyword := ⟨'H', "ost".toList, rfl, by decide, List.all_eq_true.mp (by decide)⟩
  isLine := by decide
  noQuote := by decide

/-- The empty token and the hash sign come back. -/
theorem twice_read : ReadAsWritten "config" .crlf [emptyAndComment, emptyAndComment] :=
  (written_read "config" .crlf [emptyAndComment, emptyAndComment]).1 (List.cons_ne_nil _ _)

/-- A file without directives is not without entries. -/
theorem nothing_not_read : ¬ ReadAsWritten "config" .lf [] := by
  rintro ⟨hlength, -⟩
  exact absurd hlength (by decide)

end Dssh
