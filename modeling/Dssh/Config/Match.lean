import Dssh.Config.Tokenize

/-!
# `Match` criteria

The arguments of a `Match` directive are criteria: a keyword, perhaps with a `!` in front, and
for most keywords an argument. Which token is a keyword depends on all that stand before it,
since an argument may look like a keyword. `parseCriteria` follows the source; `Criteria` says
what a list of tokens has to be, with the pieces of a pattern list described by how they make up
the argument.

`all` is meant to be the last criterion, with nothing but `canonical` and `final` before it. The
check looks at what stands before the first `all` only.

## Two descriptions

The parser is a loop over an iterator of tokens. It takes a keyword off the front, strips the
`!`, turns it to lower case, and looks it up in two tables; if the keyword needs an argument it
takes the next token, whatever that looks like. `Match exec host` has one criterion, with the
command `host`.

`Criteria` is the same language as an inductive relation: a list of tokens *is* some criteria.
It has no iterator and no lookup, and says of each criterion what its tokens look like: `Names t
negated keyword` is what is written, in any case, with the `!` or without. The pieces of a list
of patterns are described by what joins to the argument again (`CommaPieces`), not by how they
are split off. That the two agree (`parseCriteria_ok_iff`) is the main work of the module.
Locations are a part of it: each pattern knows the bytes of the file it came from, also behind a
comma and a `!`.

## The placement of `all`

The documentation asks that `all` is last, and preceded by `canonical` and `final` only. The
source finds the first `all`, and checks what is before it. What is *behind* it is not looked
at, so `Match all host x` is accepted. `AllIsLast` is the rule of the documentation,
`GoesOnAfterAll` describes the lists that slip through, and `parseTokens_exact_iff` says that
they are the only difference.

## Main definitions

* `MatchCriterion`, `MatchEntry`, `MatchArgs` — the typed criteria
* `parseCriteria`, `checkAllPlacement`, `parseTokens` — the parser behind the tokenizer
* `Criteria`, `CommaPieces`, `IsPattern` — what criteria and their arguments look like
* `IsMatch`, `GoesOnAfterAll` — the rule, and the lists that are accepted against it

## Main results

* `parseCriteria_ok_iff` — the loop reads exactly the lists that split into criteria
* `parseTokens_ok_iff` — what is accepted, and with which entries
* `parseTokens_exact_iff` — this is right except for lists that go on after `all`
-/

namespace Dssh

open Config

/-- Something else at the same place. -/
def Located.withValue {α β : Type} (a : Located α) (value : β) : Located β := ⟨value, a.location⟩

/-! ## Criteria

The types of the source, with the places of patterns and entries in the file. -/

/-- A pattern, perhaps negated. -/
structure Pattern where
  negated : Bool
  value : List Char
  deriving DecidableEq

/-- A criterion. -/
inductive MatchCriterion where
  /-- Always true. -/
  | all
  /-- True when the file is read again after canonicalization. -/
  | canonical
  /-- True when it is read for the last time. -/
  | final
  /-- True if the command exits with status 0. -/
  | exec (command : Located (List Char))
  /-- The target host. -/
  | host (patterns : List (Located Pattern))
  /-- The host as it was given. -/
  | originalHost (patterns : List (Located Pattern))
  /-- The remote user. -/
  | user (patterns : List (Located Pattern))
  /-- The local user. -/
  | localUser (patterns : List (Located Pattern))
  /-- The local network interfaces. -/
  | localNetwork (networks : List (Located (List Char)))
  /-- A tag. -/
  | tagged (patterns : List (Located Pattern))
  /-- The remote command or subsystem. -/
  | command (patterns : List (Located Pattern))
  /-- The version. -/
  | version (patterns : List (Located Pattern))
  /-- The type of the session. -/
  | sessionType (patterns : List (Located Pattern))
  deriving DecidableEq

/-- A criterion, perhaps negated. -/
structure MatchEntry where
  negated : Bool
  criterion : MatchCriterion
  deriving DecidableEq

/-- The arguments of `Match`. -/
structure MatchArgs where
  entries : List (Located MatchEntry)
  deriving DecidableEq

/-- What can be wrong with them. -/
inductive ParseMatchArgsError where
  /-- There is nothing. -/
  | empty
  /-- This is no keyword. -/
  | unknownCriterion (keyword : List Char)
  /-- The keyword has no argument. -/
  | missingArgument (keyword : String)
  /-- Something else is in front of `all`. -/
  | invalidAllPlacement
  deriving DecidableEq

/-! ## Parsing

The parser is a loop over the tokens and a check behind it. Two tables say which keywords there
are: those without an argument, and those with one. -/

/-- `strip_prefix('!')`: whether there was one, and what is left. -/
def stripNegation : List Char → Bool × List Char
  | '!' :: rest => (true, rest)
  | value => (false, value)

namespace Located

variable (a : Located (List Char))

/-- The parts from `offset` on, with their places. -/
def partsFrom : ℕ → List (List Char) → List (Located (List Char))
  | _, [] => []
  | offset, part :: parts =>
    ⟨part, a.location.part offset (offset + byteLen part)⟩ ::
      partsFrom (offset + byteLen part + 1) parts

/-- The parts between the commas. -/
def splitComma : List (Located (List Char)) := a.partsFrom 0 (a.value.splitOn ',')

end Located

/-- A token as a pattern. -/
def parsePattern (token : Located (List Char)) : Located Pattern :=
  token.withValue ⟨(stripNegation token.value).1, (stripNegation token.value).2⟩

/-- A token as a list of patterns. -/
def parsePatternList (token : Located (List Char)) : List (Located Pattern) :=
  token.splitComma.map parsePattern

/-- The criteria without an argument. -/
def plainCriterion : String → Option MatchCriterion
  | "all" => some .all
  | "canonical" => some .canonical
  | "final" => some .final
  | _ => none

/-- The criteria with an argument. -/
def argumentCriterion : String → Option (Located (List Char) → MatchCriterion)
  | "exec" => some .exec
  | "localnetwork" => some fun arg => .localNetwork arg.splitComma
  | "host" => some fun arg => .host (parsePatternList arg)
  | "originalhost" => some fun arg => .originalHost (parsePatternList arg)
  | "user" => some fun arg => .user (parsePatternList arg)
  | "localuser" => some fun arg => .localUser (parsePatternList arg)
  | "tagged" => some fun arg => .tagged (parsePatternList arg)
  | "command" => some fun arg => .command (parsePatternList arg)
  | "version" => some fun arg => .version (parsePatternList arg)
  | "sessiontype" => some fun arg => .sessionType (parsePatternList arg)
  | _ => none

/-- `to_ascii_lowercase` -/
def toAsciiLowercase (keyword : List Char) : String := String.ofList (keyword.map Char.toLower)

/-- The loop, on the tokens that are left. -/
def parseCriteria :
    List (Located (List Char)) → Except (Located ParseMatchArgsError) (List (Located MatchEntry))
  | [] => .ok []
  | kwToken :: rest =>
    let negated := (stripNegation kwToken.value).1
    let keyword := (stripNegation kwToken.value).2
    let kwLower := toAsciiLowercase keyword
    match plainCriterion kwLower with
    | some criterion => do
      let entries ← parseCriteria rest
      .ok (kwToken.withValue ⟨negated, criterion⟩ :: entries)
    | none =>
      match argumentCriterion kwLower with
      | some criterion =>
        match rest with
        | [] => .error (kwToken.withValue (.missingArgument kwLower))
        | arg :: rest => do
          let entries ← parseCriteria rest
          .ok (kwToken.withValue ⟨negated, criterion arg⟩ :: entries)
      | none => .error (kwToken.withValue (.unknownCriterion keyword))

/-- It is `all`. -/
def MatchCriterion.isAll : MatchCriterion → Bool
  | .all => true
  | _ => false

/-- It may stand in front of `all`. -/
def MatchCriterion.isCanonicalOrFinal : MatchCriterion → Bool
  | .canonical => true
  | .final => true
  | _ => false

/-- The check of the placement of `all`: the entries before the first one, and that one. -/
def checkAllPlacement (entries : List (Located MatchEntry)) :
    Except (Located ParseMatchArgsError) Unit :=
  match entries.dropWhile fun e => !e.value.criterion.isAll with
  | [] => .ok ()
  | allEntry :: _ =>
    if (entries.takeWhile fun e => !e.value.criterion.isAll).all
        fun e => e.value.criterion.isCanonicalOrFinal then .ok ()
    else .error (allEntry.withValue .invalidAllPlacement)

/-- `parse_arguments` behind the tokenizer. -/
def parseTokens (args : Located (List Char)) (tokens : List (Located (List Char))) :
    Except (Located ParseMatchArgsError) (Located MatchArgs) :=
  if tokens.isEmpty then .error (args.withValue .empty)
  else do
    let entries ← parseCriteria tokens
    checkAllPlacement entries
    .ok (args.withValue ⟨entries⟩)

/-- `MatchArgs::parse_arguments`; `none` where the tokenizer panics. -/
def MatchArgs.parseArguments (args : Located (List Char)) :
    Option (Except (Located ParseMatchArgsError) (Located MatchArgs)) :=
  args.tokenize.map (parseTokens args)

/-! ## Lists of criteria

What the documentation says of the arguments, as relations: a token is a keyword, an argument is
a list of patterns between commas, and a list of tokens splits into criteria. None of these
mentions the parser. -/

/-- The token is the keyword in any case, perhaps with a `!` in front. -/
def Names (t : Located (List Char)) (negated : Bool) (keyword : String) : Prop :=
  ∃ written, t.value = (if negated then ['!'] else []) ++ written ∧
    written.map Char.toLower = keyword.toList

/-- What stands in front of a part that has these before it. -/
def inFront (before : List (List Char)) : List Char := before.flatMap (· ++ [','])

/-- The pieces of an argument: without commas, with a comma between any two they make up the
argument, and each is where it stands in it. -/
structure CommaPieces (a : Located (List Char)) (pieces : List (Located (List Char))) : Prop where
  /-- There is always one, if only the empty one. -/
  ne_nil : pieces ≠ []
  /-- Together, with the commas back between them, they are the argument. -/
  joined : [','].intercalate (pieces.map Located.value) = a.value
  /-- None can be split further. -/
  noComma : ∀ p ∈ pieces, ',' ∉ p.value
  /-- Each is where it was found. -/
  located : ∀ (i : ℕ) (p : Located (List Char)), pieces[i]? = some p →
    let front := inFront ((pieces.take i).map Located.value)
    p.location = a.location.part (byteLen front) (byteLen front + byteLen p.value)

/-- A piece as a pattern, with an optional `!` in front. -/
structure IsPattern (piece : Located (List Char)) (p : Located Pattern) : Prop where
  /-- The pattern is where the piece is, with its `!`. -/
  location : p.location = piece.location
  /-- The piece is the `!`, if there is one, and the pattern. -/
  value : piece.value = (if p.value.negated then ['!'] else []) ++ p.value.value
  /-- A piece with a `!` in front is always read as a negated pattern. -/
  negated : p.value.negated = false → p.value.value.head? ≠ some '!'

/-- The keywords without an argument. -/
def plainCriteria : List (String × MatchCriterion) :=
  [("all", .all), ("canonical", .canonical), ("final", .final)]

/-- The keywords with a list of patterns. -/
def patternCriteria : List (String × (List (Located Pattern) → MatchCriterion)) :=
  [("host", .host), ("originalhost", .originalHost), ("user", .user), ("localuser", .localUser),
    ("tagged", .tagged), ("command", .command), ("version", .version),
    ("sessiontype", .sessionType)]

/-- The tokens split into criteria, with these entries. -/
inductive Criteria : List (Located (List Char)) → List (Located MatchEntry) → Prop
  | nil : Criteria [] []
  | plain {t ts es negated keyword criterion} (ht : Names t negated keyword)
      (hkeyword : (keyword, criterion) ∈ plainCriteria) (hts : Criteria ts es) :
      Criteria (t :: ts) (t.withValue ⟨negated, criterion⟩ :: es)
  | exec {t arg ts es negated} (ht : Names t negated "exec") (hts : Criteria ts es) :
      Criteria (t :: arg :: ts) (t.withValue ⟨negated, .exec arg⟩ :: es)
  | localNetwork {t arg ts es negated networks} (ht : Names t negated "localnetwork")
      (harg : CommaPieces arg networks) (hts : Criteria ts es) :
      Criteria (t :: arg :: ts) (t.withValue ⟨negated, .localNetwork networks⟩ :: es)
  | patterns {t arg ts es negated keyword pieces patterns} {criterion : _ → MatchCriterion}
      (ht : Names t negated keyword) (hkeyword : (keyword, criterion) ∈ patternCriteria)
      (harg : CommaPieces arg pieces) (hpatterns : List.Forall₂ IsPattern pieces patterns)
      (hts : Criteria ts es) :
      Criteria (t :: arg :: ts) (t.withValue ⟨negated, criterion patterns⟩ :: es)

/-- `all` is the last criterion, and every one before it is `canonical` or `final`. -/
def AllIsLast (es : List (Located MatchEntry)) : Prop :=
  ∀ before e behind, es = before ++ e :: behind → e.value.criterion = .all →
    behind = [] ∧
      ∀ e' ∈ before, e'.value.criterion = .canonical ∨ e'.value.criterion = .final

/-- Tokens that may be the arguments of `Match`, with these entries. -/
def IsMatch (tokens : List (Located (List Char))) (es : List (Located MatchEntry)) : Prop :=
  tokens ≠ [] ∧ Criteria tokens es ∧ AllIsLast es

/-- Some tokens for `canonical` and `final`, one for `all`, and at least one criterion more. -/
def GoesOnAfterAll (tokens : List (Located (List Char))) : Prop :=
  ∃ flags t rest es, tokens = flags ++ t :: rest ∧
    (∀ f ∈ flags, ∃ negated, Names f negated "canonical" ∨ Names f negated "final") ∧
    (∃ negated, Names t negated "all") ∧ rest ≠ [] ∧ Criteria rest es

/-! ### Pieces

The standard library splits a text at its commas, and the source adds up the places. The pieces
and their places are determined by what `CommaPieces` says. -/

/-- There is no comma in a part. -/
theorem notMem_of_mem_splitOn {c : Char} {s part : List Char} (h : part ∈ s.splitOn c) :
    c ∉ part := by
  induction s generalizing part with
  | nil =>
    rw [List.splitOn_nil, List.mem_singleton] at h
    rw [h]
    exact List.not_mem_nil
  | cons x s ih =>
    rw [List.splitOn_cons_eq_if_modifyHead] at h
    by_cases hx : x = c
    · rw [if_pos (beq_iff_eq.mpr hx)] at h
      obtain rfl | h := List.mem_cons.mp h
      · exact List.not_mem_nil
      · exact ih h
    · rw [if_neg (fun h => hx (beq_iff_eq.mp h))] at h
      obtain ⟨first, parts, hparts⟩ := List.exists_cons_of_ne_nil (List.splitOn_ne_nil c s)
      rw [hparts, List.modifyHead_cons] at h
      obtain rfl | h := List.mem_cons.mp h
      · have hfirst : c ∉ first := ih (hparts ▸ List.mem_cons_self)
        exact fun hc => (List.mem_cons.mp hc).elim (fun h => hx h.symm) hfirst
      · exact ih (hparts ▸ List.mem_cons_of_mem first h)

namespace Located

variable (a : Located (List Char))

/-- The parts are those of the text. -/
theorem partsFrom_value (offset : ℕ) (parts : List (List Char)) :
    (a.partsFrom offset parts).map value = parts := by
  induction parts generalizing offset with
  | nil => rfl
  | cons part parts ih => rw [partsFrom, List.map_cons, ih]

/-- One part more is in front, with its comma. -/
theorem byteLen_inFront_cons (part : List Char) (before : List (List Char)) :
    byteLen (inFront (part :: before)) = byteLen part + 1 + byteLen (inFront before) := by
  unfold inFront
  rw [List.flatMap_cons, byteLen_append, byteLen_append]
  rfl

/-- Each part is behind those in front of it. -/
theorem partsFrom_location {offset i : ℕ} {parts : List (List Char)} {p : Located (List Char)}
    (h : (a.partsFrom offset parts)[i]? = some p) :
    p.location = a.location.part (offset + byteLen (inFront (parts.take i)))
      (offset + byteLen (inFront (parts.take i)) + byteLen p.value) := by
  induction parts generalizing offset i with
  | nil => cases h
  | cons part parts ih =>
    cases i with
    | zero =>
      obtain rfl := Option.some.inj h
      rfl
    | succ i =>
      rw [ih h, List.take_succ_cons, byteLen_inFront_cons, Nat.add_assoc offset (byteLen part) 1,
        Nat.add_assoc offset]

/-- **Pieces.** What `split_comma` returns, and nothing else, are the pieces. -/
theorem commaPieces_iff {pieces : List (Located (List Char))} :
    CommaPieces a pieces ↔ a.splitComma = pieces := by
  constructor
  · intro h
    have hsplit : a.value.splitOn ',' = pieces.map value := by
      rw [← h.joined]
      refine List.splitOn_intercalate ',' ?_ (fun hnil => h.ne_nil (List.map_eq_nil_iff.mp hnil))
      intro part hpart
      obtain ⟨p, hp, rfl⟩ := List.mem_map.mp hpart
      exact h.noComma p hp
    have hvalue : a.splitComma.map value = pieces.map value := by
      rw [splitComma, partsFrom_value, hsplit]
    have hlength : a.splitComma.length = pieces.length := by
      rw [← List.length_map value, hvalue, List.length_map]
    refine List.ext_getElem hlength fun i hi hi' => ?_
    have hleft := a.partsFrom_location (List.getElem?_eq_getElem hi)
    have hright := h.located i _ (List.getElem?_eq_getElem hi')
    have hsame : (a.splitComma[i]).value = (pieces[i]).value := by
      have hget := congrArg (·[i]?) hvalue
      simpa [hi, hi'] using hget
    have hlocation : (a.splitComma[i]).location = (pieces[i]).location := by
      rw [hright]
      show (a.splitComma[i]).location = _
      rw [← hsame, List.map_take, ← hsplit, ← Nat.zero_add (byteLen (inFront _))]
      exact hleft
    calc a.splitComma[i] = ⟨(a.splitComma[i]).value, (a.splitComma[i]).location⟩ := rfl
      _ = ⟨(pieces[i]).value, (pieces[i]).location⟩ := by rw [hsame, hlocation]
  · rintro rfl
    have hvalue : a.splitComma.map value = a.value.splitOn ',' := a.partsFrom_value 0 _
    refine ⟨fun hnil => ?_, ?_, fun p hp => ?_, fun i p hp => ?_⟩
    · rw [hnil] at hvalue
      exact List.splitOn_ne_nil ',' a.value hvalue.symm
    · rw [hvalue, List.intercalate_splitOn]
    · exact notMem_of_mem_splitOn (hvalue ▸ List.mem_map_of_mem hp)
    · have hlocation := a.partsFrom_location hp
      rw [Nat.zero_add] at hlocation
      show p.location = _
      rw [List.map_take, hvalue]
      exact hlocation

end Located

/-! ### Patterns and keywords

Stripping a `!` and comparing in lower case, in both directions. A keyword does not begin with a
`!`, so that it is clear what negates. -/

/-- What is stripped, and what is left. -/
theorem stripNegation_eq_iff {value rest : List Char} {negated : Bool} :
    stripNegation value = (negated, rest) ↔ value = (if negated then ['!'] else []) ++ rest ∧
      (negated = false → rest.head? ≠ some '!') := by
  unfold stripNegation
  split
  · rename_i rest'
    cases negated with
    | true => simp [eq_comm]
    | false =>
      refine ⟨fun h => absurd (Prod.mk.inj h).1 (by decide), ?_⟩
      rintro ⟨rfl, hhead⟩
      exact absurd rfl (hhead rfl)
  · rename_i hne
    cases negated with
    | true =>
      refine ⟨fun h => absurd (Prod.mk.inj h).1 (by decide), ?_⟩
      rintro ⟨rfl, -⟩
      exact absurd rfl (hne rest)
    | false =>
      constructor
      · intro h
        obtain rfl := (Prod.mk.inj h).2
        refine ⟨rfl, fun _ hhead => ?_⟩
        obtain ⟨rest, rfl⟩ := List.head?_eq_some_iff.mp hhead
        exact hne rest rfl
      · rintro ⟨rfl, -⟩
        rfl

/-- A pattern is what a piece is parsed to. -/
theorem isPattern_iff {piece : Located (List Char)} {p : Located Pattern} :
    IsPattern piece p ↔ parsePattern piece = p := by
  obtain ⟨⟨negated, value⟩, location⟩ := p
  have hiff := @stripNegation_eq_iff piece.value value negated
  constructor
  · intro h
    have hstrip := hiff.mpr ⟨h.value, h.negated⟩
    unfold parsePattern Located.withValue
    rw [hstrip, show location = piece.location from h.location]
  · intro h
    unfold parsePattern Located.withValue at h
    injection h with hvalue hlocation
    injection hvalue with hnegated hrest
    obtain ⟨hvalue, hhead⟩ := hiff.mp (Prod.ext hnegated hrest)
    exact ⟨hlocation.symm, hvalue, hhead⟩

/-- The same for all pieces. -/
theorem forall₂_isPattern_iff {pieces : List (Located (List Char))}
    {patterns : List (Located Pattern)} :
    List.Forall₂ IsPattern pieces patterns ↔ pieces.map parsePattern = patterns := by
  constructor
  · intro h
    induction h with
    | nil => rfl
    | cons hp _ ih => rw [List.map_cons, isPattern_iff.mp hp, ih]
  · rintro rfl
    induction pieces with
    | nil => exact .nil
    | cons p pieces ih => exact .cons (isPattern_iff.mpr rfl) ih

/-- So a list of patterns is what its argument is parsed to. -/
theorem patterns_iff {arg : Located (List Char)} {patterns : List (Located Pattern)} :
    (∃ pieces, CommaPieces arg pieces ∧ List.Forall₂ IsPattern pieces patterns) ↔
      parsePatternList arg = patterns := by
  constructor
  · rintro ⟨pieces, hpieces, hpatterns⟩
    rw [← forall₂_isPattern_iff.mp hpatterns, ← arg.commaPieces_iff.mp hpieces]
    rfl
  · rintro rfl
    exact ⟨_, arg.commaPieces_iff.mpr rfl, forall₂_isPattern_iff.mpr rfl⟩

/-- A keyword does not begin with a `!`, so that one in front of it negates. -/
theorem Names.strip {t : Located (List Char)} {negated : Bool} {keyword : String}
    (h : Names t negated keyword) (hkeyword : keyword.toList.head? ≠ some '!') :
    (stripNegation t.value).1 = negated ∧
      toAsciiLowercase (stripNegation t.value).2 = keyword := by
  obtain ⟨written, hvalue, hlower⟩ := h
  have hhead : written.head? ≠ some '!' := by
    intro hhead
    apply hkeyword
    rw [← hlower, List.head?_map, hhead]
    rfl
  rw [stripNegation_eq_iff.mpr ⟨hvalue, fun _ => hhead⟩]
  refine ⟨rfl, ?_⟩
  unfold toAsciiLowercase
  rw [hlower, String.ofList_toList]

/-- A token is written as its keyword, with or without a `!`. -/
theorem names_stripNegation (t : Located (List Char)) :
    Names t (stripNegation t.value).1 (toAsciiLowercase (stripNegation t.value).2) := by
  obtain ⟨negated, rest, hstrip⟩ : ∃ negated rest, stripNegation t.value = (negated, rest) :=
    ⟨_, _, rfl⟩
  obtain ⟨hvalue, -⟩ := stripNegation_eq_iff.mp hstrip
  rw [hstrip]
  refine ⟨rest, hvalue, ?_⟩
  unfold toAsciiLowercase
  rw [String.toList_ofList]

/-! ### The loop

By induction on the tokens, with one lemma for a keyword without an argument and one for a
keyword with one. The two tables have no keyword in common. -/

/-- The first table. -/
theorem mem_plainCriteria_iff {keyword : String} {criterion : MatchCriterion} :
    (keyword, criterion) ∈ plainCriteria ↔ plainCriterion keyword = some criterion := by
  unfold plainCriterion
  split <;> simp_all [plainCriteria, eq_comm]

/-- The second table. -/
theorem argumentCriterion_iff {keyword : String} {arg : Located (List Char)}
    {criterion : MatchCriterion} :
    (argumentCriterion keyword).map (· arg) = some criterion ↔
      (keyword = "exec" ∧ criterion = .exec arg) ∨
      (keyword = "localnetwork" ∧ criterion = .localNetwork arg.splitComma) ∨
      ∃ c, (keyword, c) ∈ patternCriteria ∧ criterion = c (parsePatternList arg) := by
  unfold argumentCriterion
  split <;> simp_all [patternCriteria, eq_comm]

/-- No keyword of the first begins with a `!`. -/
theorem head_plainCriterion {keyword : String} {criterion : MatchCriterion}
    (h : plainCriterion keyword = some criterion) : keyword.toList.head? ≠ some '!' := by
  unfold plainCriterion at h
  split at h
  · decide
  · decide
  · decide
  · cases h

/-- A keyword with an argument is not one without. -/
theorem plainCriterion_eq_none {keyword : String} (h : (argumentCriterion keyword).isSome = true) :
    plainCriterion keyword = none ∧ keyword.toList.head? ≠ some '!' := by
  unfold argumentCriterion at h
  split at h <;> first
    | exact ⟨rfl, by decide⟩
    | cases h

/-- A loop that puts something in front succeeds if the rest does. -/
theorem ok_cons_iff {ε α : Type} {x : Except ε (List α)} {a : α} {es : List α} :
    (do let entries ← x; .ok (a :: entries) : Except ε (List α)) = .ok es ↔
      ∃ es', x = .ok es' ∧ es = a :: es' := by
  cases x with
  | error e =>
    refine ⟨fun h => ?_, ?_⟩
    · cases h
    · rintro ⟨es', h, -⟩
      cases h
  | ok es' =>
    constructor
    · intro h
      exact ⟨es', rfl, (Except.ok.inj h).symm⟩
    · rintro ⟨es'', h, rfl⟩
      rw [Except.ok.inj h]
      rfl

variable {t arg : Located (List Char)} {ts : List (Located (List Char))}
  {es : List (Located MatchEntry)} {negated : Bool} {keyword : String}

/-- A turn of the loop at a keyword without an argument. -/
theorem parseCriteria_plain {criterion : MatchCriterion} (ht : Names t negated keyword)
    (hkeyword : plainCriterion keyword = some criterion) :
    parseCriteria (t :: ts) = (do
      let entries ← parseCriteria ts
      .ok (t.withValue ⟨negated, criterion⟩ :: entries)) := by
  obtain ⟨hnegated, hlower⟩ := ht.strip (head_plainCriterion hkeyword)
  rw [parseCriteria, hlower, hkeyword, hnegated]

/-- A turn of the loop at a keyword with an argument, which is there. -/
theorem parseCriteria_argument {criterion : MatchCriterion} (ht : Names t negated keyword)
    (hkeyword : (argumentCriterion keyword).map (· arg) = some criterion) :
    parseCriteria (t :: arg :: ts) = (do
      let entries ← parseCriteria ts
      .ok (t.withValue ⟨negated, criterion⟩ :: entries)) := by
  obtain ⟨f, hf, rfl⟩ := Option.map_eq_some_iff.mp hkeyword
  obtain ⟨hplain, hhead⟩ := plainCriterion_eq_none (Option.isSome_iff_exists.mpr ⟨f, hf⟩)
  obtain ⟨hnegated, hlower⟩ := ht.strip hhead
  rw [parseCriteria]
  dsimp only
  rw [hlower, hplain, hf, hnegated]

/-- **The loop** reads exactly the lists that split into criteria. -/
theorem parseCriteria_ok_iff : parseCriteria ts = .ok es ↔ Criteria ts es := by
  constructor
  · intro h
    fun_induction parseCriteria ts generalizing es with
    | case1 =>
      rw [← Except.ok.inj h]
      exact .nil
    | case2 t rest negated keyword kwLower criterion hplain =>
      rename_i ih
      obtain ⟨es', hrest, rfl⟩ := ok_cons_iff.mp h
      exact .plain (names_stripNegation t) (mem_plainCriteria_iff.mpr hplain) (ih hrest)
    | case3 => cases h
    | case4 t negated keyword kwLower hplain f hf arg rest =>
      rename_i ih
      obtain ⟨es', hrest, rfl⟩ := ok_cons_iff.mp h
      have ht := names_stripNegation t
      have hcriterion : (argumentCriterion kwLower).map (· arg) = some (f arg) := by rw [hf]; rfl
      obtain ⟨hexec, heq⟩ | ⟨hnetwork, heq⟩ | ⟨c, hc, heq⟩ := argumentCriterion_iff.mp hcriterion
      · rw [heq]
        exact .exec (hexec ▸ ht) (ih hrest)
      · rw [heq]
        exact .localNetwork (hnetwork ▸ ht) (arg.commaPieces_iff.mpr rfl) (ih hrest)
      · obtain ⟨pieces, hpieces, hpatterns⟩ := patterns_iff.mpr (rfl : parsePatternList arg = _)
        rw [heq]
        exact .patterns ht hc hpieces hpatterns (ih hrest)
    | case5 => cases h
  · intro h
    induction h with
    | nil => rfl
    | plain ht hkeyword _ ih =>
      rw [parseCriteria_plain ht (mem_plainCriteria_iff.mp hkeyword), ih]
      rfl
    | exec ht _ ih =>
      rw [parseCriteria_argument ht (argumentCriterion_iff.mpr (.inl ⟨rfl, rfl⟩)), ih]
      rfl
    | localNetwork ht harg _ ih =>
      rw [parseCriteria_argument ht (argumentCriterion_iff.mpr (.inr (.inl ⟨rfl, rfl⟩))), ih,
        (Located.commaPieces_iff _).mp harg]
      rfl
    | patterns ht hkeyword harg hpatterns _ ih =>
      rw [parseCriteria_argument ht (argumentCriterion_iff.mpr (.inr (.inr ⟨_, hkeyword, rfl⟩))),
        ih, patterns_iff.mp ⟨_, harg, hpatterns⟩]
      rfl

/-! ### The placement of `all`

The check looks at what is in front of the first `all`. It does not look behind it. -/

theorem isAll_iff {criterion : MatchCriterion} : criterion.isAll = true ↔ criterion = .all := by
  cases criterion <;> simp [MatchCriterion.isAll]

theorem isCanonicalOrFinal_iff {criterion : MatchCriterion} :
    criterion.isCanonicalOrFinal = true ↔ criterion = .canonical ∨ criterion = .final := by
  cases criterion <;> simp [MatchCriterion.isCanonicalOrFinal]

/-- What is checked: nothing but `canonical` and `final` stands before the first `all`. -/
def FirstAllPlaced (es : List (Located MatchEntry)) : Prop :=
  ∀ before e behind, es = before ++ e :: behind → e.value.criterion = .all →
    (∀ e' ∈ before, e'.value.criterion ≠ .all) →
      ∀ e' ∈ before, e'.value.criterion = .canonical ∨ e'.value.criterion = .final

theorem checkAllPlacement_ok_iff : checkAllPlacement es = .ok () ↔ FirstAllPlaced es := by
  have happend := List.takeWhile_append_dropWhile (p := fun e : Located MatchEntry =>
    !e.value.criterion.isAll) (l := es)
  have hfront : ∀ {before : List (Located MatchEntry)} {e : Located MatchEntry}
      {behind : List (Located MatchEntry)}, es = before ++ e :: behind → e.value.criterion = .all →
      (∀ e' ∈ before, e'.value.criterion ≠ .all) →
      (es.takeWhile fun e => !e.value.criterion.isAll) = before := by
    intro before e behind hes he hbefore
    rw [hes, List.takeWhile_append_of_pos, List.takeWhile_cons_of_neg, List.append_nil]
    · rw [isAll_iff.mpr he]
      decide
    · intro e' he'
      rw [Bool.not_eq_true']
      exact Bool.eq_false_iff.mpr fun h => hbefore e' he' (isAll_iff.mp h)
  unfold checkAllPlacement
  split
  · rename_i hnone
    refine ⟨fun _ before e behind hes he _ => ?_, fun _ => rfl⟩
    have hnot := List.dropWhile_eq_nil_iff.mp hnone e (by rw [hes]; simp)
    rw [isAll_iff.mpr he] at hnot
    exact absurd hnot (by decide)
  · rename_i allEntry behind hsome
    have hall : allEntry.value.criterion = .all := by
      have hhead := List.head?_dropWhile_not (fun e => !e.value.criterion.isAll) es
      rw [hsome] at hhead
      exact isAll_iff.mp (by simpa using hhead)
    have hbefore : ∀ e ∈ es.takeWhile fun e => !e.value.criterion.isAll,
        e.value.criterion ≠ .all := by
      intro e he h
      have hnot := List.mem_takeWhile_imp he
      rw [isAll_iff.mpr h] at hnot
      exact absurd hnot (by decide)
    have hplaced : (es.takeWhile fun e => !e.value.criterion.isAll).all
        (fun e => e.value.criterion.isCanonicalOrFinal) = true ↔ FirstAllPlaced es := by
      rw [List.all_eq_true]
      constructor
      · intro h before e behind hes he hbefore e' he'
        exact isCanonicalOrFinal_iff.mp (h e' (hfront hes he hbefore ▸ he'))
      · intro h e he
        rw [hsome] at happend
        exact isCanonicalOrFinal_iff.mpr (h _ _ _ happend.symm hall hbefore e he)
    rw [← hplaced]
    split
    · rename_i h
      exact iff_of_true rfl h
    · rename_i h
      refine iff_of_false (fun hok => ?_) h
      cases hok

/-- Behind the criteria, the check decides. -/
theorem parseTokens_of_criteria {args : Located (List Char)} {tokens : List (Located (List Char))}
    (hne : tokens ≠ []) (hparse : parseCriteria tokens = .ok es) :
    parseTokens args tokens = checkAllPlacement es >>= fun _ => .ok (args.withValue ⟨es⟩) := by
  rw [parseTokens, if_neg (fun h => hne (List.isEmpty_iff.mp h)), hparse]
  rfl

/-- **What is accepted**, and with which entries. -/
theorem parseTokens_ok_iff {args : Located (List Char)} {tokens : List (Located (List Char))}
    {r : Located MatchArgs} : parseTokens args tokens = .ok r ↔
      ∃ es, r = args.withValue ⟨es⟩ ∧ tokens ≠ [] ∧ Criteria tokens es ∧ FirstAllPlaced es := by
  constructor
  · intro h
    have hne : tokens ≠ [] := by
      rintro rfl
      cases h
    cases hparse : parseCriteria tokens with
    | error e =>
      rw [parseTokens, if_neg (fun h => hne (List.isEmpty_iff.mp h)), hparse] at h
      cases h
    | ok es =>
      rw [parseTokens_of_criteria hne hparse] at h
      cases hcheck : checkAllPlacement es with
      | error e =>
        rw [hcheck] at h
        cases h
      | ok u =>
        rw [hcheck] at h
        exact ⟨es, (Except.ok.inj h).symm, hne, parseCriteria_ok_iff.mp hparse,
          checkAllPlacement_ok_iff.mp hcheck⟩
  · rintro ⟨es, rfl, hne, hcriteria, hplaced⟩
    rw [parseTokens_of_criteria hne (parseCriteria_ok_iff.mpr hcriteria),
      checkAllPlacement_ok_iff.mpr hplaced]
    rfl

/-! ### Going on after `all`

The documentation wants `all` to be the last. A list in which something follows passes the check,
if what is in front is in order, and these lists are the only exception. -/

/-- Where a list of criteria begins with one that has no argument. -/
theorem Criteria.of_plain {e : Located MatchEntry} (h : Criteria ts (e :: es))
    (hkeyword : (keyword, e.value.criterion) ∈ plainCriteria) :
    ∃ t ts' negated, ts = t :: ts' ∧ Names t negated keyword ∧ Criteria ts' es := by
  cases h with
  | @plain t ts' _ negated keyword' criterion ht hkeyword' hts =>
    have hsame : keyword = keyword' := by
      simp only [plainCriteria, List.mem_cons, List.not_mem_nil, or_false, Prod.mk.injEq,
        Located.withValue] at hkeyword hkeyword'
      obtain ⟨rfl, hc⟩ | ⟨rfl, hc⟩ | ⟨rfl, hc⟩ := hkeyword' <;> simp_all
    exact ⟨t, ts', negated, rfl, hsame ▸ ht, hts⟩
  | exec => simp [plainCriteria, Located.withValue] at hkeyword
  | localNetwork => simp [plainCriteria, Located.withValue] at hkeyword
  | patterns ht hkeyword' =>
    simp only [plainCriteria, patternCriteria, List.mem_cons, List.not_mem_nil, or_false,
      Prod.mk.injEq, Located.withValue] at hkeyword hkeyword'
    rcases hkeyword' with ⟨-, rfl⟩ | ⟨-, rfl⟩ | ⟨-, rfl⟩ | ⟨-, rfl⟩ | ⟨-, rfl⟩ | ⟨-, rfl⟩ |
      ⟨-, rfl⟩ | ⟨-, rfl⟩ <;> simp at hkeyword

theorem Criteria.eq_nil (h : Criteria [] es) : es = [] := by
  cases h
  rfl

/-- Tokens for `canonical` and `final` in front of criteria. -/
theorem Criteria.flags_append {flags : List (Located (List Char))} (hts : Criteria ts es)
    (h : ∀ f ∈ flags, ∃ negated, Names f negated "canonical" ∨ Names f negated "final") :
    ∃ before, (∀ e ∈ before, e.value.criterion = .canonical ∨ e.value.criterion = .final) ∧
      Criteria (flags ++ ts) (before ++ es) := by
  induction flags with
  | nil => exact ⟨[], fun e he => absurd he List.not_mem_nil, hts⟩
  | cons f flags ih =>
    obtain ⟨hf, hflags⟩ := List.forall_mem_cons.mp h
    obtain ⟨before, hbefore, hcriteria⟩ := ih hflags
    obtain ⟨negated, hcanonical | hfinal⟩ := hf
    · refine ⟨f.withValue ⟨negated, .canonical⟩ :: before, ?_,
        .plain hcanonical (by decide) hcriteria⟩
      exact List.forall_mem_cons.mpr ⟨.inl rfl, hbefore⟩
    · refine ⟨f.withValue ⟨negated, .final⟩ :: before, ?_, .plain hfinal (by decide) hcriteria⟩
      exact List.forall_mem_cons.mpr ⟨.inr rfl, hbefore⟩

/-- And the tokens of such criteria. -/
theorem Criteria.of_flags_append {before : List (Located MatchEntry)}
    (h : Criteria ts (before ++ es))
    (hbefore : ∀ e ∈ before, e.value.criterion = .canonical ∨ e.value.criterion = .final) :
    ∃ flags ts', ts = flags ++ ts' ∧
      (∀ f ∈ flags, ∃ negated, Names f negated "canonical" ∨ Names f negated "final") ∧
      Criteria ts' es := by
  induction before generalizing ts with
  | nil => exact ⟨[], ts, rfl, fun f hf => absurd hf List.not_mem_nil, h⟩
  | cons e before ih =>
    obtain ⟨he, hbefore⟩ := List.forall_mem_cons.mp hbefore
    obtain ⟨f, ts', hts, hf, hrest⟩ : ∃ f ts', ts = f :: ts' ∧
        (∃ negated, Names f negated "canonical" ∨ Names f negated "final") ∧
        Criteria ts' (before ++ es) := by
      obtain hcanonical | hfinal := he
      · have hkeyword : ("canonical", e.value.criterion) ∈ plainCriteria := by
          rw [hcanonical]
          decide
        obtain ⟨f, ts', negated, hts, hf, hrest⟩ := h.of_plain hkeyword
        exact ⟨f, ts', hts, ⟨negated, .inl hf⟩, hrest⟩
      · have hkeyword : ("final", e.value.criterion) ∈ plainCriteria := by
          rw [hfinal]
          decide
        obtain ⟨f, ts', negated, hts, hf, hrest⟩ := h.of_plain hkeyword
        exact ⟨f, ts', hts, ⟨negated, .inr hf⟩, hrest⟩
    obtain ⟨flags, ts'', rfl, hflags, hcriteria⟩ := ih hrest hbefore
    exact ⟨f :: flags, ts'', hts, List.forall_mem_cons.mpr ⟨hf, hflags⟩, hcriteria⟩

theorem AllIsLast.firstAllPlaced (h : AllIsLast es) : FirstAllPlaced es :=
  fun before e behind hes he _ => (h before e behind hes he).2

/-- The first `all`, if there is one. -/
theorem exists_first_all {e : Located MatchEntry} (he : e ∈ es) (hall : e.value.criterion = .all) :
    ∃ before e' behind, es = before ++ e' :: behind ∧ e'.value.criterion = .all ∧
      ∀ e'' ∈ before, e''.value.criterion ≠ .all := by
  induction es with
  | nil => exact absurd he List.not_mem_nil
  | cons e' es ih =>
    by_cases hhead : e'.value.criterion = .all
    · exact ⟨[], e', es, rfl, hhead, fun e'' he'' => absurd he'' List.not_mem_nil⟩
    · obtain rfl | he := List.mem_cons.mp he
      · exact absurd hall hhead
      · obtain ⟨before, a, behind, rfl, ha, hbefore⟩ := ih he
        exact ⟨e' :: before, a, behind, rfl, ha, List.forall_mem_cons.mpr ⟨hhead, hbefore⟩⟩

/-- What passes the check is right, unless the list goes on after `all`. -/
theorem FirstAllPlaced.allIsLast (h : FirstAllPlaced es) (hcriteria : Criteria ts es)
    (hends : ¬ GoesOnAfterAll ts) : AllIsLast es := by
  intro before e behind hes he
  have hmem : e ∈ es := hes ▸ List.mem_append_right _ List.mem_cons_self
  obtain ⟨before', a, behind', hes', ha, hnone⟩ := exists_first_all hmem he
  have hflags := h before' a behind' hes' ha hnone
  have hlast : behind' = [] := by
    by_contra hne
    rw [hes'] at hcriteria
    obtain ⟨flags, ts', rfl, hnames, hcriteria⟩ := hcriteria.of_flags_append hflags
    have hkeyword : ("all", a.value.criterion) ∈ plainCriteria := by
      rw [ha]
      decide
    obtain ⟨t, rest, negated, rfl, ht, hrest⟩ := hcriteria.of_plain hkeyword
    refine hends ⟨flags, t, rest, behind', rfl, hnames, ⟨negated, ht⟩, ?_, hrest⟩
    rintro rfl
    exact hne hrest.eq_nil
  -- the only `all` is the last entry
  subst hlast
  have hbehind : behind = [] := by
    by_contra hne
    obtain ⟨last, x, hlast⟩ := (List.eq_nil_or_concat behind).resolve_left hne
    have hends : (before ++ e :: last) ++ [x] = before' ++ [a] := by
      rw [← hes', hes, hlast, List.concat_eq_append, List.append_assoc, List.cons_append]
    have hinit : before ++ e :: last = before' := List.append_inj_left' hends rfl
    exact hnone e (hinit ▸ List.mem_append_right _ List.mem_cons_self) he
  subst hbehind
  have hinit : before = before' := List.append_inj_left' (hes.symm.trans hes') rfl
  exact ⟨rfl, hinit ▸ hflags⟩

/-- **Exactly when.** What `Match` accepts and what it makes of it is what it should be, except for
lists of criteria that go on after `all`. -/
theorem parseTokens_exact_iff (args : Located (List Char)) (tokens : List (Located (List Char))) :
    (∀ r, parseTokens args tokens = .ok r ↔ ∃ es, r = args.withValue ⟨es⟩ ∧ IsMatch tokens es) ↔
      ¬ GoesOnAfterAll tokens := by
  constructor
  · rintro h ⟨flags, t, rest, es, rfl, hflags, ⟨negated, ht⟩, hrest, hes⟩
    have hall : Criteria (t :: rest) (t.withValue ⟨negated, .all⟩ :: es) :=
      .plain ht (by decide) hes
    obtain ⟨before, hbefore, hcriteria⟩ := hall.flags_append hflags
    have hplaced : FirstAllPlaced (before ++ t.withValue ⟨negated, .all⟩ :: es) := by
      intro before' e behind heq he hnone e' he'
      obtain hshort | hlong := List.append_eq_append_iff.mp heq
      · obtain ⟨zs, hzs, hbehind⟩ := hshort
        cases zs with
        | nil => exact hbefore e' (by rw [hzs, List.append_nil] at he'; exact he')
        | cons z zs =>
          injection hbehind with hz _
          exact absurd (show z.value.criterion = .all from hz ▸ rfl)
            (hnone z (hzs ▸ List.mem_append_right _ List.mem_cons_self))
      · obtain ⟨zs, hzs, -⟩ := hlong
        exact hbefore e' (hzs ▸ List.mem_append_left _ he')
    have hne : flags ++ t :: rest ≠ [] := by simp
    have hok : parseTokens args (flags ++ t :: rest) = .ok (args.withValue ⟨_⟩) :=
      parseTokens_ok_iff.mpr ⟨_, rfl, hne, hcriteria, hplaced⟩
    obtain ⟨es', heq, -, -, hlast⟩ := (h (args.withValue ⟨_⟩)).mp hok
    injection heq with hargs
    injection hargs with hentries
    have hnil := (hlast before _ es hentries.symm rfl).1
    subst hnil
    cases hes
    exact hrest rfl
  · intro hends r
    rw [parseTokens_ok_iff]
    constructor
    · rintro ⟨es, hr, hne, hcriteria, hplaced⟩
      exact ⟨es, hr, hne, hcriteria, hplaced.allIsLast hcriteria hends⟩
    · rintro ⟨es, hr, hne, hcriteria, hlast⟩
      exact ⟨es, hr, hne, hcriteria, hlast.firstAllPlaced⟩

-- a `!` before a keyword in another case, and an argument with the name of a criterion
example : parseTokens ⟨[], ⟨"c", ⟨6, 18⟩, 1, 7⟩⟩ [⟨"!Host".toList, ⟨"c", ⟨6, 11⟩, 1, 7⟩⟩,
    ⟨"a,!all".toList, ⟨"c", ⟨12, 18⟩, 1, 13⟩⟩] = .ok ⟨⟨[⟨⟨true, .host [
      ⟨⟨false, "a".toList⟩, ⟨"c", ⟨12, 13⟩, 1, 13⟩⟩,
      ⟨⟨true, "all".toList⟩, ⟨"c", ⟨14, 18⟩, 1, 15⟩⟩]⟩, ⟨"c", ⟨6, 11⟩, 1, 7⟩⟩]⟩,
        ⟨"c", ⟨6, 18⟩, 1, 7⟩⟩ := by decide +kernel

/-- The arguments of `Match all host x`. -/
def allHost : Located (List Char) := ⟨"all host x".toList, ⟨"c", ⟨6, 16⟩, 1, 7⟩⟩

def allHostTokens : List (Located (List Char)) :=
  [⟨"all".toList, ⟨"c", ⟨6, 9⟩, 1, 7⟩⟩, ⟨"host".toList, ⟨"c", ⟨10, 14⟩, 1, 11⟩⟩,
    ⟨"x".toList, ⟨"c", ⟨15, 16⟩, 1, 16⟩⟩]

/-- They are accepted, with both criteria, though `all` is not the last. -/
theorem allHost_accepted : allHost.tokenize = some allHostTokens ∧
    parseTokens allHost allHostTokens = .ok ⟨⟨[
      ⟨⟨false, .all⟩, ⟨"c", ⟨6, 9⟩, 1, 7⟩⟩,
      ⟨⟨false, .host [⟨⟨false, "x".toList⟩, ⟨"c", ⟨15, 16⟩, 1, 16⟩⟩]⟩, ⟨"c", ⟨10, 14⟩, 1, 11⟩⟩]⟩,
        ⟨"c", ⟨6, 16⟩, 1, 7⟩⟩ ∧
    ¬ ∃ es, IsMatch allHostTokens es := by
  have hok : parseTokens allHost allHostTokens = .ok ⟨⟨[
      ⟨⟨false, .all⟩, ⟨"c", ⟨6, 9⟩, 1, 7⟩⟩,
      ⟨⟨false, .host [⟨⟨false, "x".toList⟩, ⟨"c", ⟨15, 16⟩, 1, 16⟩⟩]⟩, ⟨"c", ⟨10, 14⟩, 1, 11⟩⟩]⟩,
        ⟨"c", ⟨6, 16⟩, 1, 7⟩⟩ := by decide +kernel
  refine ⟨by decide +kernel, hok, ?_⟩
  rintro ⟨es, -, hcriteria, hlast⟩
  obtain ⟨es', heq, -, hcriteria', -⟩ := parseTokens_ok_iff.mp hok
  have hsame :=
    (parseCriteria_ok_iff.mpr hcriteria).symm.trans (parseCriteria_ok_iff.mpr hcriteria')
  obtain rfl := Except.ok.inj hsame
  injection heq with hargs
  injection hargs with hentries
  have hnil := (hlast [] _ _ hentries.symm rfl).1
  cases hnil

end Dssh
