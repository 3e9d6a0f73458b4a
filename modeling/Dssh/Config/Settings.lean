import Dssh.Config.Directives

/-!
# Writing settings

A setting is what the typed arguments of a directive say, without their places. Each one can be
written as tokens: a number in decimal, a pattern with its `!`, a list with its commas, a
criterion with its keyword. A file with a directive in each line, with these tokens in double
quotes, is parsed to directives of which the parser of the setting's type reads the setting.

What can be written is what has no quote and no line break, and no comma where commas separate.

## What this is for

Four parsers work on top of each other: the grammar finds the directives, the tokenizer their
tokens, `split_comma` and the pattern parser the parts of a token, and the typed parser makes a
value of them. Each has its own theorem. The result here is about all of them at once and from
the outside: somebody who writes a file from settings gets the settings back, each from its own
line.

The repository has no writer. `Setting.tokens` is a specification of what a file that says this
looks like, and the round trip is the statement that the parsers agree with it.

## What cannot be written

The conditions are there because the format has no way around them, and each is necessary. There
is no escape for a double quote. A line break ends the directive. A comma in a part of a comma
list would separate, and an empty list of parts cannot be told from a list with one empty part.
A pattern that is not negated and begins with a `!` would be read as negated (`Pattern.Fits`).
An `all` must have nothing in front of it but `canonical` and `final` (`AllFits`), as the parser
refuses it otherwise; what comes behind the first `all` is free, since the parser lets it pass.

`WrittenSetting` collects the setting, its keyword and these conditions, so that a file of
settings is a list of them and `settings_read` has no other hypothesis than that there is at
least one.

## Which keyword

A keyword is not tied to a type: the caller of `parse_args` chooses the type by the keyword, and
the repository has no table for this. So any keyword goes with any setting here, and the theorem
says what the parser of the *setting's* type reads.

## Main definitions

* `Setting`, `Setting.tokens` — settings, and their tokens
* `Setting.Fits` — settings that can be written
* `Setting.ReadFrom` — the parser of its type reads the setting from a directive
* `WrittenSetting`, `settingsFile` — files of settings

## Main results

* `Setting.readFrom` — tokens of a setting are read as the setting
* `settings_read` — a file of settings
-/

namespace Dssh

open Config

/-! ## Settings

The values without places, as a program has them that writes a file. -/

/-- A criterion without places; the ones with patterns by their keyword. -/
inductive Criterion where
  | all
  | canonical
  | final
  | exec (command : List Char)
  | localNetwork (networks : List (List Char))
  | patterns (keyword : String) (patterns : List Pattern)

/-- A criterion, perhaps negated. -/
structure CriterionEntry where
  negated : Bool
  criterion : Criterion

/-- What a directive can say, by the type of its arguments. -/
inductive Setting where
  | host (patterns : List Pattern)
  | criteria (entries : List CriterionEntry)
  | includePaths (paths : List (List Char))
  | multi (values : List (List Char))
  | hostName (hostname : List Char)
  | user (username : List Char)
  | identityFile (path : List Char)
  | certificateFile (path : List Char)
  | dynamicForward (bind : List Char)
  | single (value : List Char)
  | proxyJump (jumps : List (List Char))
  | localForward (bind destination : List Char)
  | remoteForward (bind : List Char) (destination : Option (List Char))
  | port (port : BitVec 16)
  | serverAliveInterval (seconds : BitVec 32)
  | serverAliveCountMax (count : BitVec 32)
  | connectTimeout (seconds : BitVec 32)
  | connectionAttempts (count : BitVec 32)

/-! ### As tokens

How each is written, and which can be written: a comma in a part of a list, or a `!` at the
beginning of a pattern that is not negated, would be read as something else. -/

/-- The negation, as it is written. -/
def bang (negated : Bool) : List Char := if negated then ['!'] else []

/-- A pattern, as it is written. -/
def Pattern.text (p : Pattern) : List Char := bang p.negated ++ p.value

/-- Parts with commas in between. -/
def commas (parts : List (List Char)) : List Char := [','].intercalate parts

/-- A number, as it is written. -/
def decimal {bits : ℕ} (n : BitVec bits) : List Char := Nat.toDigits 10 n.toNat

/-- The keyword of a criterion. -/
def Criterion.keyword : Criterion → String
  | .all => "all"
  | .canonical => "canonical"
  | .final => "final"
  | .exec _ => "exec"
  | .localNetwork _ => "localnetwork"
  | .patterns keyword _ => keyword

/-- Its argument, if it has one. -/
def Criterion.arguments : Criterion → List (List Char)
  | .exec command => [command]
  | .localNetwork networks => [commas networks]
  | .patterns _ ps => [commas (ps.map Pattern.text)]
  | _ => []

/-- The tokens of a criterion. -/
def CriterionEntry.tokens (e : CriterionEntry) : List (List Char) :=
  (bang e.negated ++ e.criterion.keyword.toList) :: e.criterion.arguments

/-- The tokens of a setting. -/
def Setting.tokens : Setting → List (List Char)
  | .host patterns => patterns.map Pattern.text
  | .criteria entries => entries.flatMap CriterionEntry.tokens
  | .includePaths paths => paths
  | .multi values => values
  | .hostName hostname => [hostname]
  | .user username => [username]
  | .identityFile path => [path]
  | .certificateFile path => [path]
  | .dynamicForward bind => [bind]
  | .single value => [value]
  | .proxyJump jumps => [commas jumps]
  | .localForward bind destination => [bind, destination]
  | .remoteForward bind destination => bind :: destination.toList
  | .port number => [decimal number]
  | .serverAliveInterval seconds => [decimal seconds]
  | .serverAliveCountMax count => [decimal count]
  | .connectTimeout seconds => [decimal seconds]
  | .connectionAttempts count => [decimal count]

/-- What is not negated does not begin with a `!`. -/
def Pattern.Fits (p : Pattern) : Prop := p.negated = false → p.value.head? ≠ some '!'

/-- Parts that commas can separate. -/
def FitCommas (parts : List (List Char)) : Prop := parts ≠ [] ∧ ∀ part ∈ parts, ',' ∉ part

/-- A criterion that can be written. -/
def Criterion.Fits : Criterion → Prop
  | .localNetwork networks => FitCommas networks
  | .patterns keyword ps => keyword ∈ patternCriteria.map Prod.fst ∧
      FitCommas (ps.map Pattern.text) ∧ ∀ p ∈ ps, p.Fits
  | _ => True

/-- If there is an `all`, only `canonical` and `final` stand before the first one. -/
def AllFits (entries : List CriterionEntry) : Prop :=
  (∀ e ∈ entries, e.criterion ≠ .all) ∨
    ∃ before e behind, entries = before ++ e :: behind ∧ e.criterion = .all ∧
      ∀ e' ∈ before, e'.criterion = .canonical ∨ e'.criterion = .final

/-- A setting that can be written. -/
def Setting.Fits : Setting → Prop
  | .host patterns => patterns ≠ [] ∧ ∀ p ∈ patterns, p.Fits
  | .criteria entries => entries ≠ [] ∧ (∀ e ∈ entries, e.criterion.Fits) ∧ AllFits entries
  | .includePaths paths => paths ≠ []
  | .multi values => values ≠ []
  | .proxyJump jumps => FitCommas jumps
  | _ => True

/-! ### As they are read

What is read has places. `Says` forgets them, so that the value that was written and the value
that is read can be compared. -/

/-- The criterion has been read as one with places. -/
inductive Criterion.ReadAs : Criterion → MatchCriterion → Prop
  | all : ReadAs .all .all
  | canonical : ReadAs .canonical .canonical
  | final : ReadAs .final .final
  | exec (command : Located (List Char)) : ReadAs (.exec command.value) (.exec command)
  | localNetwork (networks : List (Located (List Char))) :
      ReadAs (.localNetwork (networks.map Located.value)) (.localNetwork networks)
  | patterns {keyword criterion} (h : (keyword, criterion) ∈ patternCriteria)
      (patterns : List (Located Pattern)) :
      ReadAs (.patterns keyword (patterns.map Located.value)) (criterion patterns)

structure CriterionEntry.ReadAs (e : CriterionEntry) (e' : Located MatchEntry) : Prop where
  /-- Both are negated, or neither is. -/
  negated : e'.value.negated = e.negated
  /-- The criteria are the same. -/
  criterion : e.criterion.ReadAs e'.value.criterion

/-- The parser accepts the arguments of `d`, with a value of this meaning. -/
def Directive.Says {ε α : Type} (d : Directive)
    (parseArguments : Located (List Char) → Option (Except (Located ε) (Located α)))
    (meaning : α → Prop) : Prop :=
  ∃ v, d.parseArgs parseArguments = some (.ok (d.arguments.withValue v)) ∧ meaning v

/-- The parser of the setting's type reads the setting from the arguments of `d`. -/
def Setting.ReadFrom (d : Directive) : Setting → Prop
  | .host patterns =>
    d.Says HostArgs.parseArguments fun v => v.patterns.map Located.value = patterns
  | .criteria entries =>
    d.Says MatchArgs.parseArguments fun v => List.Forall₂ CriterionEntry.ReadAs entries v.entries
  | .includePaths paths =>
    d.Says IncludeArgs.parseArguments fun v => v.paths.map Located.value = paths
  | .multi values => d.Says MultiArg.parseArguments fun v => v.values.map Located.value = values
  | .hostName hostname => d.Says HostNameArgs.parseArguments fun v => v.hostname.value = hostname
  | .user username => d.Says UserArgs.parseArguments fun v => v.username.value = username
  | .identityFile path => d.Says IdentityFileArgs.parseArguments fun v => v.path.value = path
  | .certificateFile path => d.Says CertificateFileArgs.parseArguments fun v => v.path.value = path
  | .dynamicForward bind => d.Says DynamicForwardArgs.parseArguments fun v => v.bind.value = bind
  | .single value => d.Says SingleArg.parseArguments fun v => v.value.value = value
  | .proxyJump jumps => d.Says ProxyJumpArgs.parseArguments fun v =>
    v.jumps.map Located.value = jumps
  | .localForward bind destination => d.Says LocalForwardArgs.parseArguments fun v =>
      v.bind.value = bind ∧ v.destination.value = destination
  | .remoteForward bind destination => d.Says RemoteForwardArgs.parseArguments fun v =>
      v.bind.value = bind ∧ v.destination.map Located.value = destination
  | .port number => d.Says PortArgs.parseArguments fun v => v.port.value = number
  | .serverAliveInterval seconds =>
    d.Says ServerAliveIntervalArgs.parseArguments fun v => v.seconds.value = seconds
  | .serverAliveCountMax count =>
    d.Says ServerAliveCountMaxArgs.parseArguments fun v => v.count.value = count
  | .connectTimeout seconds =>
    d.Says ConnectTimeoutArgs.parseArguments fun v => v.seconds.value = seconds
  | .connectionAttempts count =>
    d.Says ConnectionAttemptsArgs.parseArguments fun v => v.count.value = count

/-! ## Reading tokens of a setting

From tokens with the right values, wherever they are in the file, to the values they were written
from. -/

section Values

variable {t : Located (List Char)} {ts : List (Located (List Char))} {negated : Bool}
  {keyword : String} {patterns : List Pattern}

/-- The negation is read as it is written. -/
theorem stripNegation_bang {written : List Char}
    (h : negated = false → written.head? ≠ some '!') :
    stripNegation (bang negated ++ written) = (negated, written) :=
      stripNegation_eq_iff.mpr ⟨rfl, h⟩

/-- Patterns from their texts. -/
theorem map_parsePattern (hts : ts.map Located.value = patterns.map Pattern.text)
    (h : ∀ p ∈ patterns, p.Fits) : (ts.map parsePattern).map Located.value = patterns := by
  induction patterns generalizing ts with
  | nil =>
    obtain rfl := List.map_eq_nil_iff.mp hts
    rfl
  | cons p patterns ih =>
    obtain ⟨t, ts, rfl, ht, hts⟩ := List.map_eq_cons_iff.mp hts
    obtain ⟨hp, h⟩ := List.forall_mem_cons.mp h
    have hstrip : stripNegation t.value = (p.negated, p.value) := by
      rw [ht]
      exact stripNegation_bang hp
    rw [List.map_cons, List.map_cons, ih hts h]
    unfold parsePattern
    rw [hstrip]
    rfl

/-- Parts from between the commas. -/
theorem map_splitComma {parts : List (List Char)} (ht : t.value = commas parts)
    (h : FitCommas parts) :
    t.splitComma.map Located.value = parts := by
  rw [Located.splitComma, Located.partsFrom_value, ht]
  exact List.splitOn_intercalate ',' h.2 h.1

/-- Patterns from between the commas. -/
theorem map_parsePatternList (ht : t.value = commas (patterns.map Pattern.text))
    (hcommas : FitCommas (patterns.map Pattern.text)) (h : ∀ p ∈ patterns, p.Fits) :
    (parsePatternList t).map Located.value = patterns :=
  map_parsePattern (map_splitComma ht hcommas) h

/-- A keyword is read as it is written. -/
theorem names_bang (ht : t.value = bang negated ++ keyword.toList)
    (hlower : keyword.toList.map Char.toLower = keyword.toList) : Names t negated keyword :=
  ⟨keyword.toList, ht, hlower⟩

/-- Keywords are in lower case. -/
theorem lower_patternCriteria {criterion : List (Located Pattern) → MatchCriterion}
    (h : (keyword, criterion) ∈ patternCriteria) :
    keyword.toList.map Char.toLower = keyword.toList := by
  simp only [patternCriteria, List.mem_cons, Prod.mk.injEq, List.not_mem_nil, or_false] at h
  rcases h with ⟨rfl, -⟩ | ⟨rfl, -⟩ | ⟨rfl, -⟩ | ⟨rfl, -⟩ | ⟨rfl, -⟩ | ⟨rfl, -⟩ | ⟨rfl, -⟩ |
    ⟨rfl, -⟩ <;> rfl

/-- One criterion in front of others. -/
theorem CriterionEntry.exists_cons {e : CriterionEntry} {rest : List (Located (List Char))}
    {es : List (Located MatchEntry)} (hts : ts.map Located.value = e.tokens)
    (hfits : e.criterion.Fits) (hrest : Criteria rest es) :
    ∃ e', e.ReadAs e' ∧ Criteria (ts ++ rest) (e' :: es) := by
  obtain ⟨t, args, rfl, ht, hargs⟩ := List.map_eq_cons_iff.mp hts
  obtain ⟨negated, criterion⟩ := e
  cases criterion with
  | all =>
    obtain rfl := List.map_eq_nil_iff.mp hargs
    have ht : Names t negated "all" := names_bang ht rfl
    exact ⟨_, ⟨rfl, .all⟩, .plain ht (by decide) hrest⟩
  | canonical =>
    obtain rfl := List.map_eq_nil_iff.mp hargs
    have ht : Names t negated "canonical" := names_bang ht rfl
    exact ⟨_, ⟨rfl, .canonical⟩, .plain ht (by decide) hrest⟩
  | final =>
    obtain rfl := List.map_eq_nil_iff.mp hargs
    have ht : Names t negated "final" := names_bang ht rfl
    exact ⟨_, ⟨rfl, .final⟩, .plain ht (by decide) hrest⟩
  | exec command =>
    obtain ⟨arg, rfl, rfl⟩ := List.map_eq_singleton_iff.mp hargs
    exact ⟨_, ⟨rfl, .exec arg⟩, .exec (names_bang ht rfl) hrest⟩
  | localNetwork networks =>
    obtain ⟨arg, rfl, harg⟩ := List.map_eq_singleton_iff.mp hargs
    refine ⟨t.withValue ⟨negated, .localNetwork arg.splitComma⟩, ⟨rfl, ?_⟩,
      .localNetwork (names_bang ht rfl) (arg.commaPieces_iff.mpr rfl) hrest⟩
    rw [← map_splitComma harg hfits]
    exact .localNetwork _
  | patterns keyword patterns =>
    obtain ⟨arg, rfl, harg⟩ := List.map_eq_singleton_iff.mp hargs
    obtain ⟨hkeyword, hcommas, hpatterns⟩ := hfits
    obtain ⟨⟨keyword, criterion⟩, hmem, rfl⟩ := List.mem_map.mp hkeyword
    obtain ⟨pieces, hpieces, hforall⟩ := patterns_iff.mpr (rfl : parsePatternList arg = _)
    refine ⟨t.withValue ⟨negated, criterion (parsePatternList arg)⟩, ⟨rfl, ?_⟩,
      .patterns (names_bang ht (lower_patternCriteria hmem)) hmem hpieces hforall hrest⟩
    rw [← map_parsePatternList harg hcommas hpatterns]
    exact .patterns hmem _

/-- Criteria from the tokens of their entries. -/
theorem exists_criteria {entries : List CriterionEntry}
    (hts : ts.map Located.value = entries.flatMap CriterionEntry.tokens)
    (hfits : ∀ e ∈ entries, e.criterion.Fits) :
    ∃ es, Criteria ts es ∧ List.Forall₂ CriterionEntry.ReadAs entries es := by
  induction entries generalizing ts with
  | nil =>
    obtain rfl := List.map_eq_nil_iff.mp hts
    exact ⟨[], .nil, .nil⟩
  | cons e entries ih =>
    obtain ⟨front, rest, rfl, hfront, hrest⟩ := List.map_eq_append_iff.mp hts
    obtain ⟨he, hfits⟩ := List.forall_mem_cons.mp hfits
    obtain ⟨es, hcriteria, hread⟩ := ih hrest hfits
    obtain ⟨e', he', hcriteria⟩ := CriterionEntry.exists_cons hfront he hcriteria
    exact ⟨e' :: es, hcriteria, .cons he' hread⟩

end Values

/-! ### The placement of `all`

A condition on what is written becomes the condition that the parser checks. -/

/-- An `all` is read as one, and nothing else is. -/
theorem Criterion.ReadAs.all_iff {c : Criterion} {c' : MatchCriterion} (h : c.ReadAs c') :
    c' = .all ↔ c = .all := by
  cases h with
  | all => exact iff_of_true rfl rfl
  | patterns h ps =>
    refine iff_of_false (fun hc => ?_) (by intro hc; cases hc)
    simp only [patternCriteria, List.mem_cons, Prod.mk.injEq, List.not_mem_nil, or_false] at h
    rcases h with ⟨-, rfl⟩ | ⟨-, rfl⟩ | ⟨-, rfl⟩ | ⟨-, rfl⟩ | ⟨-, rfl⟩ | ⟨-, rfl⟩ | ⟨-, rfl⟩ |
      ⟨-, rfl⟩ <;> cases hc
  | _ => exact iff_of_false (by intro hc; cases hc) (by intro hc; cases hc)

/-- So are `canonical` and `final`. -/
theorem Criterion.ReadAs.canonicalOrFinal {c : Criterion} {c' : MatchCriterion} (h : c.ReadAs c')
    (hc : c = .canonical ∨ c = .final) : c' = .canonical ∨ c' = .final := by
  obtain rfl | rfl := hc
  · cases h
    exact .inl rfl
  · cases h
    exact .inr rfl

/-- What is related to an element comes from one. -/
theorem exists_of_forall₂ {α β : Type} {R : α → β → Prop} {as : List α} {bs : List β}
    (h : List.Forall₂ R as bs) {b : β} (hb : b ∈ bs) : ∃ a ∈ as, R a b := by
  induction h with
  | nil => exact absurd hb List.not_mem_nil
  | @cons a b' as bs hab _ ih =>
    obtain rfl | hb := List.mem_cons.mp hb
    · exact ⟨a, List.mem_cons_self, hab⟩
    · obtain ⟨a', ha', hab⟩ := ih hb
      exact ⟨a', List.mem_cons_of_mem a ha', hab⟩

/-- What is read of entries with `all` in its place has it there. -/
theorem AllFits.firstAllPlaced {entries : List CriterionEntry} {es : List (Located MatchEntry)}
    (h : AllFits entries) (hread : List.Forall₂ CriterionEntry.ReadAs entries es) :
    FirstAllPlaced es := by
  obtain hnone | ⟨before, e, behind, rfl, he, hbefore⟩ := h
  · rintro before' a behind' rfl ha -
    obtain ⟨e, he, hea⟩ := exists_of_forall₂ hread (List.mem_append_right _ List.mem_cons_self)
    exact absurd (hea.criterion.all_iff.mp ha) (hnone e he)
  · have hflip := hread.flip
    have htake := List.forall₂_take_append es before (e :: behind) hflip
    have hdrop := List.forall₂_drop_append es before (e :: behind) hflip
    cases hrest : es.drop before.length with
    | nil =>
      rw [hrest] at hdrop
      cases hdrop
    | cons a behind' =>
      rw [hrest] at hdrop
      have hes : es = es.take before.length ++ a :: behind' := by
        rw [← hrest, List.take_append_drop]
      have hflags : ∀ e' ∈ es.take before.length,
          e'.value.criterion = .canonical ∨ e'.value.criterion = .final := by
        intro e' he'
        obtain ⟨e₀, he₀, hread⟩ := exists_of_forall₂ htake.flip he'
        exact hread.criterion.canonicalOrFinal (hbefore e₀ he₀)
      have hall : a.value.criterion = .all := by
        cases hdrop with
        | cons hea => exact hea.criterion.all_iff.mpr he
      have hfirst : ∀ e' ∈ es.take before.length, e'.value.criterion ≠ .all := by
        intro e' he' h
        rcases hflags e' he' with h' | h' <;> rw [h'] at h <;> cases h
      obtain ⟨htakeWhile, hdropWhile⟩ := dropWhile_first_all behind' hfirst hall
      rw [hes, ← checkAllPlacement_ok_iff, checkAllPlacement, htakeWhile, hdropWhile]
      exact if_pos (List.all_eq_true.mpr fun e' he' => isCanonicalOrFinal_iff.mpr (hflags e' he'))

/-! ### Settings

The parsers are known by their answers, from the module on typed arguments. Here these are
applied to the tokens of a setting. -/

section Says

variable {ε α : Type} {f : SourceFile} {d : Directive} {ts : List (Located (List Char))}

/-- A parser that accepts the tokens says what they mean. -/
theorem Answers.says
    {parseArguments : Located (List Char) → Option (Except (Located ε) (Located α))}
    {reads meaning : α → Prop} {fails : Located ε → Prop} {locations : α → List Location}
    (h : Answers f d.arguments parseArguments reads fails locations) {v : α} (hv : reads v)
    (hmeaning : meaning v) : d.Says parseArguments meaning :=
  ⟨v, (h.ok_iff _).mpr ⟨rfl, hv⟩, hmeaning⟩

/-- One for many strings. -/
theorem AnswersMany.says
    {parseArguments : Located (List Char) →
      Option (Except (Located ArgumentCountError) (Located α))}
    {texts : α → List (Located (List Char))} (h : AnswersMany f d.arguments ts parseArguments texts)
    {m : List (Located (List Char)) → α} (hm : ∀ x, texts (m x) = x)
    {parts : List (List Char)} (hts : ts.map Located.value = parts) (hne : parts ≠ []) :
    d.Says parseArguments fun v => (texts v).map Located.value = parts := by
  refine Answers.says h (v := m ts) ⟨?_, hm ts⟩ ?_
  · rintro rfl
    exact hne hts.symm
  · show (texts (m ts)).map Located.value = parts
    rw [hm, hts]

/-- One for a single string. -/
theorem AnswersSingle.says
    {parseArguments : Located (List Char) →
      Option (Except (Located ArgumentCountError) (Located α))}
    {text : α → Located (List Char)} (h : AnswersSingle f d.arguments ts parseArguments text)
    {m : Located (List Char) → α} (hm : ∀ x, text (m x) = x) {part : List Char}
    (hts : ts.map Located.value = [part]) :
    d.Says parseArguments fun v => (text v).value = part := by
  obtain ⟨t, rfl, ht⟩ := List.map_eq_singleton_iff.mp hts
  refine Answers.says h (v := m t) ?_ ?_
  · show [t] = [text (m t)]
    rw [hm]
  · show (text (m t)).value = part
    rw [hm, ht]

/-- One for a number. -/
theorem AnswersNumber.says {bits : ℕ}
    {parseArguments : Located (List Char) →
      Option (Except (Located ParseIntegerArgError) (Located α))}
    {number : α → Located (BitVec bits)} (h : AnswersNumber f d.arguments ts parseArguments number)
    {m : Located (BitVec bits) → α} (hm : ∀ x, number (m x) = x) {n : BitVec bits}
    (hts : ts.map Located.value = [decimal n]) :
    d.Says parseArguments fun v => (number v).value = n := by
  obtain ⟨t, rfl, ht⟩ := List.map_eq_singleton_iff.mp hts
  refine Answers.says h (v := m (t.withValue n)) ?_ ?_
  · rw [hm]
    refine ⟨t, rfl, ?_, rfl⟩
    rw [ht]
    exact Decimal.isNumeral_toDigits n.toNat
  · show (number (m (t.withValue n))).value = n
    rw [hm]
    rfl

end Says

/-- The parser of the setting's type reads the setting from its tokens. -/
theorem Setting.readFrom {f : SourceFile} {d : Directive}
    (hd : .directive d ∈ f.parse) (s : Setting) (hfits : s.Fits)
    (htokens : d.arguments.tokenize.map (List.map Located.value) = some s.tokens) :
    s.ReadFrom d := by
  obtain ⟨ts, htokenized, -⟩ := exists_tokenized hd
  have h := htokenized.allAnswered
  rw [htokenized.tokenize, Option.map_some] at htokens
  have hts := Option.some.inj htokens
  cases s with
  | host patterns =>
    obtain ⟨hne, hfits⟩ := hfits
    refine h.host.says (v := ⟨ts.map parsePattern⟩) ⟨?_, forall₂_isPattern_iff.mpr rfl⟩
      (map_parsePattern hts hfits)
    rintro rfl
    exact hne (List.map_eq_nil_iff.mp hts.symm)
  | criteria entries =>
    obtain ⟨hne, hfits, hall⟩ := hfits
    obtain ⟨es, hcriteria, hread⟩ := exists_criteria hts hfits
    refine h.criteria.says (v := ⟨es⟩) ⟨?_, hcriteria, hall.firstAllPlaced hread⟩ hread
    rintro rfl
    obtain ⟨e, rest, rfl⟩ := List.exists_cons_of_ne_nil hne
    cases hts
  | includePaths paths => exact h.includePaths.says (m := .mk) (fun _ => rfl) hts hfits
  | multi values => exact h.multi.says (m := .mk) (fun _ => rfl) hts hfits
  | hostName hostname => exact h.hostName.says (m := .mk) (fun _ => rfl) hts
  | user username => exact h.user.says (m := .mk) (fun _ => rfl) hts
  | identityFile path => exact h.identityFile.says (m := .mk) (fun _ => rfl) hts
  | certificateFile path => exact h.certificateFile.says (m := .mk) (fun _ => rfl) hts
  | dynamicForward bind => exact h.dynamicForward.says (m := .mk) (fun _ => rfl) hts
  | single value => exact h.single.says (m := .mk) (fun _ => rfl) hts
  | proxyJump jumps =>
    obtain ⟨t, rfl, ht⟩ := List.map_eq_singleton_iff.mp hts
    exact h.proxyJump.says (v := ⟨t.splitComma⟩) ⟨t, rfl, t.commaPieces_iff.mpr rfl⟩
      (map_splitComma ht hfits)
  | localForward bind destination =>
    obtain ⟨t, rest, rfl, ht, hrest⟩ := List.map_eq_cons_iff.mp hts
    obtain ⟨t', rfl, ht'⟩ := List.map_eq_singleton_iff.mp hrest
    exact h.localForward.says (v := ⟨t, t'⟩) rfl ⟨ht, ht'⟩
  | remoteForward bind destination =>
    obtain ⟨t, rest, rfl, ht, hrest⟩ := List.map_eq_cons_iff.mp hts
    cases destination with
    | none =>
      obtain rfl := List.map_eq_nil_iff.mp hrest
      exact h.remoteForward.says (v := ⟨t, none⟩) rfl ⟨ht, rfl⟩
    | some destination =>
      obtain ⟨t', rfl, ht'⟩ := List.map_eq_singleton_iff.mp hrest
      exact h.remoteForward.says (v := ⟨t, some t'⟩) rfl ⟨ht, congrArg some ht'⟩
  | port number => exact h.port.says (m := .mk) (fun _ => rfl) hts
  | serverAliveInterval seconds => exact h.serverAliveInterval.says (m := .mk) (fun _ => rfl) hts
  | serverAliveCountMax count => exact h.serverAliveCountMax.says (m := .mk) (fun _ => rfl) hts
  | connectTimeout seconds => exact h.connectTimeout.says (m := .mk) (fun _ => rfl) hts
  | connectionAttempts count => exact h.connectionAttempts.says (m := .mk) (fun _ => rfl) hts

/-! ## Files of settings

The three steps put together: the lines of the file, the tokens of a line, and the values of the
tokens. -/

/-- A setting and the keyword it is written with. -/
structure WrittenSetting where
  /-- The keyword. -/
  keyword : List Char
  /-- The setting. -/
  setting : Setting
  /-- The grammar takes it for a keyword. -/
  isKeyword : IsKeyword keyword
  /-- No line break is in the tokens. -/
  isLine : ∀ t ∈ setting.tokens, IsLine t
  /-- No double quote is. -/
  noQuote : ∀ t ∈ setting.tokens, '"' ∉ t
  /-- It can be written. -/
  fits : setting.Fits

/-- The directive to be written. -/
def WrittenSetting.written (s : WrittenSetting) : Written :=
  ⟨s.keyword, s.setting.tokens, s.isKeyword, s.isLine, s.noQuote⟩

/-- The file that is written from settings. -/
def settingsFile (path : String) (nl : Newline) (ss : List WrittenSetting) : SourceFile :=
  writtenFile path nl (ss.map WrittenSetting.written)

/-- **Round trip.** A file written from settings is parsed to one directive for each, in its line
and with its keyword, from which the parser of the setting's type reads the setting. -/
theorem settings_read (path : String) (nl : Newline) {ss : List WrittenSetting} (hne : ss ≠ []) :
    (settingsFile path nl ss).parse.length = ss.length ∧
      ∀ (i : ℕ) (s : WrittenSetting), ss[i]? = some s →
        ∃ d, (settingsFile path nl ss).parse[i]? = some (.directive d) ∧
          d.keyword.value = s.keyword ∧ d.keyword.location.line = i + 1 ∧ s.setting.ReadFrom d := by
  obtain ⟨hlength, hread⟩ :=
    readAsWritten_of_ne_nil path nl (fun h => hne (List.map_eq_nil_iff.mp h) :
      ss.map WrittenSetting.written ≠ [])
  refine ⟨hlength.trans (List.length_map _), fun i s hs => ?_⟩
  obtain ⟨d, hd, hwritten⟩ := hread i s.written (by rw [List.getElem?_map, hs]; rfl)
  exact ⟨d, hd, hwritten.keyword, hwritten.line,
    s.setting.readFrom (List.mem_of_getElem? hd) s.fits hwritten.tokens⟩

/-- `Match "canonical" "!host" "*.example,!b x"` -/
def negatedHost : WrittenSetting where
  keyword := "Match".toList
  setting := .criteria [⟨false, .canonical⟩,
    ⟨true, .patterns "host" [⟨false, "*.example".toList⟩, ⟨true, "b x".toList⟩]⟩]
  isKeyword := ⟨'M', "atch".toList, rfl, by decide, List.all_eq_true.mp (by decide)⟩
  isLine := by decide
  noQuote := by decide
  fits := by
    refine ⟨List.cons_ne_nil _ _, ?_, .inl ?_⟩
    · refine List.forall_mem_cons.mpr ⟨trivial, List.forall_mem_singleton.mpr ⟨by decide, ?_, ?_⟩⟩
      · exact ⟨List.cons_ne_nil _ _, by decide⟩
      · exact List.forall_mem_cons.mpr ⟨fun _ => by decide, List.forall_mem_singleton.mpr
          (fun h => absurd h (by decide))⟩
    · intro e he h
      rcases List.mem_cons.mp he with rfl | he
      · cases h
      · rw [List.mem_singleton.mp he] at h
        cases h

/-- `Port "65535"` -/
def lastPort : WrittenSetting where
  keyword := "Port".toList
  setting := .port 65535
  isKeyword := ⟨'P', "ort".toList, rfl, by decide, List.all_eq_true.mp (by decide)⟩
  isLine := by decide
  noQuote := by decide
  fits := trivial

/-- Both come back, a negated criterion and a negated pattern among them. -/
theorem negatedHost_read : (settingsFile "config" .crlf [negatedHost, lastPort]).parse.length = 2 ∧
    ∀ (i : ℕ) (s : WrittenSetting), [negatedHost, lastPort][i]? = some s →
      ∃ d, (settingsFile "config" .crlf [negatedHost, lastPort]).parse[i]? = some (.directive d) ∧
        d.keyword.value = s.keyword ∧ d.keyword.location.line = i + 1 ∧ s.setting.ReadFrom d :=
  settings_read "config" .crlf (List.cons_ne_nil _ _)

end Dssh
