import Dssh.Config.MatchErrors
import Dssh.Config.Spans
import Dssh.Lib.Decimal

/-!
# Typed arguments

Behind the parser of the file, the arguments of a directive are parsed as one of several types:
some strings, exactly one or two of them, a number, patterns, or criteria. Each type has its
parser; which one is used is up to the caller. All of them split the arguments into tokens and
hand on the places of these, in what they return as well as in their errors.

`ArgumentsAnswered` says of every parser which tokens it accepts, what it makes of them and why
it refuses others. It holds of the arguments of every directive that a file is parsed to, with
all places in the file.

## Eighteen parsers

Most of them are alike. They differ in the number of tokens that they want and in the name of
the struct that these end up in, and the source writes each out. Here each keeps its definition,
under its own name and with its own constructor, so that it can be compared with its `impl`; the
common parts are functions with parameters (`tokenizeCounted`, `parseSingleInteger`,
`Located.finish`), as they are helper functions in the source. `HostArgs`, `ProxyJumpArgs` and
`RemoteForwardArgs` do something of their own, and `MatchArgs` has a module to itself.

What is said of a parser has one shape, `Answers`: it returns; it returns a value exactly if the
tokens read as one, and then at the place of the arguments; it returns an error exactly for one
of the stated reasons; and whatever it locates is in the file. `AnswersMany`, `AnswersSingle`
and `AnswersNumber` are the instances for the three families. So a parser that is added needs
one line if it belongs to a family.

## Errors

They are located as well, and not all at the same place. A wrong number of tokens is reported at
the arguments as a whole, a token that is no number at the token. The text that a count is
reported with ("exactly 1", "at least 1") belongs to the error.

## Places

What is asked of places is that they are true: the path is that of the file, the span cuts a text
out of it, the line and the column are those of the start of the span, as `line_col` computes
them. For the error values and for every part of a result, down to the single pattern, this
follows from where the tokens are, with no parser knowing about the file.

## Main definitions

* `HostArgs`, `IncludeArgs`, … with their `parseArguments` — the types
* `Answers` — what is said of a parser
* `ArgumentsAnswered` — this, of all of them
* `Tokenized` — the arguments of a directive with their tokens

## Main results

* `Tokenized.allAnswered` — what the parsers return on arguments with certain tokens
* `argumentsAnswered` — the same on the directives of a file
-/

namespace Dssh

open Config

/-! ## Errors

The three types of errors of the parsers other than `Match`, with the fields that their messages
are made from. -/

/-- The number of arguments is wrong. -/
structure ArgumentCountError where
  expected : String
  actual : ℕ
  deriving DecidableEq

/-- What can be wrong with an argument that is to be a number. -/
inductive ParseIntegerArgError where
  | wrongArgumentCount (actual : ℕ)
  | invalidValue (source : Decimal.Error)
  deriving DecidableEq

/-- `RemoteForward` has neither one argument nor two. -/
structure ParseRemoteForwardArgsError where
  actual : ℕ
  deriving DecidableEq

/-! ## Tokens

`tokenize_single` and its two siblings do the same with a different test on the number of tokens.
They are one definition with the test as its argument, applied three times. -/

/-- What `take` makes of the tokens, if it is their number that it expects. -/
def tokenizeCounted {β : Type} (expected : String) (take : List (Located (List Char)) → Option β)
    (args : Located (List Char)) : Option (Except (Located ArgumentCountError) β) :=
  args.tokenize.map fun tokens =>
    match take tokens with
    | some x => .ok x
    | none => .error (args.withValue ⟨expected, tokens.length⟩)

/-- One token. -/
def takeSingle : List (Located (List Char)) → Option (Located (List Char))
  | [token] => some token
  | _ => none

/-- Two tokens. -/
def takePair : List (Located (List Char)) → Option (Located (List Char) × Located (List Char))
  | [first, second] => some (first, second)
  | _ => none

/-- Some tokens. -/
def takeAtLeastOne : List (Located (List Char)) → Option (List (Located (List Char)))
  | [] => none
  | tokens => some tokens

/-- Exactly one token. -/
def tokenizeSingle (args : Located (List Char)) :
    Option (Except (Located ArgumentCountError) (Located (List Char))) :=
  tokenizeCounted "exactly 1" takeSingle args

/-- Exactly two tokens. -/
def tokenizePair (args : Located (List Char)) :
    Option (Except (Located ArgumentCountError) (Located (List Char) × Located (List Char))) :=
  tokenizeCounted "exactly 2" takePair args

/-- At least one token. -/
def tokenizeAtLeastOne (args : Located (List Char)) :
    Option (Except (Located ArgumentCountError) (List (Located (List Char)))) :=
  tokenizeCounted "at least 1" takeAtLeastOne args

/-- A number of the width `bits`. -/
def parseSingleInteger (bits : ℕ) (args : Located (List Char)) :
    Option (Except (Located ParseIntegerArgError) (Located (BitVec bits))) :=
  args.tokenize.map fun tokens =>
    match takeSingle tokens with
    | some token =>
      match Decimal.parse bits token.value with
      | .ok value => .ok (token.withValue value)
      | .error source => .error (token.withValue (.invalidValue source))
    | none => .error (args.withValue (.wrongArgumentCount tokens.length))

/-- `?`, and `args.with_value` of what is made of it. -/
def Located.finish {ε α β : Type} (args : Located (List Char)) (make : β → α)
    (r : Option (Except (Located ε) β)) : Option (Except (Located ε) (Located α)) :=
  r.map (Except.map fun x => args.withValue (make x))

/-! ## The types

One type for each kind of arguments, with one field mostly. The parsers behind them differ in the
number of tokens and in what is made of a token; those that only differ in the type are the same
expression. -/

/-- `Host pattern1 pattern2 …` -/
structure HostArgs where
  patterns : List (Located Pattern)

/-- `Include path1 path2 …` -/
structure IncludeArgs where
  paths : List (Located (List Char))

/-- The arguments of any keyword that takes one or more strings. -/
structure MultiArg where
  values : List (Located (List Char))

/-- `HostName hostname` -/
structure HostNameArgs where
  hostname : Located (List Char)

/-- `User username` -/
structure UserArgs where
  username : Located (List Char)

/-- `IdentityFile path` -/
structure IdentityFileArgs where
  path : Located (List Char)

/-- `CertificateFile path` -/
structure CertificateFileArgs where
  path : Located (List Char)

/-- `DynamicForward [bind_address:]port` -/
structure DynamicForwardArgs where
  bind : Located (List Char)

/-- `ProxyJump destination1,destination2,…` -/
structure ProxyJumpArgs where
  jumps : List (Located (List Char))

/-- The argument of any keyword that takes one string. -/
structure SingleArg where
  value : Located (List Char)

/-- `LocalForward [bind_address:]port host:hostport` -/
structure LocalForwardArgs where
  bind : Located (List Char)
  destination : Located (List Char)

/-- `Port number` -/
structure PortArgs where
  port : Located (BitVec 16)

/-- `ServerAliveInterval seconds` -/
structure ServerAliveIntervalArgs where
  seconds : Located (BitVec 32)

/-- `ServerAliveCountMax count` -/
structure ServerAliveCountMaxArgs where
  count : Located (BitVec 32)

/-- `ConnectTimeout seconds` -/
structure ConnectTimeoutArgs where
  seconds : Located (BitVec 32)

/-- `ConnectionAttempts count` -/
structure ConnectionAttemptsArgs where
  count : Located (BitVec 32)

/-- `RemoteForward [bind_address:]port [host:hostport]` -/
structure RemoteForwardArgs where
  bind : Located (List Char)
  destination : Option (Located (List Char))

section Parsers

variable (args : Located (List Char))

def HostArgs.parseArguments : Option (Except (Located ArgumentCountError) (Located HostArgs)) :=
  args.finish (fun tokens => ⟨tokens.map parsePattern⟩) (tokenizeAtLeastOne args)

def IncludeArgs.parseArguments :
    Option (Except (Located ArgumentCountError) (Located IncludeArgs)) :=
  args.finish .mk (tokenizeAtLeastOne args)

def MultiArg.parseArguments : Option (Except (Located ArgumentCountError) (Located MultiArg)) :=
  args.finish .mk (tokenizeAtLeastOne args)

def HostNameArgs.parseArguments :
    Option (Except (Located ArgumentCountError) (Located HostNameArgs)) :=
  args.finish .mk (tokenizeSingle args)

def UserArgs.parseArguments : Option (Except (Located ArgumentCountError) (Located UserArgs)) :=
  args.finish .mk (tokenizeSingle args)

def IdentityFileArgs.parseArguments :
    Option (Except (Located ArgumentCountError) (Located IdentityFileArgs)) :=
  args.finish .mk (tokenizeSingle args)

def CertificateFileArgs.parseArguments :
    Option (Except (Located ArgumentCountError) (Located CertificateFileArgs)) :=
  args.finish .mk (tokenizeSingle args)

def DynamicForwardArgs.parseArguments :
    Option (Except (Located ArgumentCountError) (Located DynamicForwardArgs)) :=
  args.finish .mk (tokenizeSingle args)

def ProxyJumpArgs.parseArguments :
    Option (Except (Located ArgumentCountError) (Located ProxyJumpArgs)) :=
  args.finish (fun token => ⟨token.splitComma⟩) (tokenizeSingle args)

def SingleArg.parseArguments : Option (Except (Located ArgumentCountError) (Located SingleArg)) :=
  args.finish .mk (tokenizeSingle args)

def LocalForwardArgs.parseArguments :
    Option (Except (Located ArgumentCountError) (Located LocalForwardArgs)) :=
  args.finish (fun pair => ⟨pair.1, pair.2⟩) (tokenizePair args)

def PortArgs.parseArguments : Option (Except (Located ParseIntegerArgError) (Located PortArgs)) :=
  args.finish .mk (parseSingleInteger 16 args)

def ServerAliveIntervalArgs.parseArguments :
    Option (Except (Located ParseIntegerArgError) (Located ServerAliveIntervalArgs)) :=
  args.finish .mk (parseSingleInteger 32 args)

def ServerAliveCountMaxArgs.parseArguments :
    Option (Except (Located ParseIntegerArgError) (Located ServerAliveCountMaxArgs)) :=
  args.finish .mk (parseSingleInteger 32 args)

def ConnectTimeoutArgs.parseArguments :
    Option (Except (Located ParseIntegerArgError) (Located ConnectTimeoutArgs)) :=
  args.finish .mk (parseSingleInteger 32 args)

def ConnectionAttemptsArgs.parseArguments :
    Option (Except (Located ParseIntegerArgError) (Located ConnectionAttemptsArgs)) :=
  args.finish .mk (parseSingleInteger 32 args)

/-- The parser behind the tokenizer. -/
def RemoteForwardArgs.ofTokens :
    List (Located (List Char)) →
      Except (Located ParseRemoteForwardArgsError) (Located RemoteForwardArgs)
  | [bind] => .ok (args.withValue ⟨bind, none⟩)
  | [bind, destination] => .ok (args.withValue ⟨bind, some destination⟩)
  | tokens => .error (args.withValue ⟨tokens.length⟩)

/-- The parser. -/
def RemoteForwardArgs.parseArguments :
    Option (Except (Located ParseRemoteForwardArgsError) (Located RemoteForwardArgs)) :=
  args.tokenize.map (ofTokens args)

end Parsers

/-- `directive.parse_args::<T>()`, for the type with this parser. -/
def Directive.parseArgs {ρ : Type} (d : Directive) (parseArguments : Located (List Char) → ρ) : ρ :=
  parseArguments d.arguments

/-! ## Answers

What each of the parsers returns, said without it: from the tokens, and with the places in the
file that its values and its errors have. An error in the number of tokens is located at the
arguments, and one in a token at the token. -/

/-- The text of the file at this location. -/
def SourceFile.Locates (f : SourceFile) (l : Location) : Prop := ∃ text, f.Places ⟨text, l⟩

/-- What the parser returns on the arguments `a`, with all that it locates in the file. -/
structure Answers {ε α : Type} (f : SourceFile) (a : Located (List Char))
    (parseArguments : Located (List Char) → Option (Except (Located ε) (Located α)))
    (reads : α → Prop) (fails : Located ε → Prop) (locations : α → List Location) : Prop where
  /-- Nothing panics. -/
  returns : (parseArguments a).isSome = true
  /-- What is accepted, and as what. -/
  ok_iff : ∀ r, parseArguments a = some (.ok r) ↔ r.location = a.location ∧ reads r.value
  /-- What is refused, and why. -/
  error_iff : ∀ e, parseArguments a = some (.error e) ↔ fails e
  /-- All that is returned is in the file … -/
  located : ∀ r, parseArguments a = some (.ok r) →
    ∀ l ∈ r.location :: locations r.value, f.Locates l
  /-- … and so is an error. -/
  errorLocated : ∀ e, parseArguments a = some (.error e) → f.Locates e.location

/-- The number of tokens is reported, at the arguments. -/
def CountFails (a : Located (List Char)) (ts : List (Located (List Char))) (expected : String)
    (wrong : Prop) (e : Located ArgumentCountError) : Prop :=
  wrong ∧ e = a.withValue ⟨expected, ts.length⟩

/-- The number of tokens is reported at the arguments, and what is no number at its token. -/
def NumberFails (bits : ℕ) (a : Located (List Char)) (ts : List (Located (List Char)))
    (e : Located ParseIntegerArgError) : Prop :=
  ts.length ≠ 1 ∧ e = a.withValue (.wrongArgumentCount ts.length) ∨
    ∃ t k, ts = [t] ∧ Decimal.Refused bits t.value k ∧ e = t.withValue (.invalidValue k)

section Families

variable {α : Type} (f : SourceFile) (a : Located (List Char)) (ts : List (Located (List Char)))

/-- One or more strings. -/
def AnswersMany
    (parseArguments : Located (List Char) →
      Option (Except (Located ArgumentCountError) (Located α)))
    (texts : α → List (Located (List Char))) : Prop :=
  Answers f a parseArguments (fun v => ts ≠ [] ∧ texts v = ts)
    (CountFails a ts "at least 1" (ts = []))
    (fun v => (texts v).map Located.location)

/-- One string. -/
def AnswersSingle
    (parseArguments : Located (List Char) →
      Option (Except (Located ArgumentCountError) (Located α)))
    (text : α → Located (List Char)) : Prop :=
  Answers f a parseArguments (fun v => ts = [text v])
    (CountFails a ts "exactly 1" (ts.length ≠ 1)) (fun v => [(text v).location])

/-- A number. -/
def AnswersNumber {bits : ℕ}
    (parseArguments : Located (List Char) →
      Option (Except (Located ParseIntegerArgError) (Located α)))
    (number : α → Located (BitVec bits)) : Prop :=
  Answers f a parseArguments
    (fun v => ∃ t, ts = [t] ∧ Decimal.IsNumeral t.value (number v).value.toNat ∧
      (number v).location = t.location)
    (NumberFails bits a ts) (fun v => [(number v).location])

end Families

/-- All places in a criterion. -/
def MatchCriterion.locations : MatchCriterion → List Location
  | .all => []
  | .canonical => []
  | .final => []
  | .exec text => [text.location]
  | .host patterns => patterns.map Located.location
  | .originalHost patterns => patterns.map Located.location
  | .user patterns => patterns.map Located.location
  | .localUser patterns => patterns.map Located.location
  | .localNetwork networks => networks.map Located.location
  | .tagged patterns => patterns.map Located.location
  | .command patterns => patterns.map Located.location
  | .version patterns => patterns.map Located.location
  | .sessionType patterns => patterns.map Located.location

/-- All places in the arguments of `Match`. -/
def MatchArgs.locations (v : MatchArgs) : List Location :=
  v.entries.flatMap fun e => e.location :: e.value.criterion.locations

/-- What the parsers return on arguments with these tokens. -/
structure ArgumentsAnswered (f : SourceFile) (a : Located (List Char))
    (ts : List (Located (List Char))) : Prop where
  host : Answers f a HostArgs.parseArguments
    (fun v => ts ≠ [] ∧ List.Forall₂ IsPattern ts v.patterns)
    (CountFails a ts "at least 1" (ts = [])) (fun v => v.patterns.map Located.location)
  criteria : Answers f a MatchArgs.parseArguments
    (fun v => ts ≠ [] ∧ Criteria ts v.entries ∧ FirstAllPlaced v.entries) (MatchFails a ts)
    MatchArgs.locations
  includePaths : AnswersMany f a ts IncludeArgs.parseArguments IncludeArgs.paths
  multi : AnswersMany f a ts MultiArg.parseArguments MultiArg.values
  hostName : AnswersSingle f a ts HostNameArgs.parseArguments HostNameArgs.hostname
  user : AnswersSingle f a ts UserArgs.parseArguments UserArgs.username
  identityFile : AnswersSingle f a ts IdentityFileArgs.parseArguments IdentityFileArgs.path
  certificateFile : AnswersSingle f a ts CertificateFileArgs.parseArguments CertificateFileArgs.path
  dynamicForward : AnswersSingle f a ts DynamicForwardArgs.parseArguments DynamicForwardArgs.bind
  single : AnswersSingle f a ts SingleArg.parseArguments SingleArg.value
  proxyJump :
    Answers f a ProxyJumpArgs.parseArguments (fun v => ∃ t, ts = [t] ∧ CommaPieces t v.jumps)
    (CountFails a ts "exactly 1" (ts.length ≠ 1)) (fun v => v.jumps.map Located.location)
  localForward : Answers f a LocalForwardArgs.parseArguments (fun v => ts = [v.bind, v.destination])
    (CountFails a ts "exactly 2" (ts.length ≠ 2))
      (fun v => [v.bind.location, v.destination.location])
  remoteForward : Answers f a RemoteForwardArgs.parseArguments
    (fun v => ts = v.bind :: v.destination.toList)
    (fun e => (ts = [] ∨ 2 < ts.length) ∧ e = a.withValue ⟨ts.length⟩)
    (fun v => (v.bind :: v.destination.toList).map Located.location)
  port : AnswersNumber f a ts PortArgs.parseArguments PortArgs.port
  serverAliveInterval :
    AnswersNumber f a ts ServerAliveIntervalArgs.parseArguments ServerAliveIntervalArgs.seconds
  serverAliveCountMax :
    AnswersNumber f a ts ServerAliveCountMaxArgs.parseArguments ServerAliveCountMaxArgs.count
  connectTimeout : AnswersNumber f a ts ConnectTimeoutArgs.parseArguments ConnectTimeoutArgs.seconds
  connectionAttempts :
    AnswersNumber f a ts ConnectionAttemptsArgs.parseArguments ConnectionAttemptsArgs.count

/-! ## Proofs

### The number of tokens -/

variable {ε α β : Type} {f : SourceFile} {a t : Located (List Char)}
  {ts : List (Located (List Char))}

/-- Some tokens are taken as they are. -/
theorem takeAtLeastOne_iff {x : List (Located (List Char))} :
    takeAtLeastOne ts = some x ↔ ts ≠ [] ∧ x = ts := by
  cases ts with
  | nil => exact iff_of_false (by intro h; cases h) (fun h => h.1 rfl)
  | cons t ts =>
    refine ⟨fun h => ⟨List.cons_ne_nil t ts, (Option.some.inj h).symm⟩, ?_⟩
    rintro ⟨-, rfl⟩
    rfl

/-- None are not taken. -/
theorem takeAtLeastOne_eq_none : ts = [] ↔ takeAtLeastOne ts = none := by
  cases ts with
  | nil => exact iff_of_true rfl rfl
  | cons t ts => exact iff_of_false (List.cons_ne_nil t ts) (by intro h; cases h)

/-- One token is taken. -/
theorem takeSingle_iff : takeSingle ts = some t ↔ ts = [t] := by
  unfold takeSingle
  split <;> simp_all

/-- Any other number is not. -/
theorem takeSingle_eq_none : ts.length ≠ 1 ↔ takeSingle ts = none := by
  unfold takeSingle
  split
  · simp
  · rename_i hne
    refine iff_of_true (fun hlength => ?_) rfl
    obtain ⟨t, rfl⟩ := List.length_eq_one_iff.mp hlength
    exact hne t rfl

/-- Two tokens are taken. -/
theorem takePair_iff {t' : Located (List Char)} : takePair ts = some (t, t') ↔ ts = [t, t'] := by
  unfold takePair
  split <;> simp_all

/-- Any other number is not. -/
theorem takePair_eq_none : ts.length ≠ 2 ↔ takePair ts = none := by
  unfold takePair
  split
  · simp
  · rename_i hne
    refine iff_of_true (fun hlength => ?_) rfl
    obtain ⟨t, t', rfl⟩ := List.length_eq_two.mp hlength
    exact hne t t' rfl

/-! ### One parser -/

/-- The arguments of a directive in the file and their tokens. -/
structure Tokenized (f : SourceFile) (a : Located (List Char)) (ts : List (Located (List Char))) :
    Prop where
  /-- The tokens. -/
  tokenize : a.tokenize = some ts
  /-- The arguments are in the file … -/
  arguments : f.Places a
  /-- … and so are the tokens. -/
  tokens : ∀ t ∈ ts, f.Places t
  /-- None reaches over the end of a line. -/
  inLine : ∀ t ∈ ts, '\n' ∉ t.value

/-- What is placed in the file has a location there. -/
theorem SourceFile.Places.locates (h : f.Places a) : f.Locates a.location := ⟨a.value, h⟩

namespace Tokenized

/-- A token is in the file. -/
theorem locates (h : Tokenized f a ts) (ht : t ∈ ts) : f.Locates t.location :=
  (h.tokens t ht).locates

/-- The pieces of a token are in the file. -/
theorem piece (h : Tokenized f a ts) (ht : t ∈ ts) {p : Located (List Char)}
    (hp : p ∈ t.splitComma) : f.Locates p.location :=
  ((h.tokens t ht).part (h.inLine t ht) (t.isPart_of_splitComma.1 p hp)).locates

/-- A value at the place of the arguments. -/
theorem ok_withValue_iff {x : α} {v : Located α} :
    (Except.ok (a.withValue x) : Except (Located ε) _) = .ok v ↔
      v.location = a.location ∧ x = v.value := by
  constructor
  · rintro ⟨rfl⟩
    exact ⟨rfl, rfl⟩
  · rintro ⟨hlocation, rfl⟩
    rw [Located.withValue, ← hlocation]

/-- From what the parser returns. -/
theorem answers (h : Tokenized f a ts)
    {parseArguments : Located (List Char) → Option (Except (Located ε) (Located α))}
    {r : Except (Located ε) (Located α)} {reads : α → Prop} {fails : Located ε → Prop}
    {locations : α → List Location} (hparse : parseArguments a = some r)
    (hok : ∀ v, r = .ok v ↔ v.location = a.location ∧ reads v.value)
    (herror : ∀ e, r = .error e ↔ fails e)
    (hreads : ∀ v, reads v → ∀ l ∈ locations v, f.Locates l)
    (hfails : ∀ e, fails e → f.Locates e.location) :
    Answers f a parseArguments reads fails locations where
  returns := by rw [hparse]; rfl
  ok_iff v := by rw [hparse, ← hok, Option.some.injEq]
  error_iff e := by rw [hparse, ← herror, Option.some.injEq]
  located v hv := by
    rw [hparse, Option.some.injEq, hok] at hv
    refine List.forall_mem_cons.mpr ⟨?_, hreads v.value hv.2⟩
    rw [hv.1]
    exact h.arguments.locates
  errorLocated e he := by
    rw [hparse, Option.some.injEq, herror] at he
    exact hfails e he

/-- Where the number of tokens decides. -/
theorem answers_counted (h : Tokenized f a ts) {expected : String}
    {take : List (Located (List Char)) → Option β} {make : β → α} {reads : α → Prop} {wrong : Prop}
    {locations : α → List Location} (hok : ∀ v, reads v ↔ ∃ x, take ts = some x ∧ make x = v)
    (hwrong : wrong ↔ take ts = none) (hreads : ∀ v, reads v → ∀ l ∈ locations v, f.Locates l) :
    Answers f a (fun args => args.finish make (tokenizeCounted expected take args)) reads
      (CountFails a ts expected wrong) locations := by
  have hfails : ∀ e, CountFails a ts expected wrong e → f.Locates e.location := by
    rintro e ⟨-, rfl⟩
    exact h.arguments.locates
  cases hx : take ts with
  | some x =>
    refine h.answers (r := .ok (a.withValue (make x))) ?_ (fun v => ?_) (fun e => ?_) hreads hfails
    · simp only [Located.finish, tokenizeCounted, h.tokenize, Option.map_some, hx]
      rfl
    · rw [ok_withValue_iff, hok]
      refine and_congr_right fun _ => ⟨fun hmake => ⟨x, hx, hmake⟩, ?_⟩
      rintro ⟨x', hx', hmake⟩
      rwa [Option.some.inj (hx.symm.trans hx')]
    · refine iff_of_false (by intro h; cases h) fun he => ?_
      rw [hwrong.mp he.1] at hx
      cases hx
  | none =>
    refine h.answers (r := .error (a.withValue ⟨expected, ts.length⟩)) ?_
      (fun v => ?_) (fun e => ?_)
      hreads hfails
    · simp only [Located.finish, tokenizeCounted, h.tokenize, Option.map_some, hx]
      rfl
    · refine iff_of_false (by intro h; cases h) fun hv => ?_
      obtain ⟨x, hx', -⟩ := (hok _).mp hv.2
      rw [hx'] at hx
      cases hx
    · constructor
      · rintro ⟨rfl⟩
        exact ⟨hwrong.mpr hx, rfl⟩
      · rintro ⟨-, rfl⟩
        rfl

/-- A parser that wants at least one token. -/
theorem answersMany (h : Tokenized f a ts) {make : List (Located (List Char)) → α}
    {texts : α → List (Located (List Char))} (hmake : ∀ x, texts (make x) = x)
    (htexts : ∀ v, make (texts v) = v) :
    AnswersMany f a ts (fun args => args.finish make (tokenizeAtLeastOne args)) texts := by
  refine h.answers_counted (fun v => ?_) takeAtLeastOne_eq_none ?_
  · constructor
    · rintro ⟨hne, hv⟩
      exact ⟨ts, takeAtLeastOne_iff.mpr ⟨hne, rfl⟩, hv ▸ htexts v⟩
    · rintro ⟨x, hx, rfl⟩
      obtain ⟨hne, rfl⟩ := takeAtLeastOne_iff.mp hx
      exact ⟨hne, hmake x⟩
  · rintro v ⟨-, hv⟩ l hl
    obtain ⟨t, ht, rfl⟩ := List.mem_map.mp hl
    exact h.locates (hv ▸ ht)

/-- One that wants exactly one. -/
theorem answersSingle (h : Tokenized f a ts) {make : Located (List Char) → α}
    {text : α → Located (List Char)} (hmake : ∀ x, text (make x) = x)
    (htext : ∀ v, make (text v) = v) :
    AnswersSingle f a ts (fun args => args.finish make (tokenizeSingle args)) text := by
  refine h.answers_counted (fun v => ?_) takeSingle_eq_none ?_
  · constructor
    · intro hv
      exact ⟨text v, takeSingle_iff.mpr hv, htext v⟩
    · rintro ⟨x, hx, rfl⟩
      rw [takeSingle_iff.mp hx, hmake]
  · intro v hv l hl
    rw [List.mem_singleton.mp hl]
    exact h.locates (hv ▸ List.mem_singleton_self _)

/-- One that wants a number. -/
theorem answersNumber (h : Tokenized f a ts) {bits : ℕ} {make : Located (BitVec bits) → α}
    {number : α → Located (BitVec bits)} (hmake : ∀ x, number (make x) = x)
    (hnumber : ∀ v, make (number v) = v) :
    AnswersNumber f a ts (fun args => args.finish make (parseSingleInteger bits args)) number := by
  have hreads : ∀ v, (∃ t, ts = [t] ∧ Decimal.IsNumeral t.value (number v).value.toNat ∧
      (number v).location = t.location) → ∀ l ∈ [(number v).location], f.Locates l := by
    rintro v ⟨t, hts, -, hlocation⟩ l hl
    rw [List.mem_singleton.mp hl, hlocation]
    exact h.locates (hts ▸ List.mem_singleton_self t)
  have hfails : ∀ e, NumberFails bits a ts e → f.Locates e.location := by
    rintro e (⟨-, rfl⟩ | ⟨t, k, hts, -, rfl⟩)
    · exact h.arguments.locates
    · exact h.locates (hts ▸ List.mem_singleton_self t)
  cases hx : takeSingle ts with
  | none =>
    have hne : ∀ t, ts ≠ [t] := by
      rintro t hts
      rw [takeSingle_iff.mpr hts] at hx
      cases hx
    refine h.answers (r := .error (a.withValue (.wrongArgumentCount ts.length))) ?_ (fun v => ?_)
      (fun e => ?_) hreads hfails
    · simp only [Located.finish, parseSingleInteger, h.tokenize, Option.map_some, hx]
      rfl
    · refine iff_of_false (by intro h; cases h) ?_
      rintro ⟨-, t, hts, -⟩
      exact hne t hts
    · constructor
      · rintro ⟨rfl⟩
        exact .inl ⟨takeSingle_eq_none.mpr hx, rfl⟩
      · rintro (⟨-, rfl⟩ | ⟨t, k, hts, -⟩)
        · rfl
        · exact absurd hts (hne t)
  | some t =>
    obtain rfl := takeSingle_iff.mp hx
    cases hparse : Decimal.parse bits t.value with
    | ok n =>
      refine h.answers (r := .ok (a.withValue (make (t.withValue n)))) ?_
        (fun v => ?_) (fun e => ?_)
        hreads hfails
      · simp only [Located.finish, parseSingleInteger, h.tokenize, Option.map_some, hx, hparse]
        rfl
      · rw [ok_withValue_iff]
        refine and_congr_right fun _ => ?_
        constructor
        · intro hv
          rw [← hv, hmake]
          exact ⟨t, rfl, Decimal.parse_ok_iff.mp hparse, rfl⟩
        · rintro ⟨t', hts, hnumeral, hlocation⟩
          obtain rfl := List.singleton_inj.mp hts
          have hn := Except.ok.inj (hparse.symm.trans (Decimal.parse_ok_iff.mpr hnumeral))
          rw [← hnumber v.value, hn, Located.withValue, ← hlocation]
      · refine iff_of_false (by intro h; cases h) ?_
        rintro (⟨hlength, -⟩ | ⟨t', k, hts, hrefused, -⟩)
        · exact hlength rfl
        · obtain rfl := List.singleton_inj.mp hts
          rw [Decimal.parse_error_iff.mpr hrefused] at hparse
          cases hparse
    | error k =>
      refine h.answers (r := .error (t.withValue (.invalidValue k))) ?_ (fun v => ?_) (fun e => ?_)
        hreads hfails
      · simp only [Located.finish, parseSingleInteger, h.tokenize, Option.map_some, hx, hparse]
        rfl
      · refine iff_of_false (by intro h; cases h) ?_
        rintro ⟨-, t', hts, hnumeral, -⟩
        obtain rfl := List.singleton_inj.mp hts
        rw [Decimal.parse_ok_iff.mpr hnumeral] at hparse
        cases hparse
      · constructor
        · rintro ⟨rfl⟩
          exact .inr ⟨t, k, rfl, Decimal.parse_error_iff.mp hparse, rfl⟩
        · rintro (⟨hlength, -⟩ | ⟨t', k', hts, hrefused, rfl⟩)
          · exact absurd rfl hlength
          · obtain rfl := List.singleton_inj.mp hts
            rw [Decimal.parse_error_iff.mpr hrefused] at hparse
            rw [Except.error.inj hparse]

/-! ### Those with a parser of their own

Patterns, lists with commas, pairs, the one with one or two arguments, and `Match`. What is
located in their values has to be found in the file, which is known of tokens and of their
pieces. -/

/-- `Host` wants patterns. -/
theorem host (h : Tokenized f a ts) : Answers f a HostArgs.parseArguments
    (fun v => ts ≠ [] ∧ List.Forall₂ IsPattern ts v.patterns)
    (CountFails a ts "at least 1" (ts = [])) (fun v => v.patterns.map Located.location) := by
  refine h.answers_counted (fun v => ?_) takeAtLeastOne_eq_none ?_
  · rw [forall₂_isPattern_iff]
    constructor
    · rintro ⟨hne, hpatterns⟩
      exact ⟨ts, takeAtLeastOne_iff.mpr ⟨hne, rfl⟩, congrArg HostArgs.mk hpatterns⟩
    · rintro ⟨x, hx, rfl⟩
      obtain ⟨hne, rfl⟩ := takeAtLeastOne_iff.mp hx
      exact ⟨hne, rfl⟩
  · rintro v ⟨-, hpatterns⟩ l hl
    rw [← forall₂_isPattern_iff.mp hpatterns, List.map_map] at hl
    obtain ⟨t, ht, rfl⟩ := List.mem_map.mp hl
    exact h.locates ht

/-- `ProxyJump` wants one token, with commas. -/
theorem proxyJump (h : Tokenized f a ts) : Answers f a ProxyJumpArgs.parseArguments
    (fun v => ∃ t, ts = [t] ∧ CommaPieces t v.jumps) (CountFails a ts "exactly 1" (ts.length ≠ 1))
    (fun v => v.jumps.map Located.location) := by
  refine h.answers_counted (fun v => ?_) takeSingle_eq_none ?_
  · constructor
    · rintro ⟨t, hts, hpieces⟩
      exact ⟨t, takeSingle_iff.mpr hts, congrArg ProxyJumpArgs.mk (t.commaPieces_iff.mp hpieces)⟩
    · rintro ⟨t, ht, rfl⟩
      exact ⟨t, takeSingle_iff.mp ht, t.commaPieces_iff.mpr rfl⟩
  · rintro v ⟨t, rfl, hpieces⟩ l hl
    obtain ⟨p, hp, rfl⟩ := List.mem_map.mp hl
    exact h.piece (List.mem_singleton_self t) (t.commaPieces_iff.mp hpieces ▸ hp)

/-- `LocalForward` wants two. -/
theorem localForward (h : Tokenized f a ts) : Answers f a LocalForwardArgs.parseArguments
    (fun v => ts = [v.bind, v.destination]) (CountFails a ts "exactly 2" (ts.length ≠ 2))
    (fun v => [v.bind.location, v.destination.location]) := by
  refine h.answers_counted (fun v => ?_) takePair_eq_none ?_
  · constructor
    · intro hts
      exact ⟨(v.bind, v.destination), takePair_iff.mpr hts, rfl⟩
    · rintro ⟨⟨bind, destination⟩, hx, rfl⟩
      exact takePair_iff.mp hx
  · intro v hts
    subst hts
    refine List.forall_mem_cons.mpr ⟨h.locates List.mem_cons_self, fun l hl => ?_⟩
    rw [List.mem_singleton.mp hl]
    exact h.locates (List.mem_cons_of_mem _ (List.mem_singleton_self _))

/-- `RemoteForward` wants one or two. -/
theorem remoteForward (h : Tokenized f a ts) : Answers f a RemoteForwardArgs.parseArguments
    (fun v => ts = v.bind :: v.destination.toList)
    (fun e => (ts = [] ∨ 2 < ts.length) ∧ e = a.withValue ⟨ts.length⟩)
    (fun v => (v.bind :: v.destination.toList).map Located.location) := by
  have hparse : RemoteForwardArgs.parseArguments a = some (RemoteForwardArgs.ofTokens a ts) := by
    rw [RemoteForwardArgs.parseArguments, h.tokenize, Option.map_some]
  refine h.answers hparse ?_ ?_ ?_ ?_
  · rintro ⟨⟨bind, destination⟩, location⟩
    obtain - | ⟨t, - | ⟨t', - | ⟨t'', ts⟩⟩⟩ := ts
    · exact iff_of_false (by intro h; cases h) (by rintro ⟨-, h⟩; cases h)
    · refine ok_withValue_iff.trans (and_congr_right fun _ => ?_)
      cases destination <;> simp
    · refine ok_withValue_iff.trans (and_congr_right fun _ => ?_)
      cases destination <;> simp
    · refine iff_of_false (by intro h; cases h) ?_
      rintro ⟨-, hts⟩
      cases destination <;> simp at hts
  · intro e
    obtain - | ⟨t, - | ⟨t', - | ⟨t'', ts⟩⟩⟩ := ts
    · exact ⟨fun he => ⟨.inl rfl, (Except.error.inj he).symm⟩, fun he => congrArg _ he.2.symm⟩
    · exact iff_of_false (by intro h; cases h) (by rintro ⟨h | h, -⟩ <;> simp at h)
    · exact iff_of_false (by intro h; cases h) (by rintro ⟨h | h, -⟩ <;> simp at h)
    · refine ⟨fun he => ⟨.inr ?_, (Except.error.inj he).symm⟩, fun he => congrArg _ he.2.symm⟩
      simp
  · intro v hts l hl
    obtain ⟨t, ht, rfl⟩ := List.mem_map.mp hl
    exact h.locates (hts ▸ ht)
  · rintro e ⟨-, rfl⟩
    exact h.arguments.locates

/-- Criteria are located where their keyword is, and what is in them at the argument or in it. -/
theorem criteria_locations (h : Tokenized f a ts) {tokens : List (Located (List Char))}
    {es : List (Located MatchEntry)} (htokens : Criteria tokens es) (hsub : ∀ t ∈ tokens, t ∈ ts) :
    ∀ l ∈ MatchArgs.locations ⟨es⟩, f.Locates l := by
  have hcons : ∀ {e : Located MatchEntry} {es : List (Located MatchEntry)}, f.Locates e.location →
      (∀ l ∈ e.value.criterion.locations, f.Locates l) →
      (∀ l ∈ MatchArgs.locations ⟨es⟩, f.Locates l) →
      ∀ l ∈ MatchArgs.locations ⟨e :: es⟩, f.Locates l := by
    intro e es he hcriterion hes l hl
    rw [MatchArgs.locations, List.flatMap_cons] at hl
    obtain hl | hl := List.mem_append.mp hl
    · exact List.forall_mem_cons.mpr ⟨he, hcriterion⟩ l hl
    · exact hes l hl
  induction htokens with
  | nil => exact fun l hl => absurd hl List.not_mem_nil
  | plain ht hkeyword _ ih =>
    obtain ⟨ht, hsub⟩ := List.forall_mem_cons.mp hsub
    refine hcons (h.locates ht) (fun l hl => ?_) (ih hsub)
    simp only [plainCriteria, List.mem_cons, Prod.mk.injEq, List.not_mem_nil, or_false] at hkeyword
    obtain ⟨-, rfl⟩ | ⟨-, rfl⟩ | ⟨-, rfl⟩ := hkeyword <;> exact absurd hl List.not_mem_nil
  | exec _ _ ih =>
    obtain ⟨ht, hsub⟩ := List.forall_mem_cons.mp hsub
    obtain ⟨harg, hsub⟩ := List.forall_mem_cons.mp hsub
    refine hcons (h.locates ht) (fun l hl => ?_) (ih hsub)
    rw [List.mem_singleton.mp hl]
    exact h.locates harg
  | localNetwork _ hpieces _ ih =>
    obtain ⟨ht, hsub⟩ := List.forall_mem_cons.mp hsub
    obtain ⟨harg, hsub⟩ := List.forall_mem_cons.mp hsub
    refine hcons (h.locates ht) (fun l hl => ?_) (ih hsub)
    obtain ⟨p, hp, rfl⟩ := List.mem_map.mp hl
    exact h.piece harg ((Located.commaPieces_iff _).mp hpieces ▸ hp)
  | @patterns t arg _ _ _ keyword pieces patterns criterion _ hkeyword hpieces hpatterns _ ih =>
    obtain ⟨ht, hsub⟩ := List.forall_mem_cons.mp hsub
    obtain ⟨harg, hsub⟩ := List.forall_mem_cons.mp hsub
    refine hcons (h.locates ht) (fun l hl => ?_) (ih hsub)
    have hl : l ∈ patterns.map Located.location := by
      simp only [patternCriteria, List.mem_cons, Prod.mk.injEq, List.not_mem_nil,
        or_false] at hkeyword
      rcases hkeyword with ⟨-, rfl⟩ | ⟨-, rfl⟩ | ⟨-, rfl⟩ | ⟨-, rfl⟩ | ⟨-, rfl⟩ | ⟨-, rfl⟩ |
        ⟨-, rfl⟩ | ⟨-, rfl⟩ <;> exact hl
    rw [← forall₂_isPattern_iff.mp hpatterns, List.map_map] at hl
    obtain ⟨p, hp, rfl⟩ := List.mem_map.mp hl
    exact h.piece harg ((Located.commaPieces_iff _).mp hpieces ▸ hp)

/-- An error is located at the arguments or at a token. -/
theorem matchFails_locates (h : Tokenized f a ts) {e : Located ParseMatchArgsError}
    (he : MatchFails a ts e) : f.Locates e.location := by
  cases he with
  | empty => exact h.arguments.locates
  | criterion _ ht =>
    cases ht with
    | unknown => exact h.locates (List.mem_append_right _ List.mem_cons_self)
    | missing => exact h.locates (List.mem_append_right _ List.mem_cons_self)
  | placement _ htokens hes =>
    cases hes with
    | @intro before e' behind hes =>
      refine h.criteria_locations htokens (fun t ht => ht) e'.location ?_
      rw [MatchArgs.locations, List.mem_flatMap]
      exact ⟨e', hes ▸ List.mem_append_right _ List.mem_cons_self, List.mem_cons_self⟩

/-- `Match` wants criteria. -/
theorem criteria (h : Tokenized f a ts) : Answers f a MatchArgs.parseArguments
    (fun v => ts ≠ [] ∧ Criteria ts v.entries ∧ FirstAllPlaced v.entries) (MatchFails a ts)
    MatchArgs.locations := by
  refine h.answers (r := parseTokens a ts) ?_ (fun v => ?_) (fun e => parseTokens_error_iff) ?_
    (fun e => h.matchFails_locates)
  · rw [MatchArgs.parseArguments, h.tokenize, Option.map_some]
  · rw [parseTokens_ok_iff]
    constructor
    · rintro ⟨es, rfl, hes⟩
      exact ⟨rfl, hes⟩
    · rintro ⟨hlocation, hes⟩
      refine ⟨v.value.entries, ?_, hes⟩
      rw [Located.withValue, ← hlocation]
  · rintro v ⟨-, htokens, -⟩
    exact h.criteria_locations htokens fun t ht => ht

end Tokenized

/-! ### All parsers

One theorem about all of them, since they share the hypothesis: the directive is one of the file. -/

/-- **All parsers**, on arguments with these tokens. -/
theorem Tokenized.allAnswered (h : Tokenized f a ts) : ArgumentsAnswered f a ts where
  host := h.host
  criteria := h.criteria
  includePaths := h.answersMany (fun _ => rfl) fun _ => rfl
  multi := h.answersMany (fun _ => rfl) fun _ => rfl
  hostName := h.answersSingle (fun _ => rfl) fun _ => rfl
  user := h.answersSingle (fun _ => rfl) fun _ => rfl
  identityFile := h.answersSingle (fun _ => rfl) fun _ => rfl
  certificateFile := h.answersSingle (fun _ => rfl) fun _ => rfl
  dynamicForward := h.answersSingle (fun _ => rfl) fun _ => rfl
  single := h.answersSingle (fun _ => rfl) fun _ => rfl
  proxyJump := h.proxyJump
  localForward := h.localForward
  remoteForward := h.remoteForward
  port := h.answersNumber (fun _ => rfl) fun _ => rfl
  serverAliveInterval := h.answersNumber (fun _ => rfl) fun _ => rfl
  serverAliveCountMax := h.answersNumber (fun _ => rfl) fun _ => rfl
  connectTimeout := h.answersNumber (fun _ => rfl) fun _ => rfl
  connectionAttempts := h.answersNumber (fun _ => rfl) fun _ => rfl

/-- The arguments of a directive have tokens, one behind the other. -/
theorem exists_tokenized {d : Directive} (h : .directive d ∈ f.parse) :
    ∃ ts, Tokenized f d.arguments ts ∧ InOrder d.arguments.location.span ts := by
  obtain ⟨-, harguments, hline⟩ := places_of_mem_parse h
  obtain ⟨ts, hts, hparts, hincreasing⟩ := d.arguments.isPart_of_tokenize
  refine ⟨ts, ⟨hts, harguments, fun t ht => harguments.part hline (hparts t ht), ?_⟩,
    harguments.inOrder hparts hincreasing⟩
  exact fun t ht hmem => hline ((hparts t ht).mem hmem)

/-- **Typed arguments.** The arguments of a directive have tokens, which are in the file, and with
these every parser returns what it should, or the error that it should, located in the file. -/
theorem argumentsAnswered {d : Directive} (h : .directive d ∈ f.parse) :
    ∃ ts, d.arguments.tokenize = some ts ∧ InOrder d.arguments.location.span ts ∧
      (∀ t ∈ ts, f.Places t) ∧ ArgumentsAnswered f d.arguments ts := by
  obtain ⟨ts, hts, hincreasing⟩ := exists_tokenized h
  exact ⟨ts, hts.tokenize, hincreasing, hts.tokens, hts.allAnswered⟩

/-- `Port "+22" x` -/
def portTwice : SourceFile := SourceFile.new "config" "Port \"+22\" x".toList

/-- It is parsed to this directive. -/
def portTwiceDirective : Directive where
  keyword := ⟨"Port".toList, "config", ⟨0, 4⟩, 1, 1⟩
  arguments := ⟨"\"+22\" x".toList, "config", ⟨5, 12⟩, 1, 6⟩

/-- All parsers answer on it, most of them with an error. -/
theorem portTwice_answered : ∃ ts, portTwiceDirective.arguments.tokenize = some ts ∧
    InOrder portTwiceDirective.arguments.location.span ts ∧ (∀ t ∈ ts, portTwice.Places t) ∧
      ArgumentsAnswered portTwice portTwiceDirective.arguments ts :=
  argumentsAnswered (f := portTwice) (d := portTwiceDirective) (by decide)

end Dssh
