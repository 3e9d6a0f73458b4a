import Dssh.Forward.Bind
import Dssh.Lib.Peg

/-!
# Forwarding rules on the command line

The arguments of `-L` and `-R`, read by a grammar whose alternatives overlap: a port may be a
host name, and `*` is one. `IsBind` and `IsConnect` are the documented forms, with no order
among them. The grammar reads what is of these forms, and an earlier alternative never stands in
the way of a later one.

## Ordered choice and documentation

The doc comments list the forms of a rule, five for `-R` and four for `-L`. A list has no order.
The grammar has one, and it never returns to an alternative that has matched: a text that is of
a documented form is still refused if an earlier alternative takes the beginning of it and then
fails on the rest in the wrong place. PEGs backtrack between the alternatives of one choice
only. So there are two questions, whether every documented text is read and whether what is read
is unambiguous, and neither is answered by looking at single alternatives.

The texts in doubt are those like `80:80:80`. It could be a bind host, a port and the beginning
of something, or a port alone and a connect endpoint. A bind host `80` would need a port and a
connect endpoint behind it, and what follows the second colon is only a port. This is where it
is decided (`IsConnect.fails_hostEndpoint`, `IsPort.fails_connectEndpoint`). `*` is a host by
the character class, and the alternative for the wildcard stands in front; `IsBind` has it once.

## How the grammar is written down

With the library's `Peg`, alternative by alternative. The alternatives of the source differ in
how they begin and in whether a connect endpoint follows, so they are put together from five
beginnings by `forward` and `listenOnly`, with the host that stands for an omitted one as the
parameter. It is `127.0.0.1` for local and dynamic rules and `localhost` for remote ones.

`Reads` and `Fails` are the library's characterisation of a parser without running it. Each
piece of the grammar gets one `reads_…_iff`. The result is their composition, with a lemma for
each alternative that is to fail.

What is reported of a text that does not match is the error of the parser generator, and is not
modelled.

## Main definitions

* `Endpoint`, `LocalForward`, `RemoteForward` — the rules
* `ForwardSpec.localForward`, `ForwardSpec.remoteForward` — the grammar
* `IsBind`, `IsConnect`, `LocalForward.Documented`, `RemoteForward.Documented` — the documented
  forms

## Main results

* `fromStr_iff` — `LocalForward::from_str` and `RemoteForward::from_str` accept exactly the
  documented forms, and no text has two readings
-/

namespace Dssh

open Peg

/-! ## Rules

The types of the source. An omitted bind host is not a value of its own: each grammar has a host
that stands for it. -/

/-- A TCP address or the path of a Unix socket. -/
inductive Endpoint where
  | tcp (host : String) (port : UInt16)
  | unix (path : String)
  deriving DecidableEq, Repr

/-- `-L` -/
structure LocalForward where
  /-- Where the client listens. -/
  bind : Endpoint
  /-- Where the server connects to. -/
  connect : Endpoint
  deriving DecidableEq, Repr

/-- `-R`; without an endpoint to connect to, it is listen-only. -/
structure RemoteForward where
  /-- Where the server listens. -/
  bind : Endpoint
  /-- Where the client connects to. -/
  connect : Option Endpoint
  deriving DecidableEq, Repr

/-! ## The grammar

Rule by rule. Classes of characters are written as in the source, and so is the order of the
alternatives, on which the result depends. -/

namespace ForwardSpec

/-- `str::parse::<u16>` on decimal digits. -/
def parseU16 (ds : List Char) : Option UInt16 :=
  if Nat.ofDigitChars 10 ds 0 < 2 ^ 16 then some (.ofNat (Nat.ofDigitChars 10 ds 0)) else none

/-- `[^ ':' | '/' | '[' | ']']` -/
def hostChar (c : Char) : Bool := c ≠ ':' && c ≠ '/' && c ≠ '[' && c ≠ ']'

/-- A path begins with a slash, and ends in front of a colon. -/
def unixPath : Peg (List Char) := slice do
  lit ['/']
  many (satisfy (· ≠ ':'))

/-- Digits, as many as there are; a number that is too large does not match. -/
def port : Peg UInt16 := (slice (many1 (satisfy Char.isDigit))).tryMap parseU16

/-- A host without brackets. -/
def hostname : Peg (List Char) := slice (many1 (satisfy hostChar))

/-- Whatever stands between brackets; the name is the source's. -/
def bracketedIpv6 : Peg (List Char) := do
  lit ['[']
  let h ← slice (many1 (satisfy (· ≠ ']')))
  lit [']']
  pure h

/-! The endpoints that the alternatives begin or end with. -/

/-- A path. -/
def unixEndpoint : Peg Endpoint := do
  let p ← unixPath
  pure (.unix (.ofList p))

/-- A host in brackets, and a port. -/
def bracketedEndpoint : Peg Endpoint := do
  let h ← bracketedIpv6
  lit [':']
  let p ← port
  pure (.tcp (.ofList h) p)

/-- All addresses, and a port. -/
def wildcardEndpoint : Peg Endpoint := do
  lit ['*', ':']
  let p ← port
  pure (.tcp "" p)

/-- A host, and a port. -/
def hostEndpoint : Peg Endpoint := do
  let h ← hostname
  lit [':']
  let p ← port
  pure (.tcp (.ofList h) p)

/-- A port, with the host that is left out. -/
def bareEndpoint (host : String) : Peg Endpoint := do
  let p ← port
  pure (.tcp host p)

/-- A path or an address; there is no wildcard to connect to. -/
def connectEndpoint : Peg Endpoint := unixEndpoint <|> bracketedEndpoint <|> hostEndpoint

/-- An alternative with a connect endpoint. -/
def connected (bind : Peg Endpoint) : Peg (Endpoint × Endpoint) := do
  let b ← bind
  lit [':']
  let c ← connectEndpoint
  pure (b, c)

/-- The alternatives with a connect endpoint; `host` stands for an omitted bind host. -/
def forward (host : String) : Peg (Endpoint × Endpoint) :=
  connected unixEndpoint <|> connected bracketedEndpoint <|> connected wildcardEndpoint <|>
    connected hostEndpoint <|> connected (bareEndpoint host)

/-- The alternatives without a connect endpoint. -/
def listenOnly (host : String) : Peg Endpoint :=
  bracketedEndpoint <|> wildcardEndpoint <|> hostEndpoint <|> bareEndpoint host

/-- The rule `local_forward`. -/
def localForward : Peg LocalForward := do
  let e ← forward "127.0.0.1"
  pure ⟨e.1, e.2⟩

/-- The rule `remote_forward`: with a target, or listening only. -/
def remoteForward : Peg RemoteForward :=
  (do let e ← forward canonicalRemoteLoopbackHost
      pure ⟨e.1, some e.2⟩) <|>
  (do let b ← listenOnly canonicalRemoteLoopbackHost
      pure ⟨b, none⟩)

end ForwardSpec

/-- `from_str`; what is reported of a text that does not match is not modelled. -/
def LocalForward.fromStr (s : String) : Option LocalForward :=
  ForwardSpec.localForward.parse s.toList

/-- The same for `-R`. -/
def RemoteForward.fromStr (s : String) : Option RemoteForward :=
  ForwardSpec.remoteForward.parse s.toList

/-! ## The documented forms

As relations between a text and a value, one constructor for each form. Nothing is said here
about an order. -/

namespace ForwardSpec

/-- A port: decimal digits. -/
def IsPort (ds : List Char) (p : UInt16) : Prop :=
  ds ≠ [] ∧ (∀ c ∈ ds, c.isDigit) ∧ Nat.ofDigitChars 10 ds 0 = p.toNat

/-- A host name, or an IPv4 address. -/
def IsHost (h : List Char) : Prop := h ≠ [] ∧ ':' ∉ h ∧ '/' ∉ h ∧ '[' ∉ h ∧ ']' ∉ h

/-- What may stand between brackets. -/
def IsBracketed (h : List Char) : Prop := h ≠ [] ∧ ']' ∉ h

/-- The forms of a bind endpoint; `host` stands for an omitted bind host. -/
inductive IsBind (host : String) : List Char → Endpoint → Prop
  | unix {p : List Char} (hp : ':' ∉ p) : IsBind host ('/' :: p) (.unix (.ofList ('/' :: p)))
  | bracketed {h ds : List Char} {p : UInt16} (hh : IsBracketed h) (hp : IsPort ds p) :
      IsBind host ('[' :: (h ++ ']' :: ':' :: ds)) (.tcp (.ofList h) p)
  | wildcard {ds : List Char} {p : UInt16} (hp : IsPort ds p) :
      IsBind host ('*' :: ':' :: ds) (.tcp "" p)
  | host {h ds : List Char} {p : UInt16} (hh : IsHost h) (hwildcard : h ≠ ['*'])
      (hp : IsPort ds p) : IsBind host (h ++ ':' :: ds) (.tcp (.ofList h) p)
  | bare {ds : List Char} {p : UInt16} (hp : IsPort ds p) : IsBind host ds (.tcp host p)

/-- The forms of a connect endpoint. -/
inductive IsConnect : List Char → Endpoint → Prop
  | unix {p : List Char} (hp : ':' ∉ p) : IsConnect ('/' :: p) (.unix (.ofList ('/' :: p)))
  | bracketed {h ds : List Char} {p : UInt16} (hh : IsBracketed h) (hp : IsPort ds p) :
      IsConnect ('[' :: (h ++ ']' :: ':' :: ds)) (.tcp (.ofList h) p)
  | host {h ds : List Char} {p : UInt16} (hh : IsHost h) (hp : IsPort ds p) :
      IsConnect (h ++ ':' :: ds) (.tcp (.ofList h) p)

/-- A bind endpoint and a connect endpoint. -/
def IsForward (host : String) (s : List Char) (bind connect : Endpoint) : Prop :=
  ∃ b c, s = b ++ ':' :: c ∧ IsBind host b bind ∧ IsConnect c connect

end ForwardSpec

/-- `s` is of a documented form, and `v` is what it says. -/
def LocalForward.Documented (s : String) (v : LocalForward) : Prop :=
  ForwardSpec.IsForward "127.0.0.1" s.toList v.bind v.connect

/-- A listen-only forward has no Unix socket to bind. -/
def RemoteForward.Documented (s : String) (v : RemoteForward) : Prop :=
  match v.connect with
  | some connect => ForwardSpec.IsForward canonicalRemoteLoopbackHost s.toList v.bind connect
  | none =>
    ForwardSpec.IsBind canonicalRemoteLoopbackHost s.toList v.bind ∧
      ∃ host port, v.bind = .tcp host port

/-! ## What the parts of the grammar read

A class of characters reads as many as there are. So a host, a path and a port are what stands up
to the next character of another kind. -/

namespace ForwardSpec

variable {n : ℕ} {x r h ds c : List Char} {p : UInt16} {e : Endpoint} {host : String}

/-- The numbers that are ports. -/
theorem parseU16_eq_some_iff : parseU16 ds = some p ↔ Nat.ofDigitChars 10 ds 0 = p.toNat := by
  rw [parseU16]
  constructor
  · intro heq
    split_ifs at heq with hlt
    obtain rfl := Option.some.inj heq
    exact (UInt16.toNat_ofNat_of_lt' hlt).symm
  · intro heq
    rw [heq, if_pos p.toNat_lt, UInt16.ofNat_toNat]

/-- A port ends where the digits do. -/
theorem reads_port_iff : port.Reads n x p r ↔ IsPort x p ∧ Stops Char.isDigit r := by
  rw [port, reads_tryMap_iff]
  constructor
  · rintro ⟨ds, hds, hp⟩
    obtain ⟨rfl, cs, hcs⟩ := reads_slice_iff.mp hds
    obtain ⟨-, hne, hdigits, hstop⟩ := reads_span1_iff.mp hcs
    exact ⟨⟨hne, hdigits, parseU16_eq_some_iff.mp hp⟩, hstop⟩
  · rintro ⟨⟨hne, hdigits, hp⟩, hstop⟩
    exact ⟨x, (Reads.span1 hne hdigits hstop n).slice, parseU16_eq_some_iff.mpr hp⟩

/-- A character class with one exception. -/
theorem forall_ne_iff {d : Char} : (∀ c ∈ h, decide (c ≠ d)) ↔ d ∉ h := by
  constructor
  · intro hall hd
    exact of_decide_eq_true (hall d hd) rfl
  · intro hd c hc
    exact decide_eq_true (ne_of_mem_of_not_mem hc hd)

/-- A character class with four. -/
theorem forall_hostChar_iff : (∀ c ∈ h, hostChar c) ↔ ':' ∉ h ∧ '/' ∉ h ∧ '[' ∉ h ∧ ']' ∉ h := by
  simp only [hostChar, Bool.and_eq_true, forall_and, forall_ne_iff, and_assoc]

/-- A host ends at the first character of another kind. -/
theorem reads_hostname_iff {t : List Char} :
    hostname.Reads n x t r ↔ t = x ∧ IsHost x ∧ Stops hostChar r := by
  rw [hostname, reads_slice_iff, IsHost, ← forall_hostChar_iff]
  constructor
  · rintro ⟨rfl, cs, hcs⟩
    obtain ⟨-, hne, hall, hstop⟩ := reads_span1_iff.mp hcs
    exact ⟨rfl, ⟨hne, hall⟩, hstop⟩
  · rintro ⟨rfl, ⟨hne, hall⟩, hstop⟩
    exact ⟨rfl, t, .span1 hne hall hstop n⟩

/-- The brackets are not part of the host. -/
theorem reads_bracketedIpv6_iff :
    bracketedIpv6.Reads n x h r ↔ x = '[' :: (h ++ [']']) ∧ IsBracketed h := by
  rw [bracketedIpv6, reads_lit_bind_iff, IsBracketed, ← forall_ne_iff]
  constructor
  · rintro ⟨y, rfl, hy⟩
    obtain ⟨t, z, t', rfl, ht, hz⟩ := reads_bind_iff.mp hy
    obtain ⟨z', rfl, hz'⟩ := reads_lit_bind_iff.mp hz
    obtain ⟨rfl, rfl⟩ := reads_pure_iff.mp hz'
    obtain ⟨rfl, cs, hcs⟩ := reads_slice_iff.mp ht
    obtain ⟨-, hne, hall, -⟩ := reads_span1_iff.mp hcs
    exact ⟨rfl, hne, hall⟩
  · rintro ⟨rfl, hne, hall⟩
    have hstop : Stops (· ≠ ']') (([']'] ++ []) ++ r) := stops_cons.mpr rfl
    refine ⟨h ++ ([']'] ++ []), rfl, (Reads.span1 hne hall hstop _).slice.bind ?_⟩
    exact reads_lit_bind_iff.mpr ⟨[], rfl, reads_pure _ _ r⟩

/-- A path ends at the first colon. -/
theorem reads_unixPath_iff {t : List Char} :
    unixPath.Reads n x t r ↔ t = x ∧ (∃ s, x = '/' :: s ∧ ':' ∉ s) ∧ Stops (· ≠ ':') r := by
  rw [unixPath, reads_slice_iff]
  simp only [reads_lit_bind_iff, reads_span_iff, forall_ne_iff]
  constructor
  · rintro ⟨rfl, cs, s, rfl, -, hs, hstop⟩
    exact ⟨rfl, ⟨s, rfl, hs⟩, hstop⟩
  · rintro ⟨rfl, ⟨s, rfl, hs⟩, hstop⟩
    exact ⟨rfl, s, s, rfl, rfl, hs, hstop⟩

/-! ### The endpoints

Each alternative reads the endpoints of one form. -/

theorem reads_unixEndpoint_iff : unixEndpoint.Reads n x e r ↔
    ∃ t, x = '/' :: t ∧ ':' ∉ t ∧ e = .unix (.ofList x) ∧ Stops (· ≠ ':') r := by
  rw [unixEndpoint, reads_map_iff]
  constructor
  · rintro ⟨t, ht, rfl⟩
    obtain ⟨rfl, ⟨s, rfl, hs⟩, hstop⟩ := reads_unixPath_iff.mp ht
    exact ⟨s, rfl, hs, rfl, hstop⟩
  · rintro ⟨t, rfl, ht, rfl, hstop⟩
    exact ⟨_, reads_unixPath_iff.mpr ⟨rfl, ⟨t, rfl, ht⟩, hstop⟩, rfl⟩

theorem reads_bracketedEndpoint_iff : bracketedEndpoint.Reads n x e r ↔
    ∃ h ds p, x = '[' :: (h ++ ']' :: ':' :: ds) ∧ IsBracketed h ∧ IsPort ds p ∧
      e = .tcp (.ofList h) p ∧ Stops Char.isDigit r := by
  rw [bracketedEndpoint, reads_bind_iff]
  constructor
  · rintro ⟨y, z, h, rfl, hy, hz⟩
    obtain ⟨ds, rfl, hds⟩ := reads_lit_bind_iff.mp hz
    obtain ⟨p, hp, rfl⟩ := reads_map_iff.mp hds
    obtain ⟨rfl, hh⟩ := reads_bracketedIpv6_iff.mp hy
    obtain ⟨hp, hstop⟩ := reads_port_iff.mp hp
    exact ⟨h, ds, p, by simp, hh, hp, rfl, hstop⟩
  · rintro ⟨h, ds, p, rfl, hh, hp, rfl, hstop⟩
    refine ⟨'[' :: (h ++ [']']), ':' :: ds, h, by simp, reads_bracketedIpv6_iff.mpr ⟨rfl, hh⟩, ?_⟩
    exact reads_lit_bind_iff.mpr
      ⟨ds, rfl, reads_map_iff.mpr ⟨p, reads_port_iff.mpr ⟨hp, hstop⟩, rfl⟩⟩

theorem reads_wildcardEndpoint_iff : wildcardEndpoint.Reads n x e r ↔
    ∃ ds p, x = '*' :: ':' :: ds ∧ IsPort ds p ∧ e = .tcp "" p ∧ Stops Char.isDigit r := by
  rw [wildcardEndpoint, reads_lit_bind_iff]
  constructor
  · rintro ⟨ds, rfl, hds⟩
    obtain ⟨p, hp, rfl⟩ := reads_map_iff.mp hds
    obtain ⟨hp, hstop⟩ := reads_port_iff.mp hp
    exact ⟨ds, p, rfl, hp, rfl, hstop⟩
  · rintro ⟨ds, p, rfl, hp, rfl, hstop⟩
    exact ⟨ds, rfl, reads_map_iff.mpr ⟨p, reads_port_iff.mpr ⟨hp, hstop⟩, rfl⟩⟩

theorem reads_hostEndpoint_iff : hostEndpoint.Reads n x e r ↔
    ∃ h ds p, x = h ++ ':' :: ds ∧ IsHost h ∧ IsPort ds p ∧ e = .tcp (.ofList h) p ∧
      Stops Char.isDigit r := by
  rw [hostEndpoint, reads_bind_iff]
  constructor
  · rintro ⟨y, z, h, rfl, hy, hz⟩
    obtain ⟨ds, rfl, hds⟩ := reads_lit_bind_iff.mp hz
    obtain ⟨p, hp, rfl⟩ := reads_map_iff.mp hds
    obtain ⟨rfl, hh, -⟩ := reads_hostname_iff.mp hy
    obtain ⟨hp, hstop⟩ := reads_port_iff.mp hp
    exact ⟨h, ds, p, rfl, hh, hp, rfl, hstop⟩
  · rintro ⟨h, ds, p, rfl, hh, hp, rfl, hstop⟩
    refine ⟨h, ':' :: ds, h, rfl, reads_hostname_iff.mpr ⟨rfl, hh, stops_cons.mpr rfl⟩, ?_⟩
    exact reads_lit_bind_iff.mpr
      ⟨ds, rfl, reads_map_iff.mpr ⟨p, reads_port_iff.mpr ⟨hp, hstop⟩, rfl⟩⟩

theorem reads_bareEndpoint_iff : (bareEndpoint host).Reads n x e r ↔
    ∃ p, IsPort x p ∧ e = .tcp host p ∧ Stops Char.isDigit r := by
  rw [bareEndpoint, reads_map_iff]
  constructor
  · rintro ⟨p, hp, rfl⟩
    obtain ⟨hp, hstop⟩ := reads_port_iff.mp hp
    exact ⟨p, hp, rfl, hstop⟩
  · rintro ⟨p, hp, rfl, hstop⟩
    exact ⟨p, reads_port_iff.mpr ⟨hp, hstop⟩, rfl⟩

theorem reads_connected_iff {b : Peg Endpoint} {v : Endpoint × Endpoint} :
    (connected b).Reads n x v r ↔ ∃ y z, x = y ++ ':' :: z ∧ b.Reads n y v.1 (':' :: z ++ r) ∧
      connectEndpoint.Reads (n + byteLen y + 1) z v.2 r := by
  rw [connected, reads_bind_iff]
  constructor
  · rintro ⟨y, z, e, rfl, hy, hz⟩
    obtain ⟨t, rfl, ht⟩ := reads_lit_bind_iff.mp hz
    obtain ⟨e', he', rfl⟩ := reads_map_iff.mp ht
    exact ⟨y, t, rfl, hy, he'⟩
  · rintro ⟨y, z, rfl, hy, hz⟩
    exact ⟨y, ':' :: z, v.1, rfl, hy,
      reads_lit_bind_iff.mpr ⟨z, rfl, reads_map_iff.mpr ⟨v.2, hz, rfl⟩⟩⟩

/-! ### Where an alternative does not match

A PEG reads the first alternative that matches, so that the later ones are reached is part of
what has to be shown. Each of these lemmas says
by what that can be seen at the beginning of a text. -/

variable {s : List Char} {b : Peg Endpoint}

/-- Digits are a host name, too, … -/
theorem IsPort.isHost (h : IsPort ds p) : IsHost ds := by
  have hnot : ∀ d : Char, d.isDigit = false → d ∉ ds := by
    intro d hd hmem
    exact Bool.false_ne_true (hd.symm.trans (h.2.1 d hmem))
  exact ⟨h.1, hnot ':' rfl, hnot '/' rfl, hnot '[' rfl, hnot ']' rfl⟩

/-- … but not the wildcard. -/
theorem IsPort.ne_wildcard (h : IsPort ds p) : ds ≠ ['*'] := by
  rintro rfl
  exact absurd (h.2.1 '*' List.mem_cons_self) (by decide)

/-- The first character of a host is part of it. -/
theorem IsHost.head?_append_ne (h : IsHost x) {d : Char} (hd : d ∉ x) :
    (x ++ r).head? ≠ some d := by
  obtain ⟨a, x', rfl⟩ := List.exists_cons_of_ne_nil h.1
  intro heq
  obtain rfl := Option.some.inj heq
  exact hd List.mem_cons_self

theorem fails_unixEndpoint (h : s.head? ≠ some '/') (n : ℕ) : unixEndpoint.Fails n s := by
  refine fails_of_not_reads fun x e r hs hreads => h ?_
  obtain ⟨t, rfl, -⟩ := reads_unixEndpoint_iff.mp hreads
  rw [hs]
  rfl

theorem fails_bracketedEndpoint (h : s.head? ≠ some '[') (n : ℕ) :
    bracketedEndpoint.Fails n s := by
  refine fails_of_not_reads fun x e r hs hreads => h ?_
  obtain ⟨t, ds, p, rfl, -⟩ := reads_bracketedEndpoint_iff.mp hreads
  rw [hs]
  rfl

theorem fails_wildcardEndpoint (h : ¬ ['*', ':'] <+: s) (n : ℕ) : wildcardEndpoint.Fails n s :=
  (fails_lit h n).bind

/-- A host in front of a colon is not the wildcard. -/
theorem IsHost.not_wildcard (h : IsHost x) (hne : x ≠ ['*']) : ¬ ['*', ':'] <+: x ++ r := by
  rintro ⟨t, ht⟩
  obtain ⟨hx, hcolon, -⟩ := h
  rcases x with _ | ⟨d, _ | ⟨d', x⟩⟩
  · exact hx rfl
  · obtain ⟨rfl, -⟩ := List.cons.inj ht
    exact hne rfl
  · obtain ⟨-, ht⟩ := List.cons.inj ht
    obtain ⟨rfl, -⟩ := List.cons.inj ht
    exact hcolon (by simp)

/-- A text that begins with a host matches none of the first three endpoints. -/
theorem IsHost.fails_early (h : IsHost x) (hne : x ≠ ['*']) (n : ℕ) (r : List Char) :
    unixEndpoint.Fails n (x ++ r) ∧ bracketedEndpoint.Fails n (x ++ r) ∧
      wildcardEndpoint.Fails n (x ++ r) :=
  ⟨fails_unixEndpoint (h.head?_append_ne h.2.2.1) n,
    fails_bracketedEndpoint (h.head?_append_ne h.2.2.2.1) n,
    fails_wildcardEndpoint (h.not_wildcard hne) n⟩

/-- Without a colon there is no host endpoint. -/
theorem fails_hostEndpoint (h : ':' ∉ s) (n : ℕ) : hostEndpoint.Fails n s := by
  refine fails_of_not_reads fun x e r hs hreads => h ?_
  obtain ⟨t, ds, p, rfl, -⟩ := reads_hostEndpoint_iff.mp hreads
  rw [hs]
  simp

/-- Without a digit in front there is no port. -/
theorem fails_bareEndpoint (h : Stops Char.isDigit s) (n : ℕ) : (bareEndpoint host).Fails n s :=
  (fails_span1 h n).slice.tryMap.bind

/-- An alternative with a connect endpoint does not match when none follows what it begins with. -/
theorem fails_connected (h : ∀ y z e, s = y ++ ':' :: z → b.Reads n y e (':' :: z) →
    ∀ m, connectEndpoint.Fails m z) : (connected b).Fails n s := by
  refine fails_of_not_reads fun x v r hs hreads => ?_
  obtain ⟨y, z, rfl, hy, hz⟩ := reads_connected_iff.mp hreads
  exact hz.not_fails (h y (z ++ r) v.1 (by simpa using hs) hy _)

/-- Where the whole text is a bind endpoint, no connect endpoint follows. -/
theorem fails_connected_of_reads (h : b.Reads n s e []) : (connected b).Fails n s := by
  refine fails_connected fun y z e' hs hreads => ?_
  obtain ⟨-, -, hr⟩ := h.unique hreads (by rw [List.append_nil, hs])
  cases hr

/-- A port alone is no connect endpoint. -/
theorem IsPort.fails_connectEndpoint (h : IsPort ds p) (n : ℕ) : connectEndpoint.Fails n ds := by
  obtain ⟨-, hcolon, hslash, hbracket, -⟩ := h.isHost
  have hhead : ∀ {d : Char}, d ∉ ds → ds.head? ≠ some d := by
    intro d hd
    have := h.isHost.head?_append_ne (r := []) hd
    rwa [List.append_nil] at this
  exact (fails_unixEndpoint (hhead hslash) n).orElse_fails
    ((fails_bracketedEndpoint (hhead hbracket) n).orElse_fails (fails_hostEndpoint hcolon n))

/-- Behind what looks like a port, a connect endpoint has only a port. -/
theorem IsConnect.port_of_split {z : List Char} (h : IsConnect (ds ++ ':' :: z) e)
    (hp : IsPort ds p) : ∃ q, IsPort z q := by
  obtain ⟨-, hcolon, hslash, hbracket, -⟩ := hp.isHost
  generalize hs : ds ++ ':' :: z = s at h
  cases h with
  | unix => exact absurd (congrArg List.head? hs) (hp.isHost.head?_append_ne hslash)
  | bracketed => exact absurd (congrArg List.head? hs) (hp.isHost.head?_append_ne hbracket)
  | host hh hq =>
    obtain ⟨-, rfl⟩ := append_cons_unique hcolon hh.2.1 hs
    exact ⟨_, hq⟩

/-- An omitted bind host is not read as a bind host. -/
theorem IsConnect.fails_hostEndpoint (h : IsConnect c e) (hp : IsPort ds p) (n : ℕ) :
    (connected hostEndpoint).Fails n (ds ++ ':' :: c) := by
  refine fails_connected fun y z e' hs hreads m => ?_
  obtain ⟨t, ds', p', rfl, hh, hp', -⟩ := reads_hostEndpoint_iff.mp hreads
  rw [List.append_assoc] at hs
  obtain ⟨-, rfl⟩ := append_cons_unique hp.isHost.2.1 hh.2.1 hs
  obtain ⟨q, hq⟩ := h.port_of_split hp'
  exact hq.fails_connectEndpoint m

/-- A bind host is not read as a port. -/
theorem IsPort.fails_bareEndpoint (hp : IsPort ds p) (hh : IsHost h) (n : ℕ) :
    (connected (bareEndpoint host)).Fails n (h ++ ':' :: ds) := by
  refine fails_connected fun y z e' hs hreads m => ?_
  obtain ⟨p', hp', -⟩ := reads_bareEndpoint_iff.mp hreads
  obtain ⟨-, rfl⟩ := append_cons_unique hh.2.1 hp'.isHost.2.1 hs
  exact hp.fails_connectEndpoint m

/-! ### The alternatives together

With the failures in front, the order of the alternatives turns out not to matter: at most one of
them matches a text to its end. -/

/-- To the end of the text, the connect endpoints are those of the documented forms. -/
theorem reads_connectEndpoint_iff : connectEndpoint.Reads n x e [] ↔ IsConnect x e := by
  constructor
  · intro h
    rcases reads_orElse_iff.mp h with h | ⟨-, h⟩
    · obtain ⟨t, rfl, ht, rfl, -⟩ := reads_unixEndpoint_iff.mp h
      exact .unix ht
    rcases reads_orElse_iff.mp h with h | ⟨-, h⟩
    · obtain ⟨t, ds, p, rfl, ht, hp, rfl, -⟩ := reads_bracketedEndpoint_iff.mp h
      exact .bracketed ht hp
    · obtain ⟨t, ds, p, rfl, ht, hp, rfl, -⟩ := reads_hostEndpoint_iff.mp h
      exact .host ht hp
  · intro h
    cases h with
    | unix ht =>
      exact (reads_unixEndpoint_iff.mpr ⟨_, rfl, ht, rfl, stops_nil _⟩).orElse
    | bracketed hh hp =>
      refine Fails.orElse (fails_unixEndpoint (by simp) n) ?_
      exact (reads_bracketedEndpoint_iff.mpr ⟨_, _, _, rfl, hh, hp, rfl, stops_nil _⟩).orElse
    | @host h ds p hh hp =>
      have hhead : ∀ {d : Char}, d ∉ h → (h ++ ':' :: ds ++ []).head? ≠ some d := by
        intro d hd
        rw [List.append_assoc]
        exact hh.head?_append_ne hd
      refine Fails.orElse (fails_unixEndpoint (hhead hh.2.2.1) n) ?_
      refine Fails.orElse (fails_bracketedEndpoint (hhead hh.2.2.2.1) n) ?_
      exact reads_hostEndpoint_iff.mpr ⟨_, _, _, rfl, hh, hp, rfl, stops_nil _⟩

/-- To the end of the text, with the documented forms behind the colon. -/
theorem reads_connected_iff' {v : Endpoint × Endpoint} : (connected b).Reads n x v [] ↔
    ∃ y z, x = y ++ ':' :: z ∧ b.Reads n y v.1 (':' :: z) ∧ IsConnect z v.2 := by
  simp only [reads_connected_iff, List.append_nil, reads_connectEndpoint_iff]

/-- **With a connect endpoint.** The order of the alternatives does not matter. -/
theorem reads_forward_iff {v : Endpoint × Endpoint} :
    (forward host).Reads n s v [] ↔ IsForward host s v.1 v.2 := by
  obtain ⟨e, e'⟩ := v
  constructor
  · intro h
    rcases reads_orElse_iff.mp h with h | ⟨-, h⟩
    · obtain ⟨y, z, rfl, hy, hz⟩ := reads_connected_iff'.mp h
      obtain ⟨t, rfl, ht, heq, -⟩ := reads_unixEndpoint_iff.mp hy
      exact ⟨_, z, rfl, heq ▸ .unix ht, hz⟩
    rcases reads_orElse_iff.mp h with h | ⟨-, h⟩
    · obtain ⟨y, z, rfl, hy, hz⟩ := reads_connected_iff'.mp h
      obtain ⟨t, ds, p, rfl, ht, hp, heq, -⟩ := reads_bracketedEndpoint_iff.mp hy
      exact ⟨_, z, rfl, heq ▸ .bracketed ht hp, hz⟩
    rcases reads_orElse_iff.mp h with h | ⟨hwildcard, h⟩
    · obtain ⟨y, z, rfl, hy, hz⟩ := reads_connected_iff'.mp h
      obtain ⟨ds, p, rfl, hp, heq, -⟩ := reads_wildcardEndpoint_iff.mp hy
      exact ⟨_, z, rfl, heq ▸ .wildcard hp, hz⟩
    rcases reads_orElse_iff.mp h with h | ⟨-, h⟩
    · obtain ⟨y, z, rfl, hy, hz⟩ := reads_connected_iff'.mp h
      obtain ⟨t, ds, p, rfl, ht, hp, heq, hstop⟩ := reads_hostEndpoint_iff.mp hy
      refine ⟨_, z, rfl, heq ▸ .host ht ?_ hp, hz⟩
      rintro rfl
      -- the alternative for the wildcard would have matched
      have hread : wildcardEndpoint.Reads n ('*' :: ':' :: ds) (.tcp "" p) (':' :: z) :=
        reads_wildcardEndpoint_iff.mpr ⟨ds, p, rfl, hp, rfl, hstop⟩
      have hconnected : (connected wildcardEndpoint).Reads n _ (.tcp "" p, e') [] :=
        reads_connected_iff'.mpr ⟨_, z, rfl, hread, hz⟩
      exact hconnected.not_fails hwildcard
    · obtain ⟨y, z, rfl, hy, hz⟩ := reads_connected_iff'.mp h
      obtain ⟨p, hp, heq, -⟩ := reads_bareEndpoint_iff.mp hy
      exact ⟨_, z, rfl, heq ▸ .bare hp, hz⟩
  · rintro ⟨y, z, rfl, hy, hz⟩
    have hstop : Stops Char.isDigit (':' :: z) := stops_cons.mpr rfl
    cases hy with
    | unix ht =>
      have hcolon : Stops (· ≠ ':') (':' :: z) := stops_cons.mpr rfl
      have hread := (reads_unixEndpoint_iff (n := n)).mpr ⟨_, rfl, ht, rfl, hcolon⟩
      exact (reads_connected_iff'.mpr ⟨_, z, rfl, hread, hz⟩).orElse
    | bracketed hh hp =>
      have hread := (reads_bracketedEndpoint_iff (n := n)).mpr ⟨_, _, _, rfl, hh, hp, rfl, hstop⟩
      exact Fails.orElse (fails_unixEndpoint (by simp) n).bind
        (reads_connected_iff'.mpr ⟨_, z, rfl, hread, hz⟩).orElse
    | wildcard hp =>
      have hread := (reads_wildcardEndpoint_iff (n := n)).mpr ⟨_, _, rfl, hp, rfl, hstop⟩
      exact Fails.orElse (fails_unixEndpoint (by simp) n).bind
        (Fails.orElse (fails_bracketedEndpoint (by simp) n).bind
          (reads_connected_iff'.mpr ⟨_, z, rfl, hread, hz⟩).orElse)
    | @host h ds p hh hne hp =>
      have hread := (reads_hostEndpoint_iff (n := n)).mpr ⟨_, _, _, rfl, hh, hp, rfl, hstop⟩
      have hconnected := reads_connected_iff'.mpr ⟨_, z, rfl, hread, hz⟩
      rw [List.append_assoc] at hconnected ⊢
      obtain ⟨hunix, hbracketed, hwildcard⟩ := hh.fails_early hne n (':' :: ds ++ ':' :: z)
      rw [← List.append_nil (h ++ _)] at hunix hbracketed hwildcard
      exact hunix.bind.orElse (hbracketed.bind.orElse (hwildcard.bind.orElse hconnected.orElse))
    | @bare _ p hp =>
      have hread : (bareEndpoint host).Reads n y (.tcp host p) (':' :: z) :=
        reads_bareEndpoint_iff.mpr ⟨p, hp, rfl, hstop⟩
      have hconnected := reads_connected_iff'.mpr ⟨_, z, rfl, hread, hz⟩
      obtain ⟨hunix, hbracketed, hwildcard⟩ := hp.isHost.fails_early hp.ne_wildcard n (':' :: z)
      have hhost := hz.fails_hostEndpoint hp n
      rw [← List.append_nil (y ++ _)] at hunix hbracketed hwildcard hhost
      exact hunix.bind.orElse
        (hbracketed.bind.orElse (hwildcard.bind.orElse (hhost.orElse hconnected)))

/-- **Without a connect endpoint.** -/
theorem reads_listenOnly_iff : (listenOnly host).Reads n s e [] ↔
    IsBind host s e ∧ ∃ h p, e = .tcp h p := by
  constructor
  · intro h
    rcases reads_orElse_iff.mp h with h | ⟨-, h⟩
    · obtain ⟨t, ds, p, rfl, ht, hp, rfl, -⟩ := reads_bracketedEndpoint_iff.mp h
      exact ⟨.bracketed ht hp, _, _, rfl⟩
    rcases reads_orElse_iff.mp h with h | ⟨hwildcard, h⟩
    · obtain ⟨ds, p, rfl, hp, rfl, -⟩ := reads_wildcardEndpoint_iff.mp h
      exact ⟨.wildcard hp, _, _, rfl⟩
    rcases reads_orElse_iff.mp h with h | ⟨-, h⟩
    · obtain ⟨t, ds, p, rfl, ht, hp, rfl, hstop⟩ := reads_hostEndpoint_iff.mp h
      refine ⟨.host ht ?_ hp, _, _, rfl⟩
      rintro rfl
      have hread : wildcardEndpoint.Reads n ('*' :: ':' :: ds) (.tcp "" p) [] :=
        reads_wildcardEndpoint_iff.mpr ⟨ds, p, rfl, hp, rfl, hstop⟩
      exact hread.not_fails hwildcard
    · obtain ⟨p, hp, rfl, -⟩ := reads_bareEndpoint_iff.mp h
      exact ⟨.bare hp, _, _, rfl⟩
  · rintro ⟨hs, h, p, rfl⟩
    have hstop : Stops Char.isDigit [] := stops_nil _
    cases hs with
    | bracketed hh hp =>
      exact (reads_bracketedEndpoint_iff.mpr ⟨_, _, _, rfl, hh, hp, rfl, hstop⟩).orElse
    | wildcard hp =>
      exact Fails.orElse (fails_bracketedEndpoint (by simp) n)
        (reads_wildcardEndpoint_iff.mpr ⟨_, _, rfl, hp, rfl, hstop⟩).orElse
    | @host h ds p hh hne hp =>
      have hread := (reads_hostEndpoint_iff (n := n)).mpr ⟨_, _, _, rfl, hh, hp, rfl, hstop⟩
      obtain ⟨-, hbracketed, hwildcard⟩ := hh.fails_early hne n (':' :: ds ++ [])
      rw [← List.append_assoc] at hbracketed hwildcard
      exact hbracketed.orElse (hwildcard.orElse hread.orElse)
    | bare hp =>
      have hread : (bareEndpoint host).Reads n s (.tcp host p) [] :=
        reads_bareEndpoint_iff.mpr ⟨p, hp, rfl, hstop⟩
      obtain ⟨-, hbracketed, hwildcard⟩ := hp.isHost.fails_early hp.ne_wildcard n []
      have hhost : hostEndpoint.Fails n (s ++ []) := by
        rw [List.append_nil]
        exact fails_hostEndpoint hp.isHost.2.1 n
      exact hbracketed.orElse (hwildcard.orElse (hhost.orElse hread))

/-- A bind endpoint alone does not match with a connect endpoint. -/
theorem IsBind.fails_forward {h : String} (hs : IsBind host s (.tcp h p)) (n : ℕ) :
    (forward host).Fails n s := by
  have hstop : Stops Char.isDigit [] := stops_nil _
  cases hs with
  | @bracketed h ds p hh hp =>
    have hread := (reads_bracketedEndpoint_iff (n := n)).mpr ⟨_, _, _, rfl, hh, hp, rfl, hstop⟩
    have hhost : hostEndpoint.Fails n ('[' :: (h ++ ']' :: ':' :: ds)) :=
      (fails_span1 (stops_cons.mpr rfl) n).slice.bind
    exact (fails_unixEndpoint (by simp) n).bind.orElse_fails
      ((fails_connected_of_reads hread).orElse_fails
        ((fails_wildcardEndpoint (by simp) n).bind.orElse_fails
          (hhost.bind.orElse_fails (fails_bareEndpoint (stops_cons.mpr rfl) n).bind)))
  | @wildcard ds p hp =>
    have hread := (reads_wildcardEndpoint_iff (n := n)).mpr ⟨_, _, rfl, hp, rfl, hstop⟩
    have hhost : hostEndpoint.Reads n ('*' :: ':' :: ds) (.tcp (.ofList ['*']) p) [] :=
      reads_hostEndpoint_iff.mpr ⟨['*'], ds, p, rfl, by simp [IsHost], hp, rfl, hstop⟩
    exact (fails_unixEndpoint (by simp) n).bind.orElse_fails
      ((fails_bracketedEndpoint (by simp) n).bind.orElse_fails
        ((fails_connected_of_reads hread).orElse_fails
          ((fails_connected_of_reads hhost).orElse_fails
            (fails_bareEndpoint (stops_cons.mpr rfl) n).bind)))
  | @host h ds p hh hne hp =>
    have hread := (reads_hostEndpoint_iff (n := n)).mpr ⟨_, _, _, rfl, hh, hp, rfl, hstop⟩
    obtain ⟨hunix, hbracketed, hwildcard⟩ := hh.fails_early hne n (':' :: ds)
    exact hunix.bind.orElse_fails (hbracketed.bind.orElse_fails (hwildcard.bind.orElse_fails
      ((fails_connected_of_reads hread).orElse_fails (hp.fails_bareEndpoint hh n))))
  | bare hp =>
    have hread : (bareEndpoint host).Reads n s (.tcp host p) [] :=
      reads_bareEndpoint_iff.mpr ⟨p, hp, rfl, hstop⟩
    obtain ⟨hunix, hbracketed, hwildcard⟩ := hp.isHost.fails_early hp.ne_wildcard n []
    rw [List.append_nil] at hunix hbracketed hwildcard
    exact hunix.bind.orElse_fails (hbracketed.bind.orElse_fails (hwildcard.bind.orElse_fails
      ((fails_hostEndpoint hp.isHost.2.1 n).bind.orElse_fails (fails_connected_of_reads hread))))

end ForwardSpec

/-! ## The readings of a rule

The two directions for each kind of rule, and that no text is of two forms or has two values. -/

variable {s : String}

/-- Local rules are read as documented. -/
theorem LocalForward.fromStr_eq_some_iff {v : LocalForward} :
    fromStr s = some v ↔ v.Documented s := by
  rw [fromStr, parse_eq_some_iff, ForwardSpec.localForward, reads_map_iff]
  constructor
  · rintro ⟨e, he, rfl⟩
    exact ForwardSpec.reads_forward_iff.mp he
  · intro h
    exact ⟨(v.bind, v.connect), ForwardSpec.reads_forward_iff.mpr h, rfl⟩

/-- So are remote ones. -/
theorem RemoteForward.fromStr_eq_some_iff {v : RemoteForward} :
    fromStr s = some v ↔ v.Documented s := by
  rw [fromStr, parse_eq_some_iff, ForwardSpec.remoteForward, reads_orElse_iff, reads_map_iff,
    reads_map_iff]
  obtain ⟨bind, connect⟩ := v
  constructor
  · rintro (⟨e, he, heq⟩ | ⟨-, b, hb, heq⟩)
    · obtain ⟨rfl, rfl⟩ := RemoteForward.mk.inj heq
      exact ForwardSpec.reads_forward_iff.mp he
    · obtain ⟨rfl, rfl⟩ := RemoteForward.mk.inj heq
      exact ForwardSpec.reads_listenOnly_iff.mp hb
  · intro h
    cases connect with
    | some connect => exact Or.inl ⟨(bind, connect), ForwardSpec.reads_forward_iff.mpr h, rfl⟩
    | none =>
      obtain ⟨hbind, host, port, rfl⟩ := h
      refine Or.inr ⟨?_, _, ForwardSpec.reads_listenOnly_iff.mpr ⟨hbind, host, port, rfl⟩, rfl⟩
      rw [List.append_nil]
      exact (hbind.fails_forward 0).bind

/-- **Reading rules.** The texts that are accepted are those of the documented forms, with the value
that the form says, and none of them is of two forms with different values. -/
theorem fromStr_iff (s : String) :
    ((∀ v, LocalForward.fromStr s = some v ↔ LocalForward.Documented s v) ∧
      ∀ v v', LocalForward.Documented s v → LocalForward.Documented s v' → v = v') ∧
    (∀ v, RemoteForward.fromStr s = some v ↔ RemoteForward.Documented s v) ∧
      ∀ v v', RemoteForward.Documented s v → RemoteForward.Documented s v' → v = v' := by
  refine ⟨⟨fun v => LocalForward.fromStr_eq_some_iff, fun v v' h h' => ?_⟩,
    fun v => RemoteForward.fromStr_eq_some_iff, fun v v' h h' => ?_⟩
  · rw [← LocalForward.fromStr_eq_some_iff] at h h'
    exact Option.some.inj (h.symm.trans h')
  · rw [← RemoteForward.fromStr_eq_some_iff] at h h'
    exact Option.some.inj (h.symm.trans h')

example : LocalForward.fromStr "8080:80:80" = some ⟨.tcp "127.0.0.1" 8080, .tcp "80" 80⟩ := by
  decide

end Dssh
