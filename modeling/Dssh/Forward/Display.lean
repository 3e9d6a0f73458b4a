import Dssh.Forward.Spec

/-!
# Printing forwarding rules

An endpoint is printed in the syntax that the grammar reads it from: an empty host as `*`, a
host with a colon between brackets, and any other one as it is. The `Display` of a dynamic rule
has no brackets, so that a rule with an IPv6 address is printed as what is no rule.

## What is asked

A rule that is accepted has a value; the value is printed; is what is printed accepted, with the
same value? The `Display` of local and remote rules is for people: it has an arrow between the
endpoints, or says that the rule is for listening only. The one of endpoints is in the syntax of
rules, so a rule is taken to be its endpoints with a colon in between. Dynamic rules have one
endpoint and a `Display` of their own.

The text need not come back. `8080:web:80` has a bind host that was left out, and is printed
with it. What has to come back is the value, and the round trip is stated for the values of
accepted texts. Not every value is one: a host with a bracket in it, or a path with a colon,
cannot be written.

## Where brackets are needed

The grammar takes anything between brackets as a host. `[web]:80` is accepted, with the host
`web`, and is printed as `web:80`. This works as long as the host without its brackets is one,
and the same one: `[*]:80` is printed as `*:80`, which is the wildcard, and `[a/b]:80` as what
is no rule. So the hypothesis of `display_iff` is that brackets are used for what they are for,
hosts with a colon. `HasBracketed` says which hosts of a rule stand in brackets, on the text and
not on the result.

Under this hypothesis, local and remote rules come back, and a dynamic rule does exactly if it
does not begin with a bracket. One that does has a colon in its host, and
`DynamicForward.display` writes the host and the port with nothing around them: `::1:1080`. This
is read as no dynamic rule at all (`ipv6Rule_misread`), while the same text as a remote rule
without a target is printed correctly, since that goes through the endpoint.

## Main definitions

* `Endpoint.display`, `DynamicForward.display` — the `Display` instances
* `LocalForward.RoundTrips` and the two others — the round trip, of a text
* `HasBracketed` — a host in brackets

## Main results

* `IsBind.display`, `IsConnect.display` — what is printed of an endpoint is of its form
* `display_iff` — which rules are read back
* `ipv6Rule_misread` — a dynamic rule that is not
-/

namespace Dssh

open Peg

/-! ## Printing

The functions of `Display`, and a rule written from its endpoints. The arrow between the
endpoints that `Display` of a whole rule prints is for people, and no parser reads it. -/

/-- `-D` -/
structure DynamicForward where
  /-- The address to listen on; empty for all of them. -/
  host : String
  port : UInt16
  deriving DecidableEq, Repr

/-- The port in decimal. -/
def printPort (port : UInt16) : String := toString port.toNat

/-- An empty host as `*`, one with a colon between brackets; a path as it is. -/
def Endpoint.display : Endpoint → String
  | .tcp host port =>
    if host.isEmpty then "*:" ++ printPort port
    else if host.toList.contains ':' then "[" ++ host ++ "]:" ++ printPort port
    else host ++ ":" ++ printPort port
  | .unix path => path

/-- An empty host as `*`, and any other one as it is. -/
def DynamicForward.display (v : DynamicForward) : String :=
  if v.host.isEmpty then "*:" ++ printPort v.port else v.host ++ ":" ++ printPort v.port

namespace ForwardSpec

/-- The TCP endpoint as a dynamic rule. -/
def dynamicOf : Endpoint → Option DynamicForward
  | .tcp host port => some ⟨host, port⟩
  | .unix _ => none

/-- The alternatives are those of a rule without a connect endpoint. -/
def dynamicForward : Peg DynamicForward := (listenOnly "127.0.0.1").tryMap dynamicOf

end ForwardSpec

/-- A dynamic rule, of the whole text. -/
def DynamicForward.fromStr (s : String) : Option DynamicForward :=
  ForwardSpec.dynamicForward.parse s.toList

/-- The endpoints as they are printed, with a colon in between. -/
def LocalForward.rule (v : LocalForward) : String := v.bind.display ++ ":" ++ v.connect.display

/-- A rule without a target is its bind endpoint. -/
def RemoteForward.rule (v : RemoteForward) : String :=
  match v.connect with
  | some connect => v.bind.display ++ ":" ++ connect.display
  | none => v.bind.display

/-- If `s` is accepted, what is printed of its value is read as this value. -/
def LocalForward.RoundTrips (s : String) : Prop :=
  ∀ v, LocalForward.fromStr s = some v → LocalForward.fromStr v.rule = some v

/-- The same for remote rules. -/
def RemoteForward.RoundTrips (s : String) : Prop :=
  ∀ v, RemoteForward.fromStr s = some v → RemoteForward.fromStr v.rule = some v

/-- The same for dynamic rules, with their own `Display`. -/
def DynamicForward.RoundTrips (s : String) : Prop :=
  ∀ v, DynamicForward.fromStr s = some v → DynamicForward.fromStr v.display = some v

namespace ForwardSpec

/-- `h` is a bracketed host of a rule. -/
inductive HasBracketed : List Char → List Char → Prop
  | bind {h r : List Char} (hh : IsBracketed h) : HasBracketed ('[' :: (h ++ ']' :: r)) h
  | connect {host : String} {b h ds : List Char} {e : Endpoint} {p : UInt16} (hb : IsBind host b e)
      (hh : IsBracketed h) (hp : IsPort ds p) :
      HasBracketed (b ++ ':' :: '[' :: (h ++ ']' :: ':' :: ds)) h

/-! ## Endpoints

What is printed of an endpoint is read as this endpoint. Brackets are printed exactly where a
host has a colon, which is what a host without brackets cannot have. -/

variable {h s b c : List Char} {p : UInt16} {e : Endpoint} {host : String}

/-- The digits that are printed of a port. -/
def portDigits (p : UInt16) : List Char := Nat.toDigits 10 p.toNat

/-- A port is printed with its digits. -/
theorem toList_printPort (p : UInt16) : (printPort p).toList = portDigits p := Nat.toList_repr

/-- They are read as this port. -/
theorem isPort_portDigits (p : UInt16) : IsPort (portDigits p) p :=
  ⟨Nat.toDigits_ne_nil, fun _ hc => Nat.isDigit_of_mem_toDigits (by decide) (by decide) hc,
    Nat.ofDigitChars_ten_toDigits⟩

/-- The empty host. -/
theorem display_wildcard (p : UInt16) :
    (Endpoint.display (.tcp "" p)).toList = '*' :: ':' :: portDigits p := by
  show ("*:" ++ printPort p).toList = _
  rw [String.toList_append, toList_printPort]
  rfl

/-- A host that is read is not empty. -/
theorem isEmpty_ofList_eq_false (hne : h ≠ []) : (String.ofList h).isEmpty = false := by
  rw [Bool.eq_false_iff, Ne, String.isEmpty_iff]
  intro heq
  exact hne (String.ofList_eq_empty_iff.mp heq)

/-- A host with a colon. -/
theorem display_bracketed (hne : h ≠ []) (hcolon : ':' ∈ h) (p : UInt16) :
    (Endpoint.display (.tcp (.ofList h) p)).toList = '[' :: (h ++ ']' :: ':' :: portDigits p) := by
  have hcontains : (String.ofList h).toList.contains ':' = true := by
    rw [String.toList_ofList, List.contains_iff_mem]
    exact hcolon
  rw [Endpoint.display, isEmpty_ofList_eq_false hne, hcontains]
  simp [toList_printPort]

/-- Any other host. -/
theorem display_host (hne : h ≠ []) (hcolon : ':' ∉ h) (p : UInt16) :
    (Endpoint.display (.tcp (.ofList h) p)).toList = h ++ ':' :: portDigits p := by
  have hcontains : (String.ofList h).toList.contains ':' = false := by
    rw [Bool.eq_false_iff, Ne, String.toList_ofList, List.contains_iff_mem]
    exact hcolon
  rw [Endpoint.display, isEmpty_ofList_eq_false hne, hcontains]
  simp [toList_printPort]

instance : DecidablePred IsHost := fun _ => inferInstanceAs (Decidable (_ ∧ _))

/-- An omitted bind host, written out. -/
theorem IsHost.isBind (hhost : IsHost host.toList) (hne : host.toList ≠ ['*']) (p : UInt16) :
    IsBind host (host.toList ++ ':' :: portDigits p) (.tcp host p) := by
  have hbind : IsBind host _ (.tcp (.ofList host.toList) p) := .host hhost hne (isPort_portDigits p)
  rwa [String.ofList_toList] at hbind

/-- A bind endpoint is printed as one. -/
theorem IsBind.display (hb : IsBind host b e)
    (hcolon : ∀ h r, IsBracketed h → b = '[' :: (h ++ ']' :: r) → ':' ∈ h)
    (hhost : IsHost host.toList) (hne : host.toList ≠ ['*']) :
    IsBind host e.display.toList e := by
  cases hb with
  | @unix p hp =>
    show IsBind host (String.ofList ('/' :: p)).toList _
    rw [String.toList_ofList]
    exact .unix hp
  | @bracketed h ds p hh hp =>
    rw [display_bracketed hh.1 (hcolon h _ hh rfl)]
    exact .bracketed hh (isPort_portDigits p)
  | @wildcard ds p hp =>
    rw [display_wildcard]
    exact .wildcard (isPort_portDigits p)
  | @host h ds p hh hwildcard hp =>
    rw [display_host hh.1 hh.2.1]
    exact .host hh hwildcard (isPort_portDigits p)
  | @bare ds p hp =>
    have hdisplay := display_host hhost.1 hhost.2.1 p
    rw [String.ofList_toList] at hdisplay
    rw [hdisplay]
    exact hhost.isBind hne p

/-- A connect endpoint is printed as one, … -/
theorem IsConnect.display (hc : IsConnect c e) (hcolon : ∀ h r, IsBracketed h →
    c = '[' :: (h ++ ']' :: r) → ':' ∈ h) : IsConnect e.display.toList e := by
  cases hc with
  | @unix p hp =>
    show IsConnect (String.ofList ('/' :: p)).toList _
    rw [String.toList_ofList]
    exact .unix hp
  | @bracketed h ds p hh hp =>
    rw [display_bracketed hh.1 (hcolon h _ hh rfl)]
    exact .bracketed hh (isPort_portDigits p)
  | @host h ds p hh hp =>
    rw [display_host hh.1 hh.2.1]
    exact .host hh (isPort_portDigits p)

/-- A rule with both endpoints. -/
theorem IsForward.display {bind connect : Endpoint} (hs : IsForward host s bind connect)
    (hcolon : ∀ h, HasBracketed s h → ':' ∈ h) (hhost : IsHost host.toList)
    (hne : host.toList ≠ ['*']) :
    IsForward host (bind.display ++ ":" ++ connect.display).toList bind connect := by
  obtain ⟨b, c, rfl, hb, hc⟩ := hs
  refine ⟨bind.display.toList, connect.display.toList, by simp, hb.display ?_ hhost hne,
    hc.display ?_⟩
  · rintro h r hh rfl
    refine hcolon h ?_
    rw [List.cons_append, List.append_assoc, List.cons_append]
    exact .bind hh
  · rintro h r hh rfl
    generalize hc' : '[' :: (h ++ ']' :: r) = c' at hc
    cases hc with
    | unix => cases hc'
    | @bracketed h' ds p hh' hp =>
      obtain ⟨rfl, rfl⟩ := append_cons_unique hh.2 hh'.2 (List.cons.inj hc').2
      rw [hc'] at *
      exact hcolon h (.connect hb hh hp)
    | host hh' hp =>
      exact absurd (congrArg List.head? hc').symm (hh'.head?_append_ne hh'.2.2.2.1)

/-- With a colon in its host, a TCP endpoint to bind is between brackets. -/
theorem IsBind.exists_bracket {h : String} (hb : IsBind host b (.tcp h p)) (hcolon : ':' ∈ h.toList)
    (hhost : ':' ∉ host.toList) : ']' ∈ b := by
  generalize he : Endpoint.tcp h p = e at hb
  cases hb with
  | unix => cases he
  | bracketed => simp
  | wildcard hp =>
    obtain ⟨rfl, -⟩ := Endpoint.tcp.inj he
    exact absurd hcolon (by decide)
  | host hh =>
    obtain ⟨rfl, -⟩ := Endpoint.tcp.inj he
    rw [String.toList_ofList] at hcolon
    exact absurd hcolon hh.2.1
  | bare =>
    obtain ⟨rfl, -⟩ := Endpoint.tcp.inj he
    exact absurd hcolon hhost

end ForwardSpec

/-! ## Rules

Local and remote rules are printed endpoint by endpoint. A dynamic rule has its own `Display`,
which prints the host as it is; so it comes back unless it was read from brackets. -/

open ForwardSpec

variable {s : String}

/-- The texts that are accepted are the bind endpoints on TCP. -/
theorem DynamicForward.fromStr_eq_some_iff {v : DynamicForward} :
    fromStr s = some v ↔ IsBind "127.0.0.1" s.toList (.tcp v.host v.port) := by
  rw [fromStr, parse_eq_some_iff, dynamicForward, reads_tryMap_iff]
  constructor
  · rintro ⟨e, he, hv⟩
    obtain ⟨hbind, host, port, rfl⟩ := reads_listenOnly_iff.mp he
    obtain rfl := Option.some.inj hv
    exact hbind
  · intro h
    exact ⟨_, reads_listenOnly_iff.mpr ⟨h, _, _, rfl⟩, rfl⟩

/-- Local rules come back. -/
theorem LocalForward.roundTrips (h : ∀ h, HasBracketed s.toList h → ':' ∈ h) : RoundTrips s := by
  intro v hv
  rw [fromStr_eq_some_iff] at hv ⊢
  exact hv.display h (by decide) (by decide)

/-- Remote rules come back, with or without a target. -/
theorem RemoteForward.roundTrips (h : ∀ h, HasBracketed s.toList h → ':' ∈ h) : RoundTrips s := by
  intro v hv
  rw [fromStr_eq_some_iff] at hv ⊢
  obtain ⟨bind, connect⟩ := v
  cases connect with
  | some connect => exact IsForward.display hv h (by decide) (by decide)
  | none =>
    obtain ⟨hbind, hhost⟩ := hv
    refine ⟨hbind.display (fun t r ht heq => h t ?_) (by decide) (by decide), hhost⟩
    rw [heq]
    exact .bind ht

/-- A rule that is accepted and begins with a bracket has a bracketed host. -/
theorem ForwardSpec.IsBind.exists_bracketed {b : List Char} {host : String} {e : Endpoint}
    (hb : IsBind host b e) (hhead : b.head? = some '[') :
    ∃ h r p, IsBracketed h ∧ b = '[' :: (h ++ ']' :: r) ∧ e = .tcp (.ofList h) p := by
  cases hb with
  | unix => cases hhead
  | @bracketed h ds p hh hp => exact ⟨h, _, p, hh, rfl, rfl⟩
  | wildcard => cases hhead
  | host hh => exact absurd hhead (hh.head?_append_ne hh.2.2.2.1)
  | @bare _ p hp =>
    have hne := hp.isHost.head?_append_ne (r := []) hp.isHost.2.2.2.1
    rw [List.append_nil] at hne
    exact absurd hhead hne

/-- The host as it is, and the port. -/
theorem DynamicForward.toList_display {h : List Char} (hne : h ≠ []) (p : UInt16) :
    (display ⟨.ofList h, p⟩).toList = h ++ ':' :: portDigits p := by
  rw [display, isEmpty_ofList_eq_false hne]
  simp [toList_printPort]

/-- Without a bracket in front, a dynamic rule is printed as its bind endpoint. -/
theorem DynamicForward.isBind_display {v : DynamicForward} (hv : fromStr s = some v)
    (hhead : s.toList.head? ≠ some '[') :
    IsBind "127.0.0.1" v.display.toList (.tcp v.host v.port) := by
  rw [fromStr_eq_some_iff] at hv
  obtain ⟨host, port⟩ := v
  generalize hs : s.toList = b at hv hhead
  generalize he : Endpoint.tcp host port = e at hv
  cases hv with
  | unix => cases he
  | bracketed => exact absurd rfl hhead
  | wildcard hp =>
    obtain ⟨rfl, rfl⟩ := Endpoint.tcp.inj he
    have hdisplay := display_wildcard port
    exact hdisplay ▸ .wildcard (isPort_portDigits port)
  | host hh hne hp =>
    obtain ⟨rfl, rfl⟩ := Endpoint.tcp.inj he
    rw [toList_display hh.1]
    exact .host hh hne (isPort_portDigits port)
  | bare hp =>
    obtain ⟨rfl, rfl⟩ := Endpoint.tcp.inj he
    have hhost : IsHost "127.0.0.1".toList := by decide
    have hdisplay := toList_display hhost.1 port
    rw [String.ofList_toList] at hdisplay
    rw [hdisplay]
    exact hhost.isBind (by decide) port

/-- Dynamic rules come back if they do not begin with a bracket. -/
theorem DynamicForward.roundTrips_iff (h : ∀ h, HasBracketed s.toList h → ':' ∈ h) :
    RoundTrips s ↔ ¬ (s.toList.head? = some '[' ∧ ∃ v, fromStr s = some v) := by
  constructor
  · rintro hround ⟨hhead, v, hv⟩
    have hread := hround v hv
    rw [fromStr_eq_some_iff] at hv hread
    obtain ⟨t, r, p, ht, hs, he⟩ := hv.exists_bracketed hhead
    obtain ⟨host, port⟩ := v
    obtain ⟨rfl, rfl⟩ := Endpoint.tcp.inj he
    have hcolon : ':' ∈ t := h t (hs ▸ .bind ht)
    rw [toList_display ht.1] at hread
    have hbracket := hread.exists_bracket (by rwa [String.toList_ofList]) (by decide)
    rw [List.mem_append, List.mem_cons] at hbracket
    rcases hbracket with hmem | hmem | hmem
    · exact ht.2 hmem
    · cases hmem
    · exact (isPort_portDigits port).isHost.2.2.2.2 hmem
  · intro hnot v hv
    rw [fromStr_eq_some_iff]
    exact isBind_display hv fun hhead => hnot ⟨hhead, v, hv⟩

/-- **Exactly when.** If all bracketed hosts have a colon, local and remote rules are read back from
what is printed of their endpoints, and a dynamic rule from its `Display` exactly if it does not
begin with a bracket. -/
theorem display_iff (s : String) (h : ∀ h, HasBracketed s.toList h → ':' ∈ h) :
    LocalForward.RoundTrips s ∧ RemoteForward.RoundTrips s ∧
      (DynamicForward.RoundTrips s ↔
        ¬ (s.toList.head? = some '[' ∧ ∃ v, DynamicForward.fromStr s = some v)) :=
  ⟨LocalForward.roundTrips h, RemoteForward.roundTrips h, DynamicForward.roundTrips_iff h⟩

/-- The bracketed host of `[::1]:1080` -/
theorem ipv6Rule_colon : ∀ h, HasBracketed "[::1]:1080".toList h → ':' ∈ h := by
  have htext : "[::1]:1080".toList = '[' :: ([':', ':', '1'] ++ ']' :: ":1080".toList) := by decide
  rw [htext]
  intro h hh
  generalize hs : '[' :: ([':', ':', '1'] ++ ']' :: ":1080".toList) = s at hh
  cases hh with
  | bind hh =>
    obtain ⟨rfl, -⟩ := append_cons_unique (by decide) hh.2 (List.cons.inj hs).2
    decide
  | @connect host b h ds e p hb hh hp =>
    have hinfix : [':', '['] <:+: '[' :: ([':', ':', '1'] ++ ']' :: ":1080".toList) :=
      ⟨b, h ++ ']' :: ':' :: ds, by rw [hs]; simp⟩
    exact absurd hinfix (by decide)

/-- As a remote rule without a target it comes back, as a dynamic rule it does not. -/
theorem ipv6Rule_display : RemoteForward.RoundTrips "[::1]:1080" ∧
    ¬ DynamicForward.RoundTrips "[::1]:1080" := by
  obtain ⟨-, hremote, hdynamic⟩ := display_iff "[::1]:1080" ipv6Rule_colon
  have hhead : "[::1]:1080".toList.head? = some '[' := by decide
  have hread : DynamicForward.fromStr "[::1]:1080" = some ⟨"::1", 1080⟩ := by decide
  exact ⟨hremote, fun hround => hdynamic.mp hround ⟨hhead, _, hread⟩⟩

/-- The rule is printed without brackets. -/
theorem ipv6Rule_misread : (∀ h, HasBracketed "[::1]:1080".toList h → ':' ∈ h) ∧
    DynamicForward.fromStr "[::1]:1080" = some ⟨"::1", 1080⟩ ∧
    DynamicForward.display ⟨"::1", 1080⟩ = "::1:1080" ∧
    DynamicForward.fromStr "::1:1080" = none ∧ ¬ DynamicForward.RoundTrips "[::1]:1080" := by
  have hread : DynamicForward.fromStr "[::1]:1080" = some ⟨"::1", 1080⟩ := by decide
  have hdisplay : DynamicForward.display ⟨"::1", 1080⟩ = "::1:1080" := by decide +kernel
  have hnone : DynamicForward.fromStr "::1:1080" = none := by decide
  refine ⟨ipv6Rule_colon, hread, hdisplay, hnone, fun hround => ?_⟩
  have hsame := hround _ hread
  rw [hdisplay, hnone] at hsame
  cases hsame

end Dssh
