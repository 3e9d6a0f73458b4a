import Dssh.Forward.Client
import Dssh.Session.Dispatcher

/-!
# Accepting streams

A session delivers streams, and `accept_channel` reads a header off each. A stream may fail
there: it is of another kind, it ends too early, or its type is too long or no text.
`accept_channel` reports this and the end of the session by one type of error, and both of its
callers, the dispatcher of the server and the acceptor of the client, end at any error. So one
failing stream ends the acceptance of all that would come after it.

## What would be right

A peer that opens a stream and writes something unexpected on it has spoiled this stream and no
other. The acceptor is documented to run until the stream of channels ends. So the property is
stated by leaving the failing streams out: at every point of a run, the state is that of the run
without them. This is the strongest thing one can ask for, and asking it of every prefix says
*when* they are left out.

It is a statement about two loops that have nothing in common but the call. For the dispatcher,
a stream is an arrival, the header is read off it, and the rest is the action of the state
machine. For the acceptor of the client, the loop is a function of the list of streams. That
both come out with the same condition, no failing stream at all, is due to the same line of the
source in both: a `break` on `Err`, whatever it is.

## How exact it is

The condition is on the arrivals before the state in question. Sufficiency is trivial, since
nothing is filtered out. For the other direction, the first failing stream of a run takes the
dispatcher out of its loop (`place_ne_of_failing`), while the run without it is still at the
`select!`, or the action could not have happened. So the states differ at that point.

## Main definitions

* `WellFormed` — the stream begins with a header that `accept_channel` takes
* `RunSession.Arrival`, `RunSession.after` — what the dispatcher meets, and what becomes of it

## Main results

* `failingStreams_iff` — a session, and the acceptance of forwarded channels, go on as if the
  failing streams had not arrived exactly when none arrives
* `failingStream_ends` — a stream of another kind that ends both
-/

namespace Dssh

/-! ## The dispatcher

What is to be tested is that a stream which cannot be read is no concern of the others. So two
runs are compared: the one with the failing streams and the one without, over arrivals of any
other kind. -/

/-- The header that can be read off a stream, given by its bytes. -/
def streamHeader (bs : List UInt8) : Option IncomingChannel := (acceptChannel.outcome bs).1.toOption

/-- The stream does not fail. -/
def WellFormed (bs : List UInt8) : Bool := (streamHeader bs).isSome

namespace RunSession

/-- What the dispatcher meets: a stream, given by its bytes, or anything else. The end of the
session is `.channel none`. -/
inductive Arrival where
  | stream (bs : List UInt8)
  | other (a : Action)

namespace Arrival

/-- What `accept_channel` makes of it. -/
def action : Arrival → Action
  | stream bs => .channel ((streamHeader bs).map IncomingChannel.channelType)
  | other a => a

/-- It is no failing stream. -/
def ok : Arrival → Bool
  | stream bs => WellFormed bs
  | other _ => true

end Arrival

/-- The session after some arrivals, if they can happen in this order. -/
def after (as : List Arrival) : Option RunSession :=
  machine.exec machine.init (as.map Arrival.action)

variable {s : RunSession} {as : List Arrival}

/-- One more arrival. -/
theorem after_snoc (a : Arrival) :
    after (as ++ [a]) = (after as).bind fun s => step s a.action := by
  rw [after, List.map_append, Machine.exec_append, ← after]
  refine Option.bind_congr fun s _ => ?_
  change (step s a.action).bind some = _
  cases step s a.action <;> rfl

/-- What comes first can happen first. -/
theorem exists_after_of_prefix {p : List Arrival} (hp : p <+: as) (h : after as = some s) :
    ∃ t, after p = some t := by
  obtain ⟨q, rfl⟩ := hp
  rw [after, List.map_append, Machine.exec_append] at h
  obtain ⟨t, ht, -⟩ := Option.bind_eq_some_iff.mp h
  exact ⟨t, ht⟩

/-- **A failing stream.** The dispatcher leaves its loop. -/
theorem place_ne_of_failing {bs : List UInt8} (hbs : WellFormed bs = false) {t : RunSession}
    (h : step s (Arrival.stream bs).action = some t) : s.place = .select ∧ t.place ≠ .select := by
  have haction : (Arrival.stream bs).action = .channel none := by
    rw [Arrival.action, Option.not_isSome_iff_eq_none.mp (Bool.eq_false_iff.mp hbs)]
    rfl
  rw [haction] at h
  cases Steps.of_step h with
  | channelPanics hplace => exact ⟨hplace, nofun⟩
  | channelClosed hplace => exact ⟨hplace, nofun⟩

/-- A list with an item outside a class has a first one. -/
theorem exists_first_not {α : Type} {p : α → Bool} {l : List α} (h : ¬ ∀ a ∈ l, p a = true) :
    ∃ xs a ys, l = xs ++ a :: ys ∧ (∀ x ∈ xs, p x = true) ∧ p a = false := by
  induction l with
  | nil => exact absurd (List.forall_mem_nil _) h
  | cons b l ih =>
    cases hb : p b with
    | false => exact ⟨[], b, l, rfl, List.forall_mem_nil _, hb⟩
    | true =>
      obtain ⟨xs, a, ys, rfl, hxs, ha⟩ := ih fun hl => h (List.forall_mem_cons.mpr ⟨hb, hl⟩)
      exact ⟨b :: xs, a, ys, rfl, List.forall_mem_cons.mpr ⟨hb, hxs⟩, ha⟩

/-- **The dispatcher.** It is in the same state as without the failing streams, at every point of a
run, exactly when there are none. -/
theorem after_filter_iff (h : after as = some s) :
    (∀ p, p <+: as → after p = after (p.filter Arrival.ok)) ↔ ∀ a ∈ as, a.ok = true := by
  constructor
  · intro hsame
    by_contra hnot
    obtain ⟨xs, a, ys, rfl, hxs, ha⟩ := exists_first_not hnot
    have hprefix : xs ++ [a] <+: xs ++ a :: ys := ⟨ys, by simp⟩
    have heq := hsame _ hprefix
    obtain ⟨u, hu⟩ := exists_after_of_prefix hprefix h
    have hfilter : (xs ++ [a]).filter Arrival.ok = xs := by
      rw [List.filter_append, List.filter_eq_self.mpr hxs, List.filter_cons_of_neg (by simp [ha]),
        List.filter_nil, List.append_nil]
    rw [hfilter, hu] at heq
    rw [after_snoc, ← heq, Option.bind_some] at hu
    cases a with
    | other b => cases ha
    | stream bs =>
      obtain ⟨hselect, hplace⟩ := place_ne_of_failing ha hu
      exact hplace hselect
  · rintro hok p ⟨q, rfl⟩
    rw [List.filter_eq_self.mpr fun a ha => hok a (List.mem_append_left q ha)]

end RunSession

/-! ## The acceptor of the client

The loop of the client is a recursion over the streams, and what it does about the later ones is
seen in its result. -/

variable {mappings : List RemoteForwardEstablished} {streams : List (List UInt8)}

/-- The loop goes on as long as no stream fails. -/
theorem acceptForwardedChannels_snd :
    (acceptForwardedChannels mappings streams).2 = true ↔ ∀ bs ∈ streams, WellFormed bs = true := by
  induction streams with
  | nil => exact iff_of_true rfl (List.forall_mem_nil _)
  | cons bs streams ih =>
    rw [List.forall_mem_cons, ← ih, acceptForwardedChannels, WellFormed, streamHeader]
    obtain ⟨⟨result, rest⟩, hresult⟩ : ∃ p, acceptChannel.outcome bs = p := ⟨_, rfl⟩
    rw [hresult]
    cases result with
    | error e => exact iff_of_false Bool.false_ne_true fun h => Bool.false_ne_true h.1
    | ok c => exact (and_iff_right rfl).symm

/-- **The acceptor.** -/
theorem acceptForwardedChannels_filter_iff :
    acceptForwardedChannels mappings streams =
      acceptForwardedChannels mappings (streams.filter WellFormed) ↔
      ∀ bs ∈ streams, WellFormed bs = true := by
  constructor
  · intro heq
    rw [← acceptForwardedChannels_snd, heq, acceptForwardedChannels_snd]
    exact fun bs hbs => (List.mem_filter.mp hbs).2
  · intro hok
    rw [List.filter_eq_self.mpr hok]

/-! ## Both

The same condition on both sides, since both make the same mistake: an error of a single stream
is taken for the end of all. -/

/-- **Failing streams.** A session goes on, at every point of a run, as if the failing streams had
not arrived exactly when none arrives; and so does the acceptance of forwarded channels. -/
theorem failingStreams_iff {as : List RunSession.Arrival} {s : RunSession}
    (h : RunSession.after as = some s) (mappings : List RemoteForwardEstablished)
    (streams : List (List UInt8)) :
    ((∀ p, p <+: as → RunSession.after p = RunSession.after (p.filter RunSession.Arrival.ok)) ↔
        ∀ a ∈ as, a.ok = true) ∧
      (acceptForwardedChannels mappings streams =
        acceptForwardedChannels mappings (streams.filter WellFormed) ↔
          ∀ bs ∈ streams, WellFormed bs = true) :=
  ⟨RunSession.after_filter_iff h, acceptForwardedChannels_filter_iff⟩

/-- A stream of another kind. -/
def otherKind : List UInt8 := VarInt.encode (.ofNat 2)

/-- A session channel. -/
def sessionOpening : List UInt8 := openChannel .session (.ofNat 32768)

/-- A connection to port 80 of the server. -/
def forwardedOpening : List UInt8 :=
  openChannel (.forwardedTcpip ⟨"localhost", .ofNat 80, "::1", .ofNat 9⟩) (.ofNat 32768)

/-- The rule for it. -/
def oneMapping : List RemoteForwardEstablished := [⟨.tcp "localhost" 80, some (.unix "/s")⟩]

/-- After a stream of another kind, no channel is accepted. -/
theorem failingStream_ends :
    (∃ s, RunSession.after [.other .start, .stream otherKind] = some s ∧
      s.step (RunSession.Arrival.stream sessionOpening).action = none ∧
      RunSession.after [.other .start, .stream otherKind] ≠
        RunSession.after ([.other .start, .stream otherKind].filter RunSession.Arrival.ok)) ∧
    acceptForwardedChannels oneMapping [otherKind, forwardedOpening] = ([], false) ∧
    acceptForwardedChannels oneMapping ([otherKind, forwardedOpening].filter WellFormed) =
      ([.relayed (.unix "/s")], true) := by
  refine ⟨⟨_, rfl, rfl, ?_⟩, rfl, rfl⟩
  intro heq
  cases congrArg RunSession.place (Option.some.inj heq)

/-- Streams for the server: two sessions, a connection, and between them a type that it refuses. -/
def goodArrivals : List RunSession.Arrival :=
  [.other .start, .stream sessionOpening,
    .stream (openChannel (.directTcpip ⟨"localhost", .ofNat 80, "::1", .ofNat 9⟩) (.ofNat 32768)),
    .stream forwardedOpening, .other (.rejected true), .stream sessionOpening]

/-- Streams for the client: two connections to its rule, one to no rule, and a type that it refuses.
-/
def goodStreams : List (List UInt8) :=
  [forwardedOpening, sessionOpening,
    openChannel (.forwardedTcpip ⟨"localhost", .ofNat 81, "::1", .ofNat 9⟩) (.ofNat 32768),
    forwardedOpening]

/-- Both sides go on, with three channels here and four answers there. -/
theorem goodStreams_accepted :
    ∃ s, RunSession.after goodArrivals = some s ∧ s.channelTasks.length = 3 ∧
      (∀ p, p <+: goodArrivals →
        RunSession.after p = RunSession.after (p.filter RunSession.Arrival.ok)) ∧
      acceptForwardedChannels oneMapping goodStreams =
        acceptForwardedChannels oneMapping (goodStreams.filter WellFormed) := by
  have harrivals : ∀ a ∈ goodArrivals, a.ok = true := by decide
  have hstreams : ∀ bs ∈ goodStreams, WellFormed bs = true := by decide
  obtain ⟨s, hs, hlength⟩ : ∃ s, RunSession.after goodArrivals = some s ∧
      s.channelTasks.length = 3 :=
    ⟨_, rfl, rfl⟩
  obtain ⟨hserver, hclient⟩ := failingStreams_iff hs oneMapping goodStreams
  exact ⟨s, hs, hlength, hserver.mpr harrivals, hclient.mpr hstreams⟩

end Dssh
