import Dssh.Forward.Client

/-!
# Channels of an unknown type

`accept_forwarded_channels` takes the channels that the server opens one after the other, and
reads of each what its type asks for before it takes the next. Streams stay open and their bytes
come when they come, so the loop is looked at on what has arrived: it has handled some channels,
and then waits for the next one or for bytes of the one it is at.

`run_session` refuses a channel of a type that it does not know without reading on. This loop
first decodes the payload of a `forwarded-tcpip` channel, whatever the type is.

## What goes wrong

The last arm of the match is for all other types. Its job is to refuse the channel, and to have
something to refuse it with, it decodes a payload: the pending channel comes out of
`decode_payload` only. The type it decodes is that of a TCP channel. If the bytes behind the
header do not happen to look like one, the payload does not decode and the channel is dropped
without an answer. If there are no bytes, since the channel type has no payload, the loop waits
for them. The server waits for an answer, so none will come, and no other channel is handled
from then on (`silent_unknown_blocks`).

## Streams in progress

`acceptForwardedChannels`, in `Client`, is the loop on streams that have ended. It cannot say
that the loop waits. So the loop is written a second time, on streams of which a part has
arrived: `none` where it waits for bytes of a channel. Two theorems connect the two.
`acceptArrived_later` says that more bytes and more channels only add to what has been handled,
which is what makes "on what has arrived" a sensible way to look at it. `acceptArrived_ended`
says that on ended streams this is the other loop.

## The condition

Whether a channel is refused is a question about one channel that the loop has come to (`Sees`).
What counts is whether the bytes behind its header begin with something that the decoder of
`forwarded-tcpip` accepts. This is a condition on the input, and it is exact.

## Main definitions

* `InStream`, `InStream.read` — a stream in progress, and what a decoder makes of it
* `acceptArrived` — the loop, on what has arrived
* `Sees`, `Refused` — a channel whose header has been read, and what should be done about it

## Main results

* `acceptArrived_later` — more bytes and more channels only add to what has been handled
* `acceptArrived_ended` — on streams that have come to their end, the loop is
  `acceptForwardedChannels`
* `unknown_refused_iff` — a channel of an unknown type is refused, and the loop goes on, exactly
  when what has arrived behind its header begins with the payload of another type
* `silent_unknown_blocks` — one such channel without a payload, and nothing else is handled
-/

namespace Dssh

/-! ## Streams in progress

A stream that has not ended may still get bytes, and then a decoder waits. What is decided now
must be decided in the same way later, which is monotonicity in the bytes. -/

/-- A stream of the peer: the bytes that have arrived and are not read yet, and whether it ends with
them. -/
structure InStream where
  /-- Not read yet. -/
  arrived : List UInt8
  /-- No more will come. -/
  ended : Bool
  deriving DecidableEq, Repr

namespace InStream

variable {ε α : Type} {s s' : InStream} {d : Decoder ε α}

/-- What a decoder makes of a stream, with the stream behind it; `none` if it waits for a byte. -/
def read (s : InStream) (d : Decoder ε α) : Option (Except ε α × InStream) :=
  ((d.feed s.arrived).1.result s.ended).map fun r => (r, { s with arrived := (d.feed s.arrived).2 })

/-- The same stream at a later time. -/
structure Later (s s' : InStream) : Prop where
  /-- Bytes arrive behind those that are there. -/
  arrived : s.arrived <+: s'.arrived
  /-- Nothing arrives behind the end. -/
  ended : s.ended = true → s' = s

/-- What is decoded has arrived, and is taken off the stream. -/
theorem read_ok_iff {a : α} : s.read d = some (.ok a, s') ↔
    s'.ended = s.ended ∧ ∃ xs, s.arrived = xs ++ s'.arrived ∧ d.Accepts xs a := by
  obtain ⟨bs, eof⟩ := s
  obtain ⟨rest, eof'⟩ := s'
  have hdone : ∀ d' : Decoder ε α, d'.result eof = some (.ok a) ↔ d' = .done a := by
    intro d'
    cases d' with
    | done a' => simp [Decoder.result]
    | fail e => simp [Decoder.result]
    | read io k => cases eof <;> simp [Decoder.result]
  rw [← Decoder.feed_eq_done_iff]
  unfold read
  simp only [Option.map_eq_some_iff, Prod.mk.injEq, InStream.mk.injEq]
  constructor
  · rintro ⟨r, hr, rfl, hrest, rfl⟩
    exact ⟨rfl, Prod.ext ((hdone _).mp hr) hrest⟩
  · rintro ⟨rfl, hfeed⟩
    rw [hfeed]
    exact ⟨.ok a, rfl, rfl, rfl, rfl⟩

/-- What has been decoded stays decoded, and leaves the same stream at a later time. -/
theorem read_later {r : Except ε α} {t : InStream} (h : s.read d = some (r, s')) (ht : s.Later t) :
    ∃ t', t.read d = some (r, t') ∧ s'.Later t' := by
  by_cases hended : s.ended = true
  · rw [ht.ended hended]
    exact ⟨s', h, List.prefix_rfl, fun _ => rfl⟩
  · obtain ⟨more, hmore⟩ := ht.arrived
    obtain ⟨d', rest, hfeed⟩ : ∃ d' rest, d.feed s.arrived = (d', rest) := ⟨_, _, rfl⟩
    obtain ⟨xs, hxs, hafter⟩ := Decoder.exists_after_of_feed hfeed
    unfold read at h ⊢
    rw [hfeed] at h
    obtain ⟨r', hr, hpair⟩ := Option.map_eq_some_iff.mp h
    obtain ⟨rfl, rfl⟩ := Prod.mk.inj hpair
    have hhalted : d'.Halted := by
      cases d' with
      | done a => trivial
      | fail e => trivial
      | read io k =>
        rw [Decoder.result, if_neg hended] at hr
        exact absurd hr (by simp)
    have hresult : ∀ eof, d'.result eof = some r' := by
      intro eof
      cases d' with
      | done a => exact hr
      | fail e => exact hr
      | read io k => exact False.elim hhalted
    have hthere : d.feed t.arrived = (d', rest ++ more) := by
      rw [← hmore, hxs, List.append_assoc, Decoder.feed_of_after hafter, hhalted.feed]
    rw [hthere, hresult]
    exact ⟨_, rfl, List.prefix_append rest more, fun h => absurd h hended⟩

/-- On a stream that has come to its end, nothing waits. -/
theorem read_ended (bs : List UInt8) (d : Decoder ε α) :
    InStream.read ⟨bs, true⟩ d = some ((d.outcome bs).1, ⟨(d.outcome bs).2, true⟩) := by
  induction bs generalizing d with
  | nil => cases d <;> rfl
  | cons b bs ih =>
    cases d with
    | read io k => exact ih (k b)
    | done a => rfl
    | fail e => rfl

end InStream

/-! ## The loop

As the source has it: in the last arm, the payload of a type that is not known is decoded as one
of `forwarded-tcpip` before the channel is refused. So the loop may wait for a payload that the
type does not have. -/

/-- Decode the payload of a channel and go on with it, or drop the channel if it does not decode;
`none` while the payload is awaited. -/
def onPayload {ε α : Type} (s : InStream) (d : Decoder ε α) (f : α → Forwarded) :
    Option Forwarded :=
  (s.read d).map fun r =>
    match r.1 with
    | .ok payload => f payload
    | .error _ => .dropped

/-- What is done about a channel whose header has been read. -/
def dispatchArrived (mappings : List RemoteForwardEstablished) (incoming : IncomingChannel)
    (s : InStream) : Option Forwarded :=
  match incoming.channelType with
  | "forwarded-tcpip" =>
    onPayload s ForwardedTcpip.decoder fun payload => relayOrReject (selectTcp mappings payload)
  | "forwarded-streamlocal@openssh.com" =>
    onPayload s ForwardedStreamlocal.decoder fun payload =>
      relayOrReject (selectUnix mappings payload)
  | _ =>
    onPayload s ForwardedTcpip.decoder fun _ => .rejected (.ofNat 1) "unsupported channel type"

/-- Where the loop is. -/
inductive LoopPosition where
  /-- Waiting for a channel. -/
  | accepting
  /-- Waiting for bytes of a channel. -/
  | reading
  /-- `accept_channel` has failed. -/
  | broken
  deriving DecidableEq, Repr

/-- `accept_forwarded_channels` on the streams that the session has delivered: what is done about
the channels, one after the other, and where the loop then is. -/
def acceptArrived (mappings : List RemoteForwardEstablished) :
    List InStream → List Forwarded × LoopPosition
  | [] => ([], .accepting)
  | s :: streams =>
    match s.read acceptChannel with
    | none => ([], .reading)
    | some (.error _, _) => ([], .broken)
    | some (.ok incoming, s) =>
      match dispatchArrived mappings incoming s with
      | none => ([], .reading)
      | some handled =>
        (handled :: (acceptArrived mappings streams).1, (acceptArrived mappings streams).2)

/-- What the loop writes on a channel. -/
def Forwarded.written : Forwarded → List (List UInt8)
  | .rejected reasonCode description => [PendingChannel.reject reasonCode description]
  | .relayed _ => []
  | .dropped => []

/-- The loop has handled the channels before the `k`-th, and read the header of that one. -/
structure Sees (mappings : List RemoteForwardEstablished) (streams : List InStream) (k : ℕ)
    (incoming : IncomingChannel) (behind : InStream) : Prop where
  /-- All before it have been handled. -/
  handled : k ≤ (acceptArrived mappings streams).1.length
  /-- Its header has been read, and `behind` is the rest. -/
  header : ∃ s, streams[k]? = some s ∧ s.read acceptChannel = some (.ok incoming, behind)

/-- The loop has written one message on the `k`-th channel, an open failure, and has gone on. -/
def Refused (mappings : List RemoteForwardEstablished) (streams : List InStream) (k : ℕ) : Prop :=
  ∃ handled, (acceptArrived mappings streams).1[k]? = some handled ∧
    ∃ reasonCode description, handled.written = [PendingChannel.reject reasonCode description]

variable {mappings : List RemoteForwardEstablished}

/-! ### One channel -/

/-- A channel that the loop sees is the one it handles next, if it can. -/
theorem Sees.getElem?_eq {streams : List InStream} {k : ℕ} {incoming : IncomingChannel}
    {behind : InStream} (h : Sees mappings streams k incoming behind) :
    (acceptArrived mappings streams).1[k]? = dispatchArrived mappings incoming behind := by
  induction streams generalizing k with
  | nil =>
    obtain ⟨s, hs, -⟩ := h.header
    cases hs
  | cons t streams ih =>
    obtain ⟨hhandled, s, hs, hread⟩ := h
    cases k with
    | zero =>
      obtain rfl := Option.some.inj hs
      unfold acceptArrived
      rw [hread]
      dsimp only
      cases hdispatch : dispatchArrived mappings incoming behind with
      | none => rfl
      | some handled => rfl
    | succ k =>
      unfold acceptArrived at hhandled ⊢
      split at hhandled
      · exact absurd hhandled (Nat.not_succ_le_zero k)
      · exact absurd hhandled (Nat.not_succ_le_zero k)
      · split at hhandled
        · exact absurd hhandled (Nat.not_succ_le_zero k)
        · rename_i hdispatch
          exact ih ⟨Nat.le_of_succ_le_succ hhandled, s, hs, hread⟩

/-- The last arm, with the decoder of another type. -/
theorem dispatchArrived_unknown {incoming : IncomingChannel} (behind : InStream)
    (htcpip : incoming.channelType ≠ "forwarded-tcpip")
    (hstreamlocal : incoming.channelType ≠ "forwarded-streamlocal@openssh.com") :
    dispatchArrived mappings incoming behind = onPayload behind ForwardedTcpip.decoder fun _ =>
      .rejected (.ofNat 1) "unsupported channel type" := by
  unfold dispatchArrived
  split
  · rename_i h
    exact absurd h htcpip
  · rename_i h
    exact absurd h hstreamlocal
  · rfl

/-! ### Later, and at the end

With more bytes, more is handled, and nothing differently. On streams that have ended, the loop
is the function of the module on remote forwards. -/

/-- A payload that has been decoded stays so. -/
theorem onPayload_later {ε α : Type} {s t : InStream} {d : Decoder ε α} {f : α → Forwarded}
    {handled : Forwarded} (h : onPayload s d f = some handled) (hst : s.Later t) :
    onPayload t d f = some handled := by
  obtain ⟨⟨r, s'⟩, hread, hhandled⟩ := Option.map_eq_some_iff.mp h
  obtain ⟨t', ht, -⟩ := InStream.read_later hread hst
  unfold onPayload
  rw [ht, Option.map_some, ← hhandled]

/-- What is done about a channel stays so. -/
theorem dispatchArrived_later {incoming : IncomingChannel} {s t : InStream} {handled : Forwarded}
    (h : dispatchArrived mappings incoming s = some handled) (hst : s.Later t) :
    dispatchArrived mappings incoming t = some handled := by
  unfold dispatchArrived at h ⊢
  split at h <;> exact onPayload_later h hst

/-- **More bytes and more channels** only add to what has been handled. -/
theorem acceptArrived_later {streams later more : List InStream}
    (h : List.Forall₂ InStream.Later streams later) :
    (acceptArrived mappings streams).1 <+: (acceptArrived mappings (later ++ more)).1 := by
  induction h with
  | nil => exact List.nil_prefix
  | cons hst _ ih =>
    rw [List.cons_append]
    unfold acceptArrived
    split
    · exact List.nil_prefix
    · exact List.nil_prefix
    · rename_i hread
      obtain ⟨t', ht, hlater⟩ := InStream.read_later hread hst
      split
      · exact List.nil_prefix
      · rename_i hdispatch
        rw [ht]
        dsimp only
        rw [dispatchArrived_later hdispatch hlater]
        exact List.cons_prefix_cons.mpr ⟨rfl, ih⟩

/-- On a stream that has ended, the payload decodes or the channel is dropped. -/
theorem onPayload_ended {ε α : Type} (bs : List UInt8) (d : Decoder ε α) (f : α → Forwarded) :
    onPayload ⟨bs, true⟩ d f =
      some (match d.run bs with
        | .ok (payload, _) => f payload
        | .error _ => .dropped) := by
  unfold onPayload
  rw [InStream.read_ended, Option.map_some, Decoder.run_eq_outcome]
  cases (d.outcome bs).1 <;> rfl

/-- What is done about a channel then is what `dispatchForwarded` says. -/
theorem dispatchArrived_ended (incoming : IncomingChannel) (bs : List UInt8) :
    dispatchArrived mappings incoming ⟨bs, true⟩ =
      some (dispatchForwarded mappings incoming bs) := by
  obtain ⟨channelType, maxMessageSize⟩ := incoming
  by_cases htcpip : channelType = "forwarded-tcpip"
  · simp only [dispatchArrived, dispatchForwarded, htcpip, onPayload_ended]
    cases ForwardedTcpip.decoder.run bs <;> rfl
  · by_cases hstreamlocal : channelType = "forwarded-streamlocal@openssh.com"
    · simp only [dispatchArrived, dispatchForwarded, hstreamlocal, onPayload_ended]
      cases ForwardedStreamlocal.decoder.run bs <;> rfl
    · rw [dispatchArrived_unknown _ htcpip hstreamlocal, onPayload_ended]
      simp only [dispatchForwarded]
      cases ForwardedTcpip.decoder.run bs <;> rfl

/-- **Streams that have come to their end.** -/
theorem acceptArrived_ended (streams : List (List UInt8)) :
    acceptArrived mappings (streams.map fun bs => ⟨bs, true⟩) =
      ((acceptForwardedChannels mappings streams).1,
        if (acceptForwardedChannels mappings streams).2 then .accepting else .broken) := by
  induction streams with
  | nil => rfl
  | cons bs streams ih =>
    rw [List.map_cons]
    unfold acceptArrived acceptForwardedChannels
    obtain ⟨r, rest, houtcome⟩ : ∃ r rest, acceptChannel.outcome bs = (r, rest) := ⟨_, _, rfl⟩
    rw [InStream.read_ended, houtcome]
    cases r with
    | error e => rfl
    | ok incoming =>
      dsimp only
      rw [dispatchArrived_ended, ih]

/-! ## Refusing channels of an unknown type

The exact condition is on the bytes that have arrived behind the header: they have to begin with
a payload of another type. -/

/-- **Exactly when.** A channel of an unknown type is refused, with one message, and the loop goes
on, exactly when what has arrived behind its header begins with the payload of a `forwarded-tcpip`
channel. -/
theorem unknown_refused_iff {streams : List InStream} {k : ℕ} {incoming : IncomingChannel}
    {behind : InStream} (h : Sees mappings streams k incoming behind)
    (htcpip : incoming.channelType ≠ "forwarded-tcpip")
    (hstreamlocal : incoming.channelType ≠ "forwarded-streamlocal@openssh.com") :
    Refused mappings streams k ↔
      ∃ (payload : ForwardedTcpip) (xs rest : List UInt8), behind.arrived = xs ++ rest ∧
        ForwardedTcpip.decoder.Accepts xs payload := by
  unfold Refused
  rw [h.getElem?_eq, dispatchArrived_unknown behind htcpip hstreamlocal]
  constructor
  · rintro ⟨handled, hhandled, reasonCode, description, hwritten⟩
    obtain ⟨⟨r, s'⟩, hread, hr⟩ := Option.map_eq_some_iff.mp hhandled
    cases r with
    | error e =>
      obtain rfl : Forwarded.dropped = handled := hr
      cases hwritten
    | ok payload =>
      obtain ⟨-, xs, hxs, haccepts⟩ := InStream.read_ok_iff.mp hread
      exact ⟨payload, xs, s'.arrived, hxs, haccepts⟩
  · rintro ⟨payload, xs, rest, hxs, haccepts⟩
    have hread : behind.read ForwardedTcpip.decoder = some (.ok payload, ⟨rest, behind.ended⟩) :=
      InStream.read_ok_iff.mpr ⟨rfl, xs, hxs, haccepts⟩
    refine ⟨.rejected (.ofNat 1) "unsupported channel type", ?_, _, _, rfl⟩
    unfold onPayload
    rw [hread]
    rfl

/-- Two channels of type `x11`, the first with a payload like that of `forwarded-tcpip`, the second
with none. -/
def twoUnknown : List InStream :=
  [⟨[1, 7, 3, 120, 49, 49, 0, 22, 0, 5, 9], false⟩, ⟨[1, 7, 3, 120, 49, 49], false⟩]

/-- The first is refused; the second is waited for. -/
theorem twoUnknown_refused_iff :
    (Refused [] twoUnknown 0 ↔ ∃ (payload : ForwardedTcpip) (xs rest : List UInt8),
      [0, 22, 0, 5, 9] = xs ++ rest ∧ ForwardedTcpip.decoder.Accepts xs payload) ∧
    (Refused [] twoUnknown 1 ↔ ∃ (payload : ForwardedTcpip) (xs rest : List UInt8),
      [] = xs ++ rest ∧ ForwardedTcpip.decoder.Accepts xs payload) := by
  have hfirst : Sees [] twoUnknown 0 ⟨"x11", .ofNat 7⟩ ⟨[0, 22, 0, 5, 9], false⟩ :=
    ⟨Nat.zero_le _, _, rfl, by decide⟩
  have hsecond : Sees [] twoUnknown 1 ⟨"x11", .ofNat 7⟩ ⟨[], false⟩ :=
    ⟨by decide, _, rfl, by decide⟩
  exact ⟨unknown_refused_iff hfirst (by decide) (by decide),
    unknown_refused_iff hsecond (by decide) (by decide)⟩

/-- An `x11` channel without a payload, and one whose payload is not one of `forwarded-tcpip`;
behind each, a channel that is handled if it comes first. -/
theorem silent_unknown_blocks :
    (Sees [] [⟨[1, 7, 3, 120, 49, 49], false⟩] 0 ⟨"x11", .ofNat 7⟩ ⟨[], false⟩ ∧
      ¬ Refused [] [⟨[1, 7, 3, 120, 49, 49], false⟩] 0) ∧
    acceptArrived [] [⟨[1, 7, 3, 120, 49, 49], false⟩,
      ⟨[1, 7, 3, 120, 49, 49, 0, 22, 0, 5], false⟩] = ([], .reading) ∧
    acceptArrived [] [⟨[1, 7, 3, 120, 49, 49, 1, 255], false⟩,
      ⟨[1, 7, 3, 120, 49, 49, 0, 22, 0, 5], false⟩] =
        ([.dropped, .rejected (.ofNat 1) "unsupported channel type"], .accepting) := by
  refine ⟨⟨⟨Nat.zero_le _, _, rfl, by decide⟩, ?_⟩, by decide, by decide⟩
  rintro ⟨handled, hhandled, -⟩
  have hnone : (acceptArrived [] [⟨[1, 7, 3, 120, 49, 49], false⟩]).1[0]? = none := by decide
  rw [hnone] at hhandled
  cases hhandled

end Dssh
