import Dssh.Channel.Open
import Dssh.Lib.Machine
import Dssh.Lib.Preamble

/-!
# A forwarded connection

One connection, from the program that has connected to a listener to the one that is connected
to for it. The side with the listener opens a channel; the other side reads the opening,
decides, connects and answers. Then each side runs two relay tasks, and nothing but the bytes of
the connection travels on the stream of the channel.

The directions are independent. In each of them bytes go through five buffers: the socket they
are read from, the buffer of the relay task there, the stream of the channel, the buffer of the
other relay task and the socket they are written to. The streams carry the opening and the
answer before that, and both sides may go on as soon as they have written or read theirs: bytes
from the target may be behind an answer that has not been read.

Local forwarding and remote forwarding differ in who opens and in how the other side decides.
This is the parameter `handler`, which reads the opening and whose result is the decision.

## One stream, two uses

The difficulty is at the seam. A stream first carries a message of one side to a decoder of the
other, and then bytes between two relay tasks, with no mark in between. The connection survives
this if the decoder stops exactly where the message ends, and if no relay task looks at the
stream before that. Both have to be shown for both directions, and they hold for different
reasons. The handler relays only after it has answered, which is after it has read all of the
opening. The opener relays only after it has read the answer, and the answer it accepts is a
whole confirmation.

`Line` says what a direction looks like at any time: a pipeline that is in order on its own,
with `coming` bytes of a message in front of the connection's in the third buffer. The library's
`preceded` puts them there, and its rules say which operations do not notice. Reading a byte of
the message shortens `coming`, writing one makes it longer, and everything that the relay tasks
and the programs do is a step of the pipeline behind it (`Line.flowStep`).

## Failing

Either side may fail at any time before it relays: an I/O error, a dropped task, a refused
connection. The streams and the socket it had are lost then, and may or may not look like ended
to the other side. This is `openerFails` and `handlerFails`. A relay task that fails loses its
buffer, which is an operation of the pipeline. So the results say *beginning* where they speak
of what has been received, and speak of the end only where no station has failed.

A dropped stream that looks like an ended one is the reason for the last condition of
`Delivers`.

## Main definitions

* `Tunnel`, `Tunnel.step`, `Tunnel.machine` — a connection, for any opening and any handler
* `Tunnel.Place` — where it is: what has been read of the two messages, and what is in the
  streams
* `Tunnel.Inv` — the invariant
* `Tunnel.Transparent` — what a tunnel is for

## Main results

* `Tunnel.Inv.step` — every step keeps track of what is in the streams
* `Tunnel.Inv.transparent` — both ends receive a beginning of what the other has sent, and the
  end behind the last byte; the only connection made is the one decided on
-/

namespace Dssh

/-- The size of the buffer of `tokio::io::copy`. -/
def copyBufferSize : ℕ := 8 * 1024

/-! ## The two sides

Each direction is a pipeline: the socket at one end, the buffer of a relay task, the stream of
the channel, the buffer of the other relay task, and the socket at the other end. The opener and
the handler use the stream before the relays do. -/

/-- How much the sockets and the stream of one direction hold. -/
structure Windows where
  /-- The socket that is read from. -/
  source : ℕ
  /-- The stream of the channel. -/
  stream : ℕ
  /-- The socket that is written to. -/
  sink : ℕ
  /-- Each of the three holds at least a byte. -/
  source_pos : 0 < source
  stream_pos : 0 < stream
  sink_pos : 0 < sink

/-- One direction, before anything has been sent. -/
def Windows.direction (w : Windows) : Pipeline UInt8 :=
  ⟨[⟨w.sink, [], false, false⟩, ⟨copyBufferSize, [], false, false⟩, ⟨w.stream, [], false, false⟩,
    ⟨copyBufferSize, [], false, false⟩, ⟨w.source, [], false, false⟩], [], [], false⟩

/-- What a side does about an opening: it connects to an endpoint, refuses, or gives up. -/
inductive Decision (δ : Type) where
  | connect (endpoint : δ)
  | reject (reasonCode : VarInt) (description : SshString)
  | drop
  deriving DecidableEq

namespace Tunnel

/-- Who works at a station: the relay tasks of the side that writes to the stream of the channel,
those of the side that reads from it, or the programs at the ends. -/
inductive Worker where
  | writer
  | reader
  | source
  | sink
  deriving DecidableEq

/-- Whose operation it is. A failing relay task takes its buffer with it; sockets and streams fail
by failing the tasks. -/
def worker : Pipeline.Op UInt8 → Option Worker
  | .take i _ => some (if 2 ≤ i then .writer else .reader)
  | .learn i => some (if 2 ≤ i then .writer else .reader)
  | .lose _ 2 => some .writer
  | .lose _ 0 => some .reader
  | .lose _ _ => none
  | .send _ => some .source
  | .close => some .source
  | .receive _ => some .sink
  | .receiveEof => some .sink

/-- The side that opens the channel. -/
inductive Opener where
  /-- In `open_channel`, with `rest` of the opening still to be written. -/
  | opening (rest : List UInt8)
  /-- In `read_channel_open_response`. -/
  | awaiting (d : Decoder AwaitOpenError Unit)
  | relaying
  /-- `open_channel` has failed; everything is dropped. -/
  | refused (e : Option AwaitOpenError)

/-- The side that handles it. -/
inductive Handler (ε δ : Type) where
  /-- Reading the opening. -/
  | reading (d : Decoder ε (Decision δ))
  | connecting (endpoint : δ)
  /-- Writing the answer, of which `rest` is left; `ok` when it is a confirmation. -/
  | answering (ok : Bool) (rest : List UInt8)
  | relaying
  /-- It has returned without relaying; everything is dropped. -/
  | ended

/-- What one of the two sides or the programs at the ends do. -/
inductive Action where
  /-- In the direction from the opener to the handler, or back. -/
  | up (op : Pipeline.Op UInt8)
  | down (op : Pipeline.Op UInt8)
  /-- `n` bytes of the opening are written. -/
  | openerWrites (n : ℕ)
  | openerFlushes
  /-- A byte of the answer. -/
  | openerReads
  /-- The opener gives up. The dropped writers may end what they write to. -/
  | openerFails (endsUp endsDown : Bool)
  /-- A byte of the opening. -/
  | handlerReads
  /-- `connect` returns. -/
  | connected (ok : Bool)
  | handlerWrites (n : ℕ)
  | handlerFlushes
  | handlerFails (endsUp endsDown : Bool)

end Tunnel

/-! ## The machine

One action for each thing that a side, a relay task or a program at an end can do. A side that
fails drops its ends of everything it holds, and what was in a buffer of its own is lost. -/

/-- A forwarded connection. -/
structure Tunnel (ε δ : Type) where
  /-- The side that has accepted a connection and opens the channel. -/
  opener : Tunnel.Opener
  /-- The side that answers the opening and connects to the endpoint. -/
  handler : Tunnel.Handler ε δ
  /-- From the socket of the opener to that of the handler. -/
  up : Pipeline UInt8
  /-- And back. -/
  down : Pipeline UInt8
  /-- History: the endpoints that have been connected to. -/
  connects : List δ := []

/-- `DEFAULT_MAX_MESSAGE_SIZE` -/
def defaultMaxMessageSize : VarInt := .ofNat (2 ^ 20)

/-- The confirmation of a forwarding channel. -/
def confirmation : List UInt8 := PendingChannel.accept defaultMaxMessageSize

/-- The failure that says that the target cannot be reached. -/
def connectFailed : List UInt8 := PendingChannel.reject (.ofNat 2) "connect failed"

namespace Tunnel

variable {ε δ : Type}

/-- A relay task or an end of the connection does something. -/
def flowStep (writes reads : Bool) (connected : Bool) (p : Pipeline UInt8)
    (op : Pipeline.Op UInt8) : Option (Pipeline UInt8) :=
  match worker op with
  | some .writer => if writes then p.step op else none
  | some .reader => if reads then p.step op else none
  | some .source => if connected then p.step op else none
  | some .sink => p.step op
  | none => none

/-- It has started its relay tasks. -/
def Opener.relays : Opener → Bool
  | relaying => true
  | _ => false

/-- It has started its relay tasks. -/
def Handler.relays : Handler ε δ → Bool
  | relaying => true
  | _ => false

/-- The connection to the target stands. -/
def Handler.isConnected : Handler ε δ → Bool
  | answering ok _ => ok
  | relaying => true
  | _ => false

/-- What is dropped with the opener: nobody takes from its sockets or from the stream any more. -/
def dropOpener (t : Tunnel ε δ) (e : Option AwaitOpenError) (endsUp endsDown : Bool) :
    Option (Tunnel ε δ) :=
  (t.up.step (.lose endsUp 2)).bind fun up =>
    (t.down.step (.lose endsDown 0)).map fun down =>
      { t with opener := .refused e, up := up, down := down }

/-- The same for the handler, which has the stream on the other ends. -/
def dropHandler (t : Tunnel ε δ) (endsUp endsDown : Bool) : Option (Tunnel ε δ) :=
  (t.up.step (.lose endsUp 0)).bind fun up =>
    (t.down.step (.lose endsDown 2)).map fun down =>
      { t with handler := .ended, up := up, down := down }

/-- One step; `none` where the action is not possible. -/
def step (t : Tunnel ε δ) : Action → Option (Tunnel ε δ)
  | .up op =>
    (flowStep t.opener.relays t.handler.relays true t.up op).map fun up => { t with up := up }
  | .down op =>
    (flowStep t.handler.relays t.opener.relays t.handler.isConnected t.down op).map fun down =>
      { t with down := down }
  | .openerWrites n =>
    match t.opener with
    | .opening rest =>
      if 0 < n ∧ n ≤ rest.length then
        (t.up.putAt 2 (rest.take n)).map fun up =>
          { t with opener := .opening (rest.drop n), up := up }
      else none
    | _ => none
  | .openerFlushes =>
    match t.opener with
    | .opening [] => some { t with opener := .awaiting readChannelOpenResponse }
    | _ => none
  | .openerReads =>
    match t.opener with
    | .awaiting (.read _ k) =>
      (t.down.pullAt 2).map fun r => { t with opener := .awaiting (k r.1), down := r.2 }
    | .awaiting (.done ()) => some { t with opener := .relaying }
    | _ => none
  | .openerFails endsUp endsDown =>
    match t.opener with
    | .opening _ => t.dropOpener none endsUp endsDown
    | .awaiting (.read io _) => t.dropOpener (some io) endsUp endsDown
    | .awaiting (.fail e) => t.dropOpener (some e) endsUp endsDown
    | _ => none
  | .handlerReads =>
    match t.handler with
    | .reading (.read _ k) =>
      (t.up.pullAt 2).map fun r => { t with handler := .reading (k r.1), up := r.2 }
    | .reading (.done (.connect endpoint)) =>
      some { t with handler := .connecting endpoint, connects := t.connects ++ [endpoint] }
    | .reading (.done (.reject reasonCode description)) =>
      some { t with handler := .answering false (PendingChannel.reject reasonCode description) }
    | _ => none
  | .connected ok =>
    match t.handler with
    | .connecting _ =>
      some { t with handler := .answering ok (if ok then confirmation else connectFailed) }
    | _ => none
  | .handlerWrites n =>
    match t.handler with
    | .answering ok rest =>
      if 0 < n ∧ n ≤ rest.length then
        (t.down.putAt 2 (rest.take n)).map fun down =>
          { t with handler := .answering ok (rest.drop n), down := down }
      else none
    | _ => none
  | .handlerFlushes =>
    match t.handler with
    | .answering true [] => some { t with handler := .relaying }
    | _ => none
  | .handlerFails endsUp endsDown =>
    match t.handler with
    | .relaying => none
    | .ended => none
    | _ => t.dropHandler endsUp endsDown

/-- A tunnel whose opener writes `opening`. -/
def machine (opening : List UInt8) (handler : Decoder ε (Decision δ)) (up down : Windows) :
    Machine (Tunnel ε δ) Action :=
  ⟨⟨.opening opening, .reading handler, up.direction, down.direction, []⟩, step⟩

/-! ## One direction

A message in front, then the connection. The two never mix: the writing side puts bytes of the
connection into the stream when its message is complete, and the reading side takes them when it
has read the message. -/

open Stations

/-- A direction with `coming` of a message in the stream, and what the connection puts behind it.
Nothing of the connection is in the stream before the writing side relays, and none has come out of
it before the reading side does. -/
structure Carries (coming : List UInt8) (flow : Pipeline UInt8) (writes reads : Bool)
    (p : Pipeline UInt8) : Prop where
  /-- What comes first stands in the channel, in front of the rest. -/
  eq : p = flow.preceded 2 coming
  /-- The rest keeps the order of the row. -/
  inv : flow.Inv
  /-- The socket, the channel and the socket, with a relay between each two. -/
  length : flow.stations.length = 5
  /-- No station is without room. -/
  capacity : ∀ a ∈ flow.stations, 0 < a.capacity
  /-- As long as the writing side does not relay, nothing has been put into the channel. -/
  unwritten : writes = false → ∀ a ∈ flow.stations[2]?,
    a.held = [] ∧ (Whole flow.stations → a.ended = false)
  /-- As long as the reading side does not relay, nothing has been taken out of it. -/
  unread : reads = false →
    (∀ k < 2, ∀ a ∈ flow.stations[k]?, a.held = []) ∧ flow.received = []

/-- The same with some pipeline. -/
def Line (coming : List UInt8) (writes reads : Bool) (p : Pipeline UInt8) : Prop :=
  ∃ flow, Carries coming flow writes reads p

variable {coming : List UInt8} {writes reads connected : Bool} {p p' : Pipeline UInt8}
  {op : Pipeline.Op UInt8}

/-- At the start nothing is in the stream. -/
theorem Line.direction (w : Windows) : Line [] false false w.direction := by
  refine ⟨w.direction, (Pipeline.preceded_nil 2 _).symm,
    ⟨List.cons_ne_nil _ _, ?_, fun _ => rfl, ?_, ?_, nofun⟩, rfl, ?_, fun _ a ha => ?_,
    fun _ => ⟨fun k hk a ha => ?_, rfl⟩⟩
  · exact List.prefix_rfl
  · exact ⟨fun _ _ => nofun, fun _ _ => nofun, fun _ _ => nofun, fun _ _ => nofun, trivial⟩
  · intro a ha
    obtain rfl := Option.some.inj ha
    rfl
  · intro a ha
    simp only [Windows.direction, List.mem_cons, List.not_mem_nil, or_false] at ha
    rcases ha with rfl | rfl | rfl | rfl | rfl
    exacts [w.sink_pos, by decide, w.stream_pos, by decide, w.source_pos]
  · obtain rfl := Option.some.inj ha
    exact ⟨rfl, fun _ => rfl⟩
  · match k, ha with
    | 0, ha => exact Option.some.inj ha ▸ rfl
    | 1, ha => exact Option.some.inj ha ▸ rfl

/-- What is done to a direction. -/
theorem Line.step (h : Line coming writes reads p) (hspares : op.spares 2 ∨ coming = [])
    (hwrites : writes = false → ¬ op.feeds 2)
    (hreads : reads = false → ∀ k < 2, ¬ op.feeds k) (hstep : p.step op = some p') :
    Line coming writes reads p' := by
  obtain ⟨flow, rfl, hinv, hlength, hcapacity, hunwritten, hunread⟩ := h
  obtain ⟨flow', hflow, rfl⟩ :
      ∃ flow', flow.step op = some flow' ∧ p' = flow'.preceded 2 coming := by
    rcases hspares with hspares | rfl
    · exact Pipeline.step_preceded Nat.two_pos (by omega) hspares hstep
    · exact ⟨p', by simpa using hstep, (Pipeline.preceded_nil 2 p').symm⟩
  have hmap := Pipeline.capacity_step hflow
  have hlength' : flow'.stations.length = 5 := by
    simpa [hlength] using congrArg List.length hmap
  refine ⟨flow', rfl, hinv.step hflow, hlength', fun a ha => ?_, fun hw a' ha' => ?_, fun hr => ?_⟩
  · have hmem : a.capacity ∈ flow.stations.map Station.capacity := hmap ▸ List.mem_map_of_mem ha
    obtain ⟨b, hb, heq⟩ := List.mem_map.mp hmem
    exact heq ▸ hcapacity b hb
  · obtain ⟨a, ha, hheld, hended⟩ := Pipeline.unfed_step (by omega) (hwrites hw) hflow a' ha'
    obtain ⟨hnil, hopen⟩ := hunwritten hw a ha
    exact ⟨hheld hnil, fun hwhole =>
      (hended hwhole).trans (hopen (Pipeline.whole_step hflow hwhole))⟩
  · obtain ⟨hempty, hreceived⟩ := hunread hr
    refine ⟨fun k hk a' ha' => ?_, ?_⟩
    · obtain ⟨a, ha, hheld, -⟩ := Pipeline.unfed_step (by omega) (hreads hr k hk) hflow a' ha'
      exact hheld (hempty k hk a ha)
    · cases op with
      | receive n =>
        -- there is nothing to receive
        obtain ⟨a, rest, hstations, ⟨hpos, hle⟩, -⟩ := Pipeline.step_receive hflow
        have hnil := hempty 0 Nat.two_pos a (by rw [hstations]; rfl)
        rw [hnil, List.length_nil] at hle
        omega
      | take | learn | lose =>
        obtain ⟨l, -, rfl⟩ := Option.map_eq_some_iff.mp hflow
        exact hreceived
      | send =>
        obtain ⟨-, rfl⟩ := Pipeline.step_send hflow
        exact hreceived
      | close => exact Option.some.inj hflow ▸ hreceived
      | receiveEof =>
        obtain ⟨-, rfl⟩ := Pipeline.step_receiveEof hflow
        exact hreceived

/-- Whose work an operation is. -/
theorem flowStep_eq_some (h : flowStep writes reads connected p op = some p') :
    p.step op = some p' ∧ (writes = false → ¬ op.feeds 2) ∧
      (reads = false → op.spares 2 ∧ ∀ k < 2, ¬ op.feeds k) := by
  rw [flowStep] at h
  cases op with
  | take i n | learn i =>
    simp only [worker] at h
    by_cases hi : 2 ≤ i
    · rw [if_pos hi] at h
      obtain ⟨hwrites, hstep⟩ := Option.ite_none_right_eq_some.mp h
      exact ⟨hstep, fun hw => absurd hw (ne_false_of_eq_true hwrites), fun _ =>
        ⟨fun heq => by omega, fun k hk heq => by change i = k at heq; omega⟩⟩
    · rw [if_neg hi] at h
      obtain ⟨hreads, hstep⟩ := Option.ite_none_right_eq_some.mp h
      exact ⟨hstep, fun _ heq => hi (Nat.le_of_eq (Eq.symm heq)),
        fun hr => absurd hr (ne_false_of_eq_true hreads)⟩
  | lose ends i =>
    match i, h with
    | 0, h =>
      obtain ⟨hreads, hstep⟩ := Option.ite_none_right_eq_some.mp h
      exact ⟨hstep, fun _ => id, fun hr => absurd hr (ne_false_of_eq_true hreads)⟩
    | 1, h => cases h
    | 2, h =>
      obtain ⟨-, hstep⟩ := Option.ite_none_right_eq_some.mp h
      exact ⟨hstep, fun _ => id, fun _ => ⟨(by decide : 2 ≠ 2 + 1), fun _ _ => id⟩⟩
    | i + 3, h => cases h
  | send xs | close =>
    obtain ⟨-, hstep⟩ := Option.ite_none_right_eq_some.mp h
    exact ⟨hstep, fun _ => id, fun _ => ⟨trivial, fun _ _ => id⟩⟩
  | receive n | receiveEof =>
    exact ⟨h, fun _ => id, fun _ => ⟨trivial, fun _ _ => id⟩⟩

/-- The connection goes on behind the message, and out of the stream only after it. -/
theorem Line.flowStep (h : Line coming writes reads p) (hcoming : reads = true → coming = [])
    (hstep : flowStep writes reads connected p op = some p') : Line coming writes reads p' := by
  obtain ⟨hop, hwrites, hreads⟩ := flowStep_eq_some hstep
  refine h.step ?_ hwrites (fun hr => (hreads hr).2) hop
  cases hr : reads with
  | false => exact .inl (hreads hr).1
  | true => exact .inr (hcoming hr)

/-- A side that gives up. -/
theorem Line.lose {ends : Bool} {i : ℕ} (h : Line coming writes reads p) (hi : i ≠ 1)
    (hstep : p.step (.lose ends i) = some p') : Line coming writes reads p' := by
  refine h.step ?_ (fun _ => id) (fun _ _ _ => id) hstep
  exact .inl fun heq => hi (Nat.succ.inj heq).symm

/-- A byte of the message is behind the others, as long as the connection has not begun. -/
theorem Line.put {xs : List UInt8} (h : Line coming false reads p)
    (hput : p.putAt 2 xs = some p') : Line (coming ++ xs) false reads p' := by
  obtain ⟨flow, rfl, hinv, hlength, hcapacity, hunwritten, hunread⟩ := h
  have hempty : ∀ a ∈ flow.stations[2]?, a.held = [] := fun a ha => (hunwritten rfl a ha).1
  exact ⟨flow, Pipeline.putAt_preceded hempty hput, hinv, hlength, hcapacity, hunwritten, hunread⟩

/-- The first byte in the stream is that of the message. -/
theorem Line.pull {b b' : UInt8} (h : Line (b' :: coming) writes reads p)
    (hpull : p.pullAt 2 = some (b, p')) : b = b' ∧ Line coming writes reads p' := by
  obtain ⟨flow, hcarries⟩ := h
  rw [hcarries.eq] at hpull
  obtain ⟨rfl, rfl⟩ := Pipeline.pullAt_preceded hpull
  exact ⟨rfl, flow, { hcarries with eq := rfl }⟩

/-- Behind the message, there is nothing before the writing side relays. -/
theorem Line.pullAt_nil (h : Line [] false reads p) : p.pullAt 2 = none := by
  obtain ⟨flow, rfl, -, -, -, hunwritten, -⟩ := h
  rw [Pipeline.preceded_nil]
  exact Pipeline.pullAt_empty fun a ha => (hunwritten rfl a ha).1

/-- From now on one of the sides may relay. -/
theorem Line.weaken {writes' reads' : Bool} (h : Line coming writes reads p)
    (hwrites : writes' = false → writes = false) (hreads : reads' = false → reads = false) :
    Line coming writes' reads' p := by
  obtain ⟨flow, heq, hinv, hlength, hcapacity, hunwritten, hunread⟩ := h
  exact ⟨flow, heq, hinv, hlength, hcapacity, fun hw => hunwritten (hwrites hw),
    fun hr => hunread (hreads hr)⟩

/-! ## The messages in front

The opening in one direction and the answer in the other. What each side has read is a part of
what the other has written, so that the handler decides on the opening, and the opener goes on
only on a confirmation. -/

/-- The failures that the handler may answer with. -/
inductive Refusal (handler : Decoder ε (Decision δ)) (asked : List UInt8) : List UInt8 → Prop
  | connectFailed : Refusal handler asked Dssh.connectFailed
  | rejected {reasonCode : VarInt} {description : SshString} :
    handler.Accepts asked (.reject reasonCode description) →
      Refusal handler asked (PendingChannel.reject reasonCode description)

/-- What the opener still has to write; if it has failed, this may be anything. -/
def Opener.Unwritten : Opener → List UInt8 → Prop
  | opening rest, xs => xs = rest
  | refused _, _ => True
  | _, xs => xs = []

/-- What the opener has read of the answer. -/
def Opener.HasRead : Opener → List UInt8 → Prop
  | opening _, xs => xs = []
  | awaiting d, xs => readChannelOpenResponse.after xs = some d
  | relaying, xs => readChannelOpenResponse.Accepts xs ()
  | refused _, _ => True

/-- What the handler has read of the opening. -/
def Handler.HasRead (handler : Decoder ε (Decision δ)) : Handler ε δ → List UInt8 → Prop
  | reading d, xs => handler.after xs = some d
  | connecting endpoint, xs => handler.Accepts xs (.connect endpoint)
  | answering _ _, xs => ∃ decision, handler.Accepts xs decision
  | relaying, xs => ∃ decision, handler.Accepts xs decision
  | ended, _ => True

/-- What the handler has written of its answer, with the connections `l`. -/
def Handler.HasWritten (handler : Decoder ε (Decision δ)) (asked : List UInt8) (l : List δ) :
    Handler ε δ → List UInt8 → Prop
  | reading _, xs => xs = []
  | connecting _, xs => xs = []
  | answering true rest, xs => xs ++ rest = confirmation
  | answering false rest, xs => Refusal handler asked (xs ++ rest)
  | relaying, xs => xs = confirmation
  | ended, xs => xs = [] ∨
    ∃ rest, Refusal handler asked (xs ++ rest) ∨ xs ++ rest = confirmation ∧ l ≠ []

/-- The connections that the handler has made. -/
def Handler.HasConnected (handler : Decoder ε (Decision δ)) (asked : List UInt8) :
    Handler ε δ → List δ → Prop
  | reading _, l => l = []
  | connecting endpoint, l => l = [endpoint]
  | answering true _, l => ∃ endpoint, l = [endpoint] ∧ handler.Accepts asked (.connect endpoint)
  | relaying, l => ∃ endpoint, l = [endpoint] ∧ handler.Accepts asked (.connect endpoint)
  | _, l => l = [] ∨ ∃ endpoint, l = [endpoint] ∧ handler.Accepts asked (.connect endpoint)

/-- A confirmation is accepted. -/
theorem accepts_confirmation : readChannelOpenResponse.Accepts confirmation () := by
  refine Decoder.Accepts.bind (VarInt.accepts_encode _ _) ?_
  rw [if_pos rfl]
  exact Decoder.Accepts.bind (VarInt.accepts_encode _ _) rfl

/-- No part of a failure is a confirmation. -/
theorem not_accepts_reject {reasonCode : VarInt} {description : SshString} {xs ys : List UInt8}
    (h : xs ++ ys = PendingChannel.reject reasonCode description) :
    ¬ readChannelOpenResponse.Accepts xs () := by
  intro haccepts
  obtain ⟨us, vs, messageType, rfl, hkind, hrest⟩ := haccepts.of_bind
  have hfailure : (VarInt.decoder AwaitOpenError.decodeMessageType).Accepts
      sshMsgChannelOpenFailure.encode sshMsgChannelOpenFailure := VarInt.accepts_encode _ _
  have hbytes : us ++ (vs ++ ys) =
      sshMsgChannelOpenFailure.encode ++ (reasonCode.encode ++ description.encode) := by
    rw [← List.append_assoc, h]
    simp [PendingChannel.reject]
  obtain ⟨-, heq⟩ := Decoder.after_halted_unique hkind (Decoder.halted_done _) hfailure
    (Decoder.halted_done _) hbytes
  obtain rfl := Decoder.done.inj heq
  rw [if_neg (by decide), if_pos rfl] at hrest
  obtain ⟨_, _, _, -, -, hrest⟩ := hrest.of_bind
  obtain ⟨_, _, _, -, -, hrest⟩ := hrest.of_bind
  exact Decoder.not_accepts_fail hrest

/-- What has been read of a failure is not taken for a confirmation. -/
theorem Refusal.not_accepts {handler : Decoder ε (Decision δ)} {asked xs ys message : List UInt8}
    (h : Refusal handler asked message) (hmessage : xs ++ ys = message) :
    ¬ readChannelOpenResponse.Accepts xs () := by
  cases h with
  | connectFailed => exact not_accepts_reject hmessage
  | rejected => exact not_accepts_reject hmessage

/-- What the opener takes for a confirmation is the whole of one. -/
theorem Handler.HasWritten.confirmed {handler : Decoder ε (Decision δ)} {side : Handler ε δ}
    {asked answered answering : List UInt8} {l : List δ}
    (h : side.HasWritten handler asked l (answered ++ answering))
    (haccepts : readChannelOpenResponse.Accepts answered ()) :
    answered = confirmation ∧ answering = [] ∧
      (side = .answering true [] ∨ side = .relaying ∨ side = .ended ∧ l ≠ []) := by
  have key : ∀ {rest : List UInt8}, answered ++ answering ++ rest = confirmation →
      answered = confirmation ∧ answering = [] ∧ rest = [] := by
    intro rest hrest
    rw [List.append_assoc] at hrest
    obtain ⟨rfl, -⟩ := Decoder.after_halted_unique haccepts (Decoder.halted_done ())
      accepts_confirmation (Decoder.halted_done ()) (hrest.trans (List.append_nil _).symm)
    have hnil := List.append_right_eq_self.mp hrest
    exact ⟨rfl, List.append_eq_nil_iff.mp hnil⟩
  match side, h with
  | reading _, h =>
    obtain ⟨rfl, -⟩ := List.append_eq_nil_iff.mp h
    cases haccepts
  | connecting _, h =>
    obtain ⟨rfl, -⟩ := List.append_eq_nil_iff.mp h
    cases haccepts
  | .answering true rest, h =>
    obtain ⟨heq, hnil, rfl⟩ := key h
    exact ⟨heq, hnil, .inl rfl⟩
  | .answering false rest, h =>
    exact absurd haccepts (Refusal.not_accepts h (List.append_assoc answered answering rest).symm)
  | relaying, h =>
    obtain ⟨heq, hnil, -⟩ := @key [] ((List.append_nil _).trans h)
    exact ⟨heq, hnil, .inr (.inl rfl)⟩
  | ended, h =>
    obtain h | ⟨rest, h | ⟨h, hl⟩⟩ := h
    · obtain ⟨rfl, -⟩ := List.append_eq_nil_iff.mp h
      cases haccepts
    · exact absurd haccepts (Refusal.not_accepts h (List.append_assoc answered answering rest).symm)
    · obtain ⟨heq, hnil, -⟩ := key h
      exact ⟨heq, hnil, .inr (.inr ⟨rfl, hl⟩)⟩

/-! ## The invariant

Where both sides are, with what is in the stream between them. The cases are the places of the
two sides that can occur together, and each step leads from one of them to another. -/

/-- Where a tunnel is: `asked` of the opening has been read and `asking` is in the stream,
`answered` of the answer has been read and `answering` is in the other stream. -/
structure Place (opening : List UInt8) (handler : Decoder ε (Decision δ))
    (asked asking answered answering : List UInt8) (t : Tunnel ε δ) : Prop where
  /-- The question, then the bytes of the socket. -/
  up : Line asking t.opener.relays t.handler.relays t.up
  /-- The answer, then the bytes of the endpoint. -/
  down : Line answering t.handler.relays t.opener.relays t.down
  /-- What the opener has written of its question, and what it has yet to write. -/
  opening : ∃ rest, opening = asked ++ (asking ++ rest) ∧ t.opener.Unwritten rest
  /-- The handler has decoded what it has read. -/
  question : t.handler.HasRead handler asked
  /-- What it has written follows from that. -/
  answer : t.handler.HasWritten handler asked t.connects (answered ++ answering)
  /-- The opener has decoded what it has read. -/
  heard : t.opener.HasRead answered
  /-- The handler has connected to what it was asked for, and to nothing else. -/
  connects : t.handler.HasConnected handler asked t.connects

/-- The invariant of a tunnel. -/
def Inv (opening : List UInt8) (handler : Decoder ε (Decision δ)) (t : Tunnel ε δ) : Prop :=
  ∃ asked asking answered answering, Place opening handler asked asking answered answering t

variable {opening : List UInt8} {handler : Decoder ε (Decision δ)} {decision : Decision δ}
  {asked asking answered answering : List UInt8} {t t' : Tunnel ε δ}

/-- Nothing has been written or read. -/
theorem inv_init (opening : List UInt8) (handler : Decoder ε (Decision δ)) (up down : Windows) :
    Inv opening handler (machine opening handler up down).init :=
  ⟨[], [], [], [], Line.direction up, Line.direction down, ⟨opening, rfl, rfl⟩,
    Decoder.after_nil handler, rfl, rfl, rfl⟩

/-- A handler that has decided has read the opening, all of it and nothing else. -/
theorem Place.of_accepts {decision' : Decision δ}
    (h : Place opening handler asked asking answered answering t)
    (haccepts : handler.Accepts opening decision) (hasked : handler.Accepts asked decision') :
    decision' = decision ∧ asked = opening ∧ asking = [] ∧ t.opener.Unwritten [] := by
  obtain ⟨rest, hopening, hrest⟩ := h.opening
  obtain ⟨rfl, heq⟩ := Decoder.after_halted_unique hasked (Decoder.halted_done _) haccepts
    (Decoder.halted_done _) (hopening.symm.trans (List.append_nil _).symm)
  have hnil := List.append_right_eq_self.mp hopening.symm
  obtain ⟨rfl, rfl⟩ := List.append_eq_nil_iff.mp hnil
  exact ⟨Decoder.done.inj heq, rfl, rfl, hrest⟩

/-- The place of a handler that relays. -/
theorem Handler.relays_eq {side : Handler ε δ} (h : side.relays = true) : side = .relaying := by
  cases side with
  | relaying => rfl
  | _ => cases h

/-- The place of an opener that relays. -/
theorem Opener.relays_eq {side : Opener} (h : side.relays = true) : side = .relaying := by
  cases side with
  | relaying => rfl
  | _ => cases h

/-- The relay tasks of the handler find nothing of the opening in the stream, … -/
theorem Place.asking_eq (h : Place opening handler asked asking answered answering t)
    (haccepts : handler.Accepts opening decision) (hrelays : t.handler.relays = true) :
    asking = [] := by
  have hasked := h.question
  rw [Handler.relays_eq hrelays] at hasked
  obtain ⟨decision', hasked⟩ := hasked
  exact (h.of_accepts haccepts hasked).2.2.1

/-- … and those of the opener nothing of the answer. -/
theorem Place.answering_eq (h : Place opening handler asked asking answered answering t)
    (hrelays : t.opener.relays = true) : answering = [] := by
  have hanswered := h.heard
  rw [Opener.relays_eq hrelays] at hanswered
  exact (h.answer.confirmed hanswered).2.1

/-- There is at most one connection, and the opening has been read before it is made. -/
theorem Place.connections (h : Place opening handler asked asking answered answering t) :
    t.connects = [] ∨ ∃ endpoint, t.connects = [endpoint] ∧
      handler.Accepts asked (.connect endpoint) := by
  have hconnects := h.connects
  have hquestion := h.question
  match hside : t.handler with
  | .reading _ =>
    rw [hside] at hconnects
    exact .inl hconnects
  | .connecting endpoint =>
    rw [hside] at hconnects hquestion
    exact .inr ⟨endpoint, hconnects, hquestion⟩
  | .answering true _ =>
    rw [hside] at hconnects
    exact .inr hconnects
  | .answering false _ =>
    rw [hside] at hconnects
    exact hconnects
  | .relaying =>
    rw [hside] at hconnects
    exact .inr hconnects
  | .ended =>
    rw [hside] at hconnects
    exact hconnects

/-- Bytes go on, towards the handler … -/
theorem Place.step_up (h : Place opening handler asked asking answered answering t)
    (haccepts : handler.Accepts opening decision) {up : Pipeline UInt8}
    (hstep : flowStep t.opener.relays t.handler.relays connected t.up op = some up) :
    Place opening handler asked asking answered answering { t with up := up } :=
  { h with up := h.up.flowStep (fun hrelays => h.asking_eq haccepts hrelays) hstep }

/-- … and back. -/
theorem Place.step_down (h : Place opening handler asked asking answered answering t)
    {down : Pipeline UInt8}
    (hstep : flowStep t.handler.relays t.opener.relays connected t.down op = some down) :
    Place opening handler asked asking answered answering { t with down := down } :=
  { h with down := h.down.flowStep h.answering_eq hstep }

/-- The opener gives up. -/
theorem Place.opener_fails {e : Option AwaitOpenError} {endsUp endsDown : Bool}
    (h : Place opening handler asked asking answered answering t)
    (hrelays : t.opener.relays = false) (hstep : t.dropOpener e endsUp endsDown = some t') :
    Place opening handler asked asking answered answering t' := by
  obtain ⟨up, hup, hstep⟩ := Option.bind_eq_some_iff.mp hstep
  obtain ⟨down, hdown, rfl⟩ := Option.map_eq_some_iff.mp hstep
  obtain ⟨rest, hopening, -⟩ := h.opening
  have hup' := h.up.lose (by decide) hup
  have hdown' := h.down.lose (by decide) hdown
  rw [hrelays] at hup' hdown'
  exact { h with
    up := hup'
    down := hdown'
    opening := ⟨rest, hopening, trivial⟩
    heard := trivial }

/-- What a handler that gives up has written is what it had written. -/
theorem Handler.HasWritten.ended {side : Handler ε δ} {xs : List UInt8} {l : List δ}
    (h : side.HasWritten handler asked l xs) (hconnects : side.HasConnected handler asked l) :
    (Handler.ended : Handler ε δ).HasWritten handler asked l xs := by
  have hne : (∃ endpoint, l = [endpoint] ∧ handler.Accepts asked (.connect endpoint)) → l ≠ [] := by
    rintro ⟨endpoint, rfl, -⟩
    exact List.cons_ne_nil _ _
  match side, h with
  | .reading _, h => exact .inl h
  | .connecting _, h => exact .inl h
  | .answering true rest, h => exact .inr ⟨rest, .inr ⟨h, hne hconnects⟩⟩
  | .answering false rest, h => exact .inr ⟨rest, .inl h⟩
  | .relaying, h => exact .inr ⟨[], .inr ⟨(List.append_nil xs).trans h, hne hconnects⟩⟩
  | .ended, h => exact h

/-- The handler gives up. -/
theorem Place.handler_fails {endsUp endsDown : Bool}
    (h : Place opening handler asked asking answered answering t)
    (hrelays : t.handler.relays = false) (hstep : t.dropHandler endsUp endsDown = some t') :
    Place opening handler asked asking answered answering t' := by
  obtain ⟨up, hup, hstep⟩ := Option.bind_eq_some_iff.mp hstep
  obtain ⟨down, hdown, rfl⟩ := Option.map_eq_some_iff.mp hstep
  have hup' := h.up.lose (by decide) hup
  have hdown' := h.down.lose (by decide) hdown
  rw [hrelays] at hup' hdown'
  exact { h with
    up := hup', down := hdown', question := trivial, answer := h.answer.ended h.connects,
    connects := h.connections }

/-- Some of the opening is written. -/
theorem Place.opener_writes {rest : List UInt8} {up : Pipeline UInt8} {n : ℕ}
    (h : Place opening handler asked asking answered answering t)
    (hopener : t.opener = .opening rest) (hput : t.up.putAt 2 (rest.take n) = some up) :
    Place opening handler asked (asking ++ rest.take n) answered answering
      { t with opener := .opening (rest.drop n), up := up } := by
  obtain ⟨rest', hopening, hrest⟩ := h.opening
  have hup := h.up
  have hdown := h.down
  have hheard := h.heard
  rw [hopener] at hrest hup hdown hheard
  obtain rfl : rest' = rest := hrest
  refine { h with
    up := hup.put hput
    down := hdown
    opening := ⟨rest'.drop n, ?_, rfl⟩
    heard := hheard }
  rw [List.append_assoc, List.take_append_drop, hopening]

/-- The opening has been written, and the answer is awaited. -/
theorem Place.opener_flushes (h : Place opening handler asked asking answered answering t)
    (hopener : t.opener = .opening []) :
    Place opening handler asked asking answered answering
      { t with opener := .awaiting readChannelOpenResponse } := by
  obtain ⟨rest, hopening, hrest⟩ := h.opening
  have hup := h.up
  have hdown := h.down
  have hheard := h.heard
  rw [hopener] at hrest hup hdown hheard
  obtain rfl : rest = [] := hrest
  obtain rfl : answered = [] := hheard
  exact { h with
    up := hup, down := hdown, opening := ⟨[], hopening, rfl⟩, heard := Decoder.after_nil _ }

/-- An opener that wants to read on finds nothing but the answer, also when the connection is behind
it. -/
theorem Place.opener_reads {io : AwaitOpenError}
    {k : UInt8 → Decoder AwaitOpenError Unit} {b : UInt8}
    {down : Pipeline UInt8} (h : Place opening handler asked asking answered answering t)
    (hopener : t.opener = .awaiting (.read io k)) (hpull : t.down.pullAt 2 = some (b, down)) :
    ∃ answering', Place opening handler asked asking (answered ++ [b]) answering'
      { t with opener := .awaiting (k b), down := down } := by
  obtain ⟨rest, hopening, hrest⟩ := h.opening
  have hup := h.up
  have hdown := h.down
  have hheard := h.heard
  rw [hopener] at hrest hup hdown hheard
  cases answering with
  | nil =>
    cases hrelays : t.handler.relays with
    | false =>
      rw [hrelays] at hdown
      rw [hdown.pullAt_nil] at hpull
      cases hpull
    | true =>
      -- then the whole answer has been read, and nobody reads on
      have hanswer := h.answer
      rw [Handler.relays_eq hrelays, List.append_nil] at hanswer
      obtain rfl : answered = confirmation := hanswer
      have hdone := accepts_confirmation.symm.trans hheard
      cases hdone
  | cons b' answering =>
    obtain ⟨rfl, hdown'⟩ := hdown.pull hpull
    refine ⟨answering, { h with
      up := hup, down := hdown', opening := ⟨rest, hopening, hrest⟩, answer := ?_,
      heard := Decoder.after_snoc hheard b }⟩
    rw [List.append_assoc]
    exact h.answer

/-- The answer is a confirmation. -/
theorem Place.opener_relays (h : Place opening handler asked asking answered answering t)
    (hopener : t.opener = .awaiting (.done ())) :
    Place opening handler asked asking answered answering { t with opener := .relaying } := by
  obtain ⟨rest, hopening, hrest⟩ := h.opening
  have hheard := h.heard
  rw [hopener] at hrest hheard
  exact { h with
    up := h.up.weaken nofun id, down := h.down.weaken id nofun, opening := ⟨rest, hopening, hrest⟩,
    heard := hheard }

/-- The opener does not relay while the handler reads or connects. -/
theorem Place.not_relays (h : Place opening handler asked asking answered answering t)
    (hside : t.handler.HasWritten handler asked t.connects (answered ++ answering) →
      answered ++ answering = []) : t.opener.relays = false := by
  obtain ⟨rfl, -⟩ := List.append_eq_nil_iff.mp (hside h.answer)
  cases hrelays : t.opener.relays with
  | false => rfl
  | true =>
    have hheard := h.heard
    rw [Opener.relays_eq hrelays] at hheard
    cases hheard

/-- A byte of the opening is read. -/
theorem Place.handler_reads {io : ε} {k : UInt8 → Decoder ε (Decision δ)} {b : UInt8}
    {up : Pipeline UInt8} (h : Place opening handler asked asking answered answering t)
    (hhandler : t.handler = .reading (.read io k)) (hpull : t.up.pullAt 2 = some (b, up)) :
    ∃ asking', Place opening handler (asked ++ [b]) asking' answered answering
      { t with handler := .reading (k b), up := up } := by
  have hrelays : t.opener.relays = false := h.not_relays (by rw [hhandler]; exact id)
  obtain ⟨hup, hdown, ⟨rest, hopening, hrest⟩, hquestion, hanswer, hheard, hconnects⟩ := h
  rw [hhandler] at hup hdown hquestion hanswer hconnects
  cases asking with
  | nil =>
    rw [hrelays] at hup
    rw [hup.pullAt_nil] at hpull
    cases hpull
  | cons b' asking =>
    obtain ⟨rfl, hup'⟩ := hup.pull hpull
    refine ⟨asking, hup', hdown, ⟨rest, ?_, hrest⟩, Decoder.after_snoc hquestion b, hanswer, hheard,
      hconnects⟩
    simpa using hopening

/-- The opening has been read, and the decision is to connect. -/
theorem Place.handler_connects {endpoint : δ}
    (h : Place opening handler asked asking answered answering t)
    (hhandler : t.handler = .reading (.done (.connect endpoint))) :
    Place opening handler asked asking answered answering
      { t with handler := .connecting endpoint, connects := t.connects ++ [endpoint] } := by
  obtain ⟨hup, hdown, hopening, hquestion, hanswer, hheard, hconnects⟩ := h
  rw [hhandler] at hup hdown hquestion hanswer hconnects
  refine ⟨hup, hdown, hopening, hquestion, hanswer, hheard, ?_⟩
  rw [show t.connects = [] from hconnects, List.nil_append]
  exact rfl

/-- The decision is to refuse. -/
theorem Place.handler_rejects {reasonCode : VarInt} {description : SshString}
    (h : Place opening handler asked asking answered answering t)
    (hhandler : t.handler = .reading (.done (.reject reasonCode description))) :
    Place opening handler asked asking answered answering
      { t with handler := .answering false (PendingChannel.reject reasonCode description) } := by
  obtain ⟨hup, hdown, hopening, hquestion, hanswer, hheard, hconnects⟩ := h
  rw [hhandler] at hup hdown hquestion hanswer hconnects
  refine ⟨hup, hdown, hopening, ⟨_, hquestion⟩, ?_, hheard, .inl hconnects⟩
  rw [show answered ++ answering = [] from hanswer]
  exact .rejected hquestion

/-- The target has answered, or cannot be connected to. -/
theorem Place.handler_answers {endpoint : δ} {ok : Bool}
    (h : Place opening handler asked asking answered answering t)
    (hhandler : t.handler = .connecting endpoint) :
    Place opening handler asked asking answered answering
      { t with handler := .answering ok (if ok then confirmation else connectFailed) } := by
  obtain ⟨hup, hdown, hopening, hquestion, hanswer, hheard, hconnects⟩ := h
  rw [hhandler] at hup hdown hquestion hanswer hconnects
  cases ok with
  | true =>
    refine ⟨hup, hdown, hopening, ⟨_, hquestion⟩, ?_, hheard, endpoint, hconnects, hquestion⟩
    rw [show answered ++ answering = [] from hanswer]
    exact rfl
  | false =>
    refine ⟨hup, hdown, hopening, ⟨_, hquestion⟩, ?_, hheard, .inr ⟨endpoint, hconnects, hquestion⟩⟩
    rw [show answered ++ answering = [] from hanswer]
    exact .connectFailed

/-- Some of the answer is written. -/
theorem Place.handler_writes {ok : Bool} {rest : List UInt8} {down : Pipeline UInt8} {n : ℕ}
    (h : Place opening handler asked asking answered answering t)
    (hhandler : t.handler = .answering ok rest) (hput : t.down.putAt 2 (rest.take n) = some down) :
    Place opening handler asked asking answered (answering ++ rest.take n)
      { t with handler := .answering ok (rest.drop n), down := down } := by
  obtain ⟨hup, hdown, hopening, hquestion, hanswer, hheard, hconnects⟩ := h
  rw [hhandler] at hup hdown hquestion hanswer hconnects
  have hmessage : answered ++ (answering ++ rest.take n) ++ rest.drop n =
      answered ++ answering ++ rest := by simp
  cases ok with
  | true =>
    exact ⟨hup, hdown.put hput, hopening, hquestion, hmessage.trans hanswer, hheard, hconnects⟩
  | false =>
    refine ⟨hup, hdown.put hput, hopening, hquestion, ?_, hheard, hconnects⟩
    rw [Handler.HasWritten, hmessage]
    exact hanswer

/-- A confirmation has been written. -/
theorem Place.handler_relays (h : Place opening handler asked asking answered answering t)
    (hhandler : t.handler = .answering true []) :
    Place opening handler asked asking answered answering { t with handler := .relaying } := by
  obtain ⟨hup, hdown, hopening, hquestion, hanswer, hheard, hconnects⟩ := h
  rw [hhandler] at hquestion hanswer hconnects
  exact ⟨hup.weaken id nofun, hdown.weaken nofun id, hopening, hquestion,
    (List.append_nil _).symm.trans hanswer, hheard, hconnects⟩

/-- **Every step keeps the invariant**, whatever the handler decides about the opening. -/
theorem Inv.step {a : Action} (haccepts : handler.Accepts opening decision)
    (hI : Inv opening handler t) (hstep : t.step a = some t') : Inv opening handler t' := by
  obtain ⟨asked, asking, answered, answering, hI⟩ := hI
  cases a with
  | up op =>
    obtain ⟨up, hup, rfl⟩ := Option.map_eq_some_iff.mp hstep
    exact ⟨asked, asking, answered, answering, hI.step_up haccepts hup⟩
  | down op =>
    obtain ⟨down, hdown, rfl⟩ := Option.map_eq_some_iff.mp hstep
    exact ⟨asked, asking, answered, answering, hI.step_down hdown⟩
  | openerWrites n =>
    simp only [Tunnel.step] at hstep
    split at hstep
    case h_1 rest hopener =>
      obtain ⟨-, hstep⟩ := Option.ite_none_right_eq_some.mp hstep
      obtain ⟨up, hup, rfl⟩ := Option.map_eq_some_iff.mp hstep
      exact ⟨_, _, _, _, hI.opener_writes hopener hup⟩
    case h_2 => cases hstep
  | openerFlushes =>
    simp only [Tunnel.step] at hstep
    split at hstep
    case h_1 hopener =>
      obtain rfl := Option.some.inj hstep
      exact ⟨_, _, _, _, hI.opener_flushes hopener⟩
    case h_2 => cases hstep
  | openerReads =>
    simp only [Tunnel.step] at hstep
    split at hstep
    case h_1 io k hopener =>
      obtain ⟨⟨b, down⟩, hpull, rfl⟩ := Option.map_eq_some_iff.mp hstep
      obtain ⟨answering', hI⟩ := hI.opener_reads hopener hpull
      exact ⟨_, _, _, _, hI⟩
    case h_2 hopener =>
      obtain rfl := Option.some.inj hstep
      exact ⟨_, _, _, _, hI.opener_relays hopener⟩
    case h_3 => cases hstep
  | openerFails endsUp endsDown =>
    have key : ∀ e, t.opener.relays = false → t.dropOpener e endsUp endsDown = some t' →
        Inv opening handler t' := fun e hrelays hdrop =>
      ⟨_, _, _, _, hI.opener_fails hrelays hdrop⟩
    simp only [Tunnel.step] at hstep
    split at hstep
    case h_1 hopener => exact key none (by rw [hopener]; rfl) hstep
    case h_2 io _ hopener => exact key (some io) (by rw [hopener]; rfl) hstep
    case h_3 e hopener => exact key (some e) (by rw [hopener]; rfl) hstep
    case h_4 => cases hstep
  | handlerReads =>
    simp only [Tunnel.step] at hstep
    split at hstep
    case h_1 io k hhandler =>
      obtain ⟨⟨b, up⟩, hpull, rfl⟩ := Option.map_eq_some_iff.mp hstep
      obtain ⟨asking', hI⟩ := hI.handler_reads hhandler hpull
      exact ⟨_, _, _, _, hI⟩
    case h_2 endpoint hhandler =>
      obtain rfl := Option.some.inj hstep
      exact ⟨_, _, _, _, hI.handler_connects hhandler⟩
    case h_3 reasonCode description hhandler =>
      obtain rfl := Option.some.inj hstep
      exact ⟨_, _, _, _, hI.handler_rejects hhandler⟩
    case h_4 => cases hstep
  | connected ok =>
    simp only [Tunnel.step] at hstep
    split at hstep
    case h_1 endpoint hhandler =>
      obtain rfl := Option.some.inj hstep
      exact ⟨_, _, _, _, hI.handler_answers hhandler⟩
    case h_2 => cases hstep
  | handlerWrites n =>
    simp only [Tunnel.step] at hstep
    split at hstep
    case h_1 ok rest hhandler =>
      obtain ⟨-, hstep⟩ := Option.ite_none_right_eq_some.mp hstep
      obtain ⟨down, hdown, rfl⟩ := Option.map_eq_some_iff.mp hstep
      exact ⟨_, _, _, _, hI.handler_writes hhandler hdown⟩
    case h_2 => cases hstep
  | handlerFlushes =>
    simp only [Tunnel.step] at hstep
    split at hstep
    case h_1 hhandler =>
      obtain rfl := Option.some.inj hstep
      exact ⟨_, _, _, _, hI.handler_relays hhandler⟩
    case h_2 => cases hstep
  | handlerFails endsUp endsDown =>
    simp only [Tunnel.step] at hstep
    split at hstep
    case h_1 => cases hstep
    case h_2 => cases hstep
    case h_3 hrelaying hended =>
      refine ⟨_, _, _, _, hI.handler_fails ?_ hstep⟩
      cases hside : t.handler with
      | relaying => exact absurd hside hrelaying
      | _ => rfl

/-- In every reachable state. -/
theorem inv {up down : Windows} (haccepts : handler.Accepts opening decision)
    (ht : (machine opening handler up down).Reachable t) : Inv opening handler t :=
  ht.invariant (inv_init opening handler up down) fun _ hI _ hstep => hI.step haccepts hstep

/-! ## What a tunnel is for

The statement for somebody who only sees the two ends. It follows from the invariant by what the
library says about pipelines. -/

/-- A direction delivers what is sent, in order and only that, and the end behind it. -/
structure Delivers (p : Pipeline UInt8) : Prop where
  /-- In order, none lost, doubled or invented. -/
  received : p.received <+: p.sent
  /-- The end is told only behind all of them, and only when the source has ended. -/
  eof : Whole p.stations → p.eof = true → p.received = p.sent ∧ Closed p.stations

/-- A tunnel for an opening about which the handler decides so: both directions deliver, the only
connection made is the one decided on, and nothing is delivered without it. -/
structure Transparent (t : Tunnel ε δ) (decision : Decision δ) : Prop where
  /-- From the client of the forwarding to the endpoint. -/
  up : Delivers t.up
  /-- From the endpoint to its client. -/
  down : Delivers t.down
  /-- At most one connection, to the endpoint that was decided on. -/
  connects : t.connects = [] ∨ ∃ endpoint, decision = .connect endpoint ∧ t.connects = [endpoint]
  /-- Without a connection, neither side hears anything. -/
  unconnected : t.connects = [] → t.up.received = [] ∧ t.down.received = []

/-- A direction delivers, whatever is in front of it. -/
theorem Line.delivers (h : Line coming writes reads p) : Delivers p := by
  obtain ⟨flow, rfl, hinv, -⟩ := h
  refine ⟨hinv.received_isPrefix, fun hw heof => ?_⟩
  obtain ⟨hreceived, hclosed⟩ := hinv.of_eof (whole_precede.mp hw) heof
  exact ⟨hreceived, closed_precede.mpr hclosed⟩

/-- Nothing arrives before the reading side relays. -/
theorem Line.received_eq_nil (h : Line coming writes false p) : p.received = [] := by
  obtain ⟨flow, rfl, -, -, -, -, hunread⟩ := h
  exact (hunread rfl).2

/-- **Transparency**, in every run. -/
theorem Inv.transparent (haccepts : handler.Accepts opening decision) (hI : Inv opening handler t) :
    Transparent t decision := by
  obtain ⟨asked, asking, answered, answering, h⟩ := hI
  refine ⟨h.up.delivers, h.down.delivers, ?_, fun hnil => ⟨?_, ?_⟩⟩
  · rcases h.connections with hnil | ⟨endpoint, heq, hasked⟩
    · exact .inl hnil
    · exact .inr ⟨endpoint, (h.of_accepts haccepts hasked).1.symm, heq⟩
  · have hup := h.up
    have hconnects := h.connects
    cases hside : t.handler with
    | relaying =>
      rw [hside, hnil] at hconnects
      obtain ⟨endpoint, heq, -⟩ := hconnects
      cases heq
    | _ =>
      rw [hside] at hup
      exact hup.received_eq_nil
  · have hdown := h.down
    cases hrelays : t.opener.relays with
    | false =>
      rw [hrelays] at hdown
      exact hdown.received_eq_nil
    | true =>
      -- the opener has a confirmation, which is only written about a connection
      have hheard := h.heard
      have hconnects := h.connects
      rw [Opener.relays_eq hrelays] at hheard
      rw [hnil] at hconnects
      obtain ⟨-, -, hside | hside | ⟨-, hne⟩⟩ := h.answer.confirmed hheard
      · rw [hside] at hconnects
        obtain ⟨endpoint, heq, -⟩ := hconnects
        cases heq
      · rw [hside] at hconnects
        obtain ⟨endpoint, heq, -⟩ := hconnects
        cases heq
      · exact absurd hnil hne

end Tunnel

end Dssh
