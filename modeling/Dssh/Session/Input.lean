import Dssh.Channel.Message
import Dssh.Lib.Loop

/-!
# Relaying the input of a process

`relay_input_piped` and `relay_input_pty`: data goes to the process, signals are delivered, and
for a terminal changes of the window size are applied. The two differ in the notices they
handle. A notice that is not handled ends the relay, as its payload cannot be skipped; so does a
request that wants a reply, which the reader half of a channel refuses.

## One loop for both

The source has the loop twice, with another handler of notices. `turn` is the loop with `Mode`
as its parameter, and `handlePipedNotice` and `handlePtyNotice` are the two handlers. What the
relay does is kept as lists: the bytes that have been written to the process, the names of the
signals, and the sizes. The process takes everything it is given, and signals and sizes have
their effect elsewhere.

The relay is also stopped from outside, when the process has ended. This is a race with
everything it does, and it is in `Stop`. Here nobody stops it.

## Which messages end it

`ends` is a predicate on messages, for each mode. What is not handled ends the relay for a good
reason: the payload of a notice has no length of its own, so a notice of an unknown type cannot
be skipped, and the stream cannot be read any further. Without a terminal, a change of the
window size is such a notice. The handler for pipes says so in its comment. Data that the client
sends behind it is lost.

Extended data is the exception. The arm for other events drops it, although its payload has a
length and could be drained. What follows in the stream is then the payload, taken for a
message. `Undrained` names these messages, and the main result is about sequences without them.
A client of this kind sends none.

## How it is stated

`input_relayed` is for any sequence of messages and either mode. In front of the first message
that ends the relay, each message is read to its end, by the decoder of its kind and to the
byte, and has had its effect when the next one is looked at. The boundaries are those of the
writer.

## Main definitions

* `InputRelay`, `InputRelay.turn`, `relayInput` — the relay
* `InputRelay.ends`, `InputRelay.Undrained` — the messages at which it ends or goes wrong
* `InputRelay.relayed` — the messages in front of the first one that ends it

## Main results

* `InputRelay.relayInput_isSome` — a relay ends on every stream that does
* `InputRelay.turn_again`, `InputRelay.turn_stop` — the messages that are relayed, and those
  that end the relay
* `InputRelay.input_relayed` — what is relayed of a sequence of messages
-/

namespace Dssh

/-! ## The loop

The two relays differ in the notices that they handle. They are one loop with the mode as a
parameter, and the functions of the source are its two instances. -/

/-- What an input relay has done. -/
structure InputRelay where
  /-- The bytes written to the standard input of the process, or to the master of its terminal. -/
  stdin : List UInt8 := []
  /-- The names given to `deliver_to_pid`. -/
  signals : List SshString := []
  /-- The sizes given to `set_window_size_raw`. -/
  resizes : List WindowChangeRequest := []
  deriving DecidableEq

namespace InputRelay

/-- `handle_piped_notice`: whether to go on, and what is left of the stream. -/
def handlePipedNotice (s : InputRelay) (requestType : SshString) (rest : List UInt8) :
    Bool × InputRelay × List UInt8 :=
  match requestType with
  | "signal" =>
    match SignalRequest.decoder.outcome rest with
    | (.ok req, rest) => (true, { s with signals := s.signals ++ [req.signalName] }, rest)
    | (.error _, rest) => (false, s, rest)
  | _ => (false, s, rest)

/-- `handle_pty_notice`. -/
def handlePtyNotice (s : InputRelay) (requestType : SshString) (rest : List UInt8) :
    Bool × InputRelay × List UInt8 :=
  match requestType with
  | "signal" =>
    match SignalRequest.decoder.outcome rest with
    | (.ok req, rest) => (true, { s with signals := s.signals ++ [req.signalName] }, rest)
    | (.error _, rest) => (false, s, rest)
  | "window-change" =>
    match WindowChangeRequest.decoder.outcome rest with
    | (.ok req, rest) => (true, { s with resizes := s.resizes ++ [req] }, rest)
    | (.error _, rest) => (false, s, rest)
  | _ => (false, s, rest)

/-- How the process reads its input. -/
inductive Mode where
  | piped
  | pty
  deriving DecidableEq

/-- What a relay does with a notice. -/
def Mode.handleNotice (mode : Mode) (s : InputRelay) (requestType : SshString)
    (rest : List UInt8) : Bool × InputRelay × List UInt8 :=
  match mode with
  | piped => handlePipedNotice s requestType rest
  | pty => handlePtyNotice s requestType rest

/-- What follows an event, when the process takes its input. -/
def onEvent (mode : Mode) (s : InputRelay) (rest : List UInt8) :
    ReaderEvent → Turn InputRelay InputRelay
  | .data n => .again { s with stdin := s.stdin ++ rest.take n } (rest.drop n)
  | .notice requestType =>
    match mode.handleNotice s requestType rest with
    | (true, s', rest') => .again s' rest'
    | (false, s', rest') => .stop s' rest'
  | .eof => .stop s rest
  | .close => .stop s rest
  -- the contents of extended data are left on the stream
  | .extendedData _ _ => .again s rest
  | .success => .again s rest
  | .failure => .again s rest

/-- One turn of the loop, when nobody stops the relay. -/
def turn (mode : Mode) (s : InputRelay) (bs : List UInt8) : Turn InputRelay InputRelay :=
  match SshChannelReader.nextEvent.outcome bs with
  | (.ok event, rest) => onEvent mode s rest event
  | (.error _, rest) => .stop s rest

end InputRelay

/-- An input relay on a stream: what it has done when it ends, and what is left of the stream. -/
def relayInput (mode : InputRelay.Mode) (bs : List UInt8) : Option (InputRelay × List UInt8) :=
  Loop.run (InputRelay.turn mode) {} bs

/-- `relay_input_piped` on a stream. -/
def relayInputPiped : List UInt8 → Option (InputRelay × List UInt8) := relayInput .piped

/-- `relay_input_pty` on a stream. -/
def relayInputPty : List UInt8 → Option (InputRelay × List UInt8) := relayInput .pty

namespace InputRelay

/-- A handler only takes away from the stream. -/
theorem length_handleNotice_le {mode : Mode} {s s' : InputRelay} {requestType : SshString}
    {rest rest' : List UInt8} {b : Bool}
    (h : mode.handleNotice s requestType rest = (b, s', rest')) :
    rest'.length ≤ rest.length := by
  cases mode with
  | piped =>
    rw [Mode.handleNotice, handlePipedNotice.eq_def] at h
    split at h
    · split at h <;>
        (rename_i hd; obtain ⟨-, -, rfl⟩ := h; exact Decoder.length_le_of_outcome hd)
    · obtain ⟨-, -, rfl⟩ := h
      exact Nat.le_refl _
  | pty =>
    rw [Mode.handleNotice, handlePtyNotice.eq_def] at h
    split at h
    · split at h <;>
        (rename_i hd; obtain ⟨-, -, rfl⟩ := h; exact Decoder.length_le_of_outcome hd)
    · split at h <;>
        (rename_i hd; obtain ⟨-, -, rfl⟩ := h; exact Decoder.length_le_of_outcome hd)
    · obtain ⟨-, -, rfl⟩ := h
      exact Nat.le_refl _

/-- Whatever follows an event, it only takes away from the stream. -/
theorem length_onEvent_le {mode : Mode} {s s' : InputRelay} {rest rest' : List UInt8}
    {event : ReaderEvent} (h : onEvent mode s rest event = .again s' rest') :
    rest'.length ≤ rest.length := by
  cases event with
  | data n =>
    obtain ⟨-, rfl⟩ := Turn.again.inj h
    simp
  | notice requestType =>
    rw [onEvent] at h
    split at h
    · rename_i hnotice
      obtain ⟨-, rfl⟩ := Turn.again.inj h
      exact length_handleNotice_le hnotice
    · cases h
  | eof | close => cases h
  | extendedData | success | failure =>
    obtain ⟨-, rfl⟩ := Turn.again.inj h
    exact Nat.le_refl _

/-- A turn that goes on has read something. -/
theorem consumes_turn (mode : Mode) : Loop.Consumes (turn mode) := by
  intro s bs s' rest h
  rw [turn] at h
  split at h
  · rename_i hout
    exact lt_of_le_of_lt (length_onEvent_le h)
      (Decoder.length_outcome_lt SshChannelReader.not_halted_nextEvent hout)
  · cases h

/-- **The relay ends**, whatever is on the stream. -/
theorem relayInput_isSome (mode : Mode) (bs : List UInt8) : (relayInput mode bs).isSome :=
  Loop.run_isSome (consumes_turn mode) {} bs

/-! ## Messages

Message by message: some are relayed, and one of some others ends the relay. A signal is a notice
in both modes, a new size in one of them. -/

/-- The messages that end a relay: EOF and close, a request that wants a reply, a notice that the
relay does not handle, and a signal whose name is too long. -/
def ends (mode : Mode) : ChannelMessage → Bool
  | .request _ true => true
  | .request (.signal r) false => decide (maxRemoteFieldSize < r.signalName.utf8.length)
  | .request (.windowChange _) false => decide (mode = .piped)
  | .request _ false => true
  | .eof => true
  | .close => true
  | _ => false

/-- Extended data with contents, which no relay reads. -/
def Undrained (m : ChannelMessage) : Prop :=
  ∃ dataType bytes, m = .extendedData dataType bytes ∧ bytes ≠ []

/-- What a message that is relayed does. -/
def next (s : InputRelay) : ChannelMessage → InputRelay
  | .data bytes => { s with stdin := s.stdin ++ bytes }
  | .request (.signal r) _ => { s with signals := s.signals ++ [r.signalName] }
  | .request (.windowChange r) _ => { s with resizes := s.resizes ++ [r] }
  | _ => s

variable {mode : Mode}

/-- Both modes deliver signals. -/
theorem handleNotice_signal {r : SignalRequest} (h : Wire.Bounded r) (s : InputRelay)
    (rest : List UInt8) : mode.handleNotice s "signal" (Wire.encode r ++ rest) =
      (true, { s with signals := s.signals ++ [r.signalName] }, rest) := by
  have hpayload : SignalRequest.decoder.Accepts (Wire.encode r) r := LawfulWire.inverts.accepts h
  cases mode <;>
    simp only [Mode.handleNotice, handlePipedNotice, handlePtyNotice, hpayload.outcome]

/-- A name that is too long is refused. -/
theorem handleNotice_longSignal (mode : Mode) {r : SignalRequest}
    (hencodable : Wire.Encodable r) (h : ¬ Wire.Bounded r) (s : InputRelay) (rest : List UInt8) :
    ∃ rest', mode.handleNotice s "signal" (Wire.encode r ++ rest) = (false, s, rest') := by
  obtain ⟨e, rest', hout⟩ := (SignalRequest.refuses hencodable h).outcome rest
  have hout' : SignalRequest.decoder.outcome (Wire.encode r ++ rest) = (.error e, rest') := hout
  refine ⟨rest', ?_⟩
  cases mode <;> simp only [Mode.handleNotice, handlePipedNotice, handlePtyNotice, hout']

/-- With a terminal, sizes are applied. -/
theorem handleNotice_windowChange (r : WindowChangeRequest) (s : InputRelay) (rest : List UInt8) :
    Mode.pty.handleNotice s "window-change" (Wire.encode r ++ rest) =
      (true, { s with resizes := s.resizes ++ [r] }, rest) := by
  have hpayload : WindowChangeRequest.decoder.Accepts (Wire.encode r) r :=
    LawfulWire.inverts.accepts ⟨nofun, nofun⟩
  simp only [Mode.handleNotice, handlePtyNotice, hpayload.outcome]

/-- The event that the relay gets for a message, if it gets one. -/
theorem turn_eq {m : ChannelMessage} (hm : m.Writable) {event : ReaderEvent}
    (hevent : m.event.toReader = .done event) (s : InputRelay) (rest : List UInt8) :
    turn mode s (m.head ++ m.body ++ rest) = onEvent mode s (m.body ++ rest) event := by
  rw [List.append_assoc, turn, (ChannelMessage.accepts_head_reader hm hevent).outcome]

/-- **A message that is relayed.** -/
theorem turn_again {m : ChannelMessage} (hm : m.Complete) (hends : ends mode m = false)
    (hdrained : ¬ Undrained m) (s : InputRelay) (rest : List UInt8) :
    turn mode s (m.head ++ m.body ++ rest) = .again (next s m) rest := by
  cases m with
  | data bytes =>
    rw [turn_eq hm.1 rfl, onEvent, ChannelMessage.body, List.take_left, List.drop_left]
    rfl
  | extendedData dataType bytes =>
    obtain rfl : bytes = [] := by
      by_contra hbytes
      exact hdrained ⟨dataType, bytes, rfl, hbytes⟩
    exact turn_eq hm.1 rfl s rest
  | success | failure => exact turn_eq hm.1 rfl s rest
  | eof | close => cases hends
  | request rq wantReply =>
    cases wantReply with
    | true => cases hends
    | false =>
      rw [turn_eq hm.1 rfl, onEvent]
      cases rq with
      | signal r =>
        have hbounded : Wire.Bounded r := by
          rw [SignalRequest.bounded_iff]
          simpa [ends] using hends
        simp only [SessionRequest.requestType, ChannelMessage.body, SessionRequest.payload,
          handleNotice_signal hbounded]
        rfl
      | windowChange r =>
        obtain rfl : mode = .pty := by
          cases mode with
          | pty => rfl
          | piped => cases hends
        simp only [SessionRequest.requestType, ChannelMessage.body, SessionRequest.payload,
          handleNotice_windowChange]
        rfl
      | _ => cases hends

/-- **A message that ends the relay.** -/
theorem turn_stop {m : ChannelMessage} (hm : m.Complete) (hends : ends mode m = true)
    (s : InputRelay) (rest : List UInt8) :
    ∃ rest', turn mode s (m.head ++ m.body ++ rest) = .stop s rest' := by
  cases m with
  | data | extendedData | success | failure => cases hends
  | eof | close => exact ⟨_, turn_eq hm.1 rfl s rest⟩
  | request rq wantReply =>
    cases wantReply with
    | true =>
      -- refused by the reader
      have hhead := ChannelMessage.accepts_head (m := .request rq true) trivial
      have hrefuses : SshChannelReader.nextEvent.Refuses
          ((ChannelMessage.request rq true).head ++ []) := by
        rw [SshChannelReader.nextEvent_eq]
        exact .bind_right hhead ⟨[], [], _, rfl, rfl⟩
      obtain ⟨e, rest', hout⟩ := (hrefuses.append rq.payload).outcome rest
      rw [List.append_nil] at hout
      exact ⟨rest', by rw [turn, ChannelMessage.body, hout]⟩
    | false =>
      rw [turn_eq hm.1 rfl, onEvent]
      cases rq with
      | signal r =>
        have hbounded : ¬ Wire.Bounded r := by
          rw [SignalRequest.bounded_iff]
          simpa [ends] using hends
        obtain ⟨rest', hnotice⟩ := handleNotice_longSignal mode (hm.2 _ _ rfl) hbounded s rest
        refine ⟨rest', ?_⟩
        simp only [SessionRequest.requestType, ChannelMessage.body, SessionRequest.payload, hnotice]
      | windowChange r =>
        obtain rfl : mode = .piped := by simpa [ends] using hends
        exact ⟨_, rfl⟩
      | _ => cases mode <;> exact ⟨_, rfl⟩

/-! ## Sequences of messages

What is in front of the first message that ends the relay is relayed in full, and what comes
behind it is not read. -/

/-- The names of the signals among the messages. -/
def signalsOf (ms : List ChannelMessage) : List SshString :=
  ms.filterMap fun | .request (.signal r) _ => some r.signalName | _ => none

/-- The changes of the window size among the messages. -/
def resizesOf (ms : List ChannelMessage) : List WindowChangeRequest :=
  ms.filterMap fun | .request (.windowChange r) _ => some r | _ => none

/-- The messages in front of the first one that ends the relay. -/
def relayed (mode : Mode) (ms : List ChannelMessage) : List ChannelMessage :=
  ms.takeWhile fun m => !ends mode m

/-- All of the messages: their data, their signals and their sizes. -/
theorem foldl_next (ms : List ChannelMessage) (s : InputRelay) :
    ms.foldl next s = ⟨s.stdin ++ ChannelMessage.dataOf ms, s.signals ++ signalsOf ms,
      s.resizes ++ resizesOf ms⟩ := by
  induction ms generalizing s with
  | nil => simp [ChannelMessage.dataOf, signalsOf, resizesOf]
  | cons m ms ih =>
    rw [List.foldl_cons, ih]
    cases m with
    | request rq wantReply =>
      cases rq <;> simp [next, ChannelMessage.dataOf, signalsOf, resizesOf]
    | _ => simp [next, ChannelMessage.dataOf, signalsOf, resizesOf]

/-- What the relay does with a sequence of messages, from any turn on. -/
theorem run_relayed {ms : List ChannelMessage} (hms : ∀ m ∈ ms, m.Complete)
    (hdrained : ∀ m ∈ relayed mode ms, ¬ Undrained m) (s : InputRelay) :
    (∃ rest, Loop.run (turn mode) s (ChannelMessage.stream ms) =
        some ((relayed mode ms).foldl next s, rest)) ∧
      ∀ x ∈ Loop.starts (turn mode) s (ChannelMessage.stream ms),
        ChannelMessage.Boundary ms [] x := by
  induction ms generalizing s with
  | nil =>
    have hturn : turn mode s (ChannelMessage.stream []) = .stop s [] := rfl
    refine ⟨⟨[], Loop.run_stop hturn⟩, ?_⟩
    rw [Loop.starts_stop hturn, List.forall_mem_singleton]
    exact ChannelMessage.boundary_start [] []
  | cons m ms ih =>
    have hm := hms m List.mem_cons_self
    have hbytes : ChannelMessage.stream (m :: ms) =
        m.head ++ m.body ++ ChannelMessage.stream ms := by simp
    have hstart : ChannelMessage.Boundary (m :: ms) [] (ChannelMessage.stream (m :: ms)) := by
      simpa using ChannelMessage.boundary_start (m :: ms) []
    by_cases hends : ends mode m = true
    · obtain ⟨rest', hturn⟩ := turn_stop hm hends s (ChannelMessage.stream ms)
      rw [← hbytes] at hturn
      have hnone : relayed mode (m :: ms) = [] := by simp [relayed, hends]
      refine ⟨⟨rest', by rw [hnone]; exact Loop.run_stop hturn⟩, ?_⟩
      rwa [Loop.starts_stop hturn, List.forall_mem_singleton]
    · have hgoes : ends mode m = false := by simpa using hends
      have hcons : relayed mode (m :: ms) = m :: relayed mode ms := by simp [relayed, hgoes]
      rw [hcons, List.forall_mem_cons] at hdrained
      have hturn := turn_again hm hgoes hdrained.1 s (ChannelMessage.stream ms)
      rw [← hbytes] at hturn
      obtain ⟨hrun, hstarts⟩ :=
        ih (fun m' hm' => hms m' (List.mem_cons_of_mem m hm')) hdrained.2 (next s m)
      rw [Loop.run_again (consumes_turn mode) hturn, Loop.starts_again (consumes_turn mode) hturn,
        hcons, List.forall_mem_cons]
      exact ⟨hrun, hstart, fun x hx => (hstarts x hx).cons m⟩

/-- **What is relayed.** In front of the first message that ends the relay, every message is read to
its end and does what it should: the data goes to the process, byte for byte. -/
theorem input_relayed (mode : Mode) {ms : List ChannelMessage} (hms : ∀ m ∈ ms, m.Complete)
    (hdrained : ∀ m ∈ relayed mode ms, ¬ Undrained m) :
    (∃ rest, relayInput mode (ChannelMessage.stream ms) =
        some (⟨ChannelMessage.dataOf (relayed mode ms), signalsOf (relayed mode ms),
          resizesOf (relayed mode ms)⟩, rest)) ∧
      ∀ x ∈ Loop.starts (turn mode) {} (ChannelMessage.stream ms),
        ChannelMessage.Boundary ms [] x := by
  obtain ⟨⟨rest, hrun⟩, hstarts⟩ := run_relayed hms hdrained {}
  rw [foldl_next] at hrun
  simp only [List.nil_append] at hrun
  exact ⟨⟨rest, hrun⟩, hstarts⟩

/-- Data, a change of the window size and more data. -/
def resized : List ChannelMessage :=
  [.data [1, 2], .request (.windowChange ⟨.ofNat 80, .ofNat 24, .ofNat 0, .ofNat 0⟩) false,
    .data [3], .eof]

/-- They can be written, and be read again. -/
theorem complete_of_mem_resized {m : ChannelMessage} (h : m ∈ resized) : m.Complete := by
  simp only [resized, List.mem_cons, List.not_mem_nil, or_false] at h
  rcases h with rfl | rfl | rfl | rfl
  · exact ChannelMessage.complete_data (by decide)
  · exact ChannelMessage.complete_request (.windowChange _) false ⟨nofun, nofun⟩
  · exact ChannelMessage.complete_data (by decide)
  · exact ⟨trivial, nofun⟩

/-- There is no extended data among them. -/
theorem not_undrained_of_mem_resized {m : ChannelMessage} (h : m ∈ resized) : ¬ Undrained m := by
  rintro ⟨dataType, bytes, rfl, -⟩
  simp [resized] at h

/-- With a terminal, all of it is relayed. -/
theorem resized_input_relayed :
    (∃ rest, relayInput .pty (ChannelMessage.stream resized) =
        some (⟨[1, 2, 3], [], [⟨.ofNat 80, .ofNat 24, .ofNat 0, .ofNat 0⟩]⟩, rest)) ∧
      ∀ x ∈ Loop.starts (turn .pty) {} (ChannelMessage.stream resized),
        ChannelMessage.Boundary resized [] x :=
  input_relayed .pty (fun _ => complete_of_mem_resized) fun _ hm =>
    not_undrained_of_mem_resized ((List.takeWhile_sublist _).subset hm)

/-- **A notice that ends the relay.** Without a terminal, a change of the window size is not
handled, and the data behind it is not relayed. -/
theorem resized_ends_piped :
    ChannelMessage.dataOf (resized.takeWhile (· ≠ .eof)) = [1, 2, 3] ∧
      ∃ rest, relayInputPiped (ChannelMessage.stream resized) = some (⟨[1, 2], [], []⟩, rest) := by
  refine ⟨by decide, ?_⟩
  have hdrained : ∀ m ∈ relayed .piped resized, ¬ Undrained m := fun _ hm =>
    not_undrained_of_mem_resized ((List.takeWhile_sublist _).subset hm)
  obtain ⟨⟨rest, hrun⟩, -⟩ := run_relayed (fun _ => complete_of_mem_resized) hdrained {}
  exact ⟨rest, hrun⟩

end InputRelay

end Dssh
