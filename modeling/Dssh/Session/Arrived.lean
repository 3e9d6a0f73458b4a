import Dssh.Session.StdinDelivery
import Dssh.Session.Truncation

/-!
# What has arrived of a stream

The relays at the ends of a channel, when only a part of what is sent has come, cut at any byte:
inside the head of a message, inside its payload, or between two messages. What they have passed
on by then is a beginning of what they pass on in the end, and the client reports no exit or the
right one.

It does not matter if the rest is still under way or is lost.

## Why a cut

The results about the relays of a session are for whole streams: the client reads all that the
server has sent, and returns. A run of a session has states in between, in which some bytes have
been sent, some of them have arrived, and the relays have done what these bytes let them do.
What is true of such states is what has been true of the finished stream, in part. So it has to
be said what the relays do with a part of a stream, and it is simplest to say it of *any* part.

The relays are loops over a stream that has ended. Here the end stands for "no more has come". A
loop that waits has done what it would have done before a lost connection, up to the error that
it returns with. This is why `ClientOutput.seen` takes an error for no exit: a client that waits
has not returned anything, and what is said of its exit has to be true of it as well.

## Where a cut can be

`ChannelMessage.part_cases` has the cases: in the head, in the body, or at the border of two
messages. In the head of a message nothing has been reported yet, as no decoder is content with
less. In the payload of a data message, the part that has come is copied. In the payload of a
notice, decoding has not ended, so nothing has been recorded: a status that is cut in half is no
status.

## The end of the output

The last section is about when the client returns. It does when it reads close, and close is the
last message of the server. So it returns behind the last byte, and nothing that it has not read
is lost with the task (`closed_iff`).

## Main definitions

* `InputRelay.Precedes`, `ClientOutput.Precedes` — less has been passed on
* `ClientOutput.seen` — what there is to see of a client that may be waiting
* `ClientOutput.closed` — the client has returned

## Main results

* `InputRelay.relayInput_part` — the server's relay on a part of what a client sends
* `ClientOutput.relayOutput_part` — the client's relay on a part of what a server sends
* `ClientOutput.closed_iff` — the client has returned exactly when everything has come
-/

namespace Dssh

open ChannelMessage

/-- Inside the head of a message, there is nothing to report. -/
theorem SshChannelReader.nextEvent_cut {m : ChannelMessage} (hm : m.Writable) {event : ReaderEvent}
    (hevent : m.event.toReader = .done event) {xs ys : List UInt8} (h : m.head = xs ++ ys)
    (hys : ys ≠ []) : ∃ e, nextEvent.outcome xs = (.error e, []) := by
  have haccepts := accepts_head_reader hm hevent
  rw [h] at haccepts
  obtain ⟨e, -, hout⟩ := haccepts.outcome_cut (Decoder.reports_true _) hys
  exact ⟨e, hout⟩

/-- A part of a message ends in its head, or else in its body. -/
theorem ChannelMessage.part_cases {m : ChannelMessage} {xs ys : List UInt8}
    (h : m.head ++ m.body = xs ++ ys) :
    (∃ zs, m.head = xs ++ zs ∧ zs ≠ []) ∨ ∃ zs, xs = m.head ++ zs ∧ m.body = zs ++ ys :=
  ClientOutput.cut_append h.symm

/-! ## The input

A part of a message of the client may be relayed in part, if it is data: the copy passes on what
there is. Everything else takes effect when it is complete. -/

namespace InputRelay

/-- What is relayed is only ever more. -/
def Precedes (s t : InputRelay) : Prop :=
  s.stdin <+: t.stdin ∧ s.signals = t.signals ∧ s.resizes <+: t.resizes

theorem Precedes.refl (s : InputRelay) : Precedes s s :=
  ⟨List.prefix_rfl, rfl, List.prefix_rfl⟩

theorem Precedes.trans {s t u : InputRelay} (h : Precedes s t) (h' : Precedes t u) : Precedes s u :=
  ⟨h.1.trans h'.1, h.2.1.trans h'.2.1, h.2.2.trans h'.2.2⟩

variable {mode : Mode} {interactive : Bool} {m : ChannelMessage} {xs ys : List UInt8}

open StdinRelay (Loops)

theorem precedes_next (hm : Loops interactive m) (s : InputRelay) : Precedes s (next s m) := by
  cases hm with
  | data h => exact ⟨List.prefix_append _ _, rfl, List.prefix_rfl⟩
  | resize size h => exact ⟨List.prefix_rfl, rfl, List.prefix_append _ _⟩

/-- The end of the stream. -/
theorem turn_nil (s : InputRelay) : turn mode s [] = .stop s [] := rfl

theorem turn_cut (hm : m.Writable) {event : ReaderEvent} (hevent : m.event.toReader = .done event)
    (h : m.head = xs ++ ys) (hys : ys ≠ []) (s : InputRelay) : turn mode s xs = .stop s [] := by
  obtain ⟨e, hout⟩ := SshChannelReader.nextEvent_cut hm hevent h hys
  rw [turn, hout]

/-- A part of a message of the client. -/
theorem run_part (hmode : interactive = true → mode = .pty) (hm : Loops interactive m)
    (h : m.head ++ m.body = xs ++ ys) (hys : ys ≠ []) (s : InputRelay) :
    ∃ r rest, Loop.run (turn mode) s xs = some (r, rest) ∧ Precedes r (next s m) := by
  have hwritable := hm.complete.1
  obtain ⟨event, hevent⟩ : ∃ event, m.event.toReader = .done event := by
    cases hm <;> exact ⟨_, rfl⟩
  rcases part_cases h with ⟨zs, hhead, hzs⟩ | ⟨zs, rfl, hbody⟩
  · exact ⟨s, [], Loop.run_stop (turn_cut hwritable hevent hhead hzs s), precedes_next hm s⟩
  · have hturn : turn mode s (m.head ++ zs) = onEvent mode s zs event := by
      rw [turn, (accepts_head_reader hwritable hevent).outcome]
    cases hm with
    | @data bytes hlength =>
      cases hevent
      have hbody' : bytes = zs ++ ys := hbody
      have hle : zs.length ≤ bytes.length := by
        rw [hbody', List.length_append]
        omega
      have hagain : turn mode s ((data bytes).head ++ zs) =
          .again { s with stdin := s.stdin ++ zs } [] := by
        rw [hturn, onEvent, List.take_of_length_le hle, List.drop_eq_nil_of_le hle]
      refine ⟨_, [],
        (Loop.run_again (consumes_turn mode) hagain).trans (Loop.run_stop (turn_nil _)),
        ?_, rfl, List.prefix_rfl⟩
      show s.stdin ++ zs <+: s.stdin ++ bytes
      rw [hbody', ← List.append_assoc]
      exact List.prefix_append _ _
    | resize size hinteractive =>
      cases hevent
      rw [hmode hinteractive] at hturn ⊢
      have hpayload : WindowChangeRequest.decoder.Accepts (Wire.encode (StdinRelay.resizeOf size))
          (StdinRelay.resizeOf size) :=
        LawfulWire.inverts.accepts ⟨List.forall_mem_nil _, List.forall_mem_nil _⟩
      have hbody' : Wire.encode (StdinRelay.resizeOf size) = zs ++ ys := hbody
      rw [hbody'] at hpayload
      obtain ⟨e, -, hout⟩ := hpayload.outcome_cut (Decoder.reports_true _) hys
      have hstop : turn .pty s ((StdinRelay.windowChange size).head ++ zs) = .stop s [] := by
        rw [hturn]
        simp only [SessionRequest.requestType, onEvent, Mode.handleNotice, handlePtyNotice, hout]
      exact ⟨s, [], Loop.run_stop hstop, precedes_next (.resize size hinteractive) s⟩

/-- **A part of the input.** -/
theorem relayInput_part (hmode : interactive = true → mode = .pty) {ms : List ChannelMessage}
    (hms : ∀ m ∈ ms, Loops interactive m) {bs : List UInt8}
    (hbs : bs <+: stream (ms ++ [.eof, .close])) :
    ∃ r rest, relayInput mode bs = some (r, rest) ∧ r.stdin <+: dataOf ms ∧ r.signals = [] ∧
      r.resizes <+: resizesOf ms := by
  have hlast : ∀ (s : InputRelay) xs, True → xs <+: stream [.eof, .close] →
      ∃ r rest, Loop.run (turn mode) s xs = some (r, rest) ∧ Precedes r s := by
    rintro s xs - ⟨ys, hys⟩
    have hys' : eof.head ++ stream [.close] = xs ++ ys := by rw [hys]; rfl
    rcases ClientOutput.cut_append hys'.symm with ⟨zs, hhead, hzs⟩ | ⟨zs, rfl, -⟩
    · exact ⟨s, [], Loop.run_stop (turn_cut (m := .eof) trivial rfl hhead hzs s), .refl s⟩
    · have hstop : turn mode s (eof.head ++ zs) = .stop s zs := by
        rw [turn, (accepts_head_reader (m := .eof) trivial rfl).outcome]
        rfl
      exact ⟨s, zs, Loop.run_stop hstop, .refl s⟩
  rw [stream_append] at hbs
  obtain ⟨r, rest, hrun, hprecedes⟩ := Loop.run_part (R := Precedes) (I := fun _ => True) (v := id)
    (consumes_turn mode) Precedes.refl Precedes.trans
    (fun m hm s tail => turn_again (hms m hm).complete ((hms m hm).goes_on hmode)
      (hms m hm).not_undrained s tail)
    (fun m hm s _ => ⟨precedes_next (hms m hm) s, trivial⟩)
    (fun m hm s xs ys _ h hys => run_part hmode (hms m hm) h hys s) hlast hbs (s := {}) trivial
  rw [foldl_next] at hprecedes
  refine ⟨r, rest, hrun, hprecedes.1, hprecedes.2.1.trans ?_, hprecedes.2.2⟩
  exact StdinRelay.signalsOf_eq_nil hms

end InputRelay

/-! ## The output

The same for what the client reads. An error of the client, when the stream ends inside of a
message, adds nothing to what it has written; and what it knows of the exit of the process is
right or nothing. -/

namespace ClientOutput

open OutputRelay (FromRelay noticesOf)

/-- The client has written less, and knows of no exit or of the same. -/
def Precedes (s t : ClientOutput) : Prop :=
  s.stdout <+: t.stdout ∧ s.stderr <+: t.stderr ∧
    (s.exitResult = none ∨ s.exitResult = t.exitResult)

theorem Precedes.refl (s : ClientOutput) : Precedes s s :=
  ⟨List.prefix_rfl, List.prefix_rfl, .inr rfl⟩

theorem Precedes.trans {s t u : ClientOutput} (h : Precedes s t) (h' : Precedes t u) :
    Precedes s u := by
  refine ⟨h.1.trans h'.1, h.2.1.trans h'.2.1, ?_⟩
  rcases h.2.2 with hnone | heq
  · exact .inl hnone
  · rw [heq]
    exact h'.2.2

/-- What the client returns, an error being no exit, and what it has written. -/
def seen (r : Except RunError (Option ExitResult) × ClientOutput) : ClientOutput :=
  match r.1 with
  | .ok exitResult => { r.2 with exitResult := exitResult }
  | .error _ => { r.2 with exitResult := none }

/-- An error adds nothing. -/
theorem precedes_error (e : RunError) (s : ClientOutput) : Precedes (seen (.error e, s)) s :=
  ⟨List.prefix_rfl, List.prefix_rfl, .inl rfl⟩

/-- Nor does returning. -/
theorem precedes_ok (s : ClientOutput) : Precedes (seen (.ok s.exitResult, s)) s :=
  ⟨List.prefix_rfl, List.prefix_rfl, .inr rfl⟩

/-- No exit, or the exit of the process. -/
def Knows (status : ExitStatus) (s : ClientOutput) : Prop :=
  s.exitResult = none ∨ s.exitResult = some status.result

variable {status : ExitStatus} {m : ChannelMessage} {xs ys : List UInt8} {s : ClientOutput}

theorem precedes_next (hm : FromRelay status m) (hs : Knows status s) :
    Precedes s (next s m) ∧ Knows status (next s m) := by
  cases hm with
  | data h => exact ⟨⟨List.prefix_append _ _, List.prefix_rfl, .inr rfl⟩, hs⟩
  | extendedData h => exact ⟨⟨List.prefix_rfl, List.prefix_append _ _, .inr rfl⟩, hs⟩
  | exit =>
    have hnext : (next s (.request (exitNotice status) false)).exitResult = some status.result :=
      exitResultOf_exitNotice status
    refine ⟨⟨List.prefix_rfl, List.prefix_rfl, ?_⟩, .inr hnext⟩
    rw [hnext]
    exact hs

/-- Inside the head of a message, the client stops, with an error or without. -/
theorem turn_cut (hm : m.Writable) {event : ReaderEvent} (hevent : m.event.toReader = .done event)
    (h : m.head = xs ++ ys) (hys : ys ≠ []) (s : ClientOutput) :
    ∃ r, turn s xs = .stop r [] ∧ Precedes (seen r) s := by
  obtain ⟨e, hout⟩ := SshChannelReader.nextEvent_cut hm hevent h hys
  rw [turn, hout]
  split
  case h_1 heq => cases heq
  case h_2 heq =>
    obtain ⟨-, rfl⟩ := Prod.mk.inj heq
    exact ⟨_, rfl, precedes_ok s⟩
  case h_3 heq =>
    obtain ⟨-, rfl⟩ := Prod.mk.inj heq
    split_ifs
    · exact ⟨_, rfl, precedes_ok s⟩
    · exact ⟨_, rfl, precedes_error _ s⟩

/-- Inside the payload of the notice of the exit. -/
theorem onEvent_exitNotice_cut (h : (exitNotice status).payload = xs ++ ys) (hys : ys ≠ [])
    (s : ClientOutput) : ∃ e, onEvent s xs (.notice (exitNotice status).requestType) =
      .stop (.error e, s) [] := by
  have hbounded := exitNotice_bounded status
  cases hsignal : status.signal with
  | none =>
    have hnotice : exitNotice status = .exitStatus ⟨.ofNat (status.code.getD 255)⟩ := by
      rw [exitNotice, hsignal]
    rw [hnotice] at hbounded h ⊢
    have hpayload : ExitStatusRequest.decoder.Accepts (Wire.encode _) _ :=
      LawfulWire.inverts.accepts hbounded
    rw [show Wire.encode _ = xs ++ ys from h] at hpayload
    obtain ⟨e, -, hout⟩ := hpayload.outcome_cut (Decoder.reports_true _) hys
    refine ⟨.decodeExitStatus e, ?_⟩
    simp only [SessionRequest.requestType, onEvent, hout]
  | some n =>
    have hnotice : exitNotice status = .exitSignal ⟨signalName n, status.coreDumped, "", ""⟩ := by
      rw [exitNotice, hsignal]
    rw [hnotice] at hbounded h ⊢
    have hpayload : ExitSignalRequest.decoder.Accepts (Wire.encode _) _ :=
      LawfulWire.inverts.accepts hbounded
    rw [show Wire.encode _ = xs ++ ys from h] at hpayload
    obtain ⟨e, -, hout⟩ := hpayload.outcome_cut (Decoder.reports_true _) hys
    refine ⟨.decodeExitSignal e, ?_⟩
    simp only [SessionRequest.requestType, onEvent, hout]

/-- A message of the relay is announced by an event. -/
theorem exists_event (hm : FromRelay status m) : ∃ event, m.event.toReader = .done event := by
  cases hm <;> exact ⟨_, rfl⟩

/-- A part of a message of the relay. -/
theorem run_part (hm : FromRelay status m) (h : m.head ++ m.body = xs ++ ys) (hys : ys ≠ [])
    (hs : Knows status s) :
    ∃ r rest, Loop.run turn s xs = some (r, rest) ∧ Precedes (seen r) (next s m) := by
  obtain ⟨event, hevent⟩ := exists_event hm
  rcases ChannelMessage.part_cases h with ⟨zs, hhead, hzs⟩ | ⟨zs, rfl, hbody⟩
  · obtain ⟨r, hturn, hprecedes⟩ := turn_cut hm.writable hevent hhead hzs s
    exact ⟨r, [], Loop.run_stop hturn, hprecedes.trans (precedes_next hm hs).1⟩
  · have hturn := turn_eq (ChannelMessage.accepts_head_reader hm.writable hevent) s zs
    cases hm with
    | @data bytes hlength =>
      cases hevent
      have hbody' : bytes = zs ++ ys := hbody
      have hle : zs.length ≤ bytes.length := by
        rw [hbody', List.length_append]
        omega
      rw [onEvent, List.take_of_length_le hle, List.drop_eq_nil_of_le hle] at hturn
      refine ⟨_, [], (Loop.run_again consumes_turn hturn).trans (Loop.run_stop (turn_nil _)),
        (precedes_ok _).trans ⟨?_, List.prefix_rfl, .inr rfl⟩⟩
      show s.stdout ++ zs <+: s.stdout ++ bytes
      rw [hbody', ← List.append_assoc]
      exact List.prefix_append _ _
    | @extendedData bytes hlength =>
      cases hevent
      have hbody' : bytes = zs ++ ys := hbody
      have hle : zs.length ≤ bytes.length := by
        rw [hbody', List.length_append]
        omega
      rw [onEvent, List.take_of_length_le hle, List.drop_eq_nil_of_le hle] at hturn
      refine ⟨_, [], (Loop.run_again consumes_turn hturn).trans (Loop.run_stop (turn_nil _)),
        (precedes_ok _).trans ⟨List.prefix_rfl, ?_, .inr rfl⟩⟩
      show s.stderr ++ zs <+: s.stderr ++ bytes
      rw [hbody', ← List.append_assoc]
      exact List.prefix_append _ _
    | exit =>
      cases hevent
      obtain ⟨e, hstop⟩ := onEvent_exitNotice_cut hbody hys s
      exact ⟨_, [], Loop.run_stop (hturn.trans hstop),
        (precedes_error e s).trans (precedes_next .exit hs).1⟩

/-- EOF and close behind the output. -/
theorem run_closing (hxs : xs <+: stream [.eof, .close]) (s : ClientOutput) :
    ∃ r rest, Loop.run turn s xs = some (r, rest) ∧ Precedes (seen r) s := by
  obtain ⟨ys, hys⟩ := hxs
  have heof : eof.head ++ stream [.close] = xs ++ ys := by rw [hys]; rfl
  rcases cut_append heof.symm with ⟨zs, hhead, hzs⟩ | ⟨us, rfl, hclose⟩
  · obtain ⟨r, hturn, hprecedes⟩ := turn_cut (m := .eof) trivial rfl hhead hzs s
    exact ⟨r, [], Loop.run_stop hturn, hprecedes⟩
  · have hagain : turn s (eof.head ++ us) = .again s us :=
      turn_eq (accepts_head_reader (m := .eof) trivial rfl) s us
    have hclose' : close.head ++ [] = us ++ ys := hclose
    rw [Loop.run_again consumes_turn hagain]
    rcases cut_append hclose'.symm with ⟨zs, hhead, hzs⟩ | ⟨zs, rfl, -⟩
    · obtain ⟨r, hturn, hprecedes⟩ := turn_cut (m := .close) trivial rfl hhead hzs s
      exact ⟨r, [], Loop.run_stop hturn, hprecedes⟩
    · exact ⟨_, zs, Loop.run_stop (turn_eq (accepts_head_reader (m := .close) trivial rfl) s zs),
        precedes_ok s⟩

/-- The messages together know no more than the exit. -/
theorem knows_foldl {ms : List ChannelMessage} (hms : ∀ m ∈ ms, FromRelay status m)
    (hs : Knows status s) : Knows status (ms.foldl next s) :=
  (Loop.foldl_grows Precedes.refl Precedes.trans
    (fun m hm _ hs => precedes_next (hms m hm) hs) hs).2

/-- **A part of the output.** -/
theorem relayOutput_part {ms : List ChannelMessage} (hms : ∀ m ∈ ms, FromRelay status m)
    {bs : List UInt8} (hbs : bs <+: stream (ms ++ [.eof, .close])) :
    ∃ r rest, relayOutput bs = some (r, rest) ∧ (seen r).stdout <+: dataOf ms ∧
      (seen r).stderr <+: extendedDataOf ms ∧ Knows status (seen r) := by
  rw [stream_append] at hbs
  obtain ⟨r, rest, hrun, hstdout, hstderr, hexit⟩ :=
    Loop.run_part (R := Precedes) (I := Knows status)
    (v := seen) consumes_turn Precedes.refl Precedes.trans
    (fun m hm s tail => turn_relay (hms m hm) s tail)
    (fun m hm s hs => precedes_next (hms m hm) hs)
    (fun m hm s xs ys hs h hys => run_part (hms m hm) h hys hs)
    (fun s xs _ hxs => run_closing hxs s) hbs (s := {}) (.inl rfl)
  have hknows : Knows status (ms.foldl next {}) := knows_foldl hms (.inl rfl)
  rw [foldl_next hms] at hstdout hstderr
  refine ⟨r, rest, hrun, hstdout, hstderr, ?_⟩
  rcases hexit with hnone | heq
  · exact .inl hnone
  · rw [Knows, heq]
    exact hknows

/-! ## The end of the output

Close is the last message of the server, and a part of its encoding is not taken for it. So the
client returns when the last byte has come. -/

/-- A turn on these bytes reads close. -/
def ReadsClose (bs : List UInt8) : Prop := (SshChannelReader.nextEvent.outcome bs).1 = .ok .close

instance (bs : List UInt8) : Decidable (ReadsClose bs) :=
  inferInstanceAs (Decidable (_ = _))

/-- The relay of the output has read close: it returns in the same poll, and `run` with it. -/
def closed (bs : List UInt8) : Bool :=
  (Loop.starts turn {} bs).getLast?.any fun x => decide (ReadsClose x)

theorem closed_iff_readsClose {bs : List UInt8} :
    closed bs = true ↔ ∃ x ∈ (Loop.starts turn {} bs).getLast?, ReadsClose x := by
  rw [closed, Option.any_eq_true]
  exact exists_congr fun x => and_congr_right fun _ => decide_eq_true_iff

/-- A turn that stops is the last. -/
theorem getLast_starts_stop {bs rest : List UInt8}
    {r : Except RunError (Option ExitResult) × ClientOutput}
    (hturn : turn s bs = .stop r rest) {x : List UInt8}
    (hx : x ∈ (Loop.starts turn s bs).getLast?) :
    x = bs := by
  rw [Loop.starts_stop hturn] at hx
  exact (Option.some.inj hx).symm

/-- Inside the head of a message, no event has been read. -/
theorem not_readsClose_cut (hm : m.Writable) {event : ReaderEvent}
    (hevent : m.event.toReader = .done event) (h : m.head = xs ++ ys) (hys : ys ≠ [])
    {x : List UInt8} (hx : x ∈ (Loop.starts turn s xs).getLast?) : ¬ReadsClose x := by
  obtain ⟨r, hturn, -⟩ := turn_cut hm hevent h hys s
  obtain rfl := getLast_starts_stop hturn hx
  obtain ⟨e, hout⟩ := SshChannelReader.nextEvent_cut hm hevent h hys
  rw [ReadsClose, hout]
  exact nofun

/-- Nor at the end of the stream. -/
theorem not_readsClose_nil {x : List UInt8} (hx : x ∈ (Loop.starts turn s []).getLast?) :
    ¬ReadsClose x := by
  obtain rfl := getLast_starts_stop (turn_nil s) hx
  decide

/-- A part of a message of the relay does not end in close. -/
theorem not_readsClose_part (hm : FromRelay status m)
    (h : m.head ++ m.body = xs ++ ys) (hys : ys ≠ [])
    {x : List UInt8} (hx : x ∈ (Loop.starts turn s xs).getLast?) : ¬ReadsClose x := by
  obtain ⟨event, hevent⟩ := exists_event hm
  rcases ChannelMessage.part_cases h with ⟨zs, hhead, hzs⟩ | ⟨zs, rfl, hbody⟩
  · exact not_readsClose_cut hm.writable hevent hhead hzs hx
  · have haccepts := ChannelMessage.accepts_head_reader hm.writable hevent
    have hturn := turn_eq haccepts s zs
    cases hm with
    | @data bytes hlength | @extendedData bytes hlength =>
      cases hevent
      have hbody' : bytes = zs ++ ys := hbody
      have hle : zs.length ≤ bytes.length := by
        rw [hbody', List.length_append]
        omega
      rw [onEvent, List.drop_eq_nil_of_le hle] at hturn
      rw [(Loop.Reaches.again hturn (.refl _ _)).getLast_starts consumes_turn] at hx
      exact not_readsClose_nil hx
    | exit =>
      cases hevent
      obtain ⟨e, hstop⟩ := onEvent_exitNotice_cut hbody hys s
      obtain rfl := getLast_starts_stop (hturn.trans hstop) hx
      rw [ReadsClose, haccepts.outcome]
      intro hclose
      injection hclose with hevent
      cases hevent

/-- A part of EOF and close ends in close if it is all of them. -/
theorem closing_of_readsClose (hxs : xs <+: stream [.eof, .close]) {x : List UInt8}
    (hx : x ∈ (Loop.starts turn s xs).getLast?) (hclose : ReadsClose x) :
    xs = stream [.eof, .close] := by
  obtain ⟨ys, hys⟩ := hxs
  have heof : eof.head ++ stream [.close] = xs ++ ys := by rw [hys]; rfl
  rcases cut_append heof.symm with ⟨zs, hhead, hzs⟩ | ⟨us, rfl, hus⟩
  · exact absurd hclose (not_readsClose_cut (m := .eof) trivial rfl hhead hzs hx)
  · have hagain : turn s (eof.head ++ us) = .again s us :=
      turn_eq (accepts_head_reader (m := .eof) trivial rfl) s us
    rw [(Loop.Reaches.again hagain (.refl _ _)).getLast_starts consumes_turn] at hx
    have hus' : close.head ++ [] = us ++ ys := hus
    rcases cut_append hus'.symm with ⟨zs, hhead, hzs⟩ | ⟨zs, rfl, hzs⟩
    · exact absurd hclose (not_readsClose_cut (m := .close) trivial rfl hhead hzs hx)
    · obtain ⟨rfl, rfl⟩ := List.append_eq_nil_iff.mp hzs.symm
      rfl

/-- **The client returns behind the last byte** of what the server sends, and there. -/
theorem closed_iff {ms : List ChannelMessage} (hms : ∀ m ∈ ms, FromRelay status m) {bs : List UInt8}
    (hbs : bs <+: stream (ms ++ [.eof, .close])) :
    closed bs = true ↔ bs = stream (ms ++ [.eof, .close]) := by
  rw [stream_append] at hbs ⊢
  have hturn := fun m hm s tail => turn_relay (hms m hm) s tail
  rw [closed_iff_readsClose]
  refine ⟨fun ⟨x, hx, hclose⟩ => ?_, fun heq => ?_⟩
  · obtain ⟨xs, hxs, rfl, hlast⟩ := Loop.getLast_part consumes_turn (p := ReadsClose) hturn
      (fun m hm s xs ys h hys x hx => not_readsClose_part (hms m hm) h hys hx) hbs hx hclose
    exact congrArg _ (closing_of_readsClose hxs hlast hclose)
  · have heof : turn (ms.foldl next {}) (stream [.eof, .close]) = .again (ms.foldl next {})
        (stream [.close]) :=
      turn_eq (accepts_head_reader (m := .eof) trivial rfl) _ (stream [.close])
    have hstop : turn (ms.foldl next {}) (stream [.close]) =
        .stop (.ok (ms.foldl next {}).exitResult, ms.foldl next {}) [] :=
      turn_eq (accepts_head_reader (m := .close) trivial rfl) _ []
    refine ⟨stream [.close], ?_, by decide⟩
    rw [heq, stream]
    rw [(Loop.reaches_messages hturn {} _).getLast_starts consumes_turn,
      Loop.starts_again consumes_turn heof, Loop.starts_stop hstop]
    rfl

end ClientOutput

end Dssh
