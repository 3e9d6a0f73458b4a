import Dssh.Session.Process

/-!
# Signals and the reaped child

Once the child has been reaped, the system may give its process id to another process.
`terminate` and `Drop` look whether it has been reaped before they deliver a signal. The input
relay cannot: it has the process id and no more, and learns of the end from the stop signal,
which it looks for only between events. A signal notice of which it has read the request type
goes to that process id whatever happens before its payload is there.

## The race

The source knows about the danger. `SessionProcess` has a flag for it, and both of its own ways
to send signals look at the flag first. The input relay runs on another task, has a copy of the
id, and is told to stop as soon as the child has been reaped. Two windows remain.

One is short: between the reaping and the stop signal, the relay may take a notice. The other
one has no length. A notice consists of a head and a payload, and a client may send the head,
wait until the process has ended, and send the rest at any time. The relay is in the middle of
an event, so it does not look at the stop signal. When the payload comes, it delivers
(`lateSignal`).

## The condition

`InTime` is a condition on every step: the child is not reaped while the relay is reading the
payload of a signal notice, and the relay takes no notice behind the reaping. It speaks of the
state before the step and of which step it is. Runs that meet it deliver signals to the living
only, whoever sends them.

The delivery is a step in which the relay reads the payload to its end and calls `killpg`. In
the source there is a short way from the one to the other, during which the child may be reaped
as well: here this is counted as part of reading the payload.

`terminate` looks at the child in front of every signal, and reaps it if it has exited: a signal
follows only if it had not. `Timely` says this for each of the places of `terminate`.

## Main definitions

* `ProcessRun.HandlesSignal`, `ProcessRun.InTime` — the condition on a step
* `ProcessRun.Timely` — whoever delivers a signal next, the child has not been reaped

## Main results

* `ProcessRun.delivered_in_time` — along runs that reap the child while no signal notice is
  being read, and take none between the reaping and the stop signal, every signal goes to the
  child
* `ProcessRun.lateSignal` — a signal delivered behind the reaping
-/

namespace Dssh

namespace ProcessRun

variable {mode : Mode} {capacity : ℕ} {s t : ProcessRun}

/-! ## The condition

It is about the steps that look at the child and those that take a notice. The signal itself is
delivered later, and by then nobody looks any more. -/

/-- The input relay has taken a signal notice and decodes its payload. -/
def HandlesSignal (s : ProcessRun) : Prop := ∃ d, s.input.place = .signal d

/-- The step looks at the child, and reaps it if it has exited. -/
def Action.Waits : Action → Prop
  | .main .reap => True
  | .main .tryWait => True
  | .env .reapsOrphan => True
  | _ => False

/-- The input relay reads the head of a signal notice to its end. -/
def TakesSignal (s : ProcessRun) (a : Action) : Prop :=
  a = .relay .poll ∧ s.stopped = false ∧
    ∃ d rest, s.input.place = .head d ∧ d.feed s.input.incoming = (.done (.notice "signal"), rest)

/-- The child is not reaped while a signal notice is being read, and none is taken behind that. -/
def InTime (s : ProcessRun) (a : Action) : Prop :=
  (a.Waits → ¬s.HandlesSignal) ∧ (s.TakesSignal a → s.reaped = false)

/-! ## The invariant

Two parties send signals. `terminate` looks at the child in front of each of its own; the input
relay does not look, and for it the condition keeps the child unreaped. -/

/-- Whoever delivers a signal next, the child has not been reaped. -/
structure Timely (s : ProcessRun) : Prop where
  /-- Once the child is reaped, no signal notice is being read. -/
  handling : s.reaped = true → ¬s.HandlesSignal
  /-- `terminate` signals only a child that it has found running. -/
  terminating : ∀ place failed, s.main = .terminating place failed → place ≠ .check →
    s.reaped = false
  /-- No signal has been sent to a reaped child. -/
  delivered : ∀ d ∈ s.delivered, d.reaped = false

/-- The main task goes on, and has looked at the child if it is going to send a signal. -/
theorem Timely.moves {main : MainPlace} (hs : Timely s)
    (hmain : ∀ place failed, main = .terminating place failed → place ≠ .check →
      s.reaped = false) (stopped : Bool) :
    Timely { s with main := main, stopped := stopped } :=
  ⟨hs.handling, hmain, hs.delivered⟩

/-- It goes on to where no signals are sent. -/
theorem Timely.leaves {main : MainPlace} (hs : Timely s)
    (hmain : ∀ place failed, main ≠ .terminating place failed) (stopped : Bool) :
    Timely { s with main := main, stopped := stopped } :=
  hs.moves (fun place failed h => absurd h (hmain place failed)) stopped

/-- The child is reaped. -/
theorem Timely.reaps {main : MainPlace} (hs : Timely s) (hnot : ¬s.HandlesSignal)
    (hmain : ∀ place failed, main ≠ .terminating place failed) :
    Timely { s with main := main, reaped := true } :=
  ⟨fun _ => hnot, fun place failed h => absurd h (hmain place failed), hs.delivered⟩

/-- A signal is sent in time. -/
theorem Timely.deliver (hs : Timely s) (hreaped : s.reaped = false) (signal : Signal) :
    Timely (s.deliver signal) := by
  refine ⟨hs.handling, hs.terminating, fun d hd => ?_⟩
  rcases List.mem_append.mp hd with hd | hd
  · exact hs.delivered d hd
  · rw [List.mem_singleton.mp hd]
    exact hreaped

/-- A signal with a name, if there is one of this name. -/
theorem Timely.deliverToPid (hs : Timely s) (hreaped : s.reaped = false) (name : SshString) :
    Timely (s.deliverToPid name) := by
  unfold ProcessRun.deliverToPid
  split
  · exact hs.deliver hreaped _
  · exact hs

/-- Behind `terminate`, no signals are sent. -/
theorem afterTerminate_ne_terminating (failed ok : Bool) (place : TerminatePlace) (failed' : Bool) :
    afterTerminate failed ok ≠ .terminating place failed' := by
  intro h
  cases h

/-- A look at the child. -/
theorem Timely.tryWait {place : TerminatePlace} {failed : Bool} (hs : Timely s)
    (hnot : ¬s.HandlesSignal) (h : s.tryWait place failed = some t) : Timely t := by
  rcases tryWait_cases h with rfl | rfl | ⟨hreaped, rfl⟩
  · exact hs.leaves (afterTerminate_ne_terminating failed true) s.stopped
  · exact hs.reaps hnot (afterTerminate_ne_terminating failed true)
  · exact hs.moves (fun _ _ _ _ => hreaped) s.stopped

/-- A step of the main task. -/
theorem Timely.mainStep {a : MainAction} (hs : Timely s) (ha : s.InTime (.main a))
    (h : s.mainStep a = some t) : Timely t := by
  cases a with
  | shutdown =>
    simp only [ProcessRun.mainStep] at h
    split at h <;> cases h
    exact hs.leaves (by simp) s.stopped
  | reap =>
    simp only [ProcessRun.mainStep] at h
    split at h <;> cases h
    exact hs.reaps (ha.1 trivial) (by simp)
  | stop =>
    simp only [ProcessRun.mainStep] at h
    split at h <;> cases h
    exact hs.leaves (by simp) true
  | outputEnds ok =>
    simp only [ProcessRun.mainStep] at h
    split at h <;> cases h
    exact hs.leaves (by simp) s.stopped
  | leave =>
    simp only [ProcessRun.mainStep] at h
    split at h <;> cases h
    exact hs.leaves (by simp) true
  | join =>
    simp only [ProcessRun.mainStep] at h
    split at h <;> cases h
    rename_i result _ _
    refine hs.moves (fun place failed hplace hne => ?_) s.stopped
    rcases result with _ | _ | _ <;> cases hplace <;> exact absurd rfl hne
  | tryWait =>
    simp only [ProcessRun.mainStep] at h
    split at h
    · exact hs.tryWait (ha.1 trivial) h
    · cases h
  | waitFails =>
    simp only [ProcessRun.mainStep] at h
    split at h
    · rename_i failed _
      split at h <;> cases h
      exact hs.leaves (afterTerminate_ne_terminating failed false) s.stopped
    · cases h
  | deliver =>
    obtain ⟨place, next, failed, signal, hmain, hplace, rfl⟩ := deliver_cases h
    have hreaped := hs.terminating place failed hmain hplace
    exact (hs.deliver hreaped signal).moves (fun _ _ _ _ => hreaped) s.stopped
  | expires =>
    obtain ⟨place, next, failed, hmain, hplace, rfl⟩ := expires_cases h
    have hreaped := hs.terminating place failed hmain hplace
    exact hs.moves (fun _ _ _ _ => hreaped) s.stopped

/-- The input relay moves on, and not to another signal notice. -/
theorem Timely.relays {input : InputSide} (hs : Timely s)
    (hinput : (∃ d, input.place = .signal d) → s.reaped = false) :
    Timely { s with input := input } := by
  refine ⟨fun hreaped hsignal => ?_, hs.terminating, hs.delivered⟩
  rw [hinput hsignal] at hreaped
  cases hreaped

/-- The relay does anything else. -/
theorem Timely.relays_ne {input : InputSide} (hs : Timely s)
    (hinput : ∀ d, input.place ≠ .signal d) : Timely { s with input := input } := by
  refine hs.relays ?_
  rintro ⟨d, hd⟩
  exact absurd hd (hinput d)

/-- Only one event leads to a signal. -/
theorem onEvent_eq_signal {event : ReaderEvent} {d : Decoder SessionCodecError SignalRequest}
    (h : onEvent mode event = .signal d) : event = .notice "signal" := by
  cases event with
  | notice requestType =>
    simp only [onEvent] at h
    split at h
    · rfl
    · cases h
    · cases h
  | _ => cases h

/-- Waiting keeps the place. -/
theorem await_eq_signal {i : InputSide} {place : InputPlace}
    {d : Decoder SessionCodecError SignalRequest} (h : (i.await place).place = .signal d) :
    place = .signal d := by
  rw [InputSide.await] at h
  simp only at h
  split at h
  · cases h
  · exact h

/-- A poll of the input relay. -/
theorem Timely.poll (hs : Timely s) (ha : s.InTime (.relay .poll))
    (h : s.relayStep mode capacity .poll = some t) : Timely t := by
  simp only [relayStep] at h
  split at h
  · rename_i d hplace
    split at h
    · cases h
      exact hs.relays_ne (by simp)
    · rename_i hstopped
      split at h
      · rename_i event rest hfeed
        cases h
        refine hs.relays ?_
        rintro ⟨d', hd'⟩
        rw [onEvent_eq_signal hd'] at hfeed
        exact ha.2 ⟨rfl, Bool.eq_false_iff.mpr hstopped, d, rest, hplace, hfeed⟩
      · cases h
        exact hs.relays_ne (by simp)
      · cases h
        refine hs.relays_ne fun d' hd' => ?_
        cases await_eq_signal hd'
  · rename_i d hplace
    have hreaped : s.reaped = false :=
      Bool.eq_false_iff.mpr fun hreaped => hs.handling hreaped ⟨d, hplace⟩
    split at h
    · rename_i r rest hfeed
      cases h
      exact (hs.deliverToPid hreaped r.signalName).relays_ne (by simp)
    · cases h
      exact hs.relays_ne (by simp)
    · cases h
      exact hs.relays fun _ => hreaped
  · split at h
    · cases h
      exact hs.relays_ne (by simp)
    · cases h
      exact hs.relays_ne (by simp)
    · cases h
      refine hs.relays_ne fun d' hd' => ?_
      cases await_eq_signal hd'
  · cases h

/-- A step of the input relay. -/
theorem Timely.relayStep {a : RelayAction} (hs : Timely s) (ha : s.InTime (.relay a))
    (h : s.relayStep mode capacity a = some t) : Timely t := by
  cases a with
  | poll => exact hs.poll ha h
  | _ =>
    obtain ⟨input, rfl, hnot, -⟩ := copy_cases (by simp) h
    exact hs.relays_ne hnot

/-- `Drop` looks at the flag. -/
theorem Timely.drop (hs : Timely s) : Timely s.drop := by
  unfold ProcessRun.drop
  split
  · exact hs.leaves (by simp) true
  · rename_i hreaped
    exact (hs.deliver (Bool.eq_false_iff.mpr hreaped) .kill).leaves (by simp) true

/-- A step of the others. -/
theorem Timely.envStep {a : EnvAction} (hs : Timely s) (ha : s.InTime (.env a))
    (h : s.envStep a = some t) : Timely t := by
  rcases envStep_cases h with ⟨input, shutdown, exited, rfl, hplace, -⟩ | rfl | ⟨rfl, hmain, rfl⟩
  · refine ⟨?_, hs.terminating, hs.delivered⟩
    rintro hreaped ⟨d, hd⟩
    exact hs.handling hreaped ⟨d, hplace.symm.trans hd⟩
  · exact hs.drop
  · refine ⟨fun _ => ha.1 trivial, fun place failed hterminating => ?_, hs.delivered⟩
    rw [hmain] at hterminating
    cases hterminating

/-- **Signals in time.** Along runs that reap the child while no signal notice is being read, and
take none between the reaping and the stop signal, no signal is delivered to a child that has been
reaped. -/
theorem delivered_in_time (h : (machine mode capacity).Reach InTime s) :
    ∀ d ∈ s.delivered, d.reaped = false := by
  have hinit : Timely (machine mode capacity).init := by
    refine ⟨?_, ?_, ?_⟩
    · intro hreaped
      cases hreaped
    · intro place failed hmain
      cases hmain
    · exact List.forall_mem_nil _
  refine (h.invariant hinit ?_).delivered
  intro s a t _ hs ha hstep
  cases a with
  | main a => exact hs.mainStep ha hstep
  | relay a => exact hs.relayStep ha hstep
  | env a => exact hs.envStep ha hstep

/-! ## A signal notice in two pieces

The head and the payload of a notice may come apart. In between, the child may exit and be
reaped. -/

/-- Before the reaping, only the reaping itself can be out of time. -/
theorem Action.inTime_of_not_waits {a : Action} (hw : ¬a.Waits) (hreaped : s.reaped = false) :
    s.InTime a :=
  ⟨fun h => absurd h hw, fun _ => hreaped⟩

/-- A client's `notice` with the signal `KILL`. -/
def killNotice : ChannelMessage := .request (.signal ⟨"KILL"⟩) false

/-- The relay reads the head of the notice. -/
theorem poll_killHead (hplace : s.input.place = atHead) (hstopped : s.stopped = false)
    (hincoming : s.input.incoming = killNotice.head) :
    (machine mode capacity).step s (.relay .poll) = some { s with input :=
      { s.input with place := .signal SignalRequest.decoder, incoming := [] } } := by
  have haccepts : SshChannelReader.nextEvent.Accepts killNotice.head (.notice "signal") :=
    ChannelMessage.accepts_head_reader (m := killNotice) trivial rfl
  have hfeed := haccepts.feed []
  rw [List.append_nil] at hfeed
  simp only [machine, step, relayStep, hplace, hstopped, hincoming, hfeed,
    Bool.false_eq_true, if_false]
  rfl

/-- The relay reads the payload, and delivers the signal whatever has happened since. -/
theorem poll_killBody (hplace : s.input.place = .signal SignalRequest.decoder)
    (hincoming : s.input.incoming = killNotice.body) :
    (machine mode capacity).step s (.relay .poll) = some { s.deliver .kill with
      input := { s.input with place := atHead, incoming := [] } } := by
  have haccepts : SignalRequest.decoder.Accepts killNotice.body ⟨"KILL"⟩ := by
    refine LawfulWire.inverts.accepts ?_
    rw [SignalRequest.bounded_iff]
    decide
  have hfeed := haccepts.feed []
  rw [List.append_nil] at hfeed
  simp only [machine, step, relayStep, hplace, hincoming, hfeed]
  rfl

/-- The notice arrives and the relay reads its head. -/
theorem reach_handling {ok : ProcessRun → Action → Prop}
    (hok : ∀ s a, s.reaped = false → ¬a.Waits → ok s a) : (machine mode capacity).Reach ok
      { input := { place := .signal SignalRequest.decoder } } := by
  have hsent : (machine mode capacity).Reach ok { input := { incoming := killNotice.head } } :=
    .step .init (hok _ (.env (.sends killNotice.head)) rfl id) rfl
  refine .step hsent (hok _ (.relay .poll) rfl id) ?_
  exact poll_killHead rfl rfl rfl

/-- A signal to a child that runs; it exits later. -/
theorem killed_in_time : ∃ s, (machine .piped 65536).Reach InTime s ∧ s.reaped = true ∧
    s.delivered ≠ [] ∧ ∀ d ∈ s.delivered, d.reaped = false := by
  have hhandling : (machine .piped 65536).Reach InTime
      { input := { place := .signal SignalRequest.decoder } } :=
    reach_handling fun s a hreaped hw => Action.inTime_of_not_waits hw hreaped
  have hsent := hhandling.step (a := .env (.sends killNotice.body))
    (Action.inTime_of_not_waits id rfl) rfl
  have hdelivered := hsent.step (a := .relay .poll) (Action.inTime_of_not_waits id rfl)
    (poll_killBody rfl rfl)
  have hexited := hdelivered.step (a := .env .exits) (Action.inTime_of_not_waits id rfl) rfl
  have hreaped := hexited.step (a := .main .reap) (by
    refine ⟨fun _ => ?_, fun h => ?_⟩
    · rintro ⟨d, hd⟩
      cases hd
    · cases h.1) rfl
  exact ⟨_, hreaped, rfl, List.cons_ne_nil _ _, delivered_in_time hreaped⟩

/-- **A late signal.** The relay has read the head of the notice when the child exits. The main task
reaps the child and tells the relay to stop; then the rest of the notice arrives. -/
theorem lateSignal :
    ∃ s, (machine .piped 65536).Reachable s ∧ ¬∀ d ∈ s.delivered, d.reaped = false := by
  have hhandling : (machine .piped 65536).Reachable
      { input := { place := .signal SignalRequest.decoder } } :=
    reach_handling fun _ _ _ _ => trivial
  have hexec : (machine .piped 65536).exec { input := { place := .signal SignalRequest.decoder } }
      [.env .exits, .main .reap, .main .stop, .env (.sends killNotice.body)] = some {
        main := .draining
        input := { place := .signal SignalRequest.decoder, incoming := killNotice.body }
        stopped := true
        exited := true
        reaped := true } := rfl
  have hlate := (Machine.reach_of_exec hhandling hexec).step (a := .relay .poll) trivial
    (poll_killBody rfl rfl)
  refine ⟨_, hlate, fun h => ?_⟩
  exact absurd (h ⟨.kill, true⟩ List.mem_cons_self) (by decide)

end ProcessRun

end Dssh
