import Dssh.Channel.Message
import Dssh.Lib.Machine

/-!
# A session process and its relays

`run_piped` and `run_pty` as a state machine. The main task waits for the output relay or for
the shutdown token, tells the input relay to stop, waits for it, and then terminates the process
if it has to. The input relay is a task of its own: it looks for the stop signal only between
events, and what it does about an event it does to the end. The child reads its input and exits
when it likes, and the client sends its messages in pieces.

Both relays and `terminate` know the child by its process id. The main task knows when the child
has been reaped; the input relay is only told to stop.

What the output relay puts on the channel is not modelled here, only when it has reaped the
child and when it is done.

## Four parties

`mainStep` is the main task with the output relay, which it runs itself. `relayStep` is the
input relay. `envStep` is everybody else: the client, the child, whoever cancels the token or
drops the task, and the runtime, which reaps children that nobody owns. An action names the
party, so the interleaving is arbitrary.

The input relay is modelled down to the reads of its decoders and the writes of `io::copy`,
because the two modules that use this one ask what it does between two polls. `Signals` asks
whether a signal may be delivered to a process id that has been given back. `Stop` asks whether
the relay ever sees the stop signal while the child does not read.

Both need the reaping to be a step of its own. The source's `process.wait()` reaps and records
that it has in one poll, and then the stop signal is sent. In between there is an `await`-free
stretch of code, but the relay is on another thread.

## What is kept of the data

The bytes from the client, since their heads decide what the relay does. Of the data on its way
to the child only the amount, with `capacity` for what fits on the way. `delivered` is the list
of all signals, each with whether the child had been reaped when it was delivered: it is a
record of the run, and nothing reads it.

## Ending

`terminate` sends three signals, with a wait after each of the first two, and looks at the child
in between. Time does not occur in the model. A wait may expire at any time (`expires`). When
the process is dropped before it has been reaped, `Drop` kills it.

## Main definitions

* `Signal`, `Delivery` — signals, and who gets them
* `ProcessRun`, `ProcessRun.step`, `ProcessRun.machine` — the run
* `InputSide`, `MainPlace`, `TerminatePlace` — where its parties are

## Main results

* `tryWait_cases`, `deliver_cases`, `expires_cases` — what `terminate` does in a step
* `copy_cases`, `envStep_cases` — what a copy, and what the others do to the run
-/

namespace Dssh

/-! ## Signals

Names and signals. A delivery is recorded with whether the child had been reaped, since its
number may belong to somebody else from then on. -/

/-- The signals that have a name. -/
inductive Signal where
  | abrt
  | alrm
  | fpe
  | hup
  | ill
  | int
  | kill
  | pipe
  | quit
  | segv
  | term
  | usr1
  | usr2
  | cont
  | stop
  | tstp
  | ttin
  | ttou
  deriving DecidableEq, Repr

/-- `from_ssh_name` -/
def Signal.fromSshName (name : SshString) : Option Signal :=
  match name with
  | "ABRT" => some abrt
  | "ALRM" => some alrm
  | "FPE" => some fpe
  | "HUP" => some hup
  | "ILL" => some ill
  | "INT" => some int
  | "KILL" => some kill
  | "PIPE" => some pipe
  | "QUIT" => some quit
  | "SEGV" => some segv
  | "TERM" => some term
  | "USR1" => some usr1
  | "USR2" => some usr2
  | "CONT" => some cont
  | "STOP" => some stop
  | "TSTP" => some tstp
  | "TTIN" => some ttin
  | "TTOU" => some ttou
  | _ => none

/-- A call of `signal::deliver` with the stored process id, and whether the child had been reaped
by then. -/
structure Delivery where
  /-- Which signal. -/
  signal : Signal
  /-- The child had been waited for already. -/
  reaped : Bool
  deriving DecidableEq, Repr

/-! ## The state

The places of the main task and of the input relay, with what is between them: the stop signal,
the handle of the relay, and the stored process id. -/

/-- Where the input relay is. -/
inductive InputPlace where
  /-- In the `select!`, with `next_event` in progress. -/
  | head (d : Decoder ReadChannelEventError ReaderEvent)
  /-- In `io::copy`, with so many bytes of the payload to come and so many to be written. -/
  | copying (remaining buffered : ℕ)
  /-- Decoding the payload of a signal. -/
  | signal (d : Decoder SessionCodecError SignalRequest)
  /-- Decoding the payload of a window change. -/
  | windowChange (d : Decoder SessionCodecError WindowChangeRequest)
  | ended

/-- The input relay between the client and the child. -/
structure InputSide where
  /-- Where the relay is. -/
  place : InputPlace := .head SshChannelReader.nextEvent
  /-- What has arrived from the client and has not been read. -/
  incoming : List UInt8 := []
  /-- The client sends no more. -/
  finished : Bool := false
  /-- How many bytes the child has not read. -/
  pipe : ℕ := 0
  /-- Nobody will read them any more. -/
  stdinClosed : Bool := false

/-- The relay waits for more, unless there is no more. -/
def InputSide.await (i : InputSide) (place : InputPlace) : InputSide :=
  { i with place := if i.finished then .ended else place, incoming := [] }

/-- Where `terminate` is: before the signals, before and behind each of them. -/
inductive TerminatePlace where
  | check
  | hup
  | waitHup
  | term
  | waitTerm
  | kill
  | waitKill
  deriving DecidableEq

/-- Where the main task is. -/
inductive MainPlace where
  /-- In the `select!`; the output relay waits for output or the child. -/
  | relaying
  /-- The output relay has reaped the child, and has not told the input relay. -/
  | signalling
  /-- In the `select!`; the output relay is past the exit of the child. -/
  | draining
  /-- Behind the `select!`, with the result of the output relay unless there is none. -/
  | leaving (result : Option (Except Unit Unit))
  /-- Waiting for the input relay. -/
  | joining (result : Option (Except Unit Unit))
  /-- In `terminate`, because of a failure or not. -/
  | terminating (place : TerminatePlace) (failed : Bool)
  | returned (result : Except Unit Unit)
  /-- The task is gone, and `SessionProcess` with it. -/
  | dropped
  deriving DecidableEq

/-- `run_piped` or `run_pty` in progress. -/
structure ProcessRun where
  /-- Where the session is. -/
  main : MainPlace := .relaying
  /-- Its input relay, with the pipe to the child. -/
  input : InputSide := {}
  /-- The stop signal has been sent, or its sender dropped. -/
  stopped : Bool := false
  /-- The server is told to shut down. -/
  shutdown : Bool := false
  /-- The child has exited. -/
  exited : Bool := false
  /-- The child has been waited for, and its process id is free. -/
  reaped : Bool := false
  /-- History: the signals that have been delivered. -/
  delivered : List Delivery := []

namespace ProcessRun

/-! ## The main task

The output phase, the stop signal, the wait for the input relay, and `terminate` if something has
gone wrong. Where it looks at the child, it reaps it if it has exited. -/

/-- What the main task and its output relay do. -/
inductive MainAction where
  /-- The token is found cancelled. -/
  | shutdown
  /-- `process.wait()` returns in the output relay. -/
  | reap
  /-- The output relay tells the input relay to stop. -/
  | stop
  /-- The output relay returns; it cannot be done before the child has been reaped. -/
  | outputEnds (ok : Bool)
  /-- `signal_input_relay_stop` behind the `select!`. -/
  | leave
  /-- The input relay has ended. -/
  | join
  /-- `try_wait`, or the last `wait`, in `terminate`. -/
  | tryWait
  | waitFails
  /-- `terminate` delivers the next signal. -/
  | deliver
  /-- A grace period is over. -/
  | expires
  deriving DecidableEq

/-- `signal::deliver` with the stored process id. -/
def deliver (s : ProcessRun) (signal : Signal) : ProcessRun :=
  { s with delivered := s.delivered ++ [⟨signal, s.reaped⟩] }

/-- What `run_piped` returns after `terminate`. -/
def afterTerminate (failed ok : Bool) : MainPlace :=
  .returned (if failed || !ok then .error () else .ok ())

/-- What follows the input relay. -/
def afterJoin : Option (Except Unit Unit) → MainPlace
  | some (.ok ()) => .returned (.ok ())
  | some (.error ()) => .terminating .check true
  | none => .terminating .check false

/-- One look at the child in `terminate`. -/
def tryWait (s : ProcessRun) (place : TerminatePlace) (failed : Bool) : Option ProcessRun :=
  match place with
  | .check =>
    if s.reaped then some { s with main := afterTerminate failed true }
    else if s.exited then some { s with main := afterTerminate failed true, reaped := true }
    else some { s with main := .terminating .hup failed }
  | .waitHup | .waitTerm | .waitKill =>
    if s.exited then some { s with main := afterTerminate failed true, reaped := true } else none
  | _ => none

/-- A step of the main task. -/
def mainStep (s : ProcessRun) : MainAction → Option ProcessRun
  | .shutdown =>
    if (s.main = .relaying ∨ s.main = .draining) ∧ s.shutdown then
      some { s with main := .leaving none }
    else none
  | .reap =>
    if s.main = .relaying ∧ s.exited then some { s with main := .signalling, reaped := true }
    else none
  | .stop =>
    if s.main = .signalling then some { s with main := .draining, stopped := true } else none
  | .outputEnds ok =>
    if s.main = .draining ∨ s.main = .relaying ∧ ok = false then
      some { s with main := .leaving (some (if ok then .ok () else .error ())) }
    else none
  | .leave =>
    match s.main with
    | .leaving result => some { s with main := .joining result, stopped := true }
    | _ => none
  | .join =>
    match s.main, s.input.place with
    | .joining result, .ended => some { s with main := afterJoin result }
    | _, _ => none
  | .tryWait =>
    match s.main with
    | .terminating place failed => s.tryWait place failed
    | _ => none
  | .waitFails =>
    match s.main with
    | .terminating place failed =>
      if place ∈ [.check, .waitHup, .waitTerm, .waitKill] then
        some { s with main := afterTerminate failed false }
      else none
    | _ => none
  | .deliver =>
    match s.main with
    | .terminating .hup failed => some { s.deliver .hup with main := .terminating .waitHup failed }
    | .terminating .term failed =>
      some { s.deliver .term with main := .terminating .waitTerm failed }
    | .terminating .kill failed =>
      some { s.deliver .kill with main := .terminating .waitKill failed }
    | _ => none
  | .expires =>
    match s.main with
    | .terminating .waitHup failed => some { s with main := .terminating .term failed }
    | .terminating .waitTerm failed => some { s with main := .terminating .kill failed }
    | _ => none

/-! ## The input relay

Decoding is done in steps here, because the relay may be suspended inside of a payload. Copying
goes through a buffer, and is suspended if the child does not read. -/

/-- Whether the child has its input on a pipe or on a terminal. -/
inductive Mode where
  | piped
  | pty
  deriving DecidableEq

/-- Back in the `select!`. -/
abbrev atHead : InputPlace := .head SshChannelReader.nextEvent

/-- Where the relay goes with an event. -/
def onEvent (mode : Mode) : ReaderEvent → InputPlace
  | .data n => .copying n 0
  | .notice requestType =>
    match mode, requestType with
    | _, "signal" => .signal SignalRequest.decoder
    | .pty, "window-change" => .windowChange WindowChangeRequest.decoder
    | _, _ => .ended
  | .eof => .ended
  | .close => .ended
  | .extendedData _ _ => atHead
  | .success => atHead
  | .failure => atHead

/-- `deliver_to_pid` -/
def deliverToPid (s : ProcessRun) (signalName : SshString) : ProcessRun :=
  match Signal.fromSshName signalName with
  | some signal => s.deliver signal
  | none => s

/-- What the input relay does. -/
inductive RelayAction where
  /-- The relay is polled in the `select!`, or while it decodes a payload. It takes what has
  arrived. -/
  | poll
  /-- `io::copy` reads so many bytes of the payload. -/
  | copyRead (n : ℕ)
  /-- `io::copy` writes so many bytes to the child. -/
  | copyWrite (n : ℕ)
  /-- `io::copy` finds the payload at its end, or the stream. -/
  | copyEnds
  /-- `io::copy` finds that nobody reads what it writes. -/
  | copyFails
  deriving DecidableEq

/-- The buffer of `io::copy`. -/
def copyBufSize : ℕ := 8192

/-- `capacity` is what fits on the way to the child. -/
def relayStep (mode : Mode) (capacity : ℕ) (s : ProcessRun) : RelayAction → Option ProcessRun
  | .poll =>
    match s.input.place with
    | .head d =>
      if s.stopped then some { s with input := { s.input with place := .ended } }
      else
        match d.feed s.input.incoming with
        | (.done event, rest) =>
          some { s with input := { s.input with place := onEvent mode event, incoming := rest } }
        | (.fail _, rest) =>
          some { s with input := { s.input with place := .ended, incoming := rest } }
        | (.read io k, _) => some { s with input := s.input.await (.head (.read io k)) }
    | .signal d =>
      match d.feed s.input.incoming with
      | (.done r, rest) =>
        some { s.deliverToPid r.signalName with
          input := { s.input with place := atHead, incoming := rest } }
      | (.fail _, rest) =>
        some { s with input := { s.input with place := .ended, incoming := rest } }
      | (.read io k, _) => some { s with input := s.input.await (.signal (.read io k)) }
    | .windowChange d =>
      match d.feed s.input.incoming with
      | (.done _, rest) =>
        some { s with input := { s.input with place := atHead, incoming := rest } }
      | (.fail _, rest) =>
        some { s with input := { s.input with place := .ended, incoming := rest } }
      | (.read io k, _) => some { s with input := s.input.await (.windowChange (.read io k)) }
    | _ => none
  | .copyRead n =>
    match s.input.place with
    | .copying remaining buffered =>
      if 0 < n ∧ n ≤ remaining ∧ n ≤ s.input.incoming.length ∧ buffered + n ≤ copyBufSize then
        some { s with input := { s.input with
          place := .copying (remaining - n) (buffered + n)
          incoming := s.input.incoming.drop n } }
      else none
    | _ => none
  | .copyWrite n =>
    match s.input.place with
    | .copying remaining buffered =>
      if 0 < n ∧ n ≤ buffered ∧ s.input.pipe + n ≤ capacity ∧ s.input.stdinClosed = false then
        some { s with input := { s.input with
          place := .copying remaining (buffered - n), pipe := s.input.pipe + n } }
      else none
    | _ => none
  | .copyEnds =>
    match s.input.place with
    | .copying remaining 0 =>
      if remaining = 0 ∨ s.input.incoming = [] ∧ s.input.finished then
        some { s with input := { s.input with place := atHead } }
      else none
    | _ => none
  | .copyFails =>
    match s.input.place with
    | .copying _ (_ + 1) =>
      if s.input.stdinClosed then some { s with input := { s.input with place := .ended } }
      else none
    | _ => none

/-! ## The others

The child exits, reads or closes its input; the client sends bytes or ends the stream; the token
is cancelled; and the whole may be dropped. -/

/-- What the others do. -/
inductive EnvAction where
  /-- Bytes of the client arrive. -/
  | sends (bs : List UInt8)
  /-- The client ends its stream. -/
  | finishes
  /-- The child reads so much of its input. -/
  | reads (n : ℕ)
  /-- The child closes its input. -/
  | closesStdin
  /-- The child exits, by itself or by a signal. -/
  | exits
  /-- Somebody cancels the token. -/
  | cancelsShutdown
  /-- The task is aborted, or has returned: what it owns is dropped. -/
  | drops
  /-- The runtime waits for a child that nobody owns any more. -/
  | reapsOrphan
  deriving DecidableEq

/-- `SessionProcess` is dropped, after the sender of the stop signal. -/
def drop (s : ProcessRun) : ProcessRun :=
  { (if s.reaped then s else s.deliver .kill) with main := .dropped, stopped := true }

/-- A step of one of the others. -/
def envStep (s : ProcessRun) : EnvAction → Option ProcessRun
  | .sends bs =>
    if s.input.finished then none
    else some { s with input := { s.input with incoming := s.input.incoming ++ bs } }
  | .finishes => some { s with input := { s.input with finished := true } }
  | .reads n =>
    if n ≤ s.input.pipe then some { s with input := { s.input with pipe := s.input.pipe - n } }
    else none
  | .closesStdin => some { s with input := { s.input with stdinClosed := true } }
  | .exits => some { s with exited := true }
  | .cancelsShutdown => some { s with shutdown := true }
  -- the output relay tells the input relay to stop before it can be dropped
  | .drops => if s.main = .dropped ∨ s.main = .signalling then none else some s.drop
  | .reapsOrphan =>
    if s.main = .dropped ∧ s.exited then some { s with reaped := true } else none

/-- A step of a party. -/
inductive Action where
  | main (a : MainAction)
  | relay (a : RelayAction)
  | env (a : EnvAction)
  deriving DecidableEq

def step (mode : Mode) (capacity : ℕ) (s : ProcessRun) : Action → Option ProcessRun
  | .main a => s.mainStep a
  | .relay a => s.relayStep mode capacity a
  | .env a => s.envStep a

/-- `run_piped` or `run_pty`, from the spawning of the input relay on. -/
def machine (mode : Mode) (capacity : ℕ) : Machine ProcessRun Action := ⟨{}, step mode capacity⟩

/-! ## What the steps do

What each step may touch. These are the lemmas that the next two modules use instead of the step
functions. -/

variable {mode : Mode} {capacity : ℕ} {s t : ProcessRun}

/-- A look at the child: it has been reaped, it is reaped now, or the signals follow. -/
theorem tryWait_cases {place : TerminatePlace} {failed : Bool}
    (h : s.tryWait place failed = some t) :
    t = { s with main := afterTerminate failed true } ∨
      t = { s with main := afterTerminate failed true, reaped := true } ∨
      s.reaped = false ∧ t = { s with main := .terminating .hup failed } := by
  unfold tryWait at h
  split at h
  · split at h
    · cases h
      exact Or.inl rfl
    · rename_i hreaped
      split at h <;> cases h
      · exact Or.inr (Or.inl rfl)
      · exact Or.inr (Or.inr ⟨Bool.eq_false_iff.mpr hreaped, rfl⟩)
  · split at h <;> cases h
    exact Or.inr (Or.inl rfl)
  · split at h <;> cases h
    exact Or.inr (Or.inl rfl)
  · split at h <;> cases h
    exact Or.inr (Or.inl rfl)
  · cases h

/-- `terminate` sends a signal. -/
theorem deliver_cases (h : s.mainStep .deliver = some t) :
    ∃ place next failed signal, s.main = .terminating place failed ∧ place ≠ .check ∧
      t = { s.deliver signal with main := .terminating next failed } := by
  simp only [mainStep] at h
  split at h <;> cases h
  all_goals
    rename_i hmain
    exact ⟨_, _, _, _, hmain, by decide, rfl⟩

/-- A wait comes to its end. -/
theorem expires_cases (h : s.mainStep .expires = some t) :
    ∃ place next failed, s.main = .terminating place failed ∧ place ≠ .check ∧
      t = { s with main := .terminating next failed } := by
  simp only [mainStep] at h
  split at h <;> cases h
  all_goals
    rename_i hmain
    exact ⟨_, _, _, hmain, by decide, rfl⟩

/-- `io::copy` keeps to the input relay, takes no signal, and writes what there is room for. -/
theorem copy_cases {a : RelayAction} (ha : a ≠ .poll) (h : s.relayStep mode capacity a = some t) :
    ∃ input : InputSide, t = { s with input := input } ∧ (∀ d, input.place ≠ .signal d) ∧
      (s.input.pipe ≤ capacity → input.pipe ≤ capacity) := by
  cases a with
  | poll => exact absurd rfl ha
  | copyWrite n =>
    simp only [relayStep] at h
    split at h
    · split at h <;> cases h
      rename_i hn
      exact ⟨_, rfl, by simp, fun _ => hn.2.2.1⟩
    · cases h
  | _ =>
    simp only [relayStep] at h
    split at h
    · split at h <;> cases h
      exact ⟨_, rfl, by simp, id⟩
    · cases h

/-- The child, the client and the token leave the relay and the main task where they are, but for
`Drop` and for the reaping behind it. -/
theorem envStep_cases {a : EnvAction} (h : s.envStep a = some t) :
    (∃ (input : InputSide) (shutdown exited : Bool),
      t = { s with input := input, shutdown := shutdown, exited := exited } ∧
        input.place = s.input.place ∧ input.pipe ≤ s.input.pipe) ∨
    t = s.drop ∨ a = .reapsOrphan ∧ s.main = .dropped ∧ t = { s with reaped := true } := by
  cases a with
  | drops =>
    simp only [envStep] at h
    split at h <;> cases h
    exact Or.inr (Or.inl rfl)
  | reapsOrphan =>
    simp only [envStep] at h
    split at h <;> cases h
    rename_i horphan
    exact Or.inr (Or.inr ⟨rfl, horphan.1, rfl⟩)
  | sends bs =>
    simp only [envStep] at h
    split at h <;> cases h
    exact Or.inl ⟨_, _, _, rfl, rfl, le_rfl⟩
  | reads n =>
    simp only [envStep] at h
    split at h <;> cases h
    exact Or.inl ⟨_, _, _, rfl, rfl, Nat.sub_le _ _⟩
  | _ =>
    cases h
    exact Or.inl ⟨_, _, _, rfl, rfl, le_rfl⟩

end ProcessRun

end Dssh
