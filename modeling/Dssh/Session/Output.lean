import Dssh.Channel.Message
import Dssh.Lib.Machine

/-!
# Relaying the output of a process

The output phase of `run_piped` and `run_pty`: the output of the process is read chunk by chunk
and sent as data messages, its exit is announced when it is noticed, and when both the output
and the exit are through, EOF and close follow.

A run is one order in which `select!` may see what happens. Its actions say which branch is
taken, and for a read how many bytes it returns; the bytes the process is going to write and the
status it is going to exit with are part of the initial state. `relay_output_pty` takes the same
way as `relay_output_piped` would if its second pipe was at its end from the beginning.

## What the process is

Two texts and a number. This is not all there is to a process, but it is all that its output
relay gets to see: bytes on one or two descriptors, in chunks of any size, an end on each of
them, and a status. That the process writes its texts in some order and with pauses is in the
choice of the actions. The exit may be noticed at any point, in particular before the output has
been read, since the pipes outlive the process. A terminal has two ways to report its end, zero
bytes and `EIO`, and the source treats them alike.

## The accounting

`Sent` says of a list of messages that it is what has been sent: the data in it, together with
what is still to be read, is the text, for each of the two; there is one notice of the exit if
it has been noticed, and none otherwise. What has been written are these messages, with EOF and
close behind them when the relay has returned. Each step adds a message or none, and keeps this.

Then every run ends. A read takes bytes away, an end is seen once, the exit is noticed once
(`toCome_lt`). And it does not end early, because something can happen as long as the relay has
not returned (`Inv.progress`). So a relay that nobody disturbs has sent everything, in the order
it was written, and one notice.

## How a process ends

The wait status is the number of the kernel, with the fields it packs. `exit-signal` has a name:
the source has those of the signals it knows, and makes one from the number for the others. What
the client makes of the notice is in `ClientOutput`.

## Main definitions

* `ExitStatus`, `exitNotice` — how a process ends, and how this is announced
* `OutputRelay`, `OutputRelay.step`, `runPiped`, `runPty` — the relay
* `OutputRelay.Sent`, `OutputRelay.Inv` — the accounting

## Main results

* `OutputRelay.Inv.step` — what has been sent is what has been read, and the exit if it was
  noticed
* `OutputRelay.Inv.progress`, `OutputRelay.toCome_lt` — something can happen, and not for ever
* `OutputRelay.Inv.returned` — every run ends with EOF and close behind everything else
-/

namespace Dssh

/-! ## How a process ends

A wait status is one number, and the three questions about it are those of the C library. Which
of the two notices is sent depends on the first. -/

/-- `std::process::ExitStatus`: the wait status of a process that has ended. -/
structure ExitStatus where
  /-- As `waitpid` returns it. -/
  raw : ℕ
  deriving DecidableEq, Repr

namespace ExitStatus

/-- The signal that has ended the process, `WTERMSIG`. -/
def signal (status : ExitStatus) : Option ℕ :=
  let n := status.raw % 128
  if 0 < n ∧ n < 127 then some n else none

/-- The code that the process has exited with, `WEXITSTATUS`. -/
def code (status : ExitStatus) : Option ℕ :=
  if status.raw % 128 = 0 then some (status.raw / 256 % 256) else none

/-- `WCOREDUMP`. -/
def coreDumped (status : ExitStatus) : Bool :=
  status.signal.isSome && status.raw / 128 % 2 == 1

/-- The numbers of signals have seven bits. -/
theorem signal_lt {status : ExitStatus} {n : ℕ} (h : status.signal = some n) : n < 127 := by
  rw [signal] at h
  split_ifs at h with hn
  obtain rfl := Option.some.inj h
  exact hn.2

/-- Exit codes have eight. -/
theorem code_lt {status : ExitStatus} {n : ℕ} (h : status.code = some n) : n < 256 := by
  rw [code] at h
  split_ifs at h
  obtain rfl := Option.some.inj h
  exact Nat.mod_lt _ (by decide)

end ExitStatus

/-- The name of a signal, for the numbers that Linux gives them. -/
def toSshName (signalNumber : ℕ) : Option SshString :=
  match signalNumber with
  | 6 => some "ABRT"
  | 14 => some "ALRM"
  | 8 => some "FPE"
  | 1 => some "HUP"
  | 4 => some "ILL"
  | 2 => some "INT"
  | 9 => some "KILL"
  | 13 => some "PIPE"
  | 3 => some "QUIT"
  | 11 => some "SEGV"
  | 15 => some "TERM"
  | 10 => some "USR1"
  | 12 => some "USR2"
  | 18 => some "CONT"
  | 19 => some "STOP"
  | 20 => some "TSTP"
  | 21 => some "TTIN"
  | 22 => some "TTOU"
  | _ => none

/-- The name under which a signal is reported. -/
def signalName (signalNumber : ℕ) : SshString :=
  (toSshName signalNumber).getD s!"signal-{signalNumber}@dshell"

/-- The notice that announces how the process has ended. -/
def exitNotice (status : ExitStatus) : SessionRequest :=
  match status.signal with
  | some signalNumber => .exitSignal ⟨signalName signalNumber, status.coreDumped, "", ""⟩
  | none => .exitStatus ⟨.ofNat (status.code.getD 255)⟩

/-- What `send_exit_notification` writes. -/
def sendExitNotification (status : ExitStatus) : List UInt8 :=
  SshChannelWriter.notice (exitNotice status)

/-- Signal names are short. -/
theorem signalName_length : ∀ n : Fin 127, (signalName n).utf8.length ≤ maxRemoteFieldSize := by
  decide

/-- A notice of the exit can be read. -/
theorem exitNotice_bounded (status : ExitStatus) : (exitNotice status).Bounded := by
  rw [exitNotice]
  cases hsignal : status.signal with
  | none => exact ⟨nofun, nofun⟩
  | some n =>
    have hempty : (SshString.utf8 "").length ≤ maxRemoteFieldSize := by decide
    exact ExitSignalRequest.bounded_iff.mpr
      ⟨signalName_length ⟨n, ExitStatus.signal_lt hsignal⟩, hempty, hempty⟩

/-! ## The relay

The loop over both pipes with the exit in between, and what comes behind it. A process with a
terminal has one pipe; the other one is at its end from the start. -/

/-- `SSH_EXTENDED_DATA_STDERR` -/
def sshExtendedDataStderr : VarInt := .ofNat 1

namespace OutputRelay

/-- Where the output phase is. -/
inductive Place where
  /-- At the head of the loop. -/
  | relaying
  /-- Behind the loop, in `process.wait()`. -/
  | waiting
  | returned
  /-- A length was no `VarInt`. -/
  | panicked
  deriving DecidableEq

end OutputRelay

/-- The output phase of `run_piped` or `run_pty`. -/
structure OutputRelay where
  /-- What the process is still going to write to its standard output, or to its terminal. -/
  stdout : List UInt8
  /-- What it is still going to write to its standard error. -/
  stderr : List UInt8
  /-- How it is going to end. -/
  status : ExitStatus
  /-- The output is read from the master of a terminal. -/
  pty : Bool
  /-- Its standard output has been read to the end. -/
  stdoutDone : Bool := false
  /-- Its standard error has. -/
  stderrDone : Bool := false
  /-- It has been waited for. -/
  exitStatus : Option ExitStatus := none
  /-- What has been written to the channel. -/
  written : List UInt8 := []
  /-- Where the loop is. -/
  place : OutputRelay.Place := .relaying
  deriving DecidableEq

namespace OutputRelay

/-- Which branch of `select!` is taken, or which `await` returns. -/
inductive Action where
  /-- `n` bytes of the standard output are read. -/
  | readStdout (n : ℕ)
  /-- The read of the standard output returns zero. -/
  | stdoutEnd
  /-- The read of the master of a terminal fails with `EIO`. -/
  | eio
  /-- `n` bytes of the standard error are read. -/
  | readStderr (n : ℕ)
  /-- The read of the standard error returns zero. -/
  | stderrEnd
  /-- The process has ended. -/
  | exit
  deriving DecidableEq

/-- Write to the channel; `none` is a call that panics. -/
def send (t : OutputRelay) : Option (List UInt8) → OutputRelay
  | some bs => { t with written := t.written ++ bs }
  | none => { t with place := .panicked }

/-- What follows the relay: EOF and close. -/
def finish (t : OutputRelay) : OutputRelay :=
  { t with
    written := t.written ++ SshChannelWriter.eof ++ SshChannelWriter.close
    place := .returned }

/-- Evaluate the condition of the loop. -/
def loopHead (t : OutputRelay) : OutputRelay :=
  if t.stdoutDone && t.stderrDone then
    match t.exitStatus with
    | some _ => t.finish
    | none => { t with place := .waiting }
  else t

/-- Announce the exit. -/
def notifyExit (t : OutputRelay) : OutputRelay :=
  { t with exitStatus := some t.status }.send (some (sendExitNotification t.status))

/-- The size of the buffers. -/
def bufferSize : ℕ := 8192

/-- One step of the relay. -/
def step (t : OutputRelay) : Action → Option OutputRelay
  | .readStdout n =>
    if t.place = .relaying ∧ t.stdoutDone = false ∧ 0 < n ∧ n ≤ bufferSize ∧
        n ≤ t.stdout.length then
      some ({ t with stdout := t.stdout.drop n }.send (SshChannelWriter.data (t.stdout.take n)))
    else none
  | .stdoutEnd =>
    if t.place = .relaying ∧ t.stdoutDone = false ∧ t.stdout = [] then
      some { t with stdoutDone := true }.loopHead
    else none
  | .eio =>
    if t.place = .relaying ∧ t.stdoutDone = false ∧ t.stdout = [] ∧ t.pty then
      some { t with stdoutDone := true }.loopHead
    else none
  | .readStderr n =>
    if t.place = .relaying ∧ t.stderrDone = false ∧ 0 < n ∧ n ≤ bufferSize ∧
        n ≤ t.stderr.length then
      some ({ t with stderr := t.stderr.drop n }.send
        (SshChannelWriter.extendedData sshExtendedDataStderr (t.stderr.take n)))
    else none
  | .stderrEnd =>
    if t.place = .relaying ∧ t.stderrDone = false ∧ t.stderr = [] then
      some { t with stderrDone := true }.loopHead
    else none
  | .exit =>
    if t.exitStatus = none then
      match t.place with
      | .relaying => some t.notifyExit
      | .waiting => some t.notifyExit.finish
      | _ => none
    else none

end OutputRelay

/-- The output phase of `run_piped`. -/
def runPiped (stdout stderr : List UInt8) (status : ExitStatus) :
    Machine OutputRelay OutputRelay.Action :=
  ⟨{ stdout := stdout, stderr := stderr, status := status, pty := false }, OutputRelay.step⟩

/-- The output phase of `run_pty`: there is no standard error beside the terminal. -/
def runPty (master : List UInt8) (status : ExitStatus) : Machine OutputRelay OutputRelay.Action :=
  ⟨{ stdout := master, stderr := [], status := status, pty := true, stderrDone := true },
    OutputRelay.step⟩

namespace OutputRelay

/-! ## What is sent

The messages by their kinds. What is important about them is the contents of the two streams, in
order, and the notices. -/

/-- The notices among the messages. -/
def noticesOf (ms : List ChannelMessage) : List SessionRequest :=
  ms.filterMap fun | .request rq false => some rq | _ => none

/-- The messages that the relay sends for a process that ends with `status`. -/
inductive FromRelay (status : ExitStatus) : ChannelMessage → Prop
  | data {bytes : List UInt8} (h : bytes.length < 2 ^ 62) : FromRelay status (.data bytes)
  | extendedData {bytes : List UInt8} (h : bytes.length < 2 ^ 62) :
      FromRelay status (.extendedData sshExtendedDataStderr bytes)
  | exit : FromRelay status (.request (exitNotice status) false)

/-- The relay sends nothing that is too long. -/
theorem FromRelay.writable {status : ExitStatus} {m : ChannelMessage} (h : FromRelay status m) :
    m.Writable := by
  cases h with
  | data h => exact h
  | extendedData h => exact h
  | exit => trivial

/-- What `run_piped` and `run_pty` send last. -/
def closing : Place → List ChannelMessage
  | .returned => [.eof, .close]
  | _ => []

/-- The messages sent so far, and the output they leave to come. -/
structure Sent (out err : List UInt8) (status : ExitStatus) (ms : List ChannelMessage)
    (t : OutputRelay) : Prop where
  /-- There are no others. -/
  from_relay : ∀ m ∈ ms, FromRelay status m
  /-- The DATA, with what is still to come. -/
  stdout : ChannelMessage.dataOf ms ++ t.stdout = out
  /-- The EXTENDED_DATA, with what is still to come. -/
  stderr : ChannelMessage.extendedDataOf ms ++ t.stderr = err
  /-- The end is told once, and not before it is known. -/
  notices : noticesOf ms = if t.exitStatus.isSome then [exitNotice status] else []
  /-- They are on the channel, with EOF and close behind them when the relay is done. -/
  written : t.written = ChannelMessage.stream (ms ++ closing t.place)

/-- The invariant of the relay. -/
structure Inv (out err : List UInt8) (status : ExitStatus) (t : OutputRelay) : Prop where
  /-- The process ends as it was going to. -/
  status_eq : t.status = status
  /-- What has been written are messages. -/
  sent : ∃ ms, Sent out err status ms t
  /-- An output is done when nothing is left of it … -/
  stdout_done : t.stdoutDone = true → t.stdout = []
  /-- … and so is the other. -/
  stderr_done : t.stderrDone = true → t.stderr = []
  /-- The relay waits for the process only behind both, and returns only behind that. -/
  place : match t.place with
    | .relaying => (t.stdoutDone && t.stderrDone) = false
    | .waiting => (t.stdoutDone && t.stderrDone) = true ∧ t.exitStatus = none
    | .returned => (t.stdoutDone && t.stderrDone) = true ∧ t.exitStatus.isSome
    | .panicked => False

variable {out err : List UInt8} {status : ExitStatus} {t t' : OutputRelay}

/-! ## What a step does

The step function by its actions, each with the state that it needs. -/

/-- A chunk of the standard output, … -/
theorem step_readStdout {n : ℕ} (h : step t (.readStdout n) = some t') :
    (t.place = .relaying ∧ t.stdoutDone = false ∧ 0 < n ∧ n ≤ bufferSize ∧ n ≤ t.stdout.length) ∧
      t' = { t with stdout := t.stdout.drop n }.send (SshChannelWriter.data (t.stdout.take n)) := by
  rw [step] at h
  split_ifs at h with hguard
  exact ⟨hguard, (Option.some.inj h).symm⟩

/-- … and one of the standard error. -/
theorem step_readStderr {n : ℕ} (h : step t (.readStderr n) = some t') :
    (t.place = .relaying ∧ t.stderrDone = false ∧ 0 < n ∧ n ≤ bufferSize ∧ n ≤ t.stderr.length) ∧
      t' = { t with stderr := t.stderr.drop n }.send
        (SshChannelWriter.extendedData sshExtendedDataStderr (t.stderr.take n)) := by
  rw [step] at h
  split_ifs at h with hguard
  exact ⟨hguard, (Option.some.inj h).symm⟩

/-- A terminal has two ways to report the end of the output. -/
theorem step_stdoutDone {a : Action} (ha : a = .stdoutEnd ∨ a = .eio) (h : step t a = some t') :
    (t.place = .relaying ∧ t.stdoutDone = false ∧ t.stdout = []) ∧
      t' = { t with stdoutDone := true }.loopHead := by
  rcases ha with rfl | rfl
  · rw [step] at h
    split_ifs at h with hguard
    exact ⟨hguard, (Option.some.inj h).symm⟩
  · rw [step] at h
    split_ifs at h with hguard
    obtain ⟨hplace, hmore, hnil, -⟩ := hguard
    exact ⟨⟨hplace, hmore, hnil⟩, (Option.some.inj h).symm⟩

/-- The standard error has ended. -/
theorem step_stderrEnd (h : step t .stderrEnd = some t') :
    (t.place = .relaying ∧ t.stderrDone = false ∧ t.stderr = []) ∧
      t' = { t with stderrDone := true }.loopHead := by
  rw [step] at h
  split_ifs at h with hguard
  exact ⟨hguard, (Option.some.inj h).symm⟩

/-- The exit is noticed in the loop or behind it. -/
theorem step_exit (h : step t .exit = some t') : t.exitStatus = none ∧
    (t.place = .relaying ∧ t' = t.notifyExit ∨ t.place = .waiting ∧ t' = t.notifyExit.finish) := by
  rw [step] at h
  split_ifs at h with hnone
  refine ⟨hnone, ?_⟩
  cases hplace : t.place with
  | relaying => rw [hplace] at h; exact Or.inl ⟨rfl, (Option.some.inj h).symm⟩
  | waiting => rw [hplace] at h; exact Or.inr ⟨rfl, (Option.some.inj h).symm⟩
  | returned => rw [hplace] at h; cases h
  | panicked => rw [hplace] at h; cases h

/-! ## The accounting

What has been sent and what is still in the pipes are together what the process has written. The
exit is announced once, and nothing comes behind EOF and close. -/

/-- A message that can be written is written. -/
theorem send_write {m : ChannelMessage} (h : m.Writable) (t : OutputRelay) :
    t.send m.write = { t with written := t.written ++ ChannelMessage.stream [m] } := by
  rw [ChannelMessage.write_eq h]
  simp [send]

/-- Both pipes have ended and the exit has been announced: the relay returns. -/
theorem loopHead_finish (h : (t.stdoutDone && t.stderrDone) = true) (hexit : t.exitStatus.isSome) :
    t.loopHead = t.finish := by
  obtain ⟨s, hs⟩ := Option.isSome_iff_exists.mp hexit
  rw [loopHead, if_pos h, hs]

/-- Both pipes have ended and the process has not. -/
theorem loopHead_waiting (h : (t.stdoutDone && t.stderrDone) = true) (hexit : t.exitStatus = none) :
    t.loopHead = { t with place := .waiting } := by
  rw [loopHead, if_pos h, hexit]

/-- One of the pipes is open. -/
theorem loopHead_relaying (h : ¬ (t.stdoutDone && t.stderrDone) = true) : t.loopHead = t := by
  rw [loopHead, if_neg h]

/-- EOF and close behind everything else. -/
theorem Inv.finish {ms : List ChannelMessage} (hstatus : t.status = status)
    (hsent : Sent out err status ms t) (hclosing : closing t.place = [])
    (hstdout : t.stdoutDone = true → t.stdout = []) (hstderr : t.stderrDone = true → t.stderr = [])
    (hdone : (t.stdoutDone && t.stderrDone) = true) (hexit : t.exitStatus.isSome) :
    Inv out err status t.finish := by
  refine ⟨hstatus, ⟨ms, hsent.from_relay, hsent.stdout, hsent.stderr, hsent.notices, ?_⟩,
    hstdout, hstderr, hdone, hexit⟩
  have hwritten := hsent.written
  rw [hclosing, List.append_nil] at hwritten
  simp [OutputRelay.finish, hwritten, closing, ChannelMessage.stream_append, ChannelMessage.head,
    ChannelMessage.body, SshChannelWriter.eof, SshChannelWriter.close]

/-- The end of one of the pipes. -/
theorem Inv.loopHead {ms : List ChannelMessage} (hstatus : t.status = status)
    (hsent : Sent out err status ms t) (hstdout : t.stdoutDone = true → t.stdout = [])
    (hstderr : t.stderrDone = true → t.stderr = []) (hplace : t.place = .relaying) :
    Inv out err status t.loopHead := by
  have hclosing : closing t.place = [] := by rw [hplace]; rfl
  by_cases hdone : (t.stdoutDone && t.stderrDone) = true
  · cases hexit : t.exitStatus with
    | none =>
      rw [loopHead_waiting hdone hexit]
      have hwritten := hsent.written
      rw [hclosing] at hwritten
      exact ⟨hstatus, ⟨ms, hsent.from_relay, hsent.stdout, hsent.stderr, hsent.notices, hwritten⟩,
        hstdout, hstderr, hdone, hexit⟩
    | some s =>
      have hsome : t.exitStatus.isSome := by rw [hexit]; rfl
      rw [loopHead_finish hdone hsome]
      exact .finish hstatus hsent hclosing hstdout hstderr hdone hsome
  · rw [loopHead_relaying hdone]
    exact ⟨hstatus, ⟨ms, hsent⟩, hstdout, hstderr, by rw [hplace]; simpa using hdone⟩

/-- What has been written is a part of what is going to be. -/
theorem Sent.written_prefix {ms : List ChannelMessage} (hsent : Sent out err status ms t) :
    t.written <+: ChannelMessage.stream (ms ++ [.eof, .close]) := by
  rw [hsent.written, ChannelMessage.stream_append, ChannelMessage.stream_append]
  refine (List.prefix_append_right_inj _).mpr ?_
  cases t.place with
  | returned => exact List.prefix_rfl
  | _ => exact List.nil_prefix

/-- Seeing the end of a pipe sends nothing. -/
theorem Sent.done {ms : List ChannelMessage} (hsent : Sent out err status ms t)
    (stdoutDone stderrDone : Bool) :
    Sent out err status ms { t with stdoutDone := stdoutDone, stderrDone := stderrDone } :=
  ⟨hsent.from_relay, hsent.stdout, hsent.stderr, hsent.notices, hsent.written⟩

/-- A message more. -/
theorem Sent.send {ms : List ChannelMessage} (hsent : Sent out err status ms t)
    (hclosing : closing t.place = []) {m : ChannelMessage} (hm : FromRelay status m)
    (stdout stderr : List UInt8) (exitStatus : Option ExitStatus)
    (hstdout : ChannelMessage.dataOf [m] ++ stdout = t.stdout)
    (hstderr : ChannelMessage.extendedDataOf [m] ++ stderr = t.stderr)
    (hnotices : noticesOf (ms ++ [m]) = if exitStatus.isSome then [exitNotice status] else []) :
    Sent out err status (ms ++ [m])
      (send { t with stdout := stdout, stderr := stderr, exitStatus := exitStatus } m.write) := by
  have hwritten := hsent.written
  rw [hclosing, List.append_nil] at hwritten
  rw [send_write hm.writable]
  refine ⟨?_, ?_, ?_, hnotices, ?_⟩
  · simpa using fun m' hm' => hm'.elim (hsent.from_relay m') (fun h => h ▸ hm)
  · rw [← hsent.stdout, ← hstdout, ← List.append_assoc]
    simp [ChannelMessage.dataOf]
  · rw [← hsent.stderr, ← hstderr, ← List.append_assoc]
    simp [ChannelMessage.extendedDataOf]
  · simp [hwritten, hclosing, ChannelMessage.stream_append]

/-- A chunk is sent as it was read. -/
theorem Inv.readStdout (ht : Inv out err status t) {n : ℕ} (h : step t (.readStdout n) = some t') :
    Inv out err status t' := by
  obtain ⟨⟨hplace, hmore, -, hn, -⟩, rfl⟩ := step_readStdout h
  obtain ⟨ms, hsent⟩ := ht.sent
  have hwhere := ht.place
  rw [hplace] at hwhere
  have hm : FromRelay status (.data (t.stdout.take n)) :=
    .data (lt_of_le_of_lt (List.length_take_le _ _) (lt_of_le_of_lt hn (by decide)))
  have hsent' := hsent.send (by rw [hplace]; rfl) hm (t.stdout.drop n) t.stderr t.exitStatus
    (by simp [ChannelMessage.dataOf]) rfl (by rw [← hsent.notices]; simp [noticesOf])
  change Inv out err status (send _ (ChannelMessage.data (t.stdout.take n)).write)
  rw [send_write hm.writable] at hsent' ⊢
  refine ⟨ht.status_eq, ⟨_, hsent'⟩, fun hdone => ?_, ht.stderr_done,
    by simpa [hplace] using hwhere⟩
  rw [hmore] at hdone
  cases hdone

/-- The same for errors. -/
theorem Inv.readStderr (ht : Inv out err status t) {n : ℕ} (h : step t (.readStderr n) = some t') :
    Inv out err status t' := by
  obtain ⟨⟨hplace, hmore, -, hn, -⟩, rfl⟩ := step_readStderr h
  obtain ⟨ms, hsent⟩ := ht.sent
  have hwhere := ht.place
  rw [hplace] at hwhere
  have hm : FromRelay status (.extendedData sshExtendedDataStderr (t.stderr.take n)) :=
    .extendedData (lt_of_le_of_lt (List.length_take_le _ _) (lt_of_le_of_lt hn (by decide)))
  have hsent' := hsent.send (by rw [hplace]; rfl) hm t.stdout (t.stderr.drop n) t.exitStatus
    rfl (by simp [ChannelMessage.extendedDataOf]) (by rw [← hsent.notices]; simp [noticesOf])
  change Inv out err status
    (send _ (ChannelMessage.extendedData sshExtendedDataStderr (t.stderr.take n)).write)
  rw [send_write hm.writable] at hsent' ⊢
  refine ⟨ht.status_eq, ⟨_, hsent'⟩, ht.stdout_done, fun hdone => ?_,
    by simpa [hplace] using hwhere⟩
  rw [hmore] at hdone
  cases hdone

/-- The exit is announced once. -/
theorem Sent.notifyExit {ms : List ChannelMessage} (hsent : Sent out err status ms t)
    (hstatus : t.status = status) (hclosing : closing t.place = []) (hnone : t.exitStatus = none) :
    Sent out err status (ms ++ [.request (exitNotice status) false]) t.notifyExit := by
  have hnotices : noticesOf ms = [] := by
    rw [hsent.notices, hnone]
    rfl
  subst hstatus
  refine hsent.send hclosing .exit t.stdout t.stderr (some t.status) rfl rfl ?_
  rw [noticesOf, List.filterMap_append]
  change noticesOf ms ++ _ = _
  rw [hnotices]
  rfl

/-- The exit is announced, in front of EOF and close. -/
theorem Inv.exit (ht : Inv out err status t) (h : step t .exit = some t') :
    Inv out err status t' := by
  obtain ⟨ms, hsent⟩ := ht.sent
  have hwhere := ht.place
  obtain ⟨hnone, ⟨hplace, rfl⟩ | ⟨hplace, rfl⟩⟩ := step_exit h
  · have hsent' := hsent.notifyExit ht.status_eq (by rw [hplace]; rfl) hnone
    rw [hplace] at hwhere
    have hplace' : t.notifyExit.place = .relaying := hplace
    exact ⟨ht.status_eq, ⟨_, hsent'⟩, ht.stdout_done, ht.stderr_done, by rw [hplace']; exact hwhere⟩
  · have hsent' := hsent.notifyExit ht.status_eq (by rw [hplace]; rfl) hnone
    rw [hplace] at hwhere
    have hclosing : closing t.notifyExit.place = [] := by
      change closing t.place = []
      rw [hplace]
      rfl
    exact .finish ht.status_eq hsent' hclosing ht.stdout_done ht.stderr_done hwhere.1 rfl

/-- **Every step keeps the accounting.** -/
theorem Inv.step {a : Action} (ht : Inv out err status t)
    (h : OutputRelay.step t a = some t') : Inv out err status t' := by
  obtain ⟨ms, hsent⟩ := ht.sent
  cases a with
  | readStdout n => exact ht.readStdout h
  | readStderr n => exact ht.readStderr h
  | exit => exact ht.exit h
  | stdoutEnd =>
    obtain ⟨⟨hplace, -, hnil⟩, rfl⟩ := step_stdoutDone (Or.inl rfl) h
    exact .loopHead ht.status_eq (hsent.done true t.stderrDone) (fun _ => hnil) ht.stderr_done
      hplace
  | eio =>
    obtain ⟨⟨hplace, -, hnil⟩, rfl⟩ := step_stdoutDone (Or.inr rfl) h
    exact .loopHead ht.status_eq (hsent.done true t.stderrDone) (fun _ => hnil) ht.stderr_done
      hplace
  | stderrEnd =>
    obtain ⟨⟨hplace, -, hnil⟩, rfl⟩ := step_stderrEnd h
    exact .loopHead ht.status_eq (hsent.done t.stdoutDone true) ht.stdout_done (fun _ => hnil)
      hplace

/-! ## The runs

A measure, progress, and the end: every run gets to where the relay has returned. -/

/-- What is still to happen: bytes to be read, ends of pipes to be seen, an exit to be noticed. -/
def toCome (t : OutputRelay) : ℕ :=
  t.stdout.length + t.stderr.length + (if t.stdoutDone then 0 else 1) +
    (if t.stderrDone then 0 else 1) + (if t.exitStatus.isSome then 0 else 1)

/-- Sending brings nothing closer, … -/
theorem toCome_send (t : OutputRelay) (bs : Option (List UInt8)) :
    (t.send bs).toCome = t.toCome := by
  cases bs <;> rfl

/-- … nor does looking at the condition of the loop. -/
theorem toCome_loopHead (t : OutputRelay) : t.loopHead.toCome = t.toCome := by
  rw [loopHead]
  split_ifs
  · cases hexit : t.exitStatus <;> simp [toCome, finish, hexit]
  · rfl

/-- **Every step gets closer to the end.** -/
theorem toCome_lt {a : Action} (h : step t a = some t') : t'.toCome < t.toCome := by
  cases a with
  | readStdout n =>
    obtain ⟨⟨-, -, hpos, -, hn⟩, rfl⟩ := step_readStdout h
    rw [toCome_send]
    simp only [toCome, List.length_drop]
    omega
  | readStderr n =>
    obtain ⟨⟨-, -, hpos, -, hn⟩, rfl⟩ := step_readStderr h
    rw [toCome_send]
    simp only [toCome, List.length_drop]
    omega
  | exit =>
    have hexit : t.notifyExit.toCome < t.toCome ↔ t.exitStatus = none := by
      rw [notifyExit, toCome_send]
      cases hexit : t.exitStatus <;> simp [toCome, hexit]
    obtain ⟨hnone, ⟨-, rfl⟩ | ⟨-, rfl⟩⟩ := step_exit h
    · exact hexit.mpr hnone
    · exact hexit.mpr hnone
  | stdoutEnd =>
    obtain ⟨⟨-, hmore, -⟩, rfl⟩ := step_stdoutDone (Or.inl rfl) h
    rw [toCome_loopHead]
    simp [toCome, hmore]
  | eio =>
    obtain ⟨⟨-, hmore, -⟩, rfl⟩ := step_stdoutDone (Or.inr rfl) h
    rw [toCome_loopHead]
    simp [toCome, hmore]
  | stderrEnd =>
    obtain ⟨⟨-, hmore, -⟩, rfl⟩ := step_stderrEnd h
    rw [toCome_loopHead]
    simp [toCome, hmore]

/-- **Until it has returned, something can happen next.** -/
theorem Inv.progress (ht : Inv out err status t) (hplace : t.place ≠ .returned) :
    ∃ a t', OutputRelay.step t a = some t' := by
  have hwhere := ht.place
  cases hcases : t.place with
  | returned => exact absurd hcases hplace
  | panicked => rw [hcases] at hwhere; exact hwhere.elim
  | waiting =>
    rw [hcases] at hwhere
    exact ⟨.exit, _, by rw [OutputRelay.step, if_pos hwhere.2, hcases]⟩
  | relaying =>
    rw [hcases] at hwhere
    rcases Bool.and_eq_false_iff.mp hwhere with hmore | hmore
    · by_cases hnil : t.stdout = []
      · exact ⟨.stdoutEnd, _, if_pos ⟨hcases, hmore, hnil⟩⟩
      · have hpos := List.length_pos_iff.mpr hnil
        exact ⟨.readStdout 1, _, if_pos ⟨hcases, hmore, by decide, by decide, hpos⟩⟩
    · by_cases hnil : t.stderr = []
      · exact ⟨.stderrEnd, _, if_pos ⟨hcases, hmore, hnil⟩⟩
      · have hpos := List.length_pos_iff.mpr hnil
        exact ⟨.readStderr 1, _, if_pos ⟨hcases, hmore, by decide, by decide, hpos⟩⟩

/-- At the start nothing has been sent. -/
theorem Inv.init_runPiped (out err : List UInt8) (status : ExitStatus) :
    Inv out err status (runPiped out err status).init where
  status_eq := rfl
  sent := ⟨[], nofun, rfl, rfl, rfl, rfl⟩
  stdout_done := nofun
  stderr_done := nofun
  place := rfl

/-- A terminal has no standard error. -/
theorem Inv.init_runPty (out : List UInt8) (status : ExitStatus) :
    Inv out [] status (runPty out status).init where
  status_eq := rfl
  sent := ⟨[], nofun, rfl, rfl, rfl, rfl⟩
  stdout_done := nofun
  stderr_done _ := rfl
  place := rfl

/-- **What has been sent when the relay returns.** All of the output, one notice of the exit, and
then EOF and close. -/
theorem Inv.returned (ht : Inv out err status t) (hplace : t.place = .returned) :
    ∃ ms, (∀ m ∈ ms, FromRelay status m) ∧
      ChannelMessage.writeAll (ms ++ [.eof, .close]) = some t.written ∧
        ChannelMessage.dataOf ms = out ∧
      ChannelMessage.extendedDataOf ms = err ∧ noticesOf ms = [exitNotice status] := by
  obtain ⟨ms, hsent⟩ := ht.sent
  have hwhere := ht.place
  rw [hplace] at hwhere
  obtain ⟨hdone, hexit⟩ := hwhere
  obtain ⟨hstdout, hstderr⟩ := Bool.and_eq_true_iff.mp hdone
  refine ⟨ms, hsent.from_relay, ?_, ?_, ?_, by rw [hsent.notices, if_pos hexit]⟩
  · rw [hsent.written, hplace]
    refine ChannelMessage.writeAll_eq fun m hm => ?_
    rcases List.mem_append.mp hm with hm | hm
    · exact (hsent.from_relay m hm).writable
    · rcases List.mem_pair.mp hm with rfl | rfl <;> trivial
  · rw [← hsent.stdout, ht.stdout_done hstdout, List.append_nil]
  · rw [← hsent.stderr, ht.stderr_done hstderr, List.append_nil]

end OutputRelay

end Dssh
