import Dssh.Lib.Loop
import Dssh.Session.Output

/-!
# The output of a remote process

`relay_output` on the client: it copies data to its standard output and extended data to its
standard error until the channel is closed, and returns how the process has ended. Together with
the relay on the server: what the process writes is what the client writes.

## The loop

Each turn reads one event and does what it says. Data is copied to the end of the message or of
the stream. Notices of the exit are decoded and recorded. Another notice ends the loop, since
its payload could not be skipped, and the remaining events do nothing. The loop also ends at
close, at the end of the stream, and at an error. An error behind a recorded exit counts as the
end, because the transport may be gone by then.

The relay on the server chooses the order: chunks of the two pipes as they come, the notice of
the exit between any two of them, then EOF and close. The order *within* each pipe is kept, and
this is all that the client can be asked for. `FromRelay` is what is known of a single message
of the relay, and of a list of such messages the client's result is a fold
(`relayOutput_relay`).

## How the process has ended

The status of a process is a number from the kernel. The server makes a notice of it,
`exit-status` with the code or `exit-signal` with a name, and the client returns what it finds
in the notice. What it should return is said without either of them: `ExitStatus.result` reads
the status as the kernel documents it and takes names from a table, which is that of the
specification. `signalName_eq_nameOf` then shows that the server's function agrees with the
table.

The client keeps 32 bits of the code. The kernel's have eight.

## What is shown

`Delivered` is true of every reachable state of the server's relay. Either it can go on, or it
has returned, and then what it has written makes the client write the same output and return the
exit. The number of steps is bounded by the length of the output. So the relays deliver,
whatever the order of the chunks, and nothing is said of how long it takes.

## Main definitions

* `ExitStatus.result` — what the client is to report of a process
* `ClientOutput`, `ClientOutput.turn`, `ClientOutput.relayOutput` — the client's relay
* `ClientOutput.Delivered` — what becomes of a process whose output is relayed

## Main results

* `ClientOutput.relayOutput_isSome` — the client returns on every stream
* `ClientOutput.relayOutput_relay` — what the client makes of the messages of the server's relay
* `ClientOutput.output_delivered` — the two relays together, for every schedule of the server's
-/

namespace Dssh

/-- How the remote process has ended. -/
inductive ExitResult where
  /-- It has exited. -/
  | status (code : UInt32)
  /-- A signal has ended it. -/
  | signal (signalName : SshString) (coreDumped : Bool)
  deriving DecidableEq

/-- The errors of `run`. -/
inductive RunError where
  | readEvent (source : ReadChannelEventError)
  | decodeExitStatus (source : SessionCodecError)
  | decodeExitSignal (source : SessionCodecError)
  deriving DecidableEq

/-! ## What the client is to report

The name of a signal goes from the server to the client as text. What it should be is said by a
table of its own, not by the function that the server uses. -/

/-- The signals that RFC 4254 names, and the five for job control: their numbers on Linux and their
names without SIG. The table belongs to the specification; `to_ssh_name` is not consulted. -/
def ExitStatus.signalNames : List (ℕ × SshString) :=
  [(1, "HUP"), (2, "INT"), (3, "QUIT"), (4, "ILL"), (6, "ABRT"), (8, "FPE"), (9, "KILL"),
    (10, "USR1"), (11, "SEGV"), (12, "USR2"), (13, "PIPE"), (14, "ALRM"), (15, "TERM"),
    (18, "CONT"), (19, "STOP"), (20, "TSTP"), (21, "TTIN"), (22, "TTOU")]

/-- The name to report for a signal: that of the table, or one made from the number. -/
def ExitStatus.nameOf (signalNumber : ℕ) : SshString :=
  (signalNames.lookup signalNumber).getD ("signal-" ++ toString signalNumber ++ "@dshell")

/-- What the client is to report of a process: the signal that has ended it and whether there is a
core dump, or its exit code. -/
def ExitStatus.result (status : ExitStatus) : ExitResult :=
  match status.signal with
  | some signalNumber => .signal (nameOf signalNumber) status.coreDumped
  | none => .status (.ofNat (status.code.getD 255))

/-- **Names.** The server names every signal as the table does. -/
theorem signalName_eq_nameOf (signalNumber : ℕ) :
    signalName signalNumber = ExitStatus.nameOf signalNumber := by
  have hname : toSshName signalNumber = ExitStatus.signalNames.lookup signalNumber := by
    unfold toSshName
    split
    case h_19 =>
      have hnone : ∀ x ∈ ExitStatus.signalNames, signalNumber != x.1 := by
        simp_all [ExitStatus.signalNames]
      exact (List.lookup_eq_none_iff.mpr hnone).symm
    all_goals rfl
  rw [signalName, ExitStatus.nameOf, hname]
  rfl

/-! ## The client

The loop, with what it has written so far as its state. Data is copied from the message; a notice
of the exit is kept until the end. -/

/-- What `relay_output` has seen and written. -/
structure ClientOutput where
  /-- Of the last notice. -/
  exitResult : Option ExitResult := none
  stdout : List UInt8 := []
  stderr : List UInt8 := []
  deriving DecidableEq

namespace ClientOutput

/-- What follows an event. `io::copy` from a `ChannelDataRead` ends with the data of the message or
with the stream, whichever comes first. -/
def onEvent (s : ClientOutput) (rest : List UInt8) :
    ReaderEvent → Turn ClientOutput (Except RunError (Option ExitResult) × ClientOutput)
  | .data n => .again { s with stdout := s.stdout ++ rest.take n } (rest.drop n)
  | .extendedData _ n => .again { s with stderr := s.stderr ++ rest.take n } (rest.drop n)
  | .notice "exit-status" =>
    match ExitStatusRequest.decoder.outcome rest with
    | (.ok req, rest) =>
      .again { s with exitResult := some (.status (.ofNat req.exitStatus.val)) } rest
    | (.error e, rest) => .stop (.error (.decodeExitStatus e), s) rest
  | .notice "exit-signal" =>
    match ExitSignalRequest.decoder.outcome rest with
    | (.ok req, rest) =>
      .again { s with exitResult := some (.signal req.signalName req.coreDumped) } rest
    | (.error e, rest) => .stop (.error (.decodeExitSignal e), s) rest
  | .notice _ => .stop (.ok s.exitResult, s) rest
  | .eof => .again s rest
  | .close => .stop (.ok s.exitResult, s) rest
  | .success => .again s rest
  | .failure => .again s rest

/-- One turn of the loop. -/
def turn (s : ClientOutput) (bs : List UInt8) :
    Turn ClientOutput (Except RunError (Option ExitResult) × ClientOutput) :=
  match SshChannelReader.nextEvent.outcome bs with
  | (.ok event, rest) => onEvent s rest event
  -- the end of the stream, which is the only I/O error here
  | (.error .decodeMessageType, rest) => .stop (.ok s.exitResult, s) rest
  | (.error e, rest) =>
    if s.exitResult.isSome then .stop (.ok s.exitResult, s) rest
    else .stop (.error (.readEvent e), s) rest

/-- `relay_output` on a stream. -/
def relayOutput (bs : List UInt8) :
    Option ((Except RunError (Option ExitResult) × ClientOutput) × List UInt8) :=
  Loop.run turn {} bs

/-- Whatever follows an event, it only takes away from the stream. -/
theorem length_onEvent_le {s s' : ClientOutput} {rest rest' : List UInt8} {event : ReaderEvent}
    (h : onEvent s rest event = .again s' rest') : rest'.length ≤ rest.length := by
  rw [onEvent.eq_def] at h
  split at h
  case h_1 | h_2 =>
    obtain ⟨-, rfl⟩ := Turn.again.inj h
    simp
  case h_3 | h_4 =>
    split at h
    · rename_i hd
      obtain ⟨-, rfl⟩ := Turn.again.inj h
      exact Decoder.length_le_of_outcome hd
    · cases h
  case h_6 | h_8 | h_9 =>
    obtain ⟨-, rfl⟩ := Turn.again.inj h
    exact Nat.le_refl _
  all_goals cases h

/-- A turn that goes on has read something. -/
theorem consumes_turn : Loop.Consumes turn := by
  intro s bs s' rest h
  rw [turn] at h
  split at h
  · rename_i hout
    exact lt_of_le_of_lt (length_onEvent_le h)
      (Decoder.length_outcome_lt SshChannelReader.not_halted_nextEvent hout)
  · cases h
  · split_ifs at h

/-- **The client returns**, whatever is on the stream. -/
theorem relayOutput_isSome (bs : List UInt8) : (relayOutput bs).isSome :=
  Loop.run_isSome consumes_turn {} bs

/-- A turn on a stream that begins with an event. -/
theorem turn_eq {xs : List UInt8} {event : ReaderEvent}
    (h : SshChannelReader.nextEvent.Accepts xs event) (s : ClientOutput) (rest : List UInt8) :
    turn s (xs ++ rest) = onEvent s rest event := by
  rw [turn, h.outcome]

/-! ## The messages of the server's relay

What the relay of the server writes is a sequence of messages, and the client reads them one by
one. The result is a function of the messages, which is compared with the process. -/

open OutputRelay

/-- What a notice says about the exit. -/
def exitResultOf : SessionRequest → Option ExitResult
  | .exitStatus req => some (.status (.ofNat req.exitStatus.val))
  | .exitSignal req => some (.signal req.signalName req.coreDumped)
  | _ => none

/-- What a message of the relay does. -/
def next (s : ClientOutput) : ChannelMessage → ClientOutput
  | .data bytes => { s with stdout := s.stdout ++ bytes }
  | .extendedData _ bytes => { s with stderr := s.stderr ++ bytes }
  | .request rq _ => { s with exitResult := exitResultOf rq }
  | _ => s

/-- A notice of an exit code is recorded, … -/
theorem onEvent_exitStatus {req : ExitStatusRequest} (h : Wire.Bounded req) (s : ClientOutput)
    (rest : List UInt8) : onEvent s (Wire.encode req ++ rest) (.notice "exit-status") =
      .again { s with exitResult := exitResultOf (.exitStatus req) } rest := by
  have hpayload : ExitStatusRequest.decoder.Accepts (Wire.encode req) req :=
    LawfulWire.inverts.accepts h
  simp only [onEvent, hpayload.outcome]
  rfl

/-- … and so is one of a signal. -/
theorem onEvent_exitSignal {req : ExitSignalRequest} (h : Wire.Bounded req) (s : ClientOutput)
    (rest : List UInt8) : onEvent s (Wire.encode req ++ rest) (.notice "exit-signal") =
      .again { s with exitResult := exitResultOf (.exitSignal req) } rest := by
  have hpayload : ExitSignalRequest.decoder.Accepts (Wire.encode req) req :=
    LawfulWire.inverts.accepts h
  simp only [onEvent, hpayload.outcome]
  rfl

/-- **One message.** The client reads all of it. -/
theorem turn_relay {status : ExitStatus} {m : ChannelMessage} (hm : FromRelay status m)
    (s : ClientOutput) (rest : List UInt8) :
    turn s (m.head ++ m.body ++ rest) = .again (next s m) rest := by
  have hhead : ∀ {event}, m.event.toReader = .done event →
      turn s (m.head ++ m.body ++ rest) = onEvent s (m.body ++ rest) event := by
    intro event hevent
    rw [List.append_assoc]
    exact turn_eq (ChannelMessage.accepts_head_reader hm.writable hevent) s _
  cases hm with
  | data h =>
    rw [hhead rfl, onEvent, ChannelMessage.body, List.take_left, List.drop_left]
    rfl
  | extendedData h =>
    rw [hhead rfl, onEvent, ChannelMessage.body, List.take_left, List.drop_left]
    rfl
  | exit =>
    have hbounded := exitNotice_bounded status
    cases hsignal : status.signal with
    | none =>
      have hnotice : exitNotice status = .exitStatus ⟨.ofNat (status.code.getD 255)⟩ := by
        rw [exitNotice, hsignal]
      rw [hnotice] at hbounded hhead ⊢
      rw [hhead rfl]
      exact onEvent_exitStatus hbounded s rest
    | some n =>
      have hnotice : exitNotice status = .exitSignal ⟨signalName n, status.coreDumped, "", ""⟩ := by
        rw [exitNotice, hsignal]
      rw [hnotice] at hbounded hhead ⊢
      rw [hhead rfl]
      exact onEvent_exitSignal hbounded s rest

/-- The messages together. -/
theorem foldl_next {status : ExitStatus} {ms : List ChannelMessage}
    (hms : ∀ m ∈ ms, FromRelay status m) (s : ClientOutput) :
    ms.foldl next s =
      ⟨(noticesOf ms).foldl (fun _ rq => exitResultOf rq) s.exitResult,
        s.stdout ++ ChannelMessage.dataOf ms, s.stderr ++ ChannelMessage.extendedDataOf ms⟩ := by
  induction ms generalizing s with
  | nil => simp [noticesOf, ChannelMessage.dataOf, ChannelMessage.extendedDataOf]
  | cons m ms ih =>
    rw [List.foldl_cons, ih fun m' hm' => hms m' (List.mem_cons_of_mem m hm')]
    cases hms m List.mem_cons_self <;>
      simp [next, noticesOf, ChannelMessage.dataOf, ChannelMessage.extendedDataOf]

/-- The notice of the server says what the client is to report. -/
theorem exitResultOf_exitNotice (status : ExitStatus) :
    exitResultOf (exitNotice status) = some status.result := by
  rw [exitNotice, ExitStatus.result]
  cases hsignal : status.signal with
  | some n => simp only [exitResultOf, signalName_eq_nameOf]
  | none =>
    have hcode : status.code.getD 255 < 2 ^ 62 := by
      cases hcode : status.code with
      | none => decide
      | some n => exact lt_trans (ExitStatus.code_lt hcode) (by decide)
    have hval : (VarInt.ofNat (status.code.getD 255)).val = status.code.getD 255 :=
      Nat.mod_eq_of_lt hcode
    simp [exitResultOf, hval]

/-- **What the client makes of the messages of the relay.** -/
theorem relayOutput_relay {out err : List UInt8} {status : ExitStatus} {ms : List ChannelMessage}
    (hms : ∀ m ∈ ms, FromRelay status m) (hout : ChannelMessage.dataOf ms = out)
    (herr : ChannelMessage.extendedDataOf ms = err)
    (hnotices : noticesOf ms = [exitNotice status]) :
    relayOutput (ChannelMessage.stream (ms ++ [.eof, .close])) =
      some ((.ok (some status.result), ⟨some status.result, out, err⟩), []) := by
  have hfold : ms.foldl next {} = ⟨some status.result, out, err⟩ := by
    rw [foldl_next hms, hnotices, hout, herr]
    simp [exitResultOf_exitNotice]
  have hturn : ∀ m ∈ ms, ∀ s tail, turn s (m.head ++ m.body ++ tail) = .again (next s m) tail :=
    fun m hm s tail => turn_relay (hms m hm) s tail
  have hrun := Loop.run_messages consumes_turn hturn {} (ChannelMessage.stream [.eof, .close])
  have heof : ∀ s rest, turn s (ChannelMessage.eof.head ++ rest) = .again s rest := by
    intro s rest
    exact turn_eq (ChannelMessage.accepts_head_reader (m := .eof) trivial rfl) s rest
  have hclose : ∀ s rest, turn s (ChannelMessage.close.head ++ rest) =
      .stop (.ok s.exitResult, s) rest := by
    intro s rest
    exact turn_eq (ChannelMessage.accepts_head_reader (m := .close) trivial rfl) s rest
  rw [relayOutput, ChannelMessage.stream_append]
  refine hrun.trans ?_
  rw [hfold, ChannelMessage.stream_cons, Loop.run_again consumes_turn (heof _ _)]
  exact Loop.run_stop (hclose _ _)

/-- What becomes of a process whose output is relayed to a client: as long as the relay has not
returned, it can go on; and when it has returned, it has sent all of the output and one notice of
the exit, EOF and close behind them, and the client has written the same output and returned how the
process has ended. -/
def Delivered (out err : List UInt8) (status : ExitStatus) (t : OutputRelay) : Prop :=
  (t.place ≠ .returned ∧ ∃ a t', OutputRelay.step t a = some t') ∨
    t.place = .returned ∧ ∃ ms, (∀ m ∈ ms, FromRelay status m) ∧
      ChannelMessage.writeAll (ms ++ [.eof, .close]) = some t.written ∧
      ChannelMessage.dataOf ms = out ∧ ChannelMessage.extendedDataOf ms = err ∧
      noticesOf ms = [exitNotice status] ∧
      relayOutput t.written =
        some ((.ok (some status.result), ⟨some status.result, out, err⟩), [])

/-- From the invariant of the server's relay. -/
theorem delivered_of_inv {out err : List UInt8} {status : ExitStatus} {t : OutputRelay}
    (ht : OutputRelay.Inv out err status t) : Delivered out err status t := by
  by_cases hplace : t.place = .returned
  · obtain ⟨ms, hms, hwritten, hout, herr, hnotices⟩ := ht.returned hplace
    refine Or.inr ⟨hplace, ms, hms, hwritten, hout, herr, hnotices, ?_⟩
    rw [(ChannelMessage.of_writeAll hwritten).2]
    exact relayOutput_relay hms hout herr hnotices
  · exact Or.inl ⟨hplace, ht.progress hplace⟩

/-- **The output is delivered.** In whatever order the relay sees chunks of output, the ends of the
pipes and the exit, every run ends, and then the client has written what the process has. -/
theorem output_delivered (out err : List UInt8) (status : ExitStatus) :
    (∀ as t, (runPiped out err status).exec (runPiped out err status).init as = some t →
      Delivered out err status t ∧ as.length ≤ out.length + err.length + 3) ∧
    ∀ as t, (runPty out status).exec (runPty out status).init as = some t →
      Delivered out [] status t ∧ as.length ≤ out.length + 2 := by
  have hstep : ∀ {err : List UInt8} {s a s'}, OutputRelay.Inv out err status s →
      OutputRelay.step s a = some s' →
      OutputRelay.Inv out err status s' ∧ s'.toCome < s.toCome :=
    fun hs h => ⟨hs.step h, OutputRelay.toCome_lt h⟩
  constructor
  · intro as t h
    obtain ⟨hinv, hlength⟩ := Machine.exec_bounded (I := OutputRelay.Inv out err status)
      (μ := OutputRelay.toCome) hstep (OutputRelay.Inv.init_runPiped out err status) h
    have hinit : (runPiped out err status).init.toCome = out.length + err.length + 3 := rfl
    exact ⟨delivered_of_inv hinv, by omega⟩
  · intro as t h
    obtain ⟨hinv, hlength⟩ := Machine.exec_bounded (I := OutputRelay.Inv out [] status)
      (μ := OutputRelay.toCome) hstep (OutputRelay.Inv.init_runPty out status) h
    have hinit : (runPty out status).init.toCome = out.length + 2 := rfl
    exact ⟨delivered_of_inv hinv, by omega⟩

/-- The exit is noticed between two reads of the output, and output follows it. -/
def earlyExit : List OutputRelay.Action :=
  [.readStdout 1, .exit, .readStderr 1, .readStdout 1, .stderrEnd, .stdoutEnd]

/-- With pipes, and with a terminal. -/
theorem earlyExit_output_delivered :
    (∃ t, (runPiped [104, 105] [33] ⟨256⟩).exec (runPiped [104, 105] [33] ⟨256⟩).init earlyExit =
        some t ∧ Delivered [104, 105] [33] ⟨256⟩ t ∧ earlyExit.length ≤ 6) ∧
      ∃ t, (runPty [104] ⟨9⟩).exec (runPty [104] ⟨9⟩).init [.readStdout 1, .eio, .exit] = some t ∧
        Delivered [104] [] ⟨9⟩ t ∧ 3 ≤ 3 :=
  ⟨⟨_, rfl, (output_delivered [104, 105] [33] ⟨256⟩).1 earlyExit _ rfl⟩,
    ⟨_, rfl, (output_delivered [104] [] ⟨9⟩).2 [.readStdout 1, .eio, .exit] _ rfl⟩⟩

end ClientOutput

end Dssh
