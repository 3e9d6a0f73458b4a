import Dssh.Session.Whole

/-!
# The end of a session

A session in which nothing new comes in comes to rest: every step brings it closer. What it
rests in is the session as it should be: the server is ready to start the process, or the
process has ended and the client has written all of its output and returned how it has ended.

An interactive client whose stream of sizes ends may turn for ever, so these are sessions in
which that stream stays open.

## A measure

The two sides take turns in any order, and the messages between them are of any length and are
delivered byte by byte. What decreases in every step is counted in bytes and steps together
(`toCome`).

The bytes that are under way count one each. The setup has its own measure, from its module. A
relay counts what it has still got to read, with a factor that covers its worst case: a single
byte in a message of its own, with a type and a length of up to eight bytes each and a turn to
write it (`perByte`). Then come its closing messages, as long as they have not been sent. So a
step of a relay takes away more than what it puts on the stream, and delivering a byte takes
away one.

Input, sizes and the start of a process are what comes in from outside. They are not bounded,
and they are not steps that the two sides take by themselves (`Action.Internal`).

## At rest

A state in which no such step is possible is looked at from its end. The setup is through, or
somebody could go on with it. The server's relay has returned, or it could read, or see the
exit. All that it has sent has arrived. So the client has read close, and has returned.

With the client, its other relay is gone. `run` waits in a `select!`, and when the relay of the
output returns, that of the input is dropped where it is. It need not have sent EOF, and the
result does not say that it has. The server stops reading input when the process has ended, on
its own.

## Main definitions

* `OutputRelay.toSend`, `StdinRelay.toSend`, `toCome` — how much is to come
* `Action.Internal` — what the two sides do by themselves
* `Resting`, `Completed` — where a session comes to rest, and what it is then

## Main results

* `WholeSession.Follows.toCome_lt` — every step that the two sides take by themselves is a step
  towards the end
* `WholeSession.session_completes` — the bound, and where a session rests
-/

/-- No number takes more than eight bytes. -/
theorem VarInt.length_encode_le (v : VarInt) : v.encode.length ≤ 8 := by
  rw [encode]
  split_ifs <;> rw [length_bigEndian] <;> omega

namespace Dssh

open ChannelMessage (stream)

/-! ## How much is to be sent

Each of the relays has a price that covers what it has still to write, byte by byte, and the
steps of writing it. A step of a relay lowers its price by more than the number of the bytes that
it puts on the stream. -/

/-- What a message of data takes besides its contents. -/
theorem ChannelMessage.length_head_le {m : ChannelMessage} {bytes : List UInt8} {v : VarInt}
    (hm : m = .data bytes ∨ m = .extendedData v bytes) : m.head.length ≤ 24 := by
  have htype := sshMsgChannelData.length_encode_le
  have hextended := sshMsgChannelExtendedData.length_encode_le
  have hdataType := v.length_encode_le
  have hlength := (VarInt.ofNat bytes.length).length_encode_le
  rcases hm with rfl | rfl <;>
    simp only [head, List.flatten_cons, List.flatten_nil, List.length_append,
      List.length_nil] <;> omega

/-- Steps and bytes for each byte of data, in a message of its own at worst. -/
def perByte : ℕ := 32

/-- What the relay is going to do and to write. -/
def OutputRelay.toSend (t : OutputRelay) : ℕ :=
  perByte * (t.stdout.length + t.stderr.length) + (bif t.stdoutDone then 0 else 1) +
    (bif t.stderrDone then 0 else 1) +
    (bif t.exitStatus.isSome then 0 else 1 + (sendExitNotification t.status).length) +
    (bif t.place == .returned then 0 else 4)

/-- A message of data. -/
theorem OutputRelay.toSend_send {t : OutputRelay} {m : ChannelMessage} {bytes : List UInt8}
    {v : VarInt} (hm : m = .data bytes ∨ m = .extendedData v bytes)
    (hwritable : m.Writable) :
    (t.send m.write).toSend = t.toSend ∧
      (t.send m.write).written.length ≤ t.written.length + 24 + bytes.length := by
  rw [ChannelMessage.write_eq hwritable]
  refine ⟨rfl, ?_⟩
  have hhead := ChannelMessage.length_head_le hm
  have hbody : m.body = bytes := by rcases hm with rfl | rfl <;> rfl
  simp only [send, List.length_append, hbody]
  omega

/-- EOF and close are paid for, … -/
theorem OutputRelay.toSend_finish (t : OutputRelay) (hplace : t.place ≠ .returned) :
    t.finish.toSend + t.finish.written.length = t.toSend + t.written.length := by
  have hclosing : SshChannelWriter.eof.length + SshChannelWriter.close.length = 4 := by decide
  simp only [toSend, finish, List.length_append, beq_false_of_ne hplace, beq_self_eq_true,
    cond_true, cond_false]
  omega

/-- … also at the head of the loop, … -/
theorem OutputRelay.toSend_loopHead (t : OutputRelay) (hplace : t.place = .relaying) :
    t.loopHead.toSend + t.loopHead.written.length = t.toSend + t.written.length := by
  have hne : t.place ≠ .returned := by rw [hplace]; decide
  rw [loopHead]
  split
  · split
    · exact t.toSend_finish hne
    · simp only [toSend, hplace]
      rfl
  · rfl

/-- … and so is the notice of the exit. -/
theorem OutputRelay.toSend_notifyExit (t : OutputRelay) (hnone : t.exitStatus = none) :
    t.notifyExit.toSend + t.notifyExit.written.length + 1 = t.toSend + t.written.length := by
  simp only [toSend, notifyExit, send, hnone, List.length_append, Option.isSome_some,
    Option.isSome_none, cond_true, cond_false]
  omega

/-- **A step of the relay** costs more than what it writes. -/
theorem OutputRelay.toSend_lt {t t' : OutputRelay} {a : OutputRelay.Action}
    (h : OutputRelay.step t a = some t') :
    t'.toSend + t'.written.length < t.toSend + t.written.length := by
  cases a with
  | readStdout n =>
    obtain ⟨⟨-, -, hpos, hbuffer, hn⟩, rfl⟩ := step_readStdout h
    have hlength : (t.stdout.take n).length = n := List.length_take_of_le hn
    have hwritable : (ChannelMessage.data (t.stdout.take n)).Writable := by
      show (t.stdout.take n).length < 2 ^ 62
      rw [hlength]
      exact lt_of_le_of_lt hbuffer (by decide)
    obtain ⟨hsend, hwritten⟩ := toSend_send (t := { t with stdout := t.stdout.drop n })
      (v := sshExtendedDataStderr) (.inl rfl) hwritable
    change (send _ (ChannelMessage.data (t.stdout.take n)).write).toSend +
      (send _ (ChannelMessage.data (t.stdout.take n)).write).written.length < _
    rw [hsend]
    rw [hlength] at hwritten
    simp only [toSend, perByte, List.length_drop] at hwritten ⊢
    omega
  | readStderr n =>
    obtain ⟨⟨-, -, hpos, hbuffer, hn⟩, rfl⟩ := step_readStderr h
    have hlength : (t.stderr.take n).length = n := List.length_take_of_le hn
    have hwritable :
        (ChannelMessage.extendedData sshExtendedDataStderr (t.stderr.take n)).Writable := by
      show (t.stderr.take n).length < 2 ^ 62
      rw [hlength]
      exact lt_of_le_of_lt hbuffer (by decide)
    obtain ⟨hsend, hwritten⟩ :=
      toSend_send (t := { t with stderr := t.stderr.drop n }) (.inr rfl) hwritable
    change (send _ (ChannelMessage.extendedData _ (t.stderr.take n)).write).toSend +
      (send _ (ChannelMessage.extendedData _ (t.stderr.take n)).write).written.length < _
    rw [hsend]
    rw [hlength] at hwritten
    simp only [toSend, perByte, List.length_drop] at hwritten ⊢
    omega
  | stdoutEnd =>
    obtain ⟨⟨hplace, hmore, -⟩, rfl⟩ := step_stdoutDone (.inl rfl) h
    rw [toSend_loopHead { t with stdoutDone := true } hplace]
    simp only [toSend, hmore, cond_true, cond_false]
    omega
  | eio =>
    obtain ⟨⟨hplace, hmore, -⟩, rfl⟩ := step_stdoutDone (.inr rfl) h
    rw [toSend_loopHead { t with stdoutDone := true } hplace]
    simp only [toSend, hmore, cond_true, cond_false]
    omega
  | stderrEnd =>
    obtain ⟨⟨hplace, hmore, -⟩, rfl⟩ := step_stderrEnd h
    rw [toSend_loopHead { t with stderrDone := true } hplace]
    simp only [toSend, hmore, cond_true, cond_false]
    omega
  | exit =>
    obtain ⟨hnone, ⟨-, rfl⟩ | ⟨hplace, rfl⟩⟩ := step_exit h
    · have hnotify := t.toSend_notifyExit hnone
      omega
    · have hnotify := t.toSend_notifyExit hnone
      have hfinish := t.notifyExit.toSend_finish (by
        show t.place ≠ .returned
        rw [hplace]
        decide)
      omega

/-- What the relay is going to do and to write, when nothing more comes in. -/
def StdinRelay.toSend (s : StdinRelay) : ℕ :=
  bif s.ended then 0
  else perByte * s.stdin.length + s.resize.pending.length +
    (stream (s.resize.pending.map windowChange)).length + 5

namespace StdinRelay

variable {interactive : Bool} {s t : StdinRelay}

/-- EOF and close of the input are paid for. -/
theorem toSend_leave (hended : s.ended = false) :
    s.leave.toSend + (stream s.leave.sent).length < s.toSend + (stream s.sent).length := by
  have hclosing : (stream [.eof, .close]).length = 4 := by decide
  simp only [toSend, leave, hended, ChannelMessage.stream_append, List.length_append, cond_true,
    cond_false, hclosing]
  omega

/-- A chunk of input costs more than the message that it is sent in. -/
theorem toSend_read {n : ℕ} (hended : s.ended = false) (hpos : 0 < n) (hn : n ≤ s.stdin.length) :
    (s.onInput n true).toSend + (stream (s.onInput n true).sent).length <
      s.toSend + (stream s.sent).length := by
  have hlength : (s.stdin.take n).length = n := List.length_take_of_le hn
  have hhead := ChannelMessage.length_head_le (m := .data (s.stdin.take n))
    (v := sshExtendedDataStderr) (.inl rfl)
  show (received { s with
      stdin := s.stdin.drop n, sent := s.sent ++ [ChannelMessage.data (s.stdin.take n)] }).toSend +
    (stream (s.sent ++ [ChannelMessage.data (s.stdin.take n)])).length < _
  simp only [toSend, received, hended, cond_false, ChannelMessage.stream_append,
    ChannelMessage.stream_cons, ChannelMessage.stream_nil, List.length_append, List.length_nil,
    List.length_drop, ChannelMessage.body, hlength, perByte]
  omega

/-- So does a size. -/
theorem toSend_resized {size : UInt16 × UInt16} {sizes : List (UInt16 × UInt16)}
    (hended : s.ended = false) (hresize : s.resize = .live (size :: sizes)) :
    (received { s with resize := .live sizes, sent := s.sent ++ [windowChange size] }).toSend +
      (stream (s.sent ++ [windowChange size])).length < s.toSend + (stream s.sent).length := by
  simp only [toSend, received, hended, hresize, ResizeStream.pending, cond_false,
    ChannelMessage.stream_append, ChannelMessage.stream_cons, ChannelMessage.stream_nil,
    List.length_append, List.length_nil, List.length_cons, List.map_cons]
  omega

/-- The resize stream is open. -/
def Live (s : StdinRelay) : Prop := ∃ sizes, s.resize = .live sizes

/-- **A turn** costs more than what it writes. -/
theorem toSend_turn_lt {n : ℕ} (hlive : s.Live) (h : s.turn interactive n true = some t) :
    t.toSend + (stream t.sent).length < s.toSend + (stream s.sent).length := by
  rw [turn] at h
  split_ifs at h with hended hdone hstdin hn hstdinEnded hinteractive
  · obtain rfl := Option.some.inj h
    exact toSend_leave (by simpa using hended)
  · obtain rfl := Option.some.inj h
    exact toSend_read (by simpa using hended) hn.1 hn.2.2
  · obtain rfl := Option.some.inj h
    exact toSend_leave (by simpa using hended)
  · obtain ⟨sizes, hsizes⟩ := hlive
    rw [onResize, hsizes] at h
    cases sizes with
    | nil => cases h
    | cons size sizes =>
      obtain rfl := Option.some.inj h
      exact toSend_resized (by simpa using hended) hsizes

/-- It stays open until it ends. -/
theorem Live.step {a : Action} (hlive : s.Live) (ha : a ≠ .resizeEnds)
    (h : s.step interactive a = some t) : t.Live := by
  obtain ⟨sizes, hsizes⟩ := hlive
  cases a with
  | finishes | inputEnds =>
    obtain rfl := Option.some.inj h
    exact ⟨sizes, hsizes⟩
  | inputs bs =>
    obtain ⟨-, h⟩ := Option.ite_none_left_eq_some.mp h
    obtain rfl := Option.some.inj h
    exact ⟨sizes, hsizes⟩
  | resizes size =>
    simp only [StdinRelay.step, hsizes] at h
    obtain rfl := Option.some.inj h
    exact ⟨_, rfl⟩
  | resizeEnds => exact absurd rfl ha
  | turn n ok =>
    obtain ⟨-, hbranch⟩ := branch_of_turn h
    cases hbranch with
    | done | inputEnd => exact ⟨sizes, hsizes⟩
    | input => cases ok <;> exact ⟨sizes, hsizes⟩
    | resize _ _ _ _ hresize =>
      rw [onResize, hsizes] at hresize
      cases sizes with
      | nil => cases hresize
      | cons size sizes =>
        obtain rfl := Option.some.inj hresize
        exact ⟨sizes, rfl⟩

end StdinRelay

/-! ## Steps that the two sides take by themselves

The prices of the relays, the bytes under way and what is left of the setup add up to a number
that every such step lowers. New input, a new size and a new process raise it, and these are the
steps that are left out. -/

namespace SetupDialogue

variable {openpty : Winsize → Option ℕ} {all : List SessionRequest} {d : SetupDialogue}
  {up down : List UInt8}

/-- What is left of the setup, with the bytes behind it. -/
def underWay (t : SetupDialogue) : ℕ :=
  match t.response with
  | none => (t.calls.map cost).sum + t.toServer.length + t.toClient.length
  | some _ => remaining t

/-- What has been put behind the setup counts as it is. -/
theorem Stands.underWay_extend (h : Stands openpty all d) (hup : ¬d.Over → up = []) :
    (d.extend up down).underWay = remaining d + up.length + down.length := by
  cases h with
  | idle h => simp [underWay, remaining, extend]
  | asking h hd =>
    obtain rfl := hup (fun hover => by cases hover.1)
    simp [underWay, remaining, extend]
    omega
  | answering h hd =>
    obtain rfl := hup (fun hover => by cases hover.1)
    simp [underWay, remaining, extend]
    omega

/-- As long as calls are to come, somebody can go on. -/
theorem Stands.progress_extend (h : Stands openpty all d) (hcalls : d.calls ≠ [])
    (hup : ¬d.Over → up = []) (hdown : (∀ r, d.server ≠ .returned r) → down = []) :
    ∃ a t, SetupDialogue.step openpty (d.extend up down) a = some t := by
  obtain rfl := hup (fun hover => hcalls hover.1)
  by_cases hreturned : ∃ r, d.server = .returned r
  · obtain ⟨r, hserver⟩ := hreturned
    cases h with
    | @idle made calls h =>
      rw [serverAfter, if_neg hcalls] at hserver
      cases hserver
    | asking => cases hserver
    | @answering made calls rq d b bs h hd =>
      obtain ⟨io, k, rfl, hk⟩ := hd.cons
      refine ⟨.receive, ?_⟩
      cases bs with
      | nil =>
        exact ⟨_, by
          simp only [SetupDialogue.step, extend, List.cons_append, hk.eq_done]
          rfl⟩
      | cons b' bs =>
        obtain ⟨io', k', hkb, -⟩ := hk.cons
        exact ⟨_, by simp only [SetupDialogue.step, extend, List.cons_append, hkb]; rfl⟩
  · obtain rfl := hdown (not_exists.mp hreturned)
    rw [extend_nil]
    exact h.progress hcalls

end SetupDialogue

namespace WholeSession

open SetupDialogue (Stands clientCalls remaining)
open StdinRelay (Live)

/-- What the two sides do without input, sizes or a new process. -/
def Action.Internal : Action → Prop
  | setup _ => True
  | client (.turn _ ok) => ok = true
  | client _ => False
  | launch _ _ _ => False
  | relay _ => True
  | arrive => True
  | stop => True
  | receive => True

/-- How many steps are to come. -/
def toCome (s : WholeSession) : ℕ :=
  s.dialogue.underWay + s.stdin.toSend + (s.process.elim 0 fun p => p.relay.toSend) +
    (bif s.stopped then 0 else 1)

variable {host : SessionHost} {interactive : Bool} {ptys : List PtyRequest} {last : SessionRequest}
  {as : List StdinRelay.Action} {s t : WholeSession} {d : SetupDialogue} {up down : List UInt8}
  {ms : List ChannelMessage}

/-- The setup, and the bytes of the two streams. -/
theorem Follows.underWay_eq (h : Follows host interactive ptys last as s d up down ms) :
    s.dialogue.underWay = remaining d + up.length + down.length := by
  rw [h.dialogue]
  exact h.stands.underWay_extend h.up_eq_nil

/-- What is under way to the server has been sent and has not arrived. -/
theorem Follows.length_up (h : Follows host interactive ptys last as s d up down ms) :
    s.arrived.length + up.length = (stream s.stdin.sent).length := by
  rw [← List.length_append, h.input]

/-- A turn of the client. -/
theorem Follows.client_lt {a : StdinRelay.Action}
    (h : Follows host interactive ptys last as s d up down ms) (hlive : s.stdin.Live)
    (ha : (Action.client a).Internal) (hstep : WholeSession.clientStep interactive s a = some t) :
    t.toCome < s.toCome := by
  have hsucceeds : ∀ n, a ≠ .turn n false := by
    rintro n rfl
    cases ha
  obtain ⟨up', ms', h'⟩ := h.clientStep hsucceeds hstep
  have hup := h.length_up
  have hup' := h'.length_up
  obtain ⟨henabled, hstep⟩ := Option.ite_none_right_eq_some.mp hstep
  obtain ⟨r, hr, hstep⟩ := Option.bind_eq_some_iff.mp hstep
  obtain ⟨written, -, hstep⟩ := Option.bind_eq_some_iff.mp hstep
  have hlt : r.toSend + (stream r.sent).length < s.stdin.toSend + (stream s.stdin.sent).length := by
    cases a with
    | turn n ok =>
      obtain rfl : ok = true := ha
      exact StdinRelay.toSend_turn_lt hlive hr
    | _ => exact absurd ha id
  rw [toCome, toCome, h.underWay_eq, h'.underWay_eq]
  obtain rfl := Option.some.inj hstep
  simp only at hup' ⊢
  omega

/-- A step of the server's relay. -/
theorem Follows.relay_lt {a : OutputRelay.Action}
    (h : Follows host interactive ptys last as s d up down ms)
    (hstep : WholeSession.relayStep s a = some t) : t.toCome < s.toCome := by
  obtain ⟨down', h'⟩ := h.relayStep hstep
  obtain ⟨p, hprocess, hstep⟩ := Option.bind_eq_some_iff.mp hstep
  obtain ⟨r, hr, hstep⟩ := Option.bind_eq_some_iff.mp hstep
  have hlt := OutputRelay.toSend_lt hr
  rw [toCome, toCome, h.underWay_eq, h'.underWay_eq, hprocess]
  obtain rfl := Option.some.inj hstep
  obtain ⟨setup, hserver, -, -, houtput⟩ := h.running p hprocess
  obtain ⟨setup', hserver', -, -, houtput'⟩ := h'.running _ rfl
  rw [hserver] at hserver'
  cases hserver'
  have hlength := congrArg List.length houtput
  have hlength' := congrArg List.length houtput'
  simp only [List.length_append, Option.elim_some] at hlength hlength' ⊢
  omega

/-- **Every step is a step towards the end.** -/
theorem Follows.toCome_lt {a : Action} (h : Follows host interactive ptys last as s d up down ms)
    (hall : SetupDialogue.Proper (clientCalls ptys last)) (hlive : s.stdin.Live) (ha : a.Internal)
    (hstep : WholeSession.step host interactive s a = some t) : t.toCome < s.toCome := by
  cases a with
  | setup a =>
    obtain ⟨e, he, rfl⟩ := Option.map_eq_some_iff.mp hstep
    obtain ⟨d', h', hremaining⟩ := h.setup hall he
    rw [toCome, toCome, h.underWay_eq, h'.underWay_eq]
    dsimp only
    omega
  | client a => exact h.client_lt hlive ha hstep
  | launch out err status => exact absurd ha id
  | relay a => exact h.relay_lt hstep
  | arrive =>
    obtain ⟨up', h'⟩ := h.arrive hstep
    have hup := h.length_up
    have hup' := h'.length_up
    rw [toCome, toCome, h.underWay_eq, h'.underWay_eq]
    simp only [WholeSession.step] at hstep
    split at hstep
    · split_ifs at hstep
      obtain rfl := Option.some.inj hstep
      simp only [List.length_append, List.length_singleton] at hup' ⊢
      omega
    · cases hstep
  | stop =>
    obtain ⟨p, hprocess, hstep⟩ := Option.bind_eq_some_iff.mp hstep
    obtain ⟨⟨-, hstopped⟩, hstep⟩ := Option.ite_none_right_eq_some.mp hstep
    obtain rfl := Option.some.inj hstep
    simp only [toCome, hstopped, cond_true, cond_false]
    omega
  | receive =>
    obtain ⟨down', h'⟩ := h.receive hstep
    rw [toCome, toCome, h.underWay_eq, h'.underWay_eq]
    simp only [WholeSession.step] at hstep
    split at hstep
    · rename_i b toClient htoClient
      split_ifs at hstep with hready
      obtain rfl := Option.some.inj hstep
      have hnil := (h.stands.of_over (h.ready.mp hready.1)).2.1
      have hdown : down = b :: toClient := by
        rw [h.dialogue, SetupDialogue.extend] at htoClient
        rwa [hnil, List.nil_append] at htoClient
      have hdown' : down' = toClient := by
        have heq := congrArg SetupDialogue.toClient h'.dialogue
        rw [SetupDialogue.extend, hnil, List.nil_append] at heq
        exact heq.symm
      rw [hdown, hdown', List.length_cons]
      dsimp only
      omega
    · cases hstep

/-! ## Where a session rests

Where no step is possible, each part is at rest, and the parts are known to rest only at their
ends. The order of the argument is the order of the session: the setup, the process, the output,
and the client. -/

/-- Nothing happens without input, sizes or a new process. -/
def Resting (host : SessionHost) (interactive : Bool) (s : WholeSession) : Prop :=
  ∀ a : Action, a.Internal → WholeSession.step host interactive s a = none

/-- The setup is through, and the client has written what the process has. -/
structure Completed (host : SessionHost) (ptys : List PtyRequest) (last : SessionRequest)
    (s : WholeSession) : Prop where
  /-- All calls of the client have succeeded. -/
  results : s.dialogue.results = (clientCalls ptys last).map fun _ => .ok ()
  /-- The server waits for nothing but to start the process. -/
  waiting : s.process = none → ∀ out err status, ∃ t, launch host s out err status = some t
  /-- The client has returned, behind the last byte that the server has sent, and the server reads
  no input any more. -/
  ended : ∀ p, s.process = some p → s.Returned ∧ s.stopped = true ∧ s.dialogue.toClient = [] ∧
    ∃ setup, SetupDialogue.SetUp setup (ptys.map SessionRequest.ptyReq) last ∧
      p.command = host.command setup ∧
      ClientOutput.relayOutput s.received = some ((.ok (some p.status.result),
        ⟨some p.status.result, host.message setup ++ p.out, p.err⟩), [])

/-- At rest, the setup is through. -/
theorem Follows.over_of_resting (h : Follows host interactive ptys last as s d up down ms)
    (hrest : Resting host interactive s) : d.Over := by
  have hcalls : d.calls = [] := by
    by_contra hne
    obtain ⟨a, e, he⟩ := h.stands.progress_extend hne h.up_eq_nil h.down_eq_nil
    have hnone := hrest (.setup a) trivial
    rw [WholeSession.step, h.dialogue, he] at hnone
    cases hnone
  cases h.stands with
  | idle => exact ⟨hcalls, rfl⟩
  | asking => cases hcalls
  | answering => cases hcalls

/-- The client that has returned has received all that the server is going to send. -/
theorem Follows.down_of_returned (h : Follows host interactive ptys last as s d up down ms)
    (hreturned : s.Returned) : down = [] := by
  cases hprocess : s.process with
  | none => exact (h.waiting hprocess).2.2
  | some p =>
    obtain ⟨setup, -, -, hinv, houtput⟩ := h.running p hprocess
    obtain ⟨os, hos⟩ := hinv.sent
    have hopening := List.forall_mem_append.mpr ⟨host.opening_relay setup p.status, hos.from_relay⟩
    have hprefix : s.received ++ down <+: stream (host.opening setup ++ os ++ [.eof, .close]) := by
      rw [houtput, List.append_assoc, ChannelMessage.stream_append]
      exact (List.prefix_append_right_inj _).mpr hos.written_prefix
    have hreceived :=
      (ClientOutput.closed_iff hopening ((List.prefix_append _ _).trans hprefix)).mp hreturned
    rw [← hreceived] at hprefix
    have hlength := hprefix.length_le
    rw [List.length_append] at hlength
    exact List.eq_nil_of_length_eq_zero (by omega)

/-- At rest, everything that the server has sent has arrived. -/
theorem Follows.down_of_resting (h : Follows host interactive ptys last as s d up down ms)
    (hrest : Resting host interactive s) : down = [] := by
  by_cases hreturned : s.Returned
  · exact h.down_of_returned hreturned
  have hover := h.over_of_resting hrest
  cases down with
  | nil => rfl
  | cons b down =>
    have hready : s.Ready ∧ ¬s.Returned := ⟨h.ready.mpr hover, hreturned⟩
    have htoClient : s.dialogue.toClient = b :: down := by
      rw [h.dialogue, SetupDialogue.extend, (h.stands.of_over hover).2.1]
      rfl
    have hnone := hrest .receive trivial
    simp only [WholeSession.step, htoClient, if_pos hready] at hnone
    cases hnone

/-- At rest, the relay of the output has returned. -/
theorem relay_of_resting {p : Process} (hp : s.process = some p)
    (hrest : Resting host interactive s)
    (hinv : OutputRelay.Inv p.out p.err p.status p.relay) : p.relay.place = .returned := by
  by_contra hplace
  obtain ⟨a, t, ht⟩ := hinv.progress hplace
  have hnone := hrest (.relay a) trivial
  simp only [WholeSession.step, relayStep, hp, Option.bind_eq_bind, Option.bind_some, ht] at hnone
  cases hnone

/-- **Where a session rests.** -/
theorem Follows.completed (h : Follows host interactive ptys last as s d up down ms)
    (hlast : SessionSetup.Starts last)
    (hpty : ∀ r ∈ ptys.getLast?, ∃ winsize, allocatePty host.openpty r = .ok winsize)
    (hrest : Resting host interactive s) : Completed host ptys last s := by
  have hover := h.over_of_resting hrest
  obtain ⟨-, hresults, -, htoClient, setup, hserver, hsetUp⟩ := h.stands.agreed hlast hpty hover.1
  have hdown := h.down_of_resting hrest
  refine ⟨?_, fun hnone out err status => ?_, fun p hp => ?_⟩
  · rw [h.dialogue]
    exact hresults
  · obtain ⟨messages, hmessages, -⟩ := host.greeting_sent setup
    have hreturned : s.dialogue.server = .returned (.ok setup) := by
      rw [h.dialogue]
      exact hserver
    refine Option.isSome_iff_exists.mp ?_
    rw [WholeSession.launch, hnone, hreturned]
    simp [hmessages]
  · obtain ⟨setup', hserver', hcommand, hinv, houtput⟩ := h.running p hp
    rw [hserver] at hserver'
    cases hserver'
    have hplace := relay_of_resting hp hrest hinv
    obtain ⟨os, hos, hwritten, hout, herr, hnotices⟩ := hinv.returned hplace
    have hopening := List.forall_mem_append.mpr ⟨host.opening_relay setup p.status, hos⟩
    have hreceived : s.received = stream (host.opening setup ++ os ++ [.eof, .close]) := by
      rw [hdown, List.append_nil, (ChannelMessage.of_writeAll hwritten).2] at houtput
      rw [houtput, List.append_assoc, ChannelMessage.stream_append (host.opening setup)]
    have hreturned : s.Returned :=
      (ClientOutput.closed_iff hopening (hreceived ▸ List.prefix_rfl)).mpr hreceived
    refine ⟨hreturned, ?_, ?_, setup, hsetUp, hcommand, ?_⟩
    · -- the exit has been noticed, so the input relay has been told
      by_contra hstopped
      have hexit : p.relay.exitStatus.isSome = true := by
        have hwhere := hinv.place
        rw [hplace] at hwhere
        exact hwhere.2
      have hnone := hrest .stop trivial
      simp only [WholeSession.step, hp, Option.bind_eq_bind, Option.bind_some,
        if_pos (And.intro hexit (Bool.not_eq_true _ |>.mp hstopped))] at hnone
      cases hnone
    · rw [h.dialogue, SetupDialogue.extend, hdown, htoClient]
      rfl
    · rw [hreceived]
      refine ClientOutput.relayOutput_relay hopening ?_ ?_ ?_
      · rw [StdinRelay.dataOf_append, host.dataOf_opening, hout]
      · rw [extendedDataOf_append, host.extendedDataOf_opening, herr]
        rfl
      · rw [OutputRelay.noticesOf, List.filterMap_append]
        show OutputRelay.noticesOf (host.opening setup) ++ OutputRelay.noticesOf os = _
        rw [host.noticesOf_opening, hnotices]
        rfl

/-- No other step closes the resize stream. -/
theorem live_step {a : Action} (hlive : s.stdin.Live) (ha : a ≠ .client .resizeEnds)
    (hstep : WholeSession.step host interactive s a = some t) : t.stdin.Live := by
  cases a with
  | setup a =>
    obtain ⟨e, -, rfl⟩ := Option.map_eq_some_iff.mp hstep
    exact hlive
  | client a =>
    obtain ⟨-, hstep⟩ := Option.ite_none_right_eq_some.mp hstep
    obtain ⟨r, hr, hstep⟩ := Option.bind_eq_some_iff.mp hstep
    obtain ⟨written, -, hstep⟩ := Option.bind_eq_some_iff.mp hstep
    obtain rfl := Option.some.inj hstep
    exact hlive.step (fun heq => ha (congrArg _ heq)) hr
  | launch out err status =>
    simp only [WholeSession.step, launch] at hstep
    split at hstep
    · obtain ⟨messages, -, hstep⟩ := Option.bind_eq_some_iff.mp hstep
      obtain rfl := Option.some.inj hstep
      exact hlive
    · cases hstep
  | relay a =>
    obtain ⟨p, -, hstep⟩ := Option.bind_eq_some_iff.mp hstep
    obtain ⟨r, -, hstep⟩ := Option.bind_eq_some_iff.mp hstep
    obtain rfl := Option.some.inj hstep
    exact hlive
  | arrive =>
    simp only [WholeSession.step] at hstep
    split at hstep
    · split_ifs at hstep
      obtain rfl := Option.some.inj hstep
      exact hlive
    · cases hstep
  | stop =>
    obtain ⟨p, -, hstep⟩ := Option.bind_eq_some_iff.mp hstep
    obtain ⟨-, hstep⟩ := Option.ite_none_right_eq_some.mp hstep
    obtain rfl := Option.some.inj hstep
    exact hlive
  | receive =>
    simp only [WholeSession.step] at hstep
    split at hstep
    · split_ifs at hstep
      obtain rfl := Option.some.inj hstep
      exact hlive
    · cases hstep

/-- The resize stream stays open. -/
theorem live_exec {bs : List Action} (hlive : s.stdin.Live) (hbs : .client .resizeEnds ∉ bs)
    (hexec : (machine host interactive (clientCalls ptys last)).exec s bs = some t) :
    t.stdin.Live := by
  induction bs generalizing s with
  | nil =>
    obtain rfl := Option.some.inj hexec
    exact hlive
  | cons a bs ih =>
    obtain ⟨u, hstep, hexec⟩ := Option.bind_eq_some_iff.mp hexec
    exact ih (live_step hlive (fun heq => hbs (heq ▸ List.mem_cons_self)) hstep)
      (fun hmem => hbs (List.mem_cons_of_mem a hmem)) hexec

/-- **A session completes.** The steps that the two sides take by themselves come to an end, however
they follow each other, and where they do the client has written exactly the output of the process
it has asked for and returns how it has ended. -/
theorem session_completes (hptys : ∀ r ∈ ptys, Wire.Bounded r) (hlast : SessionSetup.Starts last)
    (hbounded : last.Bounded)
    (hpty : ∀ r ∈ ptys.getLast?, ∃ winsize, allocatePty host.openpty r = .ok winsize)
    {as : List Action} (has : ∀ n, .client (.turn n false) ∉ as)
    (h : (machine host interactive (clientCalls ptys last)).exec
      (machine host interactive (clientCalls ptys last)).init as = some s) :
    (.client .resizeEnds ∉ as → ∀ bs t, (∀ a ∈ bs, a.Internal) →
        (machine host interactive (clientCalls ptys last)).exec s bs = some t →
        bs.length + t.toCome ≤ s.toCome) ∧
      (Resting host interactive s → Completed host ptys last s) := by
  have hall := SetupDialogue.proper_clientCalls hptys hlast hbounded
  obtain ⟨d, up, down, ms, hfollows⟩ :=
    follows_exec hall (follows_init host interactive ptys last) has h
  refine ⟨fun hopen bs t hbs hexec => ?_, hfollows.completed hlast hpty⟩
  have hlive : s.stdin.Live := live_exec ⟨[], rfl⟩ hopen h
  refine (Machine.exec_bounded_of (p := Action.Internal) (μ := toCome)
    (I := fun s => s.stdin.Live ∧
      ∃ as d up down ms, Follows host interactive ptys last as s d up down ms)
    ?_ hbs ⟨hlive, _, d, up, down, ms, hfollows⟩ hexec).2
  rintro s a t ⟨hlive, as, d, up, down, ms, hs⟩ ha hstep
  have hsucceeds : ∀ n, a ≠ .client (.turn n false) := by
    rintro n rfl
    cases ha
  have hstays : a ≠ .client .resizeEnds := by
    rintro rfl
    exact ha
  obtain ⟨d', up', down', ms', ht⟩ := hs.step hall hsucceeds hstep
  exact ⟨⟨live_step hlive hstays hstep, _, d', up', down', ms', ht⟩,
    hs.toCome_lt hall hlive ha hstep⟩

/-! ### A session at rest

That nothing is possible in a state can be tested by looking at the parts. -/

/-- The server is back from `session_setup`. -/
def serverReturned (s : WholeSession) : Bool :=
  match s.dialogue.server with
  | .returned _ => true
  | .reading _ _ => false

/-- Nothing is left to do. -/
def through (s : WholeSession) : Bool :=
  decide s.Ready && serverReturned s && decide (s.dialogue.toClient = []) && decide s.Returned &&
    s.stopped &&
    s.process.any fun p => decide (p.relay.place = .returned)

/-- A relay that has returned does nothing more. -/
theorem relay_returned {p : OutputRelay} (hplace : p.place = .returned) (a : OutputRelay.Action) :
    OutputRelay.step p a = none := by
  cases a <;> simp [OutputRelay.step, hplace]

/-- Where nothing is left to do, nothing happens. -/
theorem resting_of_through (h : through s = true) : Resting host interactive s := by
  simp only [through, Bool.and_eq_true, decide_eq_true_eq] at h
  obtain ⟨⟨⟨⟨⟨⟨hcalls, hresponse⟩, hserver⟩, htoClient⟩, hreturned⟩, hstopped⟩, hprocess⟩ := h
  obtain ⟨p, hp, hplace⟩ := (Option.any_eq_true _ _).mp hprocess
  rw [decide_eq_true_eq] at hplace
  intro a ha
  cases a with
  | setup a =>
    cases a with
    | call => simp [WholeSession.step, SetupDialogue.step, hcalls]
    | serve =>
      rw [serverReturned] at hserver
      split at hserver
      · rename_i r heq
        simp [WholeSession.step, SetupDialogue.step, heq]
      · cases hserver
    | receive => simp [WholeSession.step, SetupDialogue.step, hresponse]
  | client a =>
    cases a with
    | turn n ok =>
      have hnot : ¬s.Enabled (.turn n ok) := fun henabled => henabled.2 hreturned
      rw [WholeSession.step, WholeSession.clientStep, if_neg hnot]
    | _ => exact absurd ha id
  | launch out err status => exact absurd ha id
  | relay a =>
    simp [WholeSession.step, WholeSession.relayStep, hp, relay_returned hplace]
  | arrive =>
    simp only [WholeSession.step, hp, hstopped, if_true]
    split <;> rfl
  | stop => simp [WholeSession.step, hp, hstopped]
  | receive => simp only [WholeSession.step, htoClient]

/-- The same session to its end. -/
def wholeOutput : List Action :=
  earlyOutput ++ [.relay .exit, .relay .stdoutEnd, .relay .stderrEnd, .stop] ++
    List.replicate 21 .receive

/-- It is at rest, and completed. -/
theorem wholeOutput_completes :
    ∃ s, (machine plainHost false (clientCalls [] .shell)).exec
        (machine plainHost false (clientCalls [] .shell)).init wholeOutput = some s ∧
      (∀ bs t, (∀ a ∈ bs, a.Internal) →
        (machine plainHost false (clientCalls [] .shell)).exec s bs = some t →
        bs.length + t.toCome ≤ s.toCome) ∧ Completed plainHost [] .shell s := by
  have hruns : ((machine plainHost false (clientCalls [] .shell)).exec
      (machine plainHost false (clientCalls [] .shell)).init wholeOutput).any through = true := by
    decide +kernel
  obtain ⟨s, hexec, hthrough⟩ := (Option.any_eq_true _ _).mp hruns
  obtain ⟨hbound, hcompleted⟩ := session_completes (List.forall_mem_nil _)
    (show SessionSetup.Starts .shell from trivial) trivial (by simp)
      (by simp [wholeOutput, earlyOutput])
    hexec
  exact ⟨s, hexec, hbound (by simp [wholeOutput, earlyOutput]),
    hcompleted (resting_of_through hthrough)⟩

end WholeSession

end Dssh
