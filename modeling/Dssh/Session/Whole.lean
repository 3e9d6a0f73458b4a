import Dssh.Session.Arrived
import Dssh.Session.Command
import Dssh.Session.SetupDialogue

/-!
# A whole session

A client that asks for a command or a shell and then relays its input and output, a server that
sets the session up, starts the process and relays for it, and one channel between them. All of
it takes the same two streams of bytes: what is behind the last byte of the setup is input or
output, and a byte that the setup leaves or takes too much would be missed there.

A run is any order of the steps of the client's and the server's tasks and of arriving bytes.
What the process writes and how it ends is chosen when it is started. Nothing fails and nobody
shuts the session down.

## What is composed

Five models from other modules, each with its own theorem: the setup of both sides, the client's
relay of its input, the server's relay of the output, the server's relay of the input, and the
client's of the output. They are composed by their streams. A step of the whole is a step of one
of them, and what it writes is put at the end of a stream; the two relays at the receiving ends
are functions of what has arrived.

The server's relay of the output starts as soon as the server is back from the setup. At this
time the answer to the last request may be under way, and output is put behind it. The client's
relay of the input starts when the client has read that answer, and what it sends is put behind
the last request. So both streams have the setup in front, and `SetupDialogue.extend` is the
setup with something behind it. That the setup does not touch what is behind it is
`Stands.step_extend`. It is the decoders' law about the bytes that they leave.

## How a client ends

`run` and `run_interactive` wait in a `select!` for the relay of the output or that of the
input. When the relay of the output returns, the client returns with it, in the same poll, and
the other relay is dropped wherever it is. The signal that tells it to stop is sent to nobody.
When the relay of the input returns first, the client goes on with the output alone. So the
input relay takes turns until the client has returned (`Enabled`), and not after that. Likewise
no more bytes arrive at a client that has returned.

`stop` is the server's main task telling its input relay to stop, when the process has ended.

## The statement

`Faithful` has what is true of a running session. The process is the one that the client asked
for, in the environment that this means; what it has been given is a beginning of the client's
input, and its terminal has had a beginning of the sizes; the client has written a beginning of
the output, with the message of the day in front; and if it reports an exit, then the right one.
Beginnings are what safety can say. That a session comes to its end is in `Completion`.

## Main definitions

* `WholeSession`, `WholeSession.step`, `WholeSession.machine` — the two sides and the channel
* `WholeSession.Follows` — the invariant: the parts, and what is under way
* `WholeSession.Faithful` — what the two sides see

## Main results

* `WholeSession.follows_exec` — the invariant of a session, in every run
* `WholeSession.session_faithful` — the process that is started is the one that is asked for,
  and what has got to it and to the client is a beginning of what should
-/

namespace Dssh

/-! ## The setup in front of the streams

The setup uses both directions of the channel, and so do the relays behind it. The setup takes
nothing of what the relays write: it stops at the byte at which its own messages end. -/

/-- The streams with more behind them. -/
def SetupDialogue.extend (d : SetupDialogue) (up down : List UInt8) : SetupDialogue :=
  { d with toServer := d.toServer ++ up, toClient := d.toClient ++ down }

namespace SetupDialogue

variable {openpty : Winsize → Option ℕ} {all : List SessionRequest} {d d' e : SetupDialogue}
  {up down : List UInt8}

/-- Nothing behind. -/
theorem extend_nil (d : SetupDialogue) : d.extend [] [] = d := by
  simp [extend]

/-- The client has nothing to do with the setup any more. -/
def Over (d : SetupDialogue) : Prop := d.calls = [] ∧ d.response = none

/-- When the client is through, both directions are empty and the server is back. -/
theorem Stands.of_over (h : Stands openpty all d) (hover : d.Over) :
    d.toServer = [] ∧ d.toClient = [] ∧ d.server = serverAfter openpty all [] := by
  cases h with
  | @idle made calls h =>
    obtain rfl : calls = [] := hover.1
    rw [List.append_nil] at h
    exact ⟨rfl, rfl, by rw [h]⟩
  | asking => cases hover.1
  | answering => cases hover.1

/-- The server reads only as long as the client is not through. -/
theorem Stands.of_returned {r : Except SessionSetupError SessionSetup} (h : Stands openpty all d)
    (hserver : d.server = .returned r) :
    d.toServer = [] ∧ d.server = serverAfter openpty all [] := by
  cases h with
  | @idle made calls h =>
    by_cases hcalls : calls = []
    · rw [hcalls, List.append_nil] at h
      exact ⟨rfl, by rw [hcalls, h]⟩
    · rw [serverAfter, if_neg hcalls] at hserver
      cases hserver
  | asking => cases hserver
  | @answering made calls rq d b bs h hd =>
    by_cases hcalls : calls = []
    · rw [hcalls] at h
      exact ⟨rfl, by rw [hcalls, h]⟩
    · rw [serverAfter, if_neg hcalls] at hserver
      cases hserver

/-- A setup that is returned is what the calls ask for. -/
theorem Stands.setUp {ptys : List PtyRequest} {last : SessionRequest} {setup : SessionSetup}
    (hlast : SessionSetup.Starts last) (h : Stands openpty (clientCalls ptys last) d)
    (hserver : d.server = .returned (.ok setup)) :
    SetUp setup (ptys.map SessionRequest.ptyReq) last := by
  have hprepares : ∀ rq ∈ ptys.map SessionRequest.ptyReq, SessionSetup.Prepares rq := by
    simp [SessionSetup.Prepares]
  have hreturned := (h.of_returned hserver).2
  rw [hserver, serverAfter, if_pos rfl, clientCalls, locals_append, locals] at hreturned
  have hfinish := (Server.returned.inj hreturned).symm
  have hpty : ∀ r ∈ (SessionSetup.ptyRequests (ptys.map SessionRequest.ptyReq)).getLast?,
      ∃ winsize, allocatePty openpty r = .ok winsize := by
    intro r hr
    have hrequest : (((ptys.map SessionRequest.ptyReq).foldl SessionSetup.Locals.request {}).request
        last).ptyRequest = some r := by
      rw [SessionSetup.foldl_request hprepares]
      cases last with
      | exec | shell => exact hr
      | _ => exact hlast.elim
    rw [SessionSetup.finish, hrequest] at hfinish
    cases hallocate : allocatePty openpty r with
    | ok winsize => exact ⟨winsize, rfl⟩
    | error e =>
      simp only [hallocate] at hfinish
      cases hfinish
  obtain ⟨pty, hfinish', hallocated⟩ := SessionSetup.finish_requests hprepares hlast hpty
  obtain rfl := Except.ok.inj (hfinish'.symm.trans hfinish)
  exact ⟨rfl, rfl, rfl, rfl, hallocated⟩

/-- What has been returned stays. -/
theorem server_of_step {r : Except SessionSetupError SessionSetup} {a : Action}
    (hserver : d.server = .returned r) (h : step openpty d a = some d') :
    d'.server = .returned r := by
  cases a with
  | call =>
    rw [step] at h
    split at h
    · obtain rfl := Option.some.inj h
      exact hserver
    · cases h
  | serve =>
    rw [step, hserver] at h
    cases h
  | receive =>
    rw [step] at h
    split at h
    · split at h <;> (obtain rfl := Option.some.inj h; exact hserver)
    · cases h

/-- **The setup takes nothing of what follows it.** -/
theorem Stands.step_extend {a : Action} (h : Stands openpty all d) (hup : ¬d.Over → up = [])
    (hdown : (∀ r, d.server ≠ .returned r) → down = [])
    (hstep : SetupDialogue.step openpty (d.extend up down) a = some e) :
    ∃ d', SetupDialogue.step openpty d a = some d' ∧ e = d'.extend up down ∧ ¬d.Over := by
  by_cases hover : d.Over
  · -- no step
    obtain ⟨-, -, hreturned⟩ := h.of_over hover
    cases a with
    | call =>
      simp only [SetupDialogue.step, extend, hover.1, hover.2] at hstep
      cases hstep
    | serve =>
      simp only [SetupDialogue.step, extend, hreturned, serverAfter] at hstep
      cases hstep
    | receive =>
      simp only [SetupDialogue.step, extend, hover.2] at hstep
      cases hstep
  · obtain rfl := hup hover
    by_cases hreturned : ∃ r, d.server = .returned r
    · obtain ⟨r, hserver⟩ := hreturned
      cases a with
      | call =>
        simp only [SetupDialogue.step, extend] at hstep ⊢
        split at hstep
        · obtain rfl := Option.some.inj hstep
          exact ⟨_, rfl, by simp, hover⟩
        · cases hstep
      | serve =>
        simp only [SetupDialogue.step, extend, hserver] at hstep
        cases hstep
      | receive =>
        cases h with
        | idle h => cases hstep
        | asking h hd => cases hserver
        | @answering made calls rq d b bs h hd =>
          obtain ⟨io, k, rfl, hk⟩ := hd.cons
          cases bs with
          | nil =>
            simp only [SetupDialogue.step, extend, List.cons_append, hk.eq_done] at hstep ⊢
            obtain rfl := Option.some.inj hstep
            exact ⟨_, rfl, rfl, hover⟩
          | cons b' bs =>
            obtain ⟨io', k', hkb, -⟩ := hk.cons
            simp only [SetupDialogue.step, extend, List.cons_append, hkb] at hstep ⊢
            obtain rfl := Option.some.inj hstep
            exact ⟨_, rfl, rfl, hover⟩
    · obtain rfl := hdown (not_exists.mp hreturned)
      rw [extend_nil] at hstep
      exact ⟨e, hstep, (extend_nil e).symm, hover⟩

end SetupDialogue

/-! ## What the relays add

Both relays only add to what they have written. A step of the session puts what is new on the
stream. -/

/-- What has been sent stays sent. -/
theorem StdinRelay.sent_prefix {interactive : Bool} {s t : StdinRelay} {a : StdinRelay.Action}
    (h : s.step interactive a = some t) : s.sent <+: t.sent := by
  by_cases ha : a.isTurn = false
  · have hsent := (frame_of_not_turn ha h).sent
    exact hsent ▸ List.prefix_rfl
  · cases a with
    | turn n ok =>
      obtain ⟨-, hbranch⟩ := branch_of_turn h
      cases hbranch with
      | done | inputEnd => exact List.prefix_append _ _
      | input =>
        rw [onInput]
        cases ok with
        | true => exact List.prefix_append _ _
        | false => exact (List.prefix_append _ _).trans (List.prefix_append _ _)
      | resize _ _ _ _ hresize =>
        rw [onResize] at hresize
        split at hresize
        case h_1 => cases hresize
        case h_2 | h_3 =>
          obtain rfl := Option.some.inj hresize
          exact List.prefix_append _ _
        case h_4 | h_5 =>
          obtain rfl := Option.some.inj hresize
          exact List.prefix_rfl
    | _ => exact absurd rfl ha

/-- A message is put behind the others. -/
theorem OutputRelay.written_send (t : OutputRelay) (bs : Option (List UInt8)) :
    t.written <+: (t.send bs).written := by
  cases bs with
  | none => exact List.prefix_rfl
  | some bs => exact List.prefix_append _ _

/-- So are EOF and close, … -/
theorem OutputRelay.written_finish (t : OutputRelay) : t.written <+: t.finish.written := by
  rw [finish, List.append_assoc]
  exact List.prefix_append _ _

/-- … if the loop has ended. -/
theorem OutputRelay.written_loopHead (t : OutputRelay) : t.written <+: t.loopHead.written := by
  rw [loopHead]
  split
  · split
    · exact t.written_finish
    · exact List.prefix_rfl
  · exact List.prefix_rfl

/-- What has been written stays written. -/
theorem OutputRelay.written_prefix {t t' : OutputRelay} {a : OutputRelay.Action}
    (h : OutputRelay.step t a = some t') : t.written <+: t'.written := by
  cases a with
  | readStdout n =>
    obtain ⟨-, rfl⟩ := step_readStdout h
    exact written_send { t with stdout := t.stdout.drop n } _
  | readStderr n =>
    obtain ⟨-, rfl⟩ := step_readStderr h
    exact written_send { t with stderr := t.stderr.drop n } _
  | stdoutEnd =>
    obtain ⟨-, rfl⟩ := step_stdoutDone (.inl rfl) h
    exact written_loopHead { t with stdoutDone := true }
  | eio =>
    obtain ⟨-, rfl⟩ := step_stdoutDone (.inr rfl) h
    exact written_loopHead { t with stdoutDone := true }
  | stderrEnd =>
    obtain ⟨-, rfl⟩ := step_stderrEnd h
    exact written_loopHead { t with stderrDone := true }
  | exit =>
    have hnotify : t.written <+: t.notifyExit.written := List.prefix_append _ _
    obtain ⟨-, ⟨-, rfl⟩ | ⟨-, rfl⟩⟩ := step_exit h
    · exact hnotify
    · exact hnotify.trans t.notifyExit.written_finish

/-- What a list has more than one that it begins with. -/
theorem append_drop_of_prefix {α : Type} {xs ys : List α} (h : xs <+: ys) :
    xs ++ ys.drop xs.length = ys := by
  obtain ⟨zs, rfl⟩ := h
  rw [List.drop_left]

/-! ## The two sides

The machines of the parts side by side, with the two streams in between. A part takes a step if
its machine does, and the conditions are those of the program around it. -/

/-- The two sides in progress. -/
structure WholeSession where
  /-- The setup, with what is under way in both directions. -/
  dialogue : SetupDialogue
  /-- The client's relay of its input. -/
  stdin : StdinRelay := {}
  /-- What has arrived for the input relay of the server. -/
  arrived : List UInt8 := []
  /-- The input relay of the server has been stopped. -/
  stopped : Bool := false
  /-- The process, from the end of the setup on. -/
  process : Option Process := none
  /-- What has arrived for the output relay of the client. -/
  received : List UInt8 := []

namespace WholeSession

/-- A step of one of the parts, or a byte that arrives. -/
inductive Action where
  | setup (a : SetupDialogue.Action)
  | client (a : StdinRelay.Action)
  /-- The server starts the process, which is going to write `out` and `err` and to end with
  `status`. -/
  | launch (out err : List UInt8) (status : ExitStatus)
  | relay (a : OutputRelay.Action)
  /-- A byte arrives at the server. -/
  | arrive
  | stop
  /-- A byte arrives at the client. -/
  | receive
  deriving DecidableEq

/-- The client has made its calls and goes on with `run`. -/
def Ready (s : WholeSession) : Prop := s.dialogue.Over

instance (s : WholeSession) : Decidable s.Ready :=
  decidable_of_iff (s.dialogue.calls = [] ∧ s.dialogue.response.isNone = true) <| by
    rw [Ready, SetupDialogue.Over, Option.isNone_iff_eq_none]

/-- `run` has returned. The relay of the output returns in the poll in which it reads close, and
`select!` returns with it: the relay of the input is dropped where it is, and the reader with it. -/
def Returned (s : WholeSession) : Prop := ClientOutput.closed s.received = true

instance (s : WholeSession) : Decidable s.Returned :=
  inferInstanceAs (Decidable (_ = true))

/-- Whether the client's relay can take a step now. -/
def Enabled (s : WholeSession) : StdinRelay.Action → Prop
  | .turn _ _ => s.Ready ∧ ¬s.Returned
  -- The signal is sent to a relay that is not polled any more.
  | .finishes => False
  | _ => True

instance (s : WholeSession) : (a : StdinRelay.Action) → Decidable (s.Enabled a)
  | .turn _ _ => inferInstanceAs (Decidable (_ ∧ _))
  | .finishes => .isFalse id
  | .inputs _ => .isTrue trivial
  | .inputEnds => .isTrue trivial
  | .resizes _ => .isTrue trivial
  | .resizeEnds => .isTrue trivial

/-- A step of the client's relay, with what it writes. -/
def clientStep (interactive : Bool) (s : WholeSession) (a : StdinRelay.Action) :
    Option WholeSession :=
  if s.Enabled a then do
    let t ← s.stdin.step interactive a
    let written ← ChannelMessage.writeAll (t.sent.drop s.stdin.sent.length)
    some { s with stdin := t, dialogue := s.dialogue.extend written [] }
  else none

/-- Start the process, and send the message of the day. -/
def launch (host : SessionHost) (s : WholeSession) (out err : List UInt8) (status : ExitStatus) :
    Option WholeSession :=
  match s.process, s.dialogue.server with
  | none, .returned (.ok setup) => do
    let messages ← WriterOp.performAll (host.greeting setup)
    some { s with
      process := some (host.spawn setup out err status)
      dialogue := s.dialogue.extend [] messages.flatten }
  | _, _ => none

/-- A step of the server's relay, with what it writes. -/
def relayStep (s : WholeSession) (a : OutputRelay.Action) : Option WholeSession := do
  let p ← s.process
  let t ← OutputRelay.step p.relay a
  some { s with
    process := some { p with relay := t }
    dialogue := s.dialogue.extend [] (t.written.drop p.relay.written.length) }

/-- One step of the session. -/
def step (host : SessionHost) (interactive : Bool) (s : WholeSession) : Action → Option WholeSession
  | .setup a => (SetupDialogue.step host.openpty s.dialogue a).map fun d => { s with dialogue := d }
  | .client a => clientStep interactive s a
  | .launch out err status => launch host s out err status
  | .relay a => relayStep s a
  | .arrive =>
    match s.process, s.dialogue.toServer with
    | some _, b :: toServer =>
      if s.stopped then none
      else some { s with
        dialogue := { s.dialogue with toServer := toServer }
        arrived := s.arrived ++ [b] }
    | _, _ => none
  | .stop => do
    let p ← s.process
    if p.relay.exitStatus.isSome ∧ s.stopped = false then some { s with stopped := true } else none
  | .receive =>
    match s.dialogue.toClient with
    | b :: toClient =>
      if s.Ready ∧ ¬s.Returned then
        some { s with
          dialogue := { s.dialogue with toClient := toClient }
          received := s.received ++ [b] }
      else none
    | [] => none

/-- A client that is going to make the calls. -/
def machine (host : SessionHost) (interactive : Bool) (calls : List SessionRequest) :
    Machine WholeSession Action :=
  ⟨{ dialogue := { calls := calls } }, step host interactive⟩

/-! ## The invariant

Each direction is what the setup has left of its own, then what one relay has written. The parts
are in states that they reach by themselves, so all that is known of them can be used. -/

open SetupDialogue (Stands clientCalls)
open StdinRelay (Accounts)
open ChannelMessage (stream)

/-- What the client's relay of the input does and sees. -/
def Action.clientActions : Action → List StdinRelay.Action
  | client a => [a]
  | _ => []

/-- Those of a run. -/
def clientActions (as : List Action) : List StdinRelay.Action := as.flatMap Action.clientActions

/-- How the two sides stand: the setup in front of the streams, then input on the one and output on
the other. -/
structure Follows (host : SessionHost) (interactive : Bool) (ptys : List PtyRequest)
    (last : SessionRequest) (as : List StdinRelay.Action) (s : WholeSession) (d : SetupDialogue)
    (up down : List UInt8) (ms : List ChannelMessage) : Prop where
  /-- The setup by itself. -/
  stands : Stands host.openpty (clientCalls ptys last) d
  /-- The same, with what is under way behind it. -/
  dialogue : s.dialogue = d.extend up down
  /-- The input, as its relay has sent it. -/
  accounts : Accounts interactive as s.stdin ms
  /-- Nothing of the session comes before the setup is over. -/
  early : ¬d.Over → s.stdin.sent = [] ∧ s.received = []
  /-- What has been sent has arrived or is under way. -/
  input : s.arrived ++ up = stream s.stdin.sent
  /-- Without a process, nothing has arrived for one and nothing comes from one. -/
  waiting : s.process = none → s.arrived = [] ∧ s.received = [] ∧ down = []
  /-- The process is the one of the setup, and what it has written has arrived or is under way. -/
  running : ∀ p, s.process = some p → ∃ setup, d.server = .returned (.ok setup) ∧
    p.command = host.command setup ∧ OutputRelay.Inv p.out p.err p.status p.relay ∧
      s.received ++ down = stream (host.opening setup) ++ p.relay.written

variable {host : SessionHost} {interactive : Bool} {ptys : List PtyRequest} {last : SessionRequest}
  {as : List StdinRelay.Action} {s t : WholeSession} {d : SetupDialogue} {up down : List UInt8}
  {ms : List ChannelMessage}

/-- The client is ready when the setup is over for it. -/
theorem Follows.ready (h : Follows host interactive ptys last as s d up down ms) :
    s.Ready ↔ d.Over := by
  rw [Ready, h.dialogue]
  exact Iff.rfl

/-- Nobody has written into a direction that the setup still uses. -/
theorem Follows.up_eq_nil (h : Follows host interactive ptys last as s d up down ms)
    (hover : ¬d.Over) : up = [] := by
  have hinput := h.input
  rw [(h.early hover).1] at hinput
  exact (List.append_eq_nil_iff.mp hinput).2

/-- The same for the other direction. -/
theorem Follows.down_eq_nil (h : Follows host interactive ptys last as s d up down ms)
    (hserver : ∀ r, d.server ≠ .returned r) : down = [] := by
  cases hprocess : s.process with
  | none => exact (h.waiting hprocess).2.2
  | some p =>
    obtain ⟨setup, hreturned, -⟩ := h.running p hprocess
    exact absurd hreturned (hserver _)

/-- A step of the setup. -/
theorem Follows.setup {a : SetupDialogue.Action} {e : SetupDialogue}
    (h : Follows host interactive ptys last as s d up down ms)
    (hall : SetupDialogue.Proper (clientCalls ptys last))
    (hstep : SetupDialogue.step host.openpty s.dialogue a = some e) :
    ∃ d', Follows host interactive ptys last as { s with dialogue := e } d' up down ms ∧
      SetupDialogue.remaining d = SetupDialogue.remaining d' + 1 := by
  rw [h.dialogue] at hstep
  obtain ⟨d', hd', rfl, hover⟩ := h.stands.step_extend h.up_eq_nil h.down_eq_nil hstep
  obtain ⟨hstands, hremaining⟩ := h.stands.step hall hd'
  refine ⟨d',
    ⟨hstands, rfl, h.accounts, fun _ => h.early hover, h.input, h.waiting, fun p hp => ?_⟩,
    hremaining⟩
  obtain ⟨setup, hserver, hrest⟩ := h.running p hp
  exact ⟨setup, SetupDialogue.server_of_step hserver hd', hrest⟩

/-- A turn of the client, or something that comes in there. -/
theorem Follows.clientStep {a : StdinRelay.Action}
    (h : Follows host interactive ptys last as s d up down ms) (ha : ∀ n, a ≠ .turn n false)
    (hstep : clientStep interactive s a = some t) :
    ∃ up' ms', Follows host interactive ptys last (as ++ [a]) t d up' down ms' := by
  obtain ⟨henabled, hstep⟩ := Option.ite_none_right_eq_some.mp hstep
  obtain ⟨r, hr, hstep⟩ := Option.bind_eq_some_iff.mp hstep
  obtain ⟨written, hwritten, hstep⟩ := Option.bind_eq_some_iff.mp hstep
  obtain rfl := Option.some.inj hstep
  obtain ⟨ms', haccounts⟩ := h.accounts.step ha hr
  have hsent := append_drop_of_prefix (StdinRelay.sent_prefix hr)
  have hbytes := (ChannelMessage.of_writeAll hwritten).2
  refine ⟨up ++ written, ms', h.stands, ?_, haccounts, fun hover => ?_, ?_, h.waiting, h.running⟩
  · rw [h.dialogue]
    simp [SetupDialogue.extend]
  · -- the relay has not begun
    have hnotTurn : a.isTurn = false := by
      cases a with
      | turn n ok => exact absurd (h.ready.mp henabled.1) hover
      | _ => rfl
    refine ⟨?_, (h.early hover).2⟩
    show r.sent = []
    rw [(StdinRelay.frame_of_not_turn hnotTurn hr).sent]
    exact (h.early hover).1
  · show s.arrived ++ (up ++ written) = stream r.sent
    rw [← hsent, ChannelMessage.stream_append, ← h.input, hbytes, List.append_assoc]

/-- A process that has been spawned has written nothing. -/
theorem inv_spawn (host : SessionHost) (setup : SessionSetup) (out err : List UInt8)
    (status : ExitStatus) : (host.spawn setup out err status).command = host.command setup ∧
      (host.spawn setup out err status).relay.written = [] ∧
      OutputRelay.Inv (host.spawn setup out err status).out (host.spawn setup out err status).err
        (host.spawn setup out err status).status (host.spawn setup out err status).relay := by
  rw [SessionHost.spawn]
  split
  · exact ⟨rfl, rfl, .init_runPty out status⟩
  · exact ⟨rfl, rfl, .init_runPiped out err status⟩

/-- The process is started. -/
theorem Follows.launch {out err : List UInt8} {status : ExitStatus}
    (h : Follows host interactive ptys last as s d up down ms)
    (hstep : launch host s out err status = some t) :
    ∃ down', Follows host interactive ptys last as t d up down' ms := by
  rw [WholeSession.launch] at hstep
  split at hstep
  · rename_i setup hprocess hserver
    obtain ⟨messages, hmessages, hflatten⟩ := host.greeting_sent setup
    rw [hmessages] at hstep
    obtain rfl := Option.some.inj hstep
    obtain ⟨harrived, hreceived, hdown⟩ := h.waiting hprocess
    obtain ⟨hcommand, hwritten, hinv⟩ := inv_spawn host setup out err status
    have hreturned : d.server = .returned (.ok setup) := by
      rw [h.dialogue] at hserver
      exact hserver
    refine ⟨messages.flatten, h.stands, ?_, h.accounts, h.early, h.input, by simp, fun p hp => ?_⟩
    · rw [h.dialogue, hdown]
      simp [SetupDialogue.extend]
    · obtain rfl := Option.some.inj hp
      refine ⟨setup, hreturned, hcommand, hinv, ?_⟩
      rw [hwritten, hflatten, hreceived, List.append_nil, List.nil_append]
  · cases hstep

/-- A step of the server's relay. -/
theorem Follows.relayStep {a : OutputRelay.Action}
    (h : Follows host interactive ptys last as s d up down ms) (hstep : relayStep s a = some t) :
    ∃ down', Follows host interactive ptys last as t d up down' ms := by
  obtain ⟨p, hprocess, hstep⟩ := Option.bind_eq_some_iff.mp hstep
  obtain ⟨r, hr, hstep⟩ := Option.bind_eq_some_iff.mp hstep
  obtain rfl := Option.some.inj hstep
  obtain ⟨setup, hserver, hcommand, hinv, houtput⟩ := h.running p hprocess
  refine ⟨down ++ r.written.drop p.relay.written.length, h.stands, ?_, h.accounts, h.early, h.input,
    by simp, fun p' hp' => ?_⟩
  · rw [h.dialogue]
    simp [SetupDialogue.extend]
  · obtain rfl := Option.some.inj hp'
    refine ⟨setup, hserver, hcommand, hinv.step hr, ?_⟩
    show s.received ++ (down ++ _) = _ ++ r.written
    rw [← List.append_assoc, houtput, List.append_assoc,
      append_drop_of_prefix (OutputRelay.written_prefix hr)]

/-- A byte of the input arrives. -/
theorem Follows.arrive (h : Follows host interactive ptys last as s d up down ms)
    (hstep : step host interactive s .arrive = some t) :
    ∃ up', Follows host interactive ptys last as t d up' down ms := by
  simp only [step] at hstep
  split at hstep
  · rename_i p b toServer hprocess htoServer
    split_ifs at hstep
    obtain rfl := Option.some.inj hstep
    obtain ⟨setup, hserver, hrest⟩ := h.running p hprocess
    have hup : up = b :: toServer := by
      have hnil := (h.stands.of_returned hserver).1
      rw [h.dialogue, SetupDialogue.extend] at htoServer
      rwa [hnil, List.nil_append] at htoServer
    refine ⟨toServer, h.stands, ?_, h.accounts, h.early, ?_, ?_, h.running⟩
    · rw [h.dialogue, SetupDialogue.extend, SetupDialogue.extend, (h.stands.of_returned hserver).1]
      rfl
    · show s.arrived ++ [b] ++ toServer = _
      rw [← h.input, hup, List.append_assoc]
      rfl
    · intro hnone
      exact absurd (hprocess.symm.trans hnone) (by simp)
  · cases hstep

/-- A byte of the output arrives. -/
theorem Follows.receive (h : Follows host interactive ptys last as s d up down ms)
    (hstep : step host interactive s .receive = some t) :
    ∃ down', Follows host interactive ptys last as t d up down' ms := by
  simp only [step] at hstep
  split at hstep
  · rename_i b toClient htoClient
    split_ifs at hstep with hready
    obtain rfl := Option.some.inj hstep
    have hover := h.ready.mp hready.1
    have hnil := (h.stands.of_over hover).2.1
    have hdown : down = b :: toClient := by
      rw [h.dialogue, SetupDialogue.extend] at htoClient
      rwa [hnil, List.nil_append] at htoClient
    refine ⟨toClient, h.stands, ?_, h.accounts, fun hnot => absurd hover hnot, h.input, ?_, ?_⟩
    · rw [h.dialogue, SetupDialogue.extend, SetupDialogue.extend, hnil]
      rfl
    · intro hnone
      have hwaiting := (h.waiting hnone).2.2
      rw [hdown] at hwaiting
      cases hwaiting
    · intro p hp
      obtain ⟨setup, hserver, hcommand, hinv, houtput⟩ := h.running p hp
      refine ⟨setup, hserver, hcommand, hinv, ?_⟩
      show s.received ++ [b] ++ toClient = _
      rw [← houtput, hdown, List.append_assoc]
      rfl
  · cases hstep

/-- Nothing has come in at the client. -/
theorem Follows.silent {a : Action} (h : Follows host interactive ptys last as s d up down ms)
    (ha : a.clientActions = []) :
    Follows host interactive ptys last (as ++ a.clientActions) s d up down ms := by
  rwa [ha, List.append_nil]

/-- **Every step keeps the invariant**, if no write of the client fails. -/
theorem Follows.step {a : Action} (h : Follows host interactive ptys last as s d up down ms)
    (hall : SetupDialogue.Proper (clientCalls ptys last)) (ha : ∀ n, a ≠ .client (.turn n false))
    (hstep : WholeSession.step host interactive s a = some t) :
    ∃ d' up' down' ms',
      Follows host interactive ptys last (as ++ a.clientActions) t d' up' down' ms' := by
  cases a with
  | setup a =>
    obtain ⟨e, he, rfl⟩ := Option.map_eq_some_iff.mp hstep
    obtain ⟨d', h', -⟩ := h.setup hall he
    exact ⟨d', up, down, ms, h'.silent rfl⟩
  | client a =>
    obtain ⟨up', ms', h'⟩ := h.clientStep (fun n heq => ha n (heq ▸ rfl)) hstep
    exact ⟨d, up', down, ms', h'⟩
  | launch out err status =>
    obtain ⟨down', h'⟩ := h.launch hstep
    exact ⟨d, up, down', ms, h'.silent rfl⟩
  | relay a =>
    obtain ⟨down', h'⟩ := h.relayStep hstep
    exact ⟨d, up, down', ms, h'.silent rfl⟩
  | arrive =>
    obtain ⟨up', h'⟩ := h.arrive hstep
    exact ⟨d, up', down, ms, h'.silent rfl⟩
  | stop =>
    obtain ⟨p, hprocess, hstep⟩ := Option.bind_eq_some_iff.mp hstep
    obtain ⟨-, hstep⟩ := Option.ite_none_right_eq_some.mp hstep
    obtain rfl := Option.some.inj hstep
    have h' : Follows host interactive ptys last as { s with stopped := true } d up down ms :=
      ⟨h.stands, h.dialogue, h.accounts, h.early, h.input, h.waiting, h.running⟩
    exact ⟨d, up, down, ms, h'.silent rfl⟩
  | receive =>
    obtain ⟨down', h'⟩ := h.receive hstep
    exact ⟨d, up, down', ms, h'.silent rfl⟩

/-- Before the first call. -/
theorem follows_init (host : SessionHost) (interactive : Bool) (ptys : List PtyRequest)
    (last : SessionRequest) :
    Follows host interactive ptys last [] (machine host interactive (clientCalls ptys last)).init
      { calls := clientCalls ptys last } [] [] [] where
  stands := SetupDialogue.stands_init host.openpty ptys last
  dialogue := (SetupDialogue.extend_nil _).symm
  accounts := StdinRelay.accounts_init interactive
  early _ := ⟨rfl, rfl⟩
  input := rfl
  waiting _ := ⟨rfl, rfl, rfl⟩
  running p hp := by cases hp

/-- **A run.** -/
theorem follows_exec {bs : List Action} (hall : SetupDialogue.Proper (clientCalls ptys last))
    (h : Follows host interactive ptys last as s d up down ms)
    (hbs : ∀ n, .client (.turn n false) ∉ bs)
    (hexec : (machine host interactive (clientCalls ptys last)).exec s bs = some t) :
    ∃ d' up' down' ms',
      Follows host interactive ptys last (as ++ clientActions bs) t d' up' down' ms' := by
  induction bs generalizing as s d up down ms with
  | nil =>
    obtain rfl := Option.some.inj hexec
    exact ⟨d, up, down, ms, by rwa [clientActions, List.flatMap_nil, List.append_nil]⟩
  | cons a bs ih =>
    obtain ⟨u, hstep, hexec⟩ := Option.bind_eq_some_iff.mp hexec
    obtain ⟨d', up', down', ms', h'⟩ :=
      h.step hall (fun n heq => hbs n (heq ▸ List.mem_cons_self)) hstep
    have hrest := ih h' (fun n hmem => hbs n (List.mem_cons_of_mem a hmem)) hexec
    rwa [List.append_assoc] at hrest

/-! ## What the two sides see

The invariant, read from the two ends. On both sides a part of what the other one has written has
arrived, and what is made of a part is a beginning of what is made of all of it. -/

/-- The process has been started as the client asks, it has got a beginning of the client's input
and its terminal a beginning of the sizes, and the client has got a beginning of the output and no
wrong exit. -/
structure Faithful (host : SessionHost) (ptys : List PtyRequest) (last : SessionRequest)
    (as : List StdinRelay.Action) (s : WholeSession) (p : Process)
    (setup : SessionSetup) : Prop where
  /-- The setup is what the client has asked for. -/
  asked : SetupDialogue.SetUp setup (ptys.map SessionRequest.ptyReq) last
  /-- The process is the one of that setup. -/
  command : p.command = host.command setup
  /-- It reads a beginning of the input, and gets a beginning of the sizes. -/
  input : ∃ r rest, relayInput p.mode s.arrived = some (r, rest) ∧
    r.stdin <+: StdinRelay.inputOf as ∧
    r.signals = [] ∧ ∃ sizes, sizes <+: StdinRelay.sizesOf as ∧
      r.resizes = sizes.map StdinRelay.resizeOf
  /-- What has been sent and is no longer under way has got there. -/
  arrived : s.dialogue.toServer = [] → ∃ r rest, relayInput p.mode s.arrived = some (r, rest) ∧
    r.stdin ++ s.stdin.stdin = StdinRelay.inputOf as
  /-- The client shows a beginning of what the process has written, and knows how it has ended at
  most as it has. -/
  output : ∃ r rest, ClientOutput.relayOutput s.received = some (r, rest) ∧
    (ClientOutput.seen r).stdout <+: host.message setup ++ p.out ∧
      (ClientOutput.seen r).stderr <+: p.err ∧ ClientOutput.Knows p.status (ClientOutput.seen r)

/-- A client that is going to send sizes has asked for a terminal. -/
theorem mode_of_setUp {setup : SessionSetup} {p : Process} (hptys : ptys ≠ [])
    (hasked : SetupDialogue.SetUp setup (ptys.map SessionRequest.ptyReq) last)
    (hcommand : p.command = host.command setup) : p.mode = .pty := by
  obtain ⟨-, -, -, -, hallocated⟩ := hasked
  rw [SetupDialogue.ptyRequests_map] at hallocated
  rw [Process.mode, hcommand]
  refine if_pos ?_
  show setup.pty.isSome = true
  rw [List.getLast?_eq_some_getLast hptys] at hallocated
  cases hpty : setup.pty with
  | none => rw [hpty] at hallocated; exact hallocated.elim
  | some pair => rfl

/-- A part of the input is a part of what would be sent with EOF and close behind it. -/
theorem Follows.arrived_prefix (h : Follows host interactive ptys last as s d up down ms) :
    s.arrived <+: stream (ms ++ [.eof, .close]) := by
  have hsent : stream s.stdin.sent <+: stream (ms ++ [.eof, .close]) := by
    rw [h.accounts.sent, StdinRelay.farewell]
    split
    · exact List.prefix_rfl
    · rw [List.append_nil, ChannelMessage.stream_append]
      exact List.prefix_append _ _
  rw [← h.input] at hsent
  exact (List.prefix_append _ _).trans hsent

/-- Extended data adds up. -/
theorem extendedDataOf_append (ms ms' : List ChannelMessage) :
    ChannelMessage.extendedDataOf (ms ++ ms') =
      ChannelMessage.extendedDataOf ms ++ ChannelMessage.extendedDataOf ms' :=
  List.flatMap_append

/-- The same for the output. -/
theorem Follows.received_prefix
    (h : Follows host interactive ptys last as s d up down ms) {p : Process}
    (hp : s.process = some p) : ∃ setup os, d.server = .returned (.ok setup) ∧
      p.command = host.command setup ∧ (∀ m ∈ os, OutputRelay.FromRelay p.status m) ∧
      ChannelMessage.dataOf os <+: host.message setup ++ p.out ∧
      ChannelMessage.extendedDataOf os <+: p.err ∧
      s.received <+: stream (os ++ [.eof, .close]) := by
  obtain ⟨setup, hserver, hcommand, hinv, houtput⟩ := h.running p hp
  obtain ⟨os, hos⟩ := hinv.sent
  refine ⟨setup, host.opening setup ++ os, hserver, hcommand,
    List.forall_mem_append.mpr ⟨host.opening_relay setup p.status, hos.from_relay⟩, ?_, ?_, ?_⟩
  · rw [StdinRelay.dataOf_append, host.dataOf_opening, ← hos.stdout, ← List.append_assoc]
    exact List.prefix_append _ _
  · rw [extendedDataOf_append, host.extendedDataOf_opening, List.nil_append, ← hos.stderr]
    exact List.prefix_append _ _
  · have hwritten := hos.written_prefix
    have hall : s.received ++ down <+: stream (host.opening setup ++ os ++ [.eof, .close]) := by
      rw [houtput, List.append_assoc, ChannelMessage.stream_append]
      exact (List.prefix_append_right_inj _).mpr hwritten
    exact (List.prefix_append _ _).trans hall

/-- **What holds in every state.** -/
theorem Follows.faithful (h : Follows host interactive ptys last as s d up down ms)
    (hlast : SessionSetup.Starts last) (hinteractive : interactive = true → ptys ≠ []) {p : Process}
    (hp : s.process = some p) : ∃ setup, Faithful host ptys last as s p setup := by
  obtain ⟨setup, os, hserver, hcommand, hos, hstdout, hstderr, hreceived⟩ := h.received_prefix hp
  have hasked := h.stands.setUp hlast hserver
  have hmode : interactive = true → p.mode = .pty :=
    fun hi => mode_of_setUp (hinteractive hi) hasked hcommand
  refine ⟨setup, hasked, hcommand, ?_, fun hnil => ?_, ?_⟩
  · obtain ⟨r, rest, hrelay, hstdin, hsignals, hresizes⟩ :=
      InputRelay.relayInput_part hmode h.accounts.loops h.arrived_prefix
    obtain ⟨sizes, hsizes, happend⟩ := h.accounts.sizes
    rw [hsizes] at hresizes
    refine ⟨r, rest, hrelay, ?_, hsignals, sizes.take r.resizes.length, ?_, ?_⟩
    · rw [← h.accounts.input]
      exact hstdin.trans (List.prefix_append _ _)
    · rw [← happend]
      exact (List.take_prefix _ _).trans (List.prefix_append _ _)
    · rw [List.map_take]
      exact List.prefix_iff_eq_take.mp hresizes
  · rw [h.dialogue] at hnil
    have hup : up = [] := (List.append_eq_nil_iff.mp hnil).2
    have harrived := h.input
    rw [hup, List.append_nil] at harrived
    obtain ⟨rest, hrelay⟩ := h.accounts.arrives hmode
    rw [harrived]
    exact ⟨_, rest, hrelay, h.accounts.input⟩
  · obtain ⟨r, rest, hrelay, hout, herr, hknows⟩ := ClientOutput.relayOutput_part hos hreceived
    exact ⟨r, rest, hrelay, hout.trans hstdout, herr.trans hstderr, hknows⟩

/-- **A session is faithful.** In every state of every run, no call of the setup has failed, neither
side has got anything before the process is started, and then it is the process that the client has
asked for, and what has come through so far, of the input and of the output, is what should. -/
theorem session_faithful (hptys : ∀ r ∈ ptys, Wire.Bounded r) (hlast : SessionSetup.Starts last)
    (hbounded : last.Bounded) (hinteractive : interactive = true → ptys ≠ []) {as : List Action}
    (has : ∀ n, .client (.turn n false) ∉ as)
    (h : (machine host interactive (clientCalls ptys last)).exec
      (machine host interactive (clientCalls ptys last)).init as = some s) :
    (∀ r ∈ s.dialogue.results, r = .ok ()) ∧
      (s.process = none → s.arrived = [] ∧ s.received = []) ∧
      ∀ p, s.process = some p → ∃ setup, Faithful host ptys last (clientActions as) s p setup := by
  have hall := SetupDialogue.proper_clientCalls hptys hlast hbounded
  obtain ⟨d, up, down, ms, hfollows⟩ :=
    follows_exec hall (follows_init host interactive ptys last) has h
  refine ⟨?_, fun hnone => ?_, fun p hp => hfollows.faithful hlast hinteractive hp⟩
  · have hresults : ∀ r ∈ d.results, r = .ok () := by
      cases hfollows.stands <;> simp
    rw [hfollows.dialogue]
    exact hresults
  · obtain ⟨harrived, hreceived, -⟩ := hfollows.waiting hnone
    exact ⟨harrived, hreceived⟩

/-- A server without anything special. -/
def plainHost : SessionHost where
  environment := ⟨none, none, none⟩
  user := ⟨"ann", 1000, [47, 104], [47, 98, 105, 110, 47, 115, 104], []⟩
  homeIsDir := true
  hushlogin := false
  motd := some [77]
  openpty _ := none
  motd_lt data h := by
    obtain rfl := Option.some.inj h
    decide

/-- A shell whose output is under way before the client has read the answer to its request. -/
def earlyOutput : List Action :=
  .setup .call :: List.replicate 9 (.setup .serve) ++
    [.launch [104, 105] [] ⟨0⟩, .relay (.readStdout 2), .setup .receive,
      .client (.inputs [1, 2, 3]),
      .setup .receive, .receive, .receive, .receive, .receive, .client (.turn 3 true), .arrive,
        .arrive, .arrive,
      .arrive]

/-- The process has a byte of its input, and the client some of the output. -/
theorem earlyOutput_faithful :
    ∃ s p setup, (machine plainHost false (clientCalls [] .shell)).exec
        (machine plainHost false (clientCalls [] .shell)).init earlyOutput = some s ∧
      s.process = some p ∧ Faithful plainHost [] .shell (clientActions earlyOutput) s p setup := by
  have hruns : ((machine plainHost false (clientCalls [] .shell)).exec
      (machine plainHost false (clientCalls [] .shell)).init earlyOutput).any
        (fun s => s.process.isSome) = true := by
    decide +kernel
  obtain ⟨s, hexec, hsome⟩ := (Option.any_eq_true _ _).mp hruns
  obtain ⟨p, hp⟩ := Option.isSome_iff_exists.mp hsome
  obtain ⟨-, -, hfaithful⟩ := session_faithful (List.forall_mem_nil _)
    (show SessionSetup.Starts .shell from trivial) trivial (fun h => absurd h Bool.false_ne_true)
    (by simp [earlyOutput]) hexec
  obtain ⟨setup, hsetup⟩ := hfaithful p hp
  exact ⟨s, p, setup, hexec, hp, hsetup⟩

end WholeSession

end Dssh
