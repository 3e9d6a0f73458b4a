import Dssh.Session.Forwards

/-!
# The session dispatcher

`run_session` as a state machine, together with the tasks it starts: a task for each channel, a
task for each listener, and on the shared tracker a relay for each connection that a listener
accepts. Tasks go on by themselves, also when `run_session` has returned. What they relay is not
modelled, only whether they still run: a relay in progress is the number of its two pipes that
are not done.

The places of `run_session` are its awaits. What one poll of its `select!` finds, and in which
order its branches are tried, is the choice of the action. `RunSession.Steps` lists the ways
through the code once, and the invariants are proved by cases on it.

Two futures are pinned in front of the loop, because they must survive the turns in which
another branch is taken. A pinned future that has returned must be set anew before it is polled
again: the poll of a finished `async fn` panics.

## Who owns what

`JoinSet` aborts its tasks when it is dropped, `TaskTracker` does not, and a spawned task whose
handle is dropped goes on. All three occur here, so a task is modelled with what can still reach
it. Channel tasks and listener tasks are in join sets. The relays of connections to listeners
are on the tracker, with a token that cancels them. The two pipes of a forwarded channel are
spawned by the channel task, and nobody has a handle to them but this task: when it is aborted,
they go on. The modules that build on this one say which of these survive `run_session`, and for
how long.

## The loop

A turn takes one of these: a shutdown, an incoming channel, a global request, the result of a
channel task, and that of a listener task. Afterwards the future of the branch that was taken is
set anew, at the end of the arm. One arm has a `continue` in the middle: a socks5 channel whose
confirmation cannot be written. It goes to the next turn with a finished future in
`accept_channel`, and the next poll of it panics. So the property that the pinned futures are in
progress at every turn has this condition and no other (`atHead_iff`).

In the model, polling a finished future is a step to the place `panicked`, so that it could be
reached.

## What is left out

The bytes on the channels, and the payloads of requests that fail to decode: `accept_channel`
returns a type or an error, and `accept_global_request` one of the four requests or something
else. What the kernel answers to a bind is a parameter of the step. The time limits of the
shutdown are in `Drain` and `Stop`.

## Main definitions

* `ChannelTask`, `ForwardTask`, `Relay` — the tasks, each with its step function
* `RunSession`, `RunSession.step`, `RunSession.machine` — the dispatcher with all of its tasks
* `RunSession.Steps` — what a step can do
* `RunSession.AtHead` — the pinned futures at the start of a turn

## Main results

* `RunSession.Steps.of_step` — there are no other steps
* `RunSession.atHead_iff` — the pinned futures are in progress at every turn of the loop, along
  a run, exactly when no socks5 channel fails to be accepted
* `RunSession.resetSocks5_panics` — a run where one does
-/

namespace Dssh

/-! ## Tasks

Channel tasks, listener tasks and relays by what matters to the one who has spawned them: whether
they run, and what they return. Inside, each of them is the subject of a module of its own. -/

/-- The channels that the server handles. -/
inductive ChannelKind where
  | session
  | directTcpip
  | directStreamlocal
  | socks5
  deriving DecidableEq

/-- The kind of the channels of a type; `none` for a type that is rejected. -/
def ChannelKind.ofType (channelType : SshString) : Option ChannelKind :=
  match channelType with
  | "session" => some .session
  | "direct-tcpip" => some .directTcpip
  | "direct-streamlocal@openssh.com" => some .directStreamlocal
  | "socks5" => some .socks5
  | _ => none

/-- A channel task. The handlers of forwarded channels spawn two pipes when they have connected, and
wait for both. A pipe is a task of the runtime: it is in no task set, and nobody keeps a handle to
abort it. -/
structure ChannelTask where
  /-- Which handler it runs. -/
  kind : ChannelKind
  /-- How many of the pipes run; `none` before they are spawned. -/
  pipes : Option ℕ := none
  deriving DecidableEq

/-- A channel task returns `()` or a `ProcessError`. -/
abbrev ChannelResult := Except Unit Unit

/-- `open_channel_and_relay`. -/
inductive Relay where
  /-- Opening its channel. -/
  | opening
  /-- Relaying, with as many pipes running. -/
  | relaying (pipes : ℕ)
  /-- Both pipes are aborted, and so many are not dropped yet. -/
  | cancelled (pipes : ℕ)
  | finished
  deriving DecidableEq

namespace ChannelTask

/-- What happens in a channel task. -/
inductive Event where
  /-- The handler of a forwarded channel has connected and spawns its pipes. -/
  | connects
  | pipeEnds
  | returns (result : ChannelResult)
  | panics
  /-- The handler finds its token triggered: it is dropped, and its task returns. -/
  | cancelled
  /-- The runtime drops the aborted task. -/
  | dropped
  deriving DecidableEq

/-- No pipe of this channel runs. -/
def pipesDone (d : ChannelTask) : Bool := d.pipes = none || d.pipes = some 0

def step (cancelled : Bool) (e : Event) (t : Spawned ChannelTask ChannelResult) :
    Option (Spawned ChannelTask ChannelResult) :=
  match e with
  | .connects =>
    if t.state.alive ∧ t.data.kind ≠ .session ∧ t.data.pipes = none then
      some ⟨{ t.data with pipes := some 2 }, t.state⟩
    else none
  | .pipeEnds =>
    match t.data.pipes with
    | some (n + 1) => some ⟨{ t.data with pipes := some n }, t.state⟩
    | _ => none
  | .returns result =>
    if t.state.alive ∧ t.data.pipesDone ∧ (t.data.kind ≠ .session → result = .ok ()) then
      some { t with state := .ended (.ok result) }
    else none
  | .panics =>
    if t.state.alive ∧ t.data.pipesDone then some { t with state := .ended (.error .panicked) }
    else none
  | .cancelled =>
    if t.state.alive ∧ cancelled then some { t with state := .ended (.ok (.ok ())) } else none
  | .dropped =>
    if t.state = .aborting then some { t with state := .ended (.error .cancelled) } else none

end ChannelTask

namespace ForwardTask

/-- How many accept loops a listener runs. A TCP listener spawns one for each of its sockets, a Unix
listener is its loop. -/
def Listener.loops : Listener → ℕ
  | .tcp l => l.listeners.length
  | .unix _ => 1

/-- What happens in a listener task, besides accepting connections. -/
inductive Event where
  /-- The task is polled for the first time. -/
  | starts
  /-- A loop finds an error on its socket, or has been aborted. -/
  | loopEnds
  | returns
  /-- The runtime drops the aborted task. The loops of a TCP listener are thereby aborted, and end
  later. -/
  | dropped
  deriving DecidableEq

def step (e : Event) (t : Spawned ForwardTask Unit) : Option (Spawned ForwardTask Unit) :=
  match e with
  | .starts =>
    if t.state.alive ∧ !t.data.started then
      some ⟨{ t.data with started := true, loops := Listener.loops t.data.listener }, t.state⟩
    else none
  | .loopEnds =>
    match t.data.loops with
    | n + 1 => some ⟨{ t.data with loops := n }, t.state⟩
    | 0 => none
  | .returns =>
    if t.state.alive ∧ t.data.started ∧ t.data.loops = 0 then
      some { t with state := .ended (.ok ()) }
    else none
  | .dropped =>
    if t.state = .aborting then
      match t.data.listener with
      | .tcp _ => some { t with state := .ended (.error .cancelled) }
      | .unix _ => some ⟨{ t.data with loops := 0 }, .ended (.error .cancelled)⟩
    else none

end ForwardTask

namespace Relay

/-- What happens in a relay. -/
inductive Event where
  | opened
  | openFailed
  | pipeEnds
  /-- The relay finds its token triggered, and aborts its pipes. -/
  | cancelled
  | returns
  deriving DecidableEq

def step (cancelled : Bool) : Event → Relay → Option Relay
  | .opened, .opening => some (.relaying 2)
  | .openFailed, .opening => some .finished
  | .pipeEnds, .relaying (n + 1) => some (.relaying n)
  | .pipeEnds, .cancelled (n + 1) => some (.cancelled n)
  | .cancelled, .relaying n => if cancelled then some (.cancelled n) else none
  | .returns, .relaying 0 => some .finished
  | .returns, .cancelled 0 => some .finished
  | _, _ => none

end Relay

/-! ## The dispatcher

One place for each `await` of `run_session`, and one action for each way in which it can go on.
The two pinned futures are part of the state, since a future that has finished must not be
polled. -/

/-- Why `run_session` has returned. -/
inductive RunSessionOutcome where
  /-- It was asked to, before or during the loop. -/
  | shutdown
  /-- After a session, no channel task is left. -/
  | sessionFinished
  /-- There are no more channels or requests. -/
  | conversationClosed
  deriving DecidableEq, Repr

/-- A pinned future. -/
inductive Pinned where
  | inProgress
  /-- It has returned, and has not been set anew. -/
  | completed
  deriving DecidableEq

/-- What `accept_global_request` returns. -/
inductive IncomingGlobal where
  | request (rq : ForwardRequest)
  /-- A payload that does not decode, another request, or a notification: `dispatch_global` poisons
  the session. -/
  | unknown
  deriving DecidableEq

/-- Where `run_session` is. -/
inductive Place where
  | start
  /-- In the `select!` of the loop. -/
  | select
  /-- Writing the confirmation of a socks5 channel. -/
  | acceptingSocks5
  /-- Rejecting a channel of an unknown type. -/
  | rejecting
  /-- In `dispatch_global`. -/
  | dispatching (incoming : IncomingGlobal)
  /-- Behind the loop, waiting for the channel tasks. -/
  | joiningChannels
  | joiningForwards
  | waitingRelays
  /-- Returned; the error is `SessionChannel`. -/
  | returned (result : Except Unit RunSessionOutcome)
  /-- A finished future has been polled. -/
  | panicked
  deriving DecidableEq

/-- `run_session` and its tasks. -/
structure RunSession where
  /-- Where the loop is. -/
  place : Place := .start
  /-- The pinned `accept_channel` of the loop. -/
  acceptChannel : Pinned := .inProgress
  /-- The pinned `accept_global_request` of the loop. -/
  acceptGlobal : Pinned := .inProgress
  /-- The tasks of the accepted channels. -/
  channelTasks : JoinSet ChannelTask ChannelResult := []
  /-- The listeners of the client, with their tasks. -/
  forwards : Forwards := {}
  /-- The tasks of `forward_relays`. -/
  relays : List Relay := []
  /-- The token that was given to `run_session` is triggered. -/
  shutdown : Bool := false
  /-- `channel_shutdown` has been cancelled itself; it is a child of the caller's token. -/
  channelShutdown : Bool := false
  /-- `forward_cancel` is cancelled. -/
  forwardCancel : Bool := false
  /-- A session channel has been accepted. -/
  hadSession : Bool := false
  /-- What is returned behind the drain. -/
  outcome : RunSessionOutcome := .conversationClosed
  deriving DecidableEq

namespace RunSession

/-- The token of the channel tasks is triggered. -/
def channelCancelled (s : RunSession) : Bool := s.shutdown || s.channelShutdown

inductive Action where
  | start
  /-- `accept_channel` is polled, and returns the type of a channel, or an error. -/
  | channel (incoming : Option SshString)
  | socks5Accepted (ok : Bool)
  | rejected (ok : Bool)
  /-- `accept_global` is polled, and returns. -/
  | global (incoming : Option IncomingGlobal)
  | dispatched (os : Os) (responds : Bool)
  /-- `join_next` of the channel tasks returns the result of task `i`. -/
  | joinChannel (i : ℕ)
  /-- `join_next` of the listener tasks returns the result of task `i`. -/
  | joinForward (i : ℕ)
  /-- The token of the channel tasks is found triggered. -/
  | shuttingDown
  /-- A task set, or the tracker, is found empty. -/
  | allDone
  /-- The caller triggers its token. -/
  | cancelShutdown
  | channelTask (i : ℕ) (e : ChannelTask.Event)
  | forwardTask (i : ℕ) (e : ForwardTask.Event)
  /-- A loop of listener `i` accepts a connection. -/
  | connection (i : ℕ)
  | relay (i : ℕ) (e : Relay.Event)

/-- Leave the loop, and trigger both tokens. -/
def leave (s : RunSession) (outcome : RunSessionOutcome) : RunSession :=
  { s with
    place := .joiningChannels
    outcome := outcome
    channelShutdown := true
    forwardCancel := true }

/-- Return an error early. The task sets are dropped, and so are the tables and the tokens; the
tracker is not the owner of its tasks. -/
def fail (s : RunSession) : RunSession :=
  { s with
    place := .returned (.error ())
    channelTasks := s.channelTasks.abortAll
    forwards := { forwardTasks := s.forwards.forwardTasks.abortAll } }

/-- A channel task is started. -/
def spawnChannel (s : RunSession) (kind : ChannelKind) : RunSession :=
  { s with channelTasks := s.channelTasks.spawn ⟨kind, none⟩ }

/-- A turn with an incoming channel. `accept_channel` is set anew in the end. -/
def onChannel (s : RunSession) (channelType : SshString) : RunSession :=
  match ChannelKind.ofType channelType with
  | some .session =>
    { s.spawnChannel .session with
      place := .select, hadSession := true, acceptChannel := .inProgress }
  | some .directTcpip =>
    { s.spawnChannel .directTcpip with place := .select, acceptChannel := .inProgress }
  | some .directStreamlocal =>
    { s.spawnChannel .directStreamlocal with place := .select, acceptChannel := .inProgress }
  | some .socks5 => { s with place := .acceptingSocks5, acceptChannel := .completed }
  | none => { s with place := .rejecting, acceptChannel := .completed }

/-- A turn with the result of a channel task. -/
def onJoined (s : RunSession) : Except JoinError ChannelResult → RunSession
  | .ok (.error ()) => s.fail
  | _ =>
    if s.hadSession ∧ s.channelTasks.isEmpty then s.leave .sessionFinished
    else { s with place := .select }

/-- One step. -/
def step (s : RunSession) : Action → Option RunSession
  | .start =>
    if s.place = .start then
      some { s with place := if s.shutdown then .returned (.ok .shutdown) else .select }
    else none
  | .channel incoming =>
    if s.place = .select then
      match s.acceptChannel, incoming with
      | .completed, _ => some { s with place := .panicked }
      | .inProgress, none => some (s.leave s.outcome)
      | .inProgress, some channelType => some (s.onChannel channelType)
    else none
  | .socks5Accepted ok =>
    if s.place = .acceptingSocks5 then
      match ok with
      | true => some { s.spawnChannel .socks5 with place := .select, acceptChannel := .inProgress }
      -- `continue` skips the end of the turn
      | false => some { s with place := .select }
    else none
  | .rejected _ =>
    if s.place = .rejecting then
      some { s with place := .select, acceptChannel := .inProgress }
    else none
  | .global incoming =>
    if s.place = .select then
      match s.acceptGlobal, incoming with
      | .completed, _ => some { s with place := .panicked }
      | .inProgress, none => some (s.leave s.outcome)
      | .inProgress, some incoming =>
        some { s with place := .dispatching incoming, acceptGlobal := .completed }
    else none
  | .dispatched os responds =>
    match s.place with
    | .dispatching (.request rq) =>
      some { s with
        place := .select
        acceptGlobal := .inProgress
        forwards := (dispatchGlobal os responds s.forwards rq).1 }
    | .dispatching .unknown => some { s with place := .select, acceptGlobal := .inProgress }
    | _ => none
  | .joinChannel i =>
    match s.channelTasks.join i with
    | some (result, ts) =>
      if s.place = .select then some ({ s with channelTasks := ts }.onJoined result)
      else if s.place = .joiningChannels then
        match result with
        | .ok (.error ()) => some { s with channelTasks := ts }.fail
        | _ => some { s with channelTasks := ts }
      else none
    | none => none
  | .joinForward i =>
    match s.forwards.forwardTasks.join i with
    | some (_, ts) =>
      if s.place = .select ∨ s.place = .joiningForwards then
        some { s with forwards := { s.forwards with forwardTasks := ts } }
      else none
    | none => none
  | .shuttingDown =>
    if s.place = .select ∧ s.channelCancelled then some (s.leave .shutdown) else none
  | .allDone =>
    match s.place with
    | .joiningChannels =>
      if s.channelTasks.isEmpty then
        some { s with place := .joiningForwards, forwards := s.forwards.drain }
      else none
    | .joiningForwards =>
      if s.forwards.forwardTasks.isEmpty then some { s with place := .waitingRelays } else none
    | .waitingRelays =>
      if s.relays.all (· = .finished) then some { s with place := .returned (.ok s.outcome) }
      else none
    | _ => none
  | .cancelShutdown => some { s with shutdown := true }
  | .channelTask i e =>
    (s.channelTasks.update i (ChannelTask.step s.channelCancelled e)).map fun ts =>
      { s with channelTasks := ts }
  | .forwardTask i e =>
    (s.forwards.forwardTasks.update i (ForwardTask.step e)).map fun ts =>
      { s with forwards := { s.forwards with forwardTasks := ts } }
  | .connection i =>
    match s.forwards.forwardTasks[i]? with
    | some t => if 0 < t.data.loops then some { s with relays := s.relays ++ [.opening] } else none
    | none => none
  | .relay i e =>
    (s.relays[i]?.bind (Relay.step s.forwardCancel e)).map fun r =>
      { s with relays := s.relays.set i r }

/-- Any channels, requests, connections and results, in any order. -/
def machine : Machine RunSession Action := ⟨{}, step⟩

/-! ## What a step can do

The inversion of the step function. What a step preserves is shown by cases on this type. -/

/-- The steps, one constructor for each way through `run_session`, with what it has found. -/
inductive Steps (s : RunSession) : Action → RunSession → Prop
  | start (hplace : s.place = .start) :
      Steps s .start { s with place := if s.shutdown then .returned (.ok .shutdown) else .select }
  | channelPanics {incoming : Option SshString} (hplace : s.place = .select)
      (hpin : s.acceptChannel = .completed) :
      Steps s (.channel incoming) { s with place := .panicked }
  | channelClosed (hplace : s.place = .select) (hpin : s.acceptChannel = .inProgress) :
      Steps s (.channel none) (s.leave s.outcome)
  | channel {channelType : SshString} (hplace : s.place = .select)
      (hpin : s.acceptChannel = .inProgress) :
      Steps s (.channel (some channelType)) (s.onChannel channelType)
  | socks5Accepted (hplace : s.place = .acceptingSocks5) :
      Steps s (.socks5Accepted true)
        { s.spawnChannel .socks5 with place := .select, acceptChannel := .inProgress }
  | socks5Failed (hplace : s.place = .acceptingSocks5) :
      Steps s (.socks5Accepted false) { s with place := .select }
  | rejected {ok : Bool} (hplace : s.place = .rejecting) :
      Steps s (.rejected ok) { s with place := .select, acceptChannel := .inProgress }
  | globalPanics {incoming : Option IncomingGlobal} (hplace : s.place = .select)
      (hpin : s.acceptGlobal = .completed) :
      Steps s (.global incoming) { s with place := .panicked }
  | globalClosed (hplace : s.place = .select) (hpin : s.acceptGlobal = .inProgress) :
      Steps s (.global none) (s.leave s.outcome)
  | global {incoming : IncomingGlobal} (hplace : s.place = .select)
      (hpin : s.acceptGlobal = .inProgress) :
      Steps s (.global (some incoming))
        { s with place := .dispatching incoming, acceptGlobal := .completed }
  | dispatched {os : Os} {responds : Bool} {rq : ForwardRequest}
      (hplace : s.place = .dispatching (.request rq)) :
      Steps s (.dispatched os responds)
        { s with
          place := .select
          acceptGlobal := .inProgress
          forwards := (dispatchGlobal os responds s.forwards rq).1 }
  | dispatchedUnknown {os : Os} {responds : Bool} (hplace : s.place = .dispatching .unknown) :
      Steps s (.dispatched os responds) { s with place := .select, acceptGlobal := .inProgress }
  | joined {i : ℕ} {result : Except JoinError ChannelResult}
      {ts : JoinSet ChannelTask ChannelResult} (hplace : s.place = .select)
      (hjoin : s.channelTasks.join i = some (result, ts)) :
      Steps s (.joinChannel i) ({ s with channelTasks := ts }.onJoined result)
  | joinedError {i : ℕ} {ts : JoinSet ChannelTask ChannelResult}
      (hplace : s.place = .joiningChannels)
      (hjoin : s.channelTasks.join i = some (.ok (.error ()), ts)) :
      Steps s (.joinChannel i) { s with channelTasks := ts }.fail
  | joinedBehind {i : ℕ} {result : Except JoinError ChannelResult}
      {ts : JoinSet ChannelTask ChannelResult} (hplace : s.place = .joiningChannels)
      (hjoin : s.channelTasks.join i = some (result, ts)) (hresult : result ≠ .ok (.error ())) :
      Steps s (.joinChannel i) { s with channelTasks := ts }
  | joinForward {i : ℕ} {result : Except JoinError Unit} {ts : JoinSet ForwardTask Unit}
      (hplace : s.place = .select ∨ s.place = .joiningForwards)
      (hjoin : s.forwards.forwardTasks.join i = some (result, ts)) :
      Steps s (.joinForward i) { s with forwards := { s.forwards with forwardTasks := ts } }
  | shuttingDown (hplace : s.place = .select) (hcancelled : s.channelCancelled = true) :
      Steps s .shuttingDown (s.leave .shutdown)
  | channelsDone (hplace : s.place = .joiningChannels) (hempty : s.channelTasks.isEmpty = true) :
      Steps s .allDone { s with place := .joiningForwards, forwards := s.forwards.drain }
  | forwardsDone (hplace : s.place = .joiningForwards)
      (hempty : s.forwards.forwardTasks.isEmpty = true) :
      Steps s .allDone { s with place := .waitingRelays }
  | relaysDone (hplace : s.place = .waitingRelays)
      (hfinished : s.relays.all (· = .finished) = true) :
      Steps s .allDone { s with place := .returned (.ok s.outcome) }
  | cancelShutdown : Steps s .cancelShutdown { s with shutdown := true }
  | channelTask {i : ℕ} {e : ChannelTask.Event} {ts : JoinSet ChannelTask ChannelResult}
      (hts : s.channelTasks.update i (ChannelTask.step s.channelCancelled e) = some ts) :
      Steps s (.channelTask i e) { s with channelTasks := ts }
  | forwardTask {i : ℕ} {e : ForwardTask.Event} {ts : JoinSet ForwardTask Unit}
      (hts : s.forwards.forwardTasks.update i (ForwardTask.step e) = some ts) :
      Steps s (.forwardTask i e) { s with forwards := { s.forwards with forwardTasks := ts } }
  | connection {i : ℕ} {t : Spawned ForwardTask Unit}
      (hget : s.forwards.forwardTasks[i]? = some t) (hloops : 0 < t.data.loops) :
      Steps s (.connection i) { s with relays := s.relays ++ [.opening] }
  | relay {i : ℕ} {e : Relay.Event} {r r' : Relay} (hget : s.relays[i]? = some r)
      (hstep : Relay.step s.forwardCancel e r = some r') :
      Steps s (.relay i e) { s with relays := s.relays.set i r' }

variable {s s' : RunSession} {a : Action}

/-- **There are no other steps.** -/
theorem Steps.of_step (h : step s a = some s') : Steps s a s' := by
  cases a with
  | start =>
    simp only [step] at h
    split_ifs at h with hplace hshutdown
    all_goals
      obtain rfl := Option.some.inj h
      simpa [hshutdown] using Steps.start hplace
  | channel incoming =>
    simp only [step] at h
    split_ifs at h with hplace
    split at h
    · rename_i hpin
      obtain rfl := Option.some.inj h
      exact .channelPanics hplace hpin
    · rename_i hpin
      obtain rfl := Option.some.inj h
      exact .channelClosed hplace hpin
    · rename_i hpin
      obtain rfl := Option.some.inj h
      exact .channel hplace hpin
  | socks5Accepted ok =>
    simp only [step] at h
    split_ifs at h with hplace
    cases ok with
    | true =>
      obtain rfl := Option.some.inj h
      exact .socks5Accepted hplace
    | false =>
      obtain rfl := Option.some.inj h
      exact .socks5Failed hplace
  | rejected ok =>
    simp only [step] at h
    split_ifs at h with hplace
    obtain rfl := Option.some.inj h
    exact .rejected hplace
  | global incoming =>
    simp only [step] at h
    split_ifs at h with hplace
    split at h
    · rename_i hpin
      obtain rfl := Option.some.inj h
      exact .globalPanics hplace hpin
    · rename_i hpin
      obtain rfl := Option.some.inj h
      exact .globalClosed hplace hpin
    · rename_i hpin
      obtain rfl := Option.some.inj h
      exact .global hplace hpin
  | dispatched os responds =>
    simp only [step] at h
    split at h
    · rename_i hplace
      obtain rfl := Option.some.inj h
      exact .dispatched hplace
    · rename_i hplace
      obtain rfl := Option.some.inj h
      exact .dispatchedUnknown hplace
    · cases h
  | joinChannel i =>
    simp only [step] at h
    split at h
    · rename_i result ts hjoin
      split_ifs at h with hselect hjoining
      · obtain rfl := Option.some.inj h
        exact .joined hselect hjoin
      · split at h
        · obtain rfl := Option.some.inj h
          exact .joinedError hjoining hjoin
        · rename_i hresult
          obtain rfl := Option.some.inj h
          exact .joinedBehind hjoining hjoin hresult
    · cases h
  | joinForward i =>
    simp only [step] at h
    split at h
    · rename_i result ts hjoin
      split_ifs at h with hplace
      obtain rfl := Option.some.inj h
      exact .joinForward hplace hjoin
    · cases h
  | shuttingDown =>
    simp only [step] at h
    split_ifs at h with hplace
    obtain rfl := Option.some.inj h
    exact .shuttingDown hplace.1 hplace.2
  | allDone =>
    simp only [step] at h
    split at h
    · rename_i hplace
      split_ifs at h with hempty
      obtain rfl := Option.some.inj h
      exact .channelsDone hplace hempty
    · rename_i hplace
      split_ifs at h with hempty
      obtain rfl := Option.some.inj h
      exact .forwardsDone hplace hempty
    · rename_i hplace
      split_ifs at h with hfinished
      obtain rfl := Option.some.inj h
      exact .relaysDone hplace hfinished
    · cases h
  | cancelShutdown =>
    obtain rfl := Option.some.inj h
    exact .cancelShutdown
  | channelTask i e =>
    obtain ⟨ts, hts, rfl⟩ := Option.map_eq_some_iff.mp h
    exact .channelTask hts
  | forwardTask i e =>
    obtain ⟨ts, hts, rfl⟩ := Option.map_eq_some_iff.mp h
    exact .forwardTask hts
  | connection i =>
    simp only [step] at h
    split at h
    · rename_i t hget
      split_ifs at h with hloops
      obtain rfl := Option.some.inj h
      exact .connection hget hloops
    · cases h
  | relay i e =>
    obtain ⟨r', hr', rfl⟩ := Option.map_eq_some_iff.mp h
    obtain ⟨r, hget, hstep⟩ := Option.bind_eq_some_iff.mp hr'
    exact .relay hget hstep

/-! ## The pinned futures

A future is set anew in the turn in which it has finished. One way through the turn skips this,
and it is taken when a socks5 channel cannot be confirmed. -/

/-- At the start of a turn both pinned futures are in progress, and no finished one has been
polled. -/
def AtHead (s : RunSession) : Prop :=
  s.place ≠ .panicked ∧
    (s.place = .select → s.acceptChannel = .inProgress ∧ s.acceptGlobal = .inProgress)

/-- The pinned futures at each place. -/
def Pins (s : RunSession) : Prop :=
  match s.place with
  | .start => s.acceptChannel = .inProgress ∧ s.acceptGlobal = .inProgress
  | .select => s.acceptChannel = .inProgress ∧ s.acceptGlobal = .inProgress
  | .acceptingSocks5 => s.acceptChannel = .completed ∧ s.acceptGlobal = .inProgress
  | .rejecting => s.acceptGlobal = .inProgress
  | .dispatching _ => s.acceptChannel = .inProgress
  | .panicked => False
  | _ => True

/-- What is asked of the head of the loop. -/
theorem Pins.atHead (h : s.Pins) : s.AtHead := by
  rw [Pins] at h
  refine ⟨fun hplace => ?_, fun hplace => ?_⟩
  · rwa [hplace] at h
  · rwa [hplace] at h

/-- Only the place and the two futures count. -/
theorem Pins.congr (h : s.Pins) (hplace : s'.place = s.place)
    (hchannel : s'.acceptChannel = s.acceptChannel) (hglobal : s'.acceptGlobal = s.acceptGlobal) :
    s'.Pins := by
  rw [Pins, hplace, hchannel, hglobal]
  exact h

/-- An incoming channel is followed by a new `accept_channel`, at once or when it has been
answered. -/
theorem pins_onChannel (hglobal : s.acceptGlobal = .inProgress) (channelType : SshString) :
    (s.onChannel channelType).Pins := by
  rw [onChannel]
  split
  · exact ⟨rfl, hglobal⟩
  · exact ⟨rfl, hglobal⟩
  · exact ⟨rfl, hglobal⟩
  · exact ⟨rfl, hglobal⟩
  · exact hglobal

/-- The result of a channel task changes neither future. -/
theorem Pins.onJoined (h : s.Pins) (hplace : s.place = .select)
    (result : Except JoinError ChannelResult) : (s.onJoined result).Pins := by
  have hstay : ({ s with place := .select } : RunSession).Pins := h.congr hplace.symm rfl rfl
  rcases result with e | e | u <;> simp only [RunSession.onJoined]
  · split_ifs
    · trivial
    · exact hstay
  · trivial
  · split_ifs
    · trivial
    · exact hstay

/-- **One step** that is no failure of a socks5 channel. -/
theorem Pins.step (hs : s.Pins) (ha : a ≠ .socks5Accepted false) (h : Steps s a s') :
    s'.Pins := by
  have hpins := hs
  rw [Pins] at hs
  cases h with
  | start hplace =>
    rw [hplace] at hs
    cases hshutdown : s.shutdown with
    | true => trivial
    | false => exact hs
  | channelPanics hplace hpin =>
    rw [hplace] at hs
    cases hs.1.symm.trans hpin
  | channel hplace =>
    rw [hplace] at hs
    exact pins_onChannel hs.2 _
  | socks5Accepted hplace =>
    rw [hplace] at hs
    exact ⟨rfl, hs.2⟩
  | socks5Failed => exact absurd rfl ha
  | rejected hplace =>
    rw [hplace] at hs
    exact ⟨rfl, hs⟩
  | globalPanics hplace hpin =>
    rw [hplace] at hs
    cases hs.2.symm.trans hpin
  | global hplace =>
    rw [hplace] at hs
    exact hs.1
  | dispatched hplace | dispatchedUnknown hplace =>
    rw [hplace] at hs
    exact ⟨hs, rfl⟩
  | @joined i result ts hplace =>
    have hts : ({ s with channelTasks := ts } : RunSession).Pins := hpins.congr rfl rfl rfl
    exact hts.onJoined hplace result
  | channelClosed | globalClosed | joinedError | shuttingDown => trivial
  | channelsDone | forwardsDone | relaysDone => trivial
  | joinedBehind | joinForward | cancelShutdown => exact hpins.congr rfl rfl rfl
  | channelTask | forwardTask | connection | relay => exact hpins.congr rfl rfl rfl

/-- The step that fails to accept a socks5 channel goes on to the next turn as it is. -/
theorem not_atHead_of_socks5Failed (hs : s.Pins) (h : Steps s (.socks5Accepted false) s') :
    ¬ s'.AtHead := by
  cases h with
  | socks5Failed hplace =>
    rw [Pins, hplace] at hs
    intro hhead
    cases hs.1.symm.trans (hhead.2 rfl).1

/-- In every state that is reached without a failing socks5 channel. -/
theorem pins_of_reach (h : machine.Reach (fun _ a => a ≠ .socks5Accepted false) s) : s.Pins := by
  have hinit : machine.init.Pins := ⟨rfl, rfl⟩
  exact h.invariant hinit fun _ hs ha hstep => hs.step ha (.of_step hstep)

/-- **The pinned futures.** Along a run, both of them are in progress at the start of every turn and
no finished one is polled, exactly when no socks5 channel fails to be accepted. -/
theorem atHead_iff {l : List (RunSession × Action)} (h : machine.Path l s) :
    ((∀ x ∈ l, x.1.AtHead) ∧ s.AtHead) ↔ ∀ x ∈ l, x.2 ≠ .socks5Accepted false := by
  have hinit : machine.init.AtHead := ⟨nofun, nofun⟩
  have hstep : ∀ {s a s'}, machine.Reach (fun _ a => a ≠ .socks5Accepted false) s → s.AtHead →
      machine.step s a = some s' → (s'.AtHead ↔ a ≠ .socks5Accepted false) := by
    intro s a s' hreach _ hstep
    have hpins := pins_of_reach hreach
    constructor
    · rintro hhead rfl
      exact not_atHead_of_socks5Failed hpins (.of_step hstep) hhead
    · exact fun ha => (hpins.step ha (.of_step hstep)).atHead
  exact h.forall_iff hinit hstep

/-- A socks5 channel whose confirmation cannot be written. -/
def resetSocks5 : List Action := [.start, .channel (some "socks5"), .socks5Accepted false]

/-- The session is taken down by the next channel. -/
theorem resetSocks5_panics :
    ∃ s s', machine.exec machine.init resetSocks5 = some s ∧ ¬ s.AtHead ∧
      step s (.channel (some "session")) = some s' ∧ s'.place = .panicked := by
  refine ⟨_, _, rfl, fun h => ?_, rfl, rfl⟩
  cases (h.2 rfl).1

/-- The same channel accepted, and another one rejected. -/
def acceptedSocks5 : List Action :=
  [.start, .channel (some "socks5"), .socks5Accepted true, .channel (some "x11"), .rejected false]

/-- Both are answered, and the futures are in progress at every turn. -/
theorem acceptedSocks5_atHead :
    ∃ s, machine.exec machine.init acceptedSocks5 = some s ∧
      (∀ x ∈ machine.trace machine.init acceptedSocks5, x.1.AtHead) ∧ s.AtHead := by
  have hpath : machine.Path (machine.trace machine.init acceptedSocks5) _ := .of_exec rfl
  have haccepted : ∀ a ∈ acceptedSocks5, a ≠ .socks5Accepted false := by simp [acceptedSocks5]
  exact ⟨_, rfl, (atHead_iff hpath).mpr fun x hx => haccepted x.2 (Machine.mem_of_mem_trace hx)⟩

end RunSession

end Dssh
