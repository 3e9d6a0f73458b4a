import Dssh.Session.Dispatcher

/-!
# What a session leaves behind

When `run_session` returns, its tasks may still run. The task sets abort theirs when they are
dropped; the tracker does not, and a token that is dropped is not triggered by that. Behind the
loop the tokens are triggered and everything is waited for. An error of a channel task found
inside the loop leads past all of that.

The pipes of a forwarded channel are out of reach of both: their handler may be dropped, because
its token is triggered or because its task is, and nobody can stop them then.

## Three kinds of "not running"

A task may have ended, it may have been aborted and go on to its next await, or it may have its
token triggered and go on to its next look at it. All three count as stopped, since none of them
lasts. `Quiet` asks this of every task that the session has started: channel tasks, listeners
and relays. Of the pipes it asks that none of them runs, because nobody can stop a pipe.

`Quiet` is about the states in which `run_session` has returned. Aborted tasks may not have
noticed yet.

## Two ways to abandon a relay

One is an early return. A channel task returns an error, `run_session` passes it on, and the
sets are dropped. That aborts channel tasks and listeners, and does nothing to the relays on the
tracker, whose token goes out of scope untriggered. `failedSession` is this.

The other one is a dropped handler. `shutDown` has a forwarded channel whose handler waits for
its pipes in a `select!` against the token. The token wins, the handler returns, and the pipes
go on. They are tasks of the runtime and in no set.

`abandons` lists the steps that do one or the other, by what they find: an error is taken while
a relay or a pipe runs, a handler is cancelled or aborted while its pipes run. As long as no
step of a run abandons a relay, a session that has returned is quiet.

## The invariant

Behind the loop, what has been waited for so far is a function of the place (`Stage`): first the
channel tasks, then the listeners, then the relays. In front of it nothing has been started. In
the loop, nothing has to be known but that idle handlers have no pipes (`Idle`).

## Main definitions

* `RunSession.Quiet` — what a session should leave behind
* `RunSession.abandons` — the steps that abandon a relay
* `RunSession.Inv` — the invariant of the other runs

## Main results

* `RunSession.quiet_of_returned` — a session leaves nothing running behind, as long as no step
  abandons a relay
* `RunSession.failedSession_not_quiet` — two runs that end with a relay abandoned
-/

namespace Dssh

/-! ## What may be left

A session is quiet if whatever it has started has ended or will end without it. For a relay this
means that its token has been triggered, or that it has been aborted. -/

/-- Finished, aborted, or with a triggered token. -/
def Relay.stopped (cancelled : Bool) : Relay → Bool
  | finished => true
  | .cancelled _ => true
  | _ => cancelled

namespace RunSession

/-- `run_session` has returned, with or without an error. -/
def returned (s : RunSession) : Bool := s.place matches .returned _

/-- Everything that the session has started has ended, has been aborted, or has its token triggered;
and no relay runs that cannot be stopped any more. -/
structure Quiet (s : RunSession) : Prop where
  /-- A channel that still runs has been told to stop. -/
  channels : ∀ t ∈ s.channelTasks, t.state = .running → s.channelCancelled = true
  /-- No pipe of a forwarded channel runs. -/
  pipes : ∀ t ∈ s.channelTasks, t.data.pipesDone = true
  /-- They have been aborted, or have ended. -/
  listeners : ∀ t ∈ s.forwards.forwardTasks, t.state ≠ .running
  /-- No relay of a forwarded connection goes on. -/
  relays : ∀ r ∈ s.relays, r.stopped s.forwardCancel = true

/-- The steps that abandon a relay. -/
def abandons (s : RunSession) : Action → Bool
  -- the error of a channel task, while a relay is not stopped or pipes of a channel run
  | .joinChannel i =>
    match s.channelTasks.join i with
    | some (.ok (.error ()), _) =>
      s.channelTasks.any (fun t => !t.data.pipesDone) ||
        s.relays.any fun r => !r.stopped s.forwardCancel
    | _ => false
  -- a handler is dropped while its pipes run
  | .channelTask i .cancelled => s.channelTasks[i]?.any fun t => !t.data.pipesDone
  -- a task that is aborted, and not dropped yet, goes on to spawn
  | .channelTask i .connects => s.channelTasks[i]?.any fun t => t.state = .aborting
  | .connection _ => s.returned && !s.forwardCancel
  | _ => false

/-! ## The tasks by themselves

What tasks and relays do when nobody interferes. None of them is revived. -/

variable {c : Bool}

/-- A channel task is not revived by its events. -/
theorem moves_channelStep {e : ChannelTask.Event} {t t' : Spawned ChannelTask ChannelResult}
    (h : ChannelTask.step c e t = some t') : t.state.Moves t'.state := by
  cases e with
  | connects =>
    simp only [ChannelTask.step] at h
    split_ifs at h
    obtain rfl := Option.some.inj h
    exact .stay _
  | pipeEnds =>
    simp only [ChannelTask.step] at h
    split at h
    · obtain rfl := Option.some.inj h
      exact .stay _
    · cases h
  | returns result =>
    simp only [ChannelTask.step] at h
    split_ifs at h with henabled
    obtain rfl := Option.some.inj h
    exact .finish henabled.1 _
  | panics =>
    simp only [ChannelTask.step] at h
    split_ifs at h with henabled
    obtain rfl := Option.some.inj h
    exact .finish henabled.1 _
  | cancelled =>
    simp only [ChannelTask.step] at h
    split_ifs at h with henabled
    obtain rfl := Option.some.inj h
    exact .finish henabled.1 _
  | dropped =>
    simp only [ChannelTask.step] at h
    split_ifs at h with habort
    obtain rfl := Option.some.inj h
    exact .finish (by rw [habort]; rfl) _

/-- Nor is a listener. -/
theorem moves_forwardStep {e : ForwardTask.Event} {t t' : Spawned ForwardTask Unit}
    (h : ForwardTask.step e t = some t') : t.state.Moves t'.state := by
  cases e with
  | starts =>
    simp only [ForwardTask.step] at h
    split_ifs at h
    obtain rfl := Option.some.inj h
    exact .stay _
  | loopEnds =>
    simp only [ForwardTask.step] at h
    split at h
    · obtain rfl := Option.some.inj h
      exact .stay _
    · cases h
  | returns =>
    simp only [ForwardTask.step] at h
    split_ifs at h with henabled
    obtain rfl := Option.some.inj h
    exact .finish henabled.1 _
  | dropped =>
    simp only [ForwardTask.step] at h
    split_ifs at h with habort
    have halive : t.state.alive = true := by rw [habort]; rfl
    split at h
    · obtain rfl := Option.some.inj h
      exact .finish halive _
    · obtain rfl := Option.some.inj h
      exact .finish halive _

/-- A relay that is stopped stays so. -/
theorem stopped_step {e : Relay.Event} {r r' : Relay} (hr : r.stopped c = true)
    (h : Relay.step c e r = some r') : r'.stopped c = true := by
  cases c with
  | true => cases r' <;> rfl
  | false =>
    cases r with
    | opening => cases hr
    | relaying n => cases hr
    | finished => cases e <;> cases h
    | cancelled n =>
      cases e with
      | pipeEnds =>
        cases n with
        | zero => cases h
        | succ n =>
          obtain rfl := Option.some.inj h
          rfl
      | returns =>
        cases n with
        | zero =>
          obtain rfl := Option.some.inj h
          rfl
        | succ n => cases h
      | _ => cases h

/-- A channel task that does not run has no pipes running. -/
def Idle (t : Spawned ChannelTask ChannelResult) : Prop :=
  t.state ≠ .running → t.data.pipesDone = true

/-- A channel task has its pipes waited for, unless it is cancelled while they run or spawns them
when it is aborted. -/
theorem Idle.step {e : ChannelTask.Event} {t t' : Spawned ChannelTask ChannelResult} (ht : Idle t)
    (hcancelled : e = .cancelled → t.data.pipesDone = true)
    (hconnects : e = .connects → t.state ≠ .aborting) (h : ChannelTask.step c e t = some t') :
    Idle t' := by
  cases e with
  | connects =>
    simp only [ChannelTask.step] at h
    split_ifs at h with henabled
    obtain rfl := Option.some.inj h
    intro hrunning
    have halive := henabled.1
    cases hstate : t.state with
    | running => exact absurd hstate hrunning
    | aborting => exact absurd hstate (hconnects rfl)
    | ended r => rw [hstate] at halive; cases halive
    | joined => rw [hstate] at halive; cases halive
  | pipeEnds =>
    simp only [ChannelTask.step] at h
    split at h
    · rename_i n hpipes
      obtain rfl := Option.some.inj h
      intro hrunning
      have hdone := ht hrunning
      simp [ChannelTask.pipesDone, hpipes] at hdone
    · cases h
  | returns result =>
    simp only [ChannelTask.step] at h
    split_ifs at h with henabled
    obtain rfl := Option.some.inj h
    exact fun _ => henabled.2.1
  | panics =>
    simp only [ChannelTask.step] at h
    split_ifs at h with henabled
    obtain rfl := Option.some.inj h
    exact fun _ => henabled.2
  | cancelled =>
    simp only [ChannelTask.step] at h
    split_ifs at h
    obtain rfl := Option.some.inj h
    exact fun _ => hcancelled rfl
  | dropped =>
    simp only [ChannelTask.step] at h
    split_ifs at h with habort
    obtain rfl := Option.some.inj h
    exact fun _ => ht (by rw [habort]; nofun)

/-! ## The invariant

In the loop nothing is said of what runs, only that a channel task that does not run has no
pipes. Behind the loop the tokens have been triggered, then the tasks have been joined, and so on
up to the return. -/

/-- What holds of the tasks at the places in front of the loop and behind it. -/
def Stage (s : RunSession) : Prop :=
  match s.place with
  | .start => s.channelTasks = [] ∧ s.forwards.forwardTasks = [] ∧ s.relays = []
  | .joiningChannels => s.forwardCancel = true
  | .joiningForwards => s.forwardCancel = true ∧ ∀ t ∈ s.channelTasks, t.state = .joined
  | .waitingRelays =>
    s.forwardCancel = true ∧ (∀ t ∈ s.channelTasks, t.state = .joined) ∧
      ∀ t ∈ s.forwards.forwardTasks, t.state = .joined
  | .returned _ =>
    (∀ t ∈ s.channelTasks, t.state ≠ .running) ∧
      (∀ t ∈ s.forwards.forwardTasks, t.state ≠ .running) ∧
      ∀ r ∈ s.relays, r.stopped s.forwardCancel = true
  | _ => True

/-- The invariant of runs without abandoned relays. -/
structure Inv (s : RunSession) : Prop where
  /-- What each task may still do, by how far it is. -/
  idle : ∀ t ∈ s.channelTasks, Idle t
  /-- What is over already, by the place of the loop. -/
  stage : s.Stage

variable {s s' : RunSession}

/-- An error of a channel task leaves nothing behind, if no pipe runs and all relays are stopped. -/
theorem Inv.fail (hpipes : ∀ t ∈ s.channelTasks, t.data.pipesDone = true)
    (hrelays : ∀ r ∈ s.relays, r.stopped s.forwardCancel = true) : Inv s.fail := by
  refine ⟨fun t ht _ => ?_, fun t => JoinSet.not_running_of_abortAll,
    fun t => JoinSet.not_running_of_abortAll, hrelays⟩
  obtain ⟨t', ht', rfl⟩ := List.mem_map.mp ht
  exact hpipes t' ht'

/-- An event of a channel task. -/
theorem Stage.channelTask {i : ℕ} {e : ChannelTask.Event} {ts : JoinSet ChannelTask ChannelResult}
    (h : s.Stage) (hts : s.channelTasks.update i (ChannelTask.step c e) = some ts) :
    ({ s with channelTasks := ts } : RunSession).Stage := by
  have hjoined : (∀ t ∈ s.channelTasks, t.state = .joined) → ∀ t ∈ ts, t.state = .joined := by
    intro hall
    exact JoinSet.forall_of_update hts hall fun t t' ht hstep =>
      (moves_channelStep hstep).joined (hall t (List.mem_of_getElem? ht))
  cases hplace : s.place <;> simp only [Stage, hplace] at h ⊢
  case start =>
    rw [h.1] at hts
    cases hts
  case joiningChannels => exact h
  case joiningForwards => exact ⟨h.1, hjoined h.2⟩
  case waitingRelays => exact ⟨h.1, hjoined h.2.1, h.2.2⟩
  case returned =>
    refine ⟨?_, h.2⟩
    exact JoinSet.forall_of_update hts h.1 fun t t' ht hstep =>
      (moves_channelStep hstep).not_running (h.1 t (List.mem_of_getElem? ht))

/-- An event of a listener. -/
theorem Stage.forwardTask {i : ℕ} {e : ForwardTask.Event} {ts : JoinSet ForwardTask Unit}
    (h : s.Stage) (hts : s.forwards.forwardTasks.update i (ForwardTask.step e) = some ts) :
    ({ s with forwards := { s.forwards with forwardTasks := ts } } : RunSession).Stage := by
  cases hplace : s.place <;> simp only [Stage, hplace] at h ⊢
  case start =>
    rw [h.2.1] at hts
    cases hts
  case joiningChannels => exact h
  case joiningForwards => exact h
  case waitingRelays =>
    refine ⟨h.1, h.2.1, ?_⟩
    exact JoinSet.forall_of_update hts h.2.2 fun t t' ht hstep =>
      (moves_forwardStep hstep).joined (h.2.2 t (List.mem_of_getElem? ht))
  case returned =>
    refine ⟨h.1, ?_, h.2.2⟩
    exact JoinSet.forall_of_update hts h.2.1 fun t t' ht hstep =>
      (moves_forwardStep hstep).not_running (h.2.1 t (List.mem_of_getElem? ht))

/-- Something happens to the relays. -/
theorem Stage.relays {rs : List Relay} (h : s.Stage) (hnil : s.place ≠ .start)
    (hstopped : s.returned = true → (∀ r ∈ s.relays, r.stopped s.forwardCancel = true) →
      ∀ r ∈ rs, r.stopped s.forwardCancel = true) :
    ({ s with relays := rs } : RunSession).Stage := by
  cases hplace : s.place <;> simp only [Stage, hplace] at h ⊢
  case start => exact absurd hplace hnil
  case joiningChannels => exact h
  case joiningForwards => exact h
  case waitingRelays => exact h
  case returned => exact ⟨h.1, h.2.1, hstopped (by rw [RunSession.returned, hplace]) h.2.2⟩

/-- Taking a result leaves idle tasks idle. -/
theorem idle_of_join {i : ℕ} {result : Except JoinError ChannelResult}
    {ts : JoinSet ChannelTask ChannelResult} (h : s.channelTasks.join i = some (result, ts))
    (hidle : ∀ t ∈ s.channelTasks, Idle t) : ∀ t ∈ ts, Idle t := by
  obtain ⟨d, hget, rfl⟩ := JoinSet.join_eq_some h
  intro t ht
  rcases List.mem_or_eq_of_mem_set ht with ht | rfl
  · exact hidle t ht
  · exact fun _ => hidle ⟨d, .ended result⟩ (List.mem_of_getElem? hget) nofun

/-- A result that is no error. -/
theorem Inv.onJoined (hidle : ∀ t ∈ s.channelTasks, Idle t)
    {result : Except JoinError ChannelResult} (hresult : result ≠ .ok (.error ())) :
    Inv (s.onJoined result) := by
  rcases result with e | ⟨⟨⟩⟩ | ⟨⟨⟩⟩ <;> simp only [RunSession.onJoined]
  case ok.error => exact absurd rfl hresult
  all_goals
    split_ifs
    · exact ⟨hidle, rfl⟩
    · exact ⟨hidle, trivial⟩

/-- A new channel task has no pipes yet. -/
theorem Inv.idle_spawn (hs : Inv s) (kind : ChannelKind) :
    ∀ t ∈ s.channelTasks.spawn ⟨kind, none⟩, Idle t := by
  intro t ht
  rcases JoinSet.mem_spawn.mp ht with ht | rfl
  · exact hs.idle t ht
  · exact fun h => absurd rfl h

/-- An incoming channel. -/
theorem Inv.onChannel (hs : Inv s) (channelType : SshString) : Inv (s.onChannel channelType) := by
  rw [RunSession.onChannel]
  split
  · exact ⟨hs.idle_spawn _, trivial⟩
  · exact ⟨hs.idle_spawn _, trivial⟩
  · exact ⟨hs.idle_spawn _, trivial⟩
  · exact ⟨hs.idle, trivial⟩
  · exact ⟨hs.idle, trivial⟩

/-- The error of a channel task, if it abandons no relay. -/
theorem Inv.joinedError {i : ℕ} {ts : JoinSet ChannelTask ChannelResult}
    (hjoin : s.channelTasks.join i = some (.ok (.error ()), ts))
    (ha : s.abandons (.joinChannel i) = false) :
    Inv ({ s with channelTasks := ts } : RunSession).fail := by
  rw [abandons, hjoin] at ha
  obtain ⟨hpipes, hrelays⟩ := Bool.or_eq_false_iff.mp ha
  rw [List.any_eq_false] at hpipes hrelays
  refine Inv.fail (fun t ht => ?_) fun r hr => by simpa using hrelays r hr
  obtain ⟨d, hget, rfl⟩ := JoinSet.join_eq_some hjoin
  rcases List.mem_or_eq_of_mem_set ht with ht | rfl
  · simpa using hpipes t ht
  · simpa using hpipes _ (List.mem_of_getElem? hget)

/-- **One step** that abandons no relay. -/
theorem Inv.step {a : Action} (hs : Inv s) (ha : s.abandons a = false) (h : Steps s a s') :
    Inv s' := by
  have hstage := hs.stage
  rw [Stage] at hstage
  cases h with
  | start hplace =>
    rw [hplace] at hstage
    obtain ⟨hchannels, hforwards, hrelays⟩ := hstage
    refine ⟨hs.idle, ?_⟩
    cases hshutdown : s.shutdown with
    | false => trivial
    | true =>
      refine ⟨fun t ht => ?_, fun t ht => ?_, fun r hr => ?_⟩
      · rw [hchannels] at ht
        cases ht
      · rw [hforwards] at ht
        cases ht
      · rw [hrelays] at hr
        cases hr
  | channel => exact hs.onChannel _
  | socks5Accepted => exact ⟨hs.idle_spawn _, trivial⟩
  | channelClosed | globalClosed | shuttingDown => exact ⟨hs.idle, rfl⟩
  | channelPanics | socks5Failed | rejected => exact ⟨hs.idle, trivial⟩
  | globalPanics | global | dispatched | dispatchedUnknown => exact ⟨hs.idle, trivial⟩
  | @joined i result ts hplace hjoin =>
    by_cases hresult : result = .ok (.error ())
    · subst hresult
      exact Inv.joinedError hjoin ha
    · exact Inv.onJoined (idle_of_join hjoin hs.idle) hresult
  | joinedError hplace hjoin => exact Inv.joinedError hjoin ha
  | joinedBehind hplace hjoin =>
    rw [hplace] at hstage
    refine ⟨idle_of_join hjoin hs.idle, ?_⟩
    rw [Stage, hplace]
    exact hstage
  | joinForward hplace =>
    refine ⟨hs.idle, ?_⟩
    rcases hplace with hplace | hplace
    · rw [Stage, hplace]
      trivial
    · rw [hplace] at hstage
      rw [Stage, hplace]
      exact hstage
  | channelsDone hplace hempty =>
    rw [hplace] at hstage
    exact ⟨hs.idle, hstage, JoinSet.joined_of_isEmpty hempty⟩
  | forwardsDone hplace hempty =>
    rw [hplace] at hstage
    exact ⟨hs.idle, hstage.1, hstage.2, JoinSet.joined_of_isEmpty hempty⟩
  | relaysDone hplace =>
    rw [hplace] at hstage
    obtain ⟨hcancel, hchannels, hforwards⟩ := hstage
    refine ⟨hs.idle, fun t ht => ?_, fun t ht => ?_, fun r _ => ?_⟩
    · intro hrunning
      cases (hchannels t ht).symm.trans hrunning
    · intro hrunning
      cases (hforwards t ht).symm.trans hrunning
    · change r.stopped s.forwardCancel = true
      rw [hcancel]
      cases r <;> rfl
  | cancelShutdown => exact ⟨hs.idle, hs.stage⟩
  | channelTask hts =>
    refine ⟨?_, hs.stage.channelTask hts⟩
    refine JoinSet.forall_of_update hts hs.idle fun t t' hget hstep => ?_
    refine (hs.idle t (List.mem_of_getElem? hget)).step ?_ ?_ hstep
    · rintro rfl
      simpa [abandons, hget] using ha
    · rintro rfl
      simpa [abandons, hget] using ha
  | forwardTask hts => exact ⟨hs.idle, hs.stage.forwardTask hts⟩
  | connection hget =>
    refine ⟨hs.idle, hs.stage.relays (fun hplace => ?_) fun hreturned hall => ?_⟩
    · rw [hplace] at hstage
      rw [hstage.2.1] at hget
      cases hget
    · have hcancel : s.forwardCancel = true := by
        rw [abandons, hreturned, Bool.true_and, Bool.not_eq_false'] at ha
        exact ha
      rintro r -
      rw [hcancel]
      cases r <;> rfl
  | relay hget hstep =>
    refine ⟨hs.idle, hs.stage.relays (fun hplace => ?_) fun _ hall x hx => ?_⟩
    · rw [hplace] at hstage
      rw [hstage.2.2] at hget
      cases hget
    · rcases List.mem_or_eq_of_mem_set hx with hx | rfl
      · exact hall x hx
      · exact stopped_step (hall _ (List.mem_of_getElem? hget)) hstep

/-- **What is left behind.** As long as no step abandons a relay, everything that the session has
started has ended, has been aborted or has its token triggered in every state in which `run_session`
has returned, and no relay runs uncancelled. -/
theorem quiet_of_returned (h : machine.Reach (fun s a => s.abandons a = false) s)
    (hreturned : s.returned = true) : s.Quiet := by
  have hinit : Inv machine.init := ⟨nofun, rfl, rfl, rfl⟩
  have hinv := h.invariant hinit fun _ hs ha hstep => hs.step ha (.of_step hstep)
  rw [returned] at hreturned
  split at hreturned
  · rename_i result hplace
    have hstage := hinv.stage
    rw [Stage, hplace] at hstage
    obtain ⟨hchannels, hlisteners, hrelays⟩ := hstage
    exact ⟨fun t ht hrunning => absurd hrunning (hchannels t ht),
      fun t ht => hinv.idle t ht (hchannels t ht), hlisteners, hrelays⟩
  · cases hreturned

/-! ## Relays left behind

Two runs that end with relays running, for the two ways of abandoning one, and one that ends as
it should. -/

/-- A forwarded connection is relayed while the task of a session channel fails. -/
def failedSession : List Action :=
  [.start, .global (some (.request (.streamlocalForward ⟨"/s"⟩))),
    .dispatched Forwards.openOs true, .forwardTask 0 .starts, .connection 0, .relay 0 .opened,
    .channel (some "session"), .channelTask 0 (.returns (.error ())), .joinChannel 0]

/-- A forwarded channel is relayed while the session is shut down. -/
def shutDown : List Action :=
  [.start, .channel (some "direct-tcpip"), .channelTask 0 .connects, .cancelShutdown,
    .shuttingDown, .channelTask 0 .cancelled, .joinChannel 0, .allDone, .allDone, .allDone]

/-- The relay of the listener goes on, its token not triggered; and so do the pipes of the channel
without a handler. -/
theorem failedSession_not_quiet :
    (∃ s, machine.exec machine.init failedSession = some s ∧ s.place = .returned (.error ()) ∧
        s.relays = [.relaying 2] ∧ s.forwardCancel = false ∧ ¬ s.Quiet) ∧
      ∃ s, machine.exec machine.init shutDown = some s ∧ s.place = .returned (.ok .shutdown) ∧
        s.channelTasks = [⟨⟨.directTcpip, some 2⟩, .joined⟩] ∧ ¬ s.Quiet := by
  refine ⟨⟨_, rfl, rfl, rfl, rfl, fun h => ?_⟩, _, rfl, rfl, rfl, fun h => ?_⟩
  · cases h.relays _ (List.mem_singleton.mpr rfl)
  · cases h.pipes _ (List.mem_singleton.mpr rfl)

/-- A forwarded connection is relayed while the last session channel ends. -/
def finishedSession : List Action :=
  [.start, .global (some (.request (.streamlocalForward ⟨"/s"⟩))),
    .dispatched Forwards.openOs true, .forwardTask 0 .starts, .connection 0, .relay 0 .opened,
    .channel (some "session"), .channelTask 0 (.returns (.ok ())), .joinChannel 0, .allDone,
    .forwardTask 0 .dropped, .joinForward 0, .allDone, .relay 0 .cancelled, .relay 0 .pipeEnds,
    .relay 0 .pipeEnds, .relay 0 .returns, .allDone]

/-- The session ends as it should, and nothing runs. -/
theorem finishedSession_quiet :
    ∃ s, machine.exec machine.init finishedSession = some s ∧
      s.place = .returned (.ok .sessionFinished) ∧ s.Quiet := by
  have hpath : machine.Path (machine.trace machine.init finishedSession) _ := .of_exec rfl
  have hkeeps : (machine.trace machine.init finishedSession).all
      (fun x => !x.1.abandons x.2) = true := rfl
  have hreach : machine.Reach (fun s a => s.abandons a = false) _ := hpath.reach fun x hx => by
    simpa using List.all_eq_true.mp hkeeps x hx
  exact ⟨_, rfl, rfl, quiet_of_returned hreach rfl⟩

end RunSession

end Dssh
