import Dssh.Session.Dispatcher

/-!
# Draining the listeners of a session

Behind its loop, when the channel tasks have been waited for, `run_session` aborts every
listener that a table has a handle of, and then waits for all of them. A listener that no table
knows of would be waited for without having been aborted.

## Waiting without limit

The wait is a plain loop over `join_next`, and a listener task does not end by itself: it
accepts connections until its socket fails. So `run_session` returns only if every listener task
in the set has been aborted, has ended, or has never run. The tables are emptied in front of the
wait, and what they have is aborted. That this is everything is the invariant of `Forwards`:
live listeners have handles. There it holds for the requests of a client in any order. Here it
has to hold at a certain place of the dispatcher, after everything else that a session does.

`Listeners` is what is carried along: the invariant of the tables, and that they are empty in
front of the loop and behind the drain. The second part is trivial, and is what the argument
needs at the end, since an invariant that says "every live listener has a handle" says "there
are none" about empty tables.

## The exception

A bind that succeeds under the key of a live listener replaces its handle. Such a listener is in
no table, and is waited for. The condition is that of the module on the tables, about the step
that does it.

An early return, with an error, drops the set and the tables. All tasks are aborted then, and
there is nothing to wait for.

## Main definitions

* `RunSession.Supersedes` — the step that must not happen
* `RunSession.Listeners` — what is known of the listeners at each place

## Main results

* `RunSession.not_live_of_drained` — behind the drain no listener is live, as long as no step
  supersedes the handle of a live one
* `RunSession.joiningForwards_progress` — so `run_session` waits for aborted listeners only
-/

namespace Dssh

namespace Forwards

variable {f : Forwards}

/-! ## Tables

What draining the tables does to the tasks. It aborts those whose handles are stored, and nobody
else. -/

/-- A stored handle is drained. -/
theorem mem_drained {k : ForwardKey} {i : ℕ} (h : f.handle k = some i) :
    i ∈ f.tcpForwards.entries.map Sigma.snd ++ f.unixForwards.entries.map Sigma.snd := by
  rw [List.mem_append]
  rcases k with k | socketPath
  · exact Or.inl (List.mem_map.mpr ⟨⟨k, i⟩, AList.mem_lookup_iff.mp h, rfl⟩)
  · exact Or.inr (List.mem_map.mpr ⟨⟨socketPath, i⟩, AList.mem_lookup_iff.mp h, rfl⟩)

/-- If all handles are stored, draining the tables aborts all listeners. -/
theorem not_live_drain (hf : f.AllStored) (i : ℕ) : ¬ f.drain.Live i := by
  rintro ⟨t, hget, hrunning⟩
  obtain ⟨hmem, hget⟩ := JoinSet.running_of_foldl_abort hget hrunning
  obtain ⟨k, hk⟩ := hf i ⟨t, hget, hrunning⟩
  exact hmem (mem_drained hk)

/-- Without handles there is nothing to be keyed. -/
theorem keyed_of_no_handles (h : ∀ k, f.handle k = none) : f.Keyed := by
  intro k i hi
  rw [h k] at hi
  cases hi

/-- Empty tables have no handles. -/
theorem handle_of_no_tables (ts : JoinSet ForwardTask Unit) (k : ForwardKey) :
    handle { forwardTasks := ts } k = none := by
  cases k <;> rfl

end Forwards

namespace RunSession

/-- A listener is bound under the key of a live one. -/
def Supersedes (s : RunSession) : Action → Prop
  | .dispatched os responds => ∃ rq, s.place = .dispatching (.request rq) ∧
      Forwards.Supersedes s.forwards (.dispatch rq os responds)
  | _ => False

/-- At the places in front of the loop and behind the drain, the tables are empty. -/
def tablesEmpty : Place → Bool
  | .start => true
  | .joiningForwards => true
  | .waitingRelays => true
  | .returned _ => true
  | _ => false

/-! ## Along a session

The results about tables and tasks hold for a dispatcher that only answers requests. In a
session, tasks also end, and the tables are dropped early by an error; in each case the handles
that are left are those of the listeners that are left. -/

/-- The listeners of a session. -/
structure Listeners (s : RunSession) : Prop where
  /-- Handles are those of the tasks under their keys. -/
  keyed : s.forwards.Keyed
  /-- Live listeners have handles. -/
  stored : s.forwards.AllStored
  /-- When the tables have been emptied, no key has a handle. -/
  empty : tablesEmpty s.place = true → ∀ k, s.forwards.handle k = none

variable {s s' : RunSession} {a : Action}

/-- The tables stay as they are, and the tasks go on. -/
theorem Listeners.later (hs : Listeners s) {ts : JoinSet ForwardTask Unit}
    (hts : JoinSet.Continues ForwardTask.listener s.forwards.forwardTasks ts) :
    Listeners { s with forwards := { s.forwards with forwardTasks := ts } } := by
  refine ⟨hs.keyed.later (fun k i hi => ?_) hts, hs.stored.later (fun k => ?_) hts,
    fun hempty k => ?_⟩
  · rwa [Forwards.handle_forwardTasks] at hi
  · rw [Forwards.handle_forwardTasks]
  · rw [Forwards.handle_forwardTasks]
    exact hs.empty hempty k

/-- Only the tables count, and the place where they are empty. -/
theorem Listeners.congr (hs : Listeners s) (hforwards : s'.forwards = s.forwards)
    (hplace : tablesEmpty s'.place = true → tablesEmpty s.place = true) : Listeners s' := by
  refine ⟨?_, ?_, fun hempty => ?_⟩
  · rw [hforwards]
    exact hs.keyed
  · rw [hforwards]
    exact hs.stored
  · rw [hforwards]
    exact hs.empty (hplace hempty)

/-- A listener task stays the same listener. -/
theorem same_of_forwardStep {e : ForwardTask.Event} {t t' : Spawned ForwardTask Unit}
    (h : ForwardTask.step e t = some t') : JoinSet.Same ForwardTask.listener t t' := by
  cases e with
  | starts =>
    simp only [ForwardTask.step] at h
    split_ifs at h
    obtain rfl := Option.some.inj h
    exact ⟨rfl, id⟩
  | loopEnds =>
    simp only [ForwardTask.step] at h
    split at h
    · obtain rfl := Option.some.inj h
      exact ⟨rfl, id⟩
    · cases h
  | returns =>
    simp only [ForwardTask.step] at h
    split_ifs at h
    obtain rfl := Option.some.inj h
    refine ⟨rfl, fun hrunning => ?_⟩
    cases hrunning
  | dropped =>
    simp only [ForwardTask.step] at h
    split_ifs at h
    split at h
    · obtain rfl := Option.some.inj h
      refine ⟨rfl, fun hrunning => ?_⟩
      cases hrunning
    · obtain rfl := Option.some.inj h
      refine ⟨rfl, fun hrunning => ?_⟩
      cases hrunning

/-- An early return drops the tables, and aborts all tasks. -/
theorem Listeners.fail (s : RunSession) : Listeners s.fail := by
  have hnone : ∀ k, s.fail.forwards.handle k = none := Forwards.handle_of_no_tables _
  refine ⟨Forwards.keyed_of_no_handles hnone, ?_, fun _ => hnone⟩
  rintro i ⟨t, hget, hrunning⟩
  exact absurd hrunning (JoinSet.not_running_of_abortAll (List.mem_of_getElem? hget))

/-- The result of a channel task changes no table. -/
theorem Listeners.onJoined (hs : Listeners s) (result : Except JoinError ChannelResult) :
    Listeners (s.onJoined result) := by
  rcases result with e | e | u <;> simp only [RunSession.onJoined]
  case ok.error => exact .fail s
  all_goals
    split_ifs
    · exact hs.congr rfl fun h => by cases h
    · exact hs.congr rfl fun h => by cases h

/-- Nor does an incoming channel. -/
theorem Listeners.onChannel (hs : Listeners s) (channelType : SshString) :
    Listeners (s.onChannel channelType) := by
  rw [RunSession.onChannel]
  split
  all_goals exact hs.congr rfl fun h => by cases h

/-- **One step** that supersedes no live listener. -/
theorem Listeners.step (hs : Listeners s) (ha : ¬ s.Supersedes a) (h : Steps s a s') :
    Listeners s' := by
  cases h with
  | start hplace =>
    refine hs.congr rfl fun _ => ?_
    rw [hplace]
    rfl
  | channel => exact hs.onChannel _
  | @dispatched os responds rq hplace =>
    have hnot : ¬ Forwards.Supersedes s.forwards (.dispatch rq os responds) :=
      fun hsup => ha ⟨rq, hplace, hsup⟩
    have hstep : Forwards.step s.forwards (.dispatch rq os responds) =
        some (dispatchGlobal os responds s.forwards rq).1 := rfl
    exact ⟨hs.keyed.step hstep, (Forwards.allStored_step hs.keyed hs.stored hstep).mpr hnot,
      fun hempty => by cases hempty⟩
  | @joined i result ts =>
    have hts : Listeners { s with channelTasks := ts } := hs.congr rfl id
    exact hts.onJoined result
  | joinedError => exact .fail _
  | joinForward hplace hjoin => exact hs.later (JoinSet.continues_join hjoin)
  | forwardTask hts => exact hs.later (JoinSet.continues_update hts fun _ _ => same_of_forwardStep)
  | channelsDone =>
    have hnone : ∀ k, s.forwards.drain.handle k = none := Forwards.handle_of_no_tables _
    refine ⟨Forwards.keyed_of_no_handles hnone, ?_, fun _ => hnone⟩
    exact fun i hlive => absurd hlive (Forwards.not_live_drain hs.stored i)
  | forwardsDone hplace | relaysDone hplace =>
    refine hs.congr rfl fun _ => ?_
    rw [hplace]
    rfl
  | cancelShutdown | channelTask | connection | relay | joinedBehind => exact hs.congr rfl id
  | channelPanics | channelClosed | globalPanics | globalClosed | global | shuttingDown =>
    exact hs.congr rfl fun h => by cases h
  | socks5Accepted | socks5Failed | rejected | dispatchedUnknown =>
    exact hs.congr rfl fun h => by cases h

/-- In every state that is reached without superseding. -/
theorem listeners_of_reach (h : machine.Reach (fun s a => ¬ s.Supersedes a) s) : Listeners s := by
  have hnone : ∀ k, machine.init.forwards.handle k = none := Forwards.handle_of_no_tables _
  have hinit : Listeners machine.init := by
    refine ⟨Forwards.keyed_of_no_handles hnone, ?_, fun _ => hnone⟩
    rintro i ⟨t, hget, -⟩
    cases hget
  exact h.invariant hinit fun _ hs ha hstep => hs.step ha (.of_step hstep)

/-- **The drain reaches every listener.** -/
theorem not_live_of_drained (h : machine.Reach (fun s a => ¬ s.Supersedes a) s)
    (hplace : s.place = .joiningForwards) (i : ℕ) : ¬ s.forwards.Live i := by
  intro hlive
  have hs := listeners_of_reach h
  obtain ⟨k, hk⟩ := hs.stored i hlive
  rw [hs.empty (by rw [hplace]; rfl) k] at hk
  cases hk

/-- **Waiting for the listeners.** Either all of them have been joined, and `run_session` goes on,
or the result of one can be taken, or one is aborted and can be dropped. -/
theorem joiningForwards_progress (h : machine.Reach (fun s a => ¬ s.Supersedes a) s)
    (hplace : s.place = .joiningForwards) :
    ∃ a, (a = .allDone ∨ (∃ i, a = .joinForward i) ∨ ∃ i, a = .forwardTask i .dropped) ∧
      (s.step a).isSome := by
  by_cases hempty : s.forwards.forwardTasks.isEmpty = true
  · refine ⟨.allDone, Or.inl rfl, ?_⟩
    simp only [RunSession.step, hplace, hempty, if_true, Option.isSome_some]
  · rw [JoinSet.isEmpty, List.all_eq_true] at hempty
    push Not at hempty
    obtain ⟨t, ht, hjoined⟩ := hempty
    obtain ⟨i, hget⟩ := List.mem_iff_getElem?.mp ht
    cases hstate : t.state with
    | running => exact absurd ⟨t, hget, hstate⟩ (not_live_of_drained h hplace i)
    | aborting =>
      refine ⟨.forwardTask i .dropped, Or.inr (Or.inr ⟨i, rfl⟩), ?_⟩
      have hdropped : (ForwardTask.step .dropped t).isSome := by
        simp only [ForwardTask.step, hstate, if_true]
        cases t.data.listener <;> rfl
      simpa [RunSession.step, JoinSet.update, hget] using hdropped
    | ended result =>
      have htask : t = ⟨t.data, .ended result⟩ := by rw [← hstate]
      rw [htask] at hget
      refine ⟨.joinForward i, Or.inr (Or.inl ⟨i, rfl⟩), ?_⟩
      simp only [RunSession.step, JoinSet.join, hget, hplace]
      rfl
    | joined => exact absurd (by rw [hstate]) hjoined

end RunSession

end Dssh
