import Dssh.Session.Output

/-!
# Relaying the input of the client

`relay_stdin` and `relay_stdin_interactive` on the client. Both wait for the end of the session
and for the standard input, and send what they read; the interactive one also waits for changes
of the terminal's size. The branches of `select!` are tried in order, so an event is left for a
later turn while an earlier branch is ready.

A stream that has ended answers `None` whenever it is asked. The interactive relay does not stop
asking: it goes on with the next turn, which finds the same answer.

## Turns and events

A loop around a `select!` should take one turn for each event that it receives: it waits in
between. The relay does, with one exception. `None` from the resize stream is an event the first
time. After that it is always there, the branch is always ready, and `continue` goes around once
more. As long as nothing else is ready, each poll of the relay runs this loop, and does not come
back (`spins`).

So turns and events are counted. The property is that the loop has begun at most one turn more
than it has received events. It holds in every state of a run exactly if no turn is taken in a
state that is `Idle`, and that is a condition on the state: the resize stream has ended, the
relay knows it, and there is neither input nor an end of the session. With input, the earlier
branch wins, and the turn is paid for.

## The model

The resize stream has three states, since the relay may not know yet that it has ended. What can
be read and which sizes are ready change from outside at any time. A turn is one step. It takes
the first branch that is ready, in the order of the source, and how many bytes a read returns
and whether writing succeeds are the choice of the action. When no branch is ready, there is no
step: the relay waits.

What has been sent is kept as messages, for the modules on delivery.

## Main definitions

* `ResizeStream`, `StdinRelay` — the stream of sizes and the relay
* `StdinRelay.turn`, `StdinRelay.step`, `StdinRelay.machine` — a turn, and what happens outside
* `StdinRelay.Idle`, `StdinRelay.Spins` — a turn with nothing to receive

## Main results

* `StdinRelay.turns_le_iff` — the loop takes at most one turn more than it has received events
  exactly along runs in which no turn is left to a resize stream that has ended
* `StdinRelay.spins` — otherwise a poll of the relay does not return
* `StdinRelay.relayStdin_turns` — without a resize stream there is no such turn
-/

namespace Dssh

/-! ## The loop

The three branches of `select!` in their order, which is fixed by `biased`. A stream that has
ended is ready at every turn, and gives the same answer again. -/

/-- A stream of terminal sizes. -/
inductive ResizeStream where
  /-- These are ready, and more may come. -/
  | live (sizes : List (UInt16 × UInt16))
  /-- These are the last. -/
  | last (sizes : List (UInt16 × UInt16))
  /-- It has answered `None`. -/
  | finished
  deriving DecidableEq

/-- `relay_stdin` or `relay_stdin_interactive` in progress. -/
structure StdinRelay where
  /-- The output relay is done. -/
  done : Bool := false
  /-- What can be read. -/
  stdin : List UInt8 := []
  /-- Behind that, the end of the input or an error. -/
  stdinEnded : Bool := false
  /-- The stream of window sizes. -/
  resize : ResizeStream := .live []
  /-- The messages given to the writer. -/
  sent : List ChannelMessage := []
  /-- The loop is left. -/
  ended : Bool := false
  /-- How many turns the loop has begun. -/
  turns : ℕ := 1
  /-- How many events it has received. -/
  events : ℕ := 0
  deriving DecidableEq

namespace StdinRelay

/-- What comes in from outside, and the turns. -/
inductive Action where
  /-- The output relay sends the signal. -/
  | finishes
  /-- More can be read. -/
  | inputs (bs : List UInt8)
  | inputEnds
  /-- The terminal has a new size. -/
  | resizes (size : UInt16 × UInt16)
  | resizeEnds
  /-- A turn of the loop. If it reads, it reads `n` bytes; `ok` says whether writing succeeds. -/
  | turn (n : ℕ) (ok : Bool)
  deriving DecidableEq

/-- The size of the buffer. -/
def bufferSize : ℕ := 8192

/-- Receive an event and begin the next turn. -/
def received (s : StdinRelay) : StdinRelay :=
  { s with turns := s.turns + 1, events := s.events + 1 }

/-- Receive an event and leave the loop. -/
def leave (s : StdinRelay) : StdinRelay :=
  { s with events := s.events + 1, ended := true, sent := s.sent ++ [.eof, .close] }

/-- The notice for a new size. -/
def windowChange (size : UInt16 × UInt16) : ChannelMessage :=
  .request (.windowChange ⟨.ofNat size.1.toNat, .ofNat size.2.toNat, .ofNat 0, .ofNat 0⟩) false

/-- The branch for the resize stream. A failed notice is only logged. -/
def onResize (s : StdinRelay) : Option StdinRelay :=
  match s.resize with
  | .live [] => none
  | .live (size :: sizes) =>
    some { s with resize := .live sizes, sent := s.sent ++ [windowChange size] }.received
  | .last (size :: sizes) =>
    some { s with resize := .last sizes, sent := s.sent ++ [windowChange size] }.received
  | .last [] => some { s with resize := .finished }.received
  -- nothing is received
  | .finished => some { s with turns := s.turns + 1 }

/-- Read some of the input and send it. -/
def onInput (s : StdinRelay) (n : ℕ) (ok : Bool) : StdinRelay :=
  let s' := { s with
    stdin := s.stdin.drop n
    sent := s.sent ++ [ChannelMessage.data (s.stdin.take n)] }
  if ok then s'.received else s'.leave

/-- A turn of the loop; `none` while no branch is ready. -/
def turn (interactive : Bool) (s : StdinRelay) (n : ℕ) (ok : Bool) : Option StdinRelay :=
  if s.ended then none
  else if s.done then some s.leave
  else if s.stdin ≠ [] then
    if 0 < n ∧ n ≤ bufferSize ∧ n ≤ s.stdin.length then some (s.onInput n ok) else none
  else if s.stdinEnded then some s.leave
  else if interactive then s.onResize
  else none

/-- One step; what comes in behind an end is not possible. -/
def step (interactive : Bool) (s : StdinRelay) : Action → Option StdinRelay
  | .finishes => some { s with done := true }
  | .inputs bs => if s.stdinEnded then none else some { s with stdin := s.stdin ++ bs }
  | .inputEnds => some { s with stdinEnded := true }
  | .resizes size =>
    match s.resize with
    | .live sizes => some { s with resize := .live (sizes ++ [size]) }
    | _ => none
  | .resizeEnds =>
    match s.resize with
    | .live sizes => some { s with resize := .last sizes }
    | _ => none
  | .turn n ok => s.turn interactive n ok

/-- `relay_stdin_interactive`, or `relay_stdin` if not `interactive`. -/
def machine (interactive : Bool) : Machine StdinRelay Action := ⟨{}, step interactive⟩

/-! ## Turns and events

The two counters of the model count turns begun and events received. A turn that receives nothing
spoils the balance, and there is one state in which a turn is like this. -/

variable {interactive : Bool} {s t : StdinRelay}

/-- The resize stream has ended, the relay knows it, and nothing else is ready. -/
structure Idle (s : StdinRelay) : Prop where
  /-- The output goes on. -/
  done : s.done = false
  /-- Nothing can be read … -/
  stdin : s.stdin = []
  /-- … and the end has not been seen. -/
  stdinEnded : s.stdinEnded = false
  /-- The stream of sizes has ended. -/
  resize : s.resize = .finished

instance (s : StdinRelay) : Decidable s.Idle :=
  decidable_of_iff (s.done = false ∧ s.stdin = [] ∧ s.stdinEnded = false ∧ s.resize = .finished)
    ⟨fun ⟨hdone, hstdin, hstdinEnded, hresize⟩ => ⟨hdone, hstdin, hstdinEnded, hresize⟩,
      fun h => ⟨h.done, h.stdin, h.stdinEnded, h.resize⟩⟩

/-- It is a turn of the loop. -/
def Action.isTurn : Action → Bool
  | .turn _ _ => true
  | _ => false

/-- The step is a turn with nothing to receive. -/
abbrev Spins (s : StdinRelay) (a : Action) : Prop := a.isTurn = true ∧ s.Idle

/-- What a turn does to the counters. -/
inductive Turned (s t : StdinRelay) : Prop
  | left (hended : t.ended = true) (hturns : t.turns = s.turns) (hevents : t.events = s.events + 1)
      (hidle : ¬s.Idle)
  | received (hended : t.ended = false) (hturns : t.turns = s.turns + 1)
      (hevents : t.events = s.events + 1) (hidle : ¬s.Idle)
  | spun (hended : t.ended = false) (hturns : t.turns = s.turns + 1) (hevents : t.events = s.events)
      (hidle : s.Idle)

/-- A read receives an event. -/
theorem turned_onInput {n : ℕ} {ok : Bool} (hended : s.ended = false) (hstdin : s.stdin ≠ []) :
    Turned s (s.onInput n ok) := by
  have hidle : ¬s.Idle := fun hidle => hstdin hidle.stdin
  cases ok with
  | true => exact .received hended rfl rfl hidle
  | false => exact .left rfl rfl rfl hidle

/-- The branch for the sizes receives one, unless the relay is idle. -/
theorem turned_onResize (hended : s.ended = false) (hdone : s.done = false) (hstdin : s.stdin = [])
    (hstdinEnded : s.stdinEnded = false) (h : s.onResize = some t) : Turned s t := by
  have hidle : s.resize ≠ .finished → ¬s.Idle := fun hresize hidle => hresize hidle.resize
  unfold onResize at h
  split at h <;> cases h
  · rename_i size sizes hresize
    exact .received hended rfl rfl (hidle (by simp [hresize]))
  · rename_i size sizes hresize
    exact .received hended rfl rfl (hidle (by simp [hresize]))
  · rename_i hresize
    exact .received hended rfl rfl (hidle (by simp [hresize]))
  · rename_i hresize
    exact .spun hended rfl rfl ⟨hdone, hstdin, hstdinEnded, hresize⟩

/-- The branches of a turn, in the order in which they are tried. -/
inductive Branch (interactive : Bool) (s : StdinRelay) (n : ℕ) (ok : Bool) : StdinRelay → Prop
  | done (hdone : s.done = true) : Branch interactive s n ok s.leave
  | input (hstdin : s.stdin ≠ []) (hn : n ≤ bufferSize) : Branch interactive s n ok (s.onInput n ok)
  | inputEnd (hstdinEnded : s.stdinEnded = true) : Branch interactive s n ok s.leave
  | resize {t : StdinRelay} (hdone : s.done = false) (hstdin : s.stdin = [])
      (hstdinEnded : s.stdinEnded = false) (hinteractive : interactive = true)
      (h : s.onResize = some t) : Branch interactive s n ok t

/-- A turn takes one of the branches. -/
theorem branch_of_turn {n : ℕ} {ok : Bool} (h : s.turn interactive n ok = some t) :
    s.ended = false ∧ Branch interactive s n ok t := by
  unfold turn at h
  split at h
  · cases h
  rename_i hended
  refine ⟨Bool.eq_false_iff.mpr hended, ?_⟩
  split at h
  · rename_i hdone
    cases h
    exact .done hdone
  rename_i hdone
  split at h
  · rename_i hstdin
    split at h <;> cases h
    rename_i hn
    exact .input hstdin hn.2.1
  rename_i hstdin
  split at h
  · rename_i hstdinEnded
    cases h
    exact .inputEnd hstdinEnded
  rename_i hstdinEnded
  split at h
  · rename_i hinteractive
    exact .resize (Bool.eq_false_iff.mpr hdone) (not_not.mp hstdin)
      (Bool.eq_false_iff.mpr hstdinEnded) hinteractive h
  · cases h

/-- So a turn receives an event or is idle. -/
theorem turned_of_turn {n : ℕ} {ok : Bool} (h : s.turn interactive n ok = some t) :
    s.ended = false ∧ Turned s t := by
  obtain ⟨hended, hbranch⟩ := branch_of_turn h
  refine ⟨hended, ?_⟩
  cases hbranch with
  | done hdone => exact .left rfl rfl rfl fun hidle => by rw [hidle.done] at hdone; cases hdone
  | input hstdin _ => exact turned_onInput hended hstdin
  | inputEnd hstdinEnded =>
    exact .left rfl rfl rfl fun hidle => by rw [hidle.stdinEnded] at hstdinEnded; cases hstdinEnded
  | resize hdone hstdin hstdinEnded _ hresize =>
    exact turned_onResize hended hdone hstdin hstdinEnded hresize

/-- The counters, along runs without a turn that receives nothing. -/
def Counted (s : StdinRelay) : Prop := s.turns = if s.ended then s.events else s.events + 1

/-- At most one turn more than events. -/
theorem Counted.le (h : Counted s) : s.turns ≤ s.events + 1 := by
  rw [Counted] at h
  split at h <;> omega

/-- What happens outside touches neither the loop nor the channel. -/
structure Frame (s t : StdinRelay) : Prop where
  /-- The loop has not been left. -/
  ended : t.ended = s.ended
  /-- No turn has begun. -/
  turns : t.turns = s.turns
  /-- No event has been received. -/
  events : t.events = s.events
  /-- Nothing has been sent. -/
  sent : t.sent = s.sent

/-- What comes in from outside is no turn. -/
theorem frame_of_not_turn {a : Action} (ha : a.isTurn = false)
    (h : s.step interactive a = some t) : Frame s t := by
  cases a with
  | finishes => cases h; exact ⟨rfl, rfl, rfl, rfl⟩
  | inputs bs =>
    simp only [step] at h
    split at h <;> cases h
    exact ⟨rfl, rfl, rfl, rfl⟩
  | inputEnds => cases h; exact ⟨rfl, rfl, rfl, rfl⟩
  | resizes size =>
    simp only [step] at h
    split at h <;> cases h
    exact ⟨rfl, rfl, rfl, rfl⟩
  | resizeEnds =>
    simp only [step] at h
    split at h <;> cases h
    exact ⟨rfl, rfl, rfl, rfl⟩
  | turn n ok => cases ha

/-- Nothing has been counted. -/
theorem Counted.of_frame (hs : Counted s) (h : Frame s t) : Counted t := by
  rw [Counted, h.ended, h.turns, h.events]
  exact hs

/-- A turn that receives something is counted on both sides. -/
theorem Counted.turn {n : ℕ} {ok : Bool} (hs : Counted s) (hidle : ¬s.Idle)
    (h : s.turn interactive n ok = some t) : Counted t := by
  obtain ⟨hended, hturned⟩ := turned_of_turn h
  rw [Counted, hended] at hs
  simp only [Bool.false_eq_true, if_false] at hs
  cases hturned with
  | left hended' hturns hevents => rw [Counted, if_pos hended']; omega
  | received hended' hturns hevents =>
    rw [Counted, if_neg (Bool.eq_false_iff.mp hended')]
    omega
  | spun _ _ _ hidle' => exact absurd hidle' hidle

/-- Every step with something to receive keeps the count. -/
theorem Counted.step {a : Action} (hs : Counted s) (ha : ¬s.Spins a)
    (h : s.step interactive a = some t) : Counted t := by
  cases a with
  | turn n ok => exact hs.turn (fun hidle => ha ⟨rfl, hidle⟩) h
  | _ => exact hs.of_frame (frame_of_not_turn rfl h)

/-- In every state of such a run. -/
theorem counted_of_reach (h : (machine interactive).Reach (fun s a => ¬s.Spins a) s) :
    Counted s := by
  have hinit : Counted (machine interactive).init := rfl
  exact h.invariant hinit fun _ hs ha hstep => hs.step ha hstep

/-- A turn that receives nothing is one too many. -/
theorem turns_of_spins {a : Action} (hs : Counted s) (ha : s.Spins a)
    (h : s.step interactive a = some t) : t.events + 1 < t.turns := by
  cases a with
  | turn n ok =>
    obtain ⟨hended, hturned⟩ := turned_of_turn h
    rw [Counted, hended] at hs
    simp only [Bool.false_eq_true, if_false] at hs
    cases hturned with
    | left _ _ _ hidle => exact absurd ha.2 hidle
    | received _ _ _ hidle => exact absurd ha.2 hidle
    | spun _ hturns hevents => omega
  | _ => cases ha.1

/-- **Turns and events.** In every state of a run, the loop has begun at most one turn more than it
has received events, exactly if the run has no turn behind the end of the resize stream in which
neither the input nor the end of the session is ready. -/
theorem turns_le_iff {l : List (StdinRelay × Action)} (h : (machine interactive).Path l s) :
    ((∀ x ∈ l, x.1.turns ≤ x.1.events + 1) ∧ s.turns ≤ s.events + 1) ↔
      ∀ x ∈ l, ¬x.1.Spins x.2 := by
  have hstep : ∀ {s a t}, (machine interactive).Reach (fun s a => ¬s.Spins a) s →
      s.turns ≤ s.events + 1 → (machine interactive).step s a = some t →
      (t.turns ≤ t.events + 1 ↔ ¬s.Spins a) := by
    intro s a t hreach _ hstep
    have hs := counted_of_reach hreach
    constructor
    · intro hle ha
      have hlt := turns_of_spins hs ha hstep
      omega
    · intro ha
      exact (hs.step ha hstep).le
  exact h.forall_iff (P := fun s => s.turns ≤ s.events + 1) (Nat.le_refl _) hstep

/-- A session with input and a new size. The resize stream ends, and the relay receives that; from
then on it begins its turns with input, and the last one with the end of it. -/
def ordinary : List Action :=
  [.inputs [104, 105, 10], .resizes (80, 24), .turn 3 true, .turn 0 true, .resizeEnds, .turn 0 true,
    .inputs [108, 115, 10], .turn 2 true, .turn 1 true, .inputEnds, .turn 0 true]

/-- Six events, and no turn too many. -/
theorem ordinary_turns : ∃ s, (machine true).exec {} ordinary = some s ∧
    (s.resize = .finished ∧ s.ended = true ∧ s.events = 6) ∧
    ((∀ x ∈ (machine true).trace {} ordinary, x.1.turns ≤ x.1.events + 1) ∧
      s.turns ≤ s.events + 1) := by
  have hruns : ((machine true).exec {} ordinary).any (fun s =>
      decide (s.resize = .finished ∧ s.ended = true ∧ s.events = 6)) = true := by decide
  obtain ⟨s, hs, hend⟩ := (Option.any_eq_true _ _).mp hruns
  exact ⟨s, hs, of_decide_eq_true hend, (turns_le_iff (Machine.Path.of_exec hs)).mpr (by decide)⟩

/-! ## A resize stream that ends

Until something else comes, the loop turns as often as it is polled. -/

/-- **The relay spins.** Until the input or the end of the session is ready, the loop takes as many
turns as it likes. -/
theorem spins {s : StdinRelay} (hended : s.ended = false) (hidle : s.Idle) (n : ℕ) :
    (machine true).exec s (List.replicate n (.turn 0 true)) =
      some { s with turns := s.turns + n } := by
  induction n generalizing s with
  | zero => rfl
  | succ n ih =>
    obtain ⟨hdone, hstdin, hstdinEnded, hresize⟩ := hidle
    have hstep : (machine true).step s (.turn 0 true) = some { s with turns := s.turns + 1 } := by
      simp [machine, step, turn, onResize, hended, hdone, hstdin, hstdinEnded, hresize]
    rw [List.replicate_succ, Machine.exec, hstep, Option.bind_some,
      ih (s := { s with turns := s.turns + 1 }) hended ⟨hdone, hstdin, hstdinEnded, hresize⟩]
    simp only [Option.some.injEq, mk.injEq, true_and, and_true]
    omega

/-- The resize stream ends while nothing else is ready: one event, three turns. -/
theorem ended_resize_spins :
    ¬∀ (l : List (StdinRelay × Action)) (s : StdinRelay), (machine true).Path l s →
      s.turns ≤ s.events + 1 := by
  intro h
  have hexec : (machine true).exec {} [.resizeEnds, .turn 0 true, .turn 0 true] =
      some { resize := .finished, turns := 3, events := 1 } := by decide
  exact absurd (h _ _ (Machine.Path.of_exec hexec)) (by decide)

/-! ## The relay without a resize stream

`relay_stdin` has two branches, and both receive something. -/

/-- It is not asked. -/
theorem turn_resize {n : ℕ} {ok : Bool} (h : s.turn false n ok = some t) :
    t.resize = s.resize := by
  cases (branch_of_turn h).2 with
  | done => rfl
  | input => cases ok <;> rfl
  | inputEnd => rfl
  | resize _ _ _ hinteractive _ => cases hinteractive

/-- So the relay never knows that it has ended. -/
theorem resize_ne_finished (h : (machine false).Reachable s) : s.resize ≠ .finished := by
  have hinit : (machine false).init.resize ≠ .finished := by decide
  refine h.invariant (I := fun s => s.resize ≠ .finished) hinit ?_
  intro s a t _ hs _ hstep
  cases a with
  | finishes => cases hstep; exact hs
  | inputs bs =>
    simp only [machine, step] at hstep
    split at hstep <;> cases hstep
    exact hs
  | inputEnds => cases hstep; exact hs
  | resizes size =>
    simp only [machine, step] at hstep
    split at hstep <;> cases hstep
    simp
  | resizeEnds =>
    simp only [machine, step] at hstep
    split at hstep <;> cases hstep
    simp
  | turn n ok => exact turn_resize hstep ▸ hs

/-- `relay_stdin` has no branch for the resize stream, and never spins. -/
theorem relayStdin_turns (h : (machine false).Reachable s) : s.turns ≤ s.events + 1 := by
  have hreach : (machine false).Reach (fun s a => ¬s.Spins a) s := by
    refine h.mono ?_
    intro s a hs _ ha
    exact resize_ne_finished hs.reachable ha.2.resize
  exact (counted_of_reach hreach).le

end StdinRelay

end Dssh
