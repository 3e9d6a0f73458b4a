import Dssh.Session.Input
import Dssh.Session.StdinRelay

/-!
# The input of a remote process

`relay_stdin` on the client and `relay_input` on the server, with the stream of the channel
between them: what the client reads from its standard input is what the process can read from
its own, and the terminal of the process gets the sizes of the client's, one after the other.

A history counts what has come in at the client; what has been sent and what has not been read
yet make it up. This holds in every state, so also for a client that has been told to stop in
the middle.

## An account

`Accounts` is the equation of this module. The data in the messages sent so far, followed by
what waits in the standard input, is the input of the history, and the same for the sizes. Each
step of the relay moves something from the one part to the other, or takes in something at the
end. A read moves a chunk, a turn with a size moves the size, leaving the loop adds EOF and
close and moves nothing.

The interleaving of data and sizes on the channel is not determined: the relay prefers its
input. Each of the two sequences keeps its order, and they have different places to go.

Writing does not fail here. A write that fails ends the relay, and a notice that cannot be
written is only logged, so something would be missing.

## The other side

What the client sends are data, notices of sizes, EOF and close. The server's relay goes on at
each of the first two, if it has a terminal for the sizes, and ends at EOF. So `input_relayed`
applies to all that the client has sent, at any time (`Accounts.arrives`), and what the server
does with it is the data and the sizes.

The condition on the mode is the client's: `run_interactive` sends sizes, and it is for sessions
with a terminal. Without one, the server's relay would end at the first size.

## Main definitions

* `StdinRelay.inputOf`, `StdinRelay.sizesOf` — the history of a run
* `StdinRelay.Accounts` — what has been sent, and what it has been made of

## Main results

* `StdinRelay.accounts_exec` — what has been sent continues with what has not been read
* `StdinRelay.stdin_delivered` — the two relays together, for every run of the client's
-/

namespace Dssh

open ChannelMessage InputRelay

/-- The sizes that have not been received. -/
def ResizeStream.pending : ResizeStream → List (UInt16 × UInt16)
  | live sizes => sizes
  | last sizes => sizes
  | finished => []

namespace StdinRelay

/-! ## What comes in

The actions of a run that bring something in, and what they bring. -/

/-- The bytes that come in. -/
def Action.input : Action → List UInt8
  | inputs bs => bs
  | _ => []

/-- The size that comes in. -/
def Action.sizes : Action → List (UInt16 × UInt16)
  | resizes size => [size]
  | _ => []

/-- The input during a run. -/
def inputOf (as : List Action) : List UInt8 := as.flatMap Action.input

/-- The sizes during a run. -/
def sizesOf (as : List Action) : List (UInt16 × UInt16) := as.flatMap Action.sizes

/-- One step more. -/
theorem inputOf_snoc (as : List Action) (a : Action) :
    inputOf (as ++ [a]) = inputOf as ++ a.input := by
  rw [inputOf, inputOf, List.flatMap_append, List.flatMap_singleton]

/-- The same for sizes. -/
theorem sizesOf_snoc (as : List Action) (a : Action) :
    sizesOf (as ++ [a]) = sizesOf as ++ a.sizes := by
  rw [sizesOf, sizesOf, List.flatMap_append, List.flatMap_singleton]

/-- The payload of the notice for a size. -/
def resizeOf (size : UInt16 × UInt16) : WindowChangeRequest :=
  ⟨.ofNat size.1.toNat, .ofNat size.2.toNat, .ofNat 0, .ofNat 0⟩

/-! ## What is sent

The messages sent in the loop, told off against what has come in: what has not been sent yet is
still with the environment. -/

/-- What is sent in the loop. -/
inductive Loops (interactive : Bool) : ChannelMessage → Prop
  | data {bytes : List UInt8} (h : bytes.length ≤ bufferSize) : Loops interactive (.data bytes)
  | resize (size : UInt16 × UInt16) (h : interactive = true) :
      Loops interactive (windowChange size)

/-- What is sent behind it. -/
def farewell (s : StdinRelay) : List ChannelMessage := if s.ended then [.eof, .close] else []

/-- What has been sent in the loop, and what it has been made of. -/
structure Accounts (interactive : Bool) (as : List Action) (s : StdinRelay)
    (ms : List ChannelMessage) : Prop where
  /-- What has been sent is these messages, and EOF and close behind them if the relay has ended. -/
  sent : s.sent = ms ++ s.farewell
  /-- No others are among them than those of the loop. -/
  loops : ∀ m ∈ ms, Loops interactive m
  /-- The data, with what waits behind it. -/
  input : dataOf ms ++ s.stdin = inputOf as
  /-- The sizes, with those that wait. -/
  sizes : ∃ sizes, resizesOf ms = sizes.map resizeOf ∧ sizes ++ s.resize.pending = sizesOf as
  /-- The relay ends for one of two reasons. -/
  stops : s.ended = true → s.done = true ∨ s.stdin = [] ∧ s.stdinEnded = true

variable {interactive : Bool} {as bs : List Action} {s t : StdinRelay} {ms : List ChannelMessage}

/-- Data adds up, … -/
theorem dataOf_append (ms ms' : List ChannelMessage) :
    dataOf (ms ++ ms') = dataOf ms ++ dataOf ms' :=
  List.flatMap_append

/-- … and so do sizes. -/
theorem resizesOf_append (ms ms' : List ChannelMessage) :
    resizesOf (ms ++ ms') = resizesOf ms ++ resizesOf ms' :=
  List.filterMap_append

/-- Leaving the loop. -/
theorem Accounts.leave (h : Accounts interactive as s ms) (hended : s.ended = false)
    (hstops : s.done = true ∨ s.stdin = [] ∧ s.stdinEnded = true) :
    Accounts interactive as s.leave ms where
  sent := by
    have hsent := h.sent
    rw [farewell, hended, if_neg Bool.false_ne_true, List.append_nil] at hsent
    show s.sent ++ _ = _
    rw [hsent]
    rfl
  loops := h.loops
  input := h.input
  sizes := h.sizes
  stops _ := hstops

/-- A chunk of the input. -/
theorem Accounts.read {n : ℕ} (h : Accounts interactive as s ms) (hended : s.ended = false)
    (hn : n ≤ bufferSize) :
    Accounts interactive as (s.onInput n true) (ms ++ [.data (s.stdin.take n)]) where
  sent := by
    have hsent := h.sent
    rw [farewell, hended, if_neg Bool.false_ne_true, List.append_nil] at hsent
    show s.sent ++ [.data (s.stdin.take n)] = _ ++ (if s.ended then _ else [])
    rw [hsent, hended, if_neg Bool.false_ne_true, List.append_nil]
  loops := by
    refine List.forall_mem_append.mpr ⟨h.loops, List.forall_mem_singleton.mpr (.data ?_)⟩
    rw [List.length_take]
    omega
  input := by
    show dataOf (ms ++ [.data (s.stdin.take n)]) ++ s.stdin.drop n = _
    rw [dataOf_append, List.append_assoc, ← h.input]
    simp [dataOf]
  sizes := by
    obtain ⟨sizes, hsizes, happend⟩ := h.sizes
    refine ⟨sizes, ?_, happend⟩
    rw [resizesOf_append, hsizes]
    simp [resizesOf]
  stops hended' := absurd (hended.symm.trans hended') Bool.false_ne_true

/-- The client learns of a size. -/
theorem Accounts.resized {size : UInt16 × UInt16} {resize : ResizeStream}
    (h : Accounts true as s ms) (hended : s.ended = false)
    (hpending : s.resize.pending = size :: resize.pending) :
    Accounts true as (received { s with resize := resize, sent := s.sent ++ [windowChange size] })
      (ms ++ [windowChange size]) where
  sent := by
    have hsent := h.sent
    rw [farewell, hended, if_neg Bool.false_ne_true, List.append_nil] at hsent
    show s.sent ++ [windowChange size] = _ ++ (if s.ended then _ else [])
    rw [hsent, hended, if_neg Bool.false_ne_true, List.append_nil]
  loops := List.forall_mem_append.mpr ⟨h.loops, List.forall_mem_singleton.mpr (.resize size rfl)⟩
  input := by
    show dataOf (ms ++ [windowChange size]) ++ s.stdin = _
    rw [dataOf_append, ← h.input]
    simp [dataOf, windowChange]
  sizes := by
    obtain ⟨sizes, hsizes, happend⟩ := h.sizes
    refine ⟨sizes ++ [size], ?_, ?_⟩
    · rw [resizesOf_append, hsizes, List.map_append]
      rfl
    · rw [← happend, hpending, List.append_assoc]
      rfl
  stops hended' := absurd (hended.symm.trans hended') Bool.false_ne_true

/-- A branch for the resize stream without a size. -/
theorem Accounts.quiet {turns events : ℕ} {resize : ResizeStream} (h : Accounts interactive as s ms)
    (hpending : resize.pending = s.resize.pending) :
    Accounts interactive as { s with resize := resize, turns := turns, events := events } ms :=
  ⟨h.sent, h.loops, h.input, hpending ▸ h.sizes, h.stops⟩

/-- The branch for the sizes. -/
theorem Accounts.onResize (h : Accounts true as s ms) (hended : s.ended = false)
    (hstep : s.onResize = some t) : ∃ ms', Accounts true as t ms' := by
  rw [StdinRelay.onResize] at hstep
  split at hstep
  case h_1 => cases hstep
  case h_2 size sizes hresize | h_3 size sizes hresize =>
    obtain rfl := Option.some.inj hstep
    exact ⟨_, h.resized hended (by rw [hresize]; rfl)⟩
  case h_4 hresize =>
    obtain rfl := Option.some.inj hstep
    exact ⟨ms, h.quiet (by rw [hresize]; rfl)⟩
  case h_5 hresize =>
    obtain rfl := Option.some.inj hstep
    exact ⟨ms, h.quiet rfl⟩

/-- A turn of the loop. -/
theorem Accounts.turn {n : ℕ} (h : Accounts interactive as s ms)
    (hstep : s.turn interactive n true = some t) : ∃ ms', Accounts interactive as t ms' := by
  rw [StdinRelay.turn] at hstep
  split_ifs at hstep with hended hdone hstdin hn hstdinEnded hinteractive
  · obtain rfl := Option.some.inj hstep
    exact ⟨ms, h.leave (by simpa using hended) (.inl hdone)⟩
  · obtain rfl := Option.some.inj hstep
    exact ⟨_, h.read (by simpa using hended) hn.2.1⟩
  · obtain rfl := Option.some.inj hstep
    exact ⟨ms, h.leave (by simpa using hended) (.inr ⟨by simpa using hstdin, hstdinEnded⟩)⟩
  · subst hinteractive
    exact h.onResize (by simpa using hended) hstep

/-- Nothing comes in. -/
theorem Accounts.silent {a : Action} (h : Accounts interactive as s ms) (hinput : a.input = [])
    (hsizes : a.sizes = []) : Accounts interactive (as ++ [a]) s ms where
  sent := h.sent
  loops := h.loops
  input := by rw [inputOf_snoc, hinput, List.append_nil, h.input]
  sizes := by
    rw [sizesOf_snoc, hsizes, List.append_nil]
    exact h.sizes
  stops := h.stops

/-- Every step keeps the account, as long as writing succeeds. -/
theorem Accounts.step {a : Action} (h : Accounts interactive as s ms) (ha : ∀ n, a ≠ .turn n false)
    (hstep : s.step interactive a = some t) : ∃ ms', Accounts interactive (as ++ [a]) t ms' := by
  cases a with
  | finishes =>
    obtain rfl := Option.some.inj hstep
    have hdone : Accounts interactive as { s with done := true } ms :=
      ⟨h.sent, h.loops, h.input, h.sizes, fun _ => .inl rfl⟩
    exact ⟨ms, hdone.silent rfl rfl⟩
  | inputs bs =>
    obtain ⟨hopen, hstep⟩ := Option.ite_none_left_eq_some.mp hstep
    obtain rfl := Option.some.inj hstep
    refine ⟨ms, h.sent, h.loops, ?_, ?_, fun hended => ?_⟩
    · show dataOf ms ++ (s.stdin ++ bs) = _
      rw [inputOf_snoc, ← h.input, List.append_assoc]
      rfl
    · rw [sizesOf_snoc]
      simpa [Action.sizes] using h.sizes
    · exact (h.stops hended).imp_right fun hstdin => absurd hstdin.2 hopen
  | inputEnds =>
    obtain rfl := Option.some.inj hstep
    have hclosed : Accounts interactive as { s with stdinEnded := true } ms :=
      ⟨h.sent, h.loops, h.input, h.sizes, fun hended => (h.stops hended).imp_right fun hstdin =>
        ⟨hstdin.1, rfl⟩⟩
    exact ⟨ms, hclosed.silent rfl rfl⟩
  | resizes size =>
    simp only [StdinRelay.step] at hstep
    split at hstep
    case h_1 sizes hresize =>
      obtain rfl := Option.some.inj hstep
      obtain ⟨known, hknown, happend⟩ := h.sizes
      refine ⟨ms, h.sent, h.loops, ?_, ⟨known, hknown, ?_⟩, h.stops⟩
      · rw [inputOf_snoc]
        simpa [Action.input] using h.input
      · rw [hresize] at happend
        rw [sizesOf_snoc, ← happend, List.append_assoc]
        rfl
    case h_2 => cases hstep
  | resizeEnds =>
    simp only [StdinRelay.step] at hstep
    split at hstep
    case h_1 sizes hresize =>
      obtain rfl := Option.some.inj hstep
      have hlast : Accounts interactive as { s with resize := .last sizes } ms :=
        h.quiet (by rw [hresize]; rfl)
      exact ⟨ms, hlast.silent rfl rfl⟩
    case h_2 => cases hstep
  | turn n ok =>
    cases ok with
    | false => exact absurd rfl (ha n)
    | true =>
      obtain ⟨ms', h'⟩ := h.turn hstep
      exact ⟨ms', h'.silent rfl rfl⟩

/-- **A run.** -/
theorem accounts_exec (h : Accounts interactive as s ms) (hbs : ∀ n, .turn n false ∉ bs)
    (hexec : (machine interactive).exec s bs = some t) :
    ∃ ms', Accounts interactive (as ++ bs) t ms' := by
  induction bs generalizing as s ms with
  | nil =>
    obtain rfl := Option.some.inj hexec
    exact ⟨ms, by rwa [List.append_nil]⟩
  | cons a bs ih =>
    obtain ⟨u, hstep, hexec⟩ := Option.bind_eq_some_iff.mp hexec
    obtain ⟨ms', h'⟩ := h.step (fun n heq => hbs n (heq ▸ List.mem_cons_self)) hstep
    have hrest := ih h' (fun n hmem => hbs n (List.mem_cons_of_mem a hmem)) hexec
    rwa [List.append_assoc] at hrest

/-- At the start nothing has come in. -/
theorem accounts_init (interactive : Bool) : Accounts interactive [] {} [] where
  sent := rfl
  loops _ hm := absurd hm List.not_mem_nil
  input := rfl
  sizes := ⟨[], rfl, rfl⟩
  stops hended := absurd hended Bool.false_ne_true

/-! ## What arrives

The messages are given to the relay of the server, of which it is known what it does with a
sequence of messages. -/

/-- The server can read it. -/
theorem Loops.complete {m : ChannelMessage} (h : Loops interactive m) : m.Complete := by
  cases h with
  | data h => exact complete_data (lt_of_le_of_lt h (by decide))
  | resize size =>
    exact complete_request (.windowChange _) false ⟨List.forall_mem_nil _, List.forall_mem_nil _⟩

/-- The server goes on reading, if it has a terminal for the sizes. -/
theorem Loops.goes_on {mode : Mode} (hmode : interactive = true → mode = .pty) {m : ChannelMessage}
    (h : Loops interactive m) : ends mode m = false := by
  cases h with
  | data h => rfl
  | resize size hinteractive =>
    rw [hmode hinteractive]
    rfl

/-- It is no extended data. -/
theorem Loops.not_undrained {m : ChannelMessage} (h : Loops interactive m) : ¬ Undrained m := by
  rintro ⟨dataType, bytes, rfl, -⟩
  cases h

/-- The client sends no signals. -/
theorem signalsOf_eq_nil (h : ∀ m ∈ ms, Loops interactive m) : signalsOf ms = [] := by
  refine List.filterMap_eq_nil_iff.mpr fun m hm => ?_
  cases h m hm <;> rfl

/-- The relay ends at EOF, and not before. -/
theorem relayed_farewell {mode : Mode} (hmode : interactive = true → mode = .pty)
    (h : ∀ m ∈ ms, Loops interactive m) (s : StdinRelay) :
    relayed mode (ms ++ s.farewell) = ms := by
  have hall : ∀ m ∈ ms, (!ends mode m) = true := fun m hm => by rw [(h m hm).goes_on hmode]; rfl
  rw [relayed, List.takeWhile_append_of_pos hall, farewell]
  split
  · rw [List.takeWhile_cons_of_neg (by rw [ends]; exact Bool.false_ne_true), List.append_nil]
  · rw [List.takeWhile_nil, List.append_nil]

/-- What is sent is complete, so that the server can read all of it. -/
theorem Accounts.complete (h : Accounts interactive as s ms) : ∀ m ∈ s.sent, m.Complete := by
  rw [h.sent]
  refine List.forall_mem_append.mpr ⟨fun _ hm => (h.loops _ hm).complete, fun m hm => ?_⟩
  rw [farewell] at hm
  split at hm
  · rcases List.mem_pair.mp hm with rfl | rfl <;> exact ⟨trivial, by simp⟩
  · cases hm

/-- **What is sent is what arrives.** -/
theorem Accounts.arrives {mode : Mode} (hmode : interactive = true → mode = .pty)
    (h : Accounts interactive as s ms) :
    ∃ rest, relayInput mode (stream s.sent) = some (⟨dataOf ms, [], resizesOf ms⟩, rest) := by
  have hrelayed : relayed mode s.sent = ms := by rw [h.sent, relayed_farewell hmode h.loops]
  have hdrained : ∀ m ∈ relayed mode s.sent, ¬ Undrained m := fun m hm =>
    (h.loops m (hrelayed ▸ hm)).not_undrained
  obtain ⟨⟨rest, hrun⟩, -⟩ := run_relayed h.complete hdrained {}
  rw [hrelayed, foldl_next, signalsOf_eq_nil h.loops] at hrun
  exact ⟨rest, hrun⟩

/-- **The input is delivered.** In every run of the client's relay in which no write fails, the
server's relay gives the process exactly what the client has read of its input, and the terminal
exactly the sizes it has learned of; and a client that is not told to stop stops behind the end of
its input. -/
theorem stdin_delivered {mode : Mode} (hmode : interactive = true → mode = .pty)
    (has : ∀ n, .turn n false ∉ as) (h : (machine interactive).exec {} as = some s) :
    ∃ input sizes rest,
      relayInput mode (stream s.sent) = some (⟨input, [], List.map resizeOf sizes⟩, rest) ∧
        input ++ s.stdin = inputOf as ∧ sizes ++ s.resize.pending = sizesOf as ∧
        (s.ended = true → s.done = false → input = inputOf as) := by
  obtain ⟨ms, haccounts⟩ := accounts_exec (accounts_init interactive) has h
  obtain ⟨sizes, hsizes, happend⟩ := haccounts.sizes
  obtain ⟨rest, hrelay⟩ := haccounts.arrives hmode
  rw [hsizes] at hrelay
  refine ⟨dataOf ms, sizes, rest, hrelay, haccounts.input, happend, fun hended hdone => ?_⟩
  obtain ⟨hstdin, -⟩ :=
    (haccounts.stops hended).resolve_left (by rw [hdone]; exact Bool.false_ne_true)
  rw [← List.append_nil (dataOf ms), ← hstdin]
  exact haccounts.input

/-- Two reads with a change of the size in between, and the end of the input. -/
def typing : List Action :=
  [.inputs [1, 2, 3], .turn 2 true, .turn 1 true, .resizes (80, 24), .turn 0 true,
    .inputs [4], .turn 1 true,
    .inputEnds, .turn 0 true]

/-- The process has all four bytes, and its terminal the size. -/
theorem typing_delivered :
    ∃ s input sizes rest, (machine true).exec {} typing = some s ∧
      relayInput .pty (stream s.sent) = some (⟨input, [], List.map resizeOf sizes⟩, rest) ∧
        input ++ s.stdin = [1, 2, 3, 4] ∧ sizes ++ s.resize.pending = [(80, 24)] ∧
        (s.ended = true → s.done = false → input = [1, 2, 3, 4]) := by
  obtain ⟨s, hexec⟩ := Option.isSome_iff_exists.mp
    (show ((machine true).exec {} typing).isSome = true by decide)
  obtain ⟨input, sizes, rest, hrelay, hinput, hsizes, hend⟩ :=
    stdin_delivered (fun _ => (rfl : Mode.pty = .pty)) (by simp [typing]) hexec
  exact ⟨s, input, sizes, rest, hexec, hrelay, hinput, hsizes, hend⟩

end StdinRelay

end Dssh
