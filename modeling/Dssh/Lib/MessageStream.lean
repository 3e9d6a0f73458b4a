import Mathlib.Data.List.Basic
import Mathlib.Logic.Function.Basic

/-!
# Streams of messages

Agents take turns to write messages to one buffered stream. A message is started, handed over to
the buffer piece by piece while the buffer drains onto the stream, and finished when all of it
is on the stream; or its writer gives it up somewhere in between, which breaks the stream if
part of the message is missing.

The stream does not exclude anything by itself: `Inv.step` asks that a message is started only
while nobody else writes and the stream is not broken, and shows that then the stream is whole
messages followed by at most one incomplete one.

## Three places for a byte

A message that is being written is spread over three places: a first part is on the stream, the
next is in the buffer, and the last is still with its writer. The invariant is the equation
between what the three hold together and the messages that have been started (`Inv.of_some`). It
is stated in bytes, and says nothing about where a message ends; this is recovered from the
bytes in `take_complete`, once, rather than being tracked through every step.

Giving up is harmless at two points: before anything was handed over, and after everything has
reached the stream. In between it leaves a hole. `broken` becomes true exactly if something is
missing, either with the writer or in the buffer: a writer that is dropped while it flushes has
written its message, but what is still in the buffer will not be pushed by anybody.

## What exclusion buys

`Step` allows any agent to start a message at any time, and two that do so mix their bytes. The
hypotheses of `Inv.step` are what the exclusion is for, and they are stated as little as can be:
nobody else has something to write while an agent does, and nobody starts on a broken stream.
How a program arranges this, with a lock, with tickets, with a flag, is not this module's
concern.

## Main definitions

* `MessageStream`, `MessageStream.Step` — the stream, and what one agent can do
* `MessageStream.Inv` — the accounting of the bytes
* `MessageStream.complete` — how many messages are complete on the stream

## Main results

* `MessageStream.Inv.step` — the accounting of the bytes is kept by every step
* `MessageStream.Inv.unwritten_eq_none` — nobody writes to a broken stream
* `MessageStream.take_complete` — a prefix of the messages' bytes is some whole messages and a
  proper prefix of the next one
-/

/-! ## The accounting

Every byte of a message that has been started is on the stream, in the buffer, or still with the
agent that writes it; on a broken stream, what is missing is lost. A message may be started only
while nobody is writing; how agents achieve this is not the business of the stream. -/

/-- A stream of messages over the alphabet `β`. -/
structure MessageStream (β : Type*) where
  /-- The messages started so far. -/
  started : List (List β)
  /-- What has been handed over and is not on the stream yet. -/
  buffer : List β
  /-- What is on the stream. -/
  sent : List β
  /-- A message was given up with part of it missing. -/
  broken : Bool

namespace MessageStream

variable {β ι : Type*}

/-- What an agent can do to the stream and to what it still has to write, `none` if it is not
writing. -/
inductive Step (c : MessageStream β) :
    Option (List β) → MessageStream β → Option (List β) → Prop
  /-- It does something else. -/
  | idle : Step c none c none
  /-- It starts a message. -/
  | start (m : List β) : Step c none { c with started := c.started ++ [m] } (some m)
  /-- It hands some of it over. -/
  | write {r : List β} {n : ℕ} :
      Step c (some r) { c with buffer := c.buffer ++ r.take n } (some (r.drop n))
  /-- Some of the buffer gets onto the stream. -/
  | push {r : List β} {n : ℕ} :
      Step c (some r) { c with sent := c.sent ++ c.buffer.take n, buffer := c.buffer.drop n }
        (some r)
  /-- All of the message is on the stream. -/
  | finish (hbuffer : c.buffer = []) : Step c (some []) c none
  /-- It gives up, which breaks the stream if something is missing. -/
  | abandon {r : List β} :
      Step c (some r) { c with broken := c.broken || !(r.isEmpty && c.buffer.isEmpty) } none

/-- The accounting of the bytes. -/
structure Inv (c : MessageStream β) (unwritten : ι → Option (List β)) : Prop where
  /-- What has been handed over is a prefix of the messages started. -/
  sent_prefix : c.sent ++ c.buffer <+: c.started.flatten
  /-- What a writer still has to write is what is missing of them, on a stream that is whole. -/
  of_some : ∀ {i r}, unwritten i = some r →
    c.broken = false ∧ c.sent ++ c.buffer ++ r = c.started.flatten
  /-- If nobody writes, nothing is missing, on a stream that is whole. -/
  of_none : (∀ i, unwritten i = none) → c.broken = false →
    c.sent = c.started.flatten ∧ c.buffer = []

namespace Inv

variable {c c' : MessageStream β} {unwritten : ι → Option (List β)} {r' : Option (List β)} {i : ι}

theorem init : Inv (ι := ι) (⟨[], [], [], false⟩ : MessageStream β) fun _ => none where
  sent_prefix := List.prefix_rfl
  of_some h := by cases h
  of_none _ _ := ⟨rfl, rfl⟩

/-- **Nobody writes to a broken stream.** -/
theorem unwritten_eq_none (hI : Inv c unwritten) (hbroken : c.broken = true) (i : ι) :
    unwritten i = none := by
  cases h : unwritten i with
  | none => rfl
  | some r =>
    rw [(hI.of_some h).1] at hbroken
    cases hbroken

variable [DecidableEq ι]

/-- Nobody but the agent that steps has anything to write. -/
private theorem update_eq_some {j : ι} {r : List β} (hone : ∀ j ≠ i, unwritten j = none)
    (h : Function.update unwritten i r' j = some r) : r' = some r := by
  by_cases hj : j = i
  · subst hj
    simpa using h
  · rw [Function.update_of_ne hj, hone j hj] at h
    cases h

/-- **Every step keeps the accounting.** A message may be started only when nobody writes and the
stream is not broken; and nobody else writes while one agent does. -/
theorem step (hI : Inv c unwritten) (h : Step c (unwritten i) c' r')
    (hone : (unwritten i).isSome ∨ r'.isSome → ∀ j ≠ i, unwritten j = none)
    (hstart : unwritten i = none → r'.isSome → c.broken = false) :
    Inv c' (Function.update unwritten i r') := by
  generalize hi : unwritten i = r at h hone hstart
  cases h with
  | idle => rwa [← hi, Function.update_eq_self]
  | start m =>
    have hothers := hone (Or.inr rfl)
    have hall : ∀ j, unwritten j = none := fun j => by
      by_cases hj : j = i
      · rw [hj, hi]
      · exact hothers j hj
    have hbroken := hstart rfl rfl
    obtain ⟨hsent, hbuffer⟩ := hI.of_none hall hbroken
    refine ⟨?_, fun hj => ?_, fun hnone => absurd (hnone i) (by simp)⟩
    · simp [hsent, hbuffer]
    · obtain rfl := Option.some.inj (update_eq_some hothers hj)
      exact ⟨hbroken, by simp [hsent, hbuffer]⟩
  | @write r n =>
    obtain ⟨hbroken, htotal⟩ := hI.of_some hi
    have heq : c.sent ++ (c.buffer ++ r.take n) ++ r.drop n = c.started.flatten := by
      rw [← htotal]
      simp
    refine ⟨⟨r.drop n, heq⟩, fun hj => ?_, fun hnone => absurd (hnone i) (by simp)⟩
    obtain rfl := Option.some.inj (update_eq_some (hone (Or.inl rfl)) hj)
    exact ⟨hbroken, heq⟩
  | @push r n =>
    obtain ⟨hbroken, htotal⟩ := hI.of_some hi
    have heq : c.sent ++ c.buffer.take n ++ c.buffer.drop n = c.sent ++ c.buffer := by simp
    refine ⟨?_, fun hj => ?_, fun hnone => absurd (hnone i) (by simp)⟩
    · change c.sent ++ c.buffer.take n ++ c.buffer.drop n <+: _
      exact heq ▸ hI.sent_prefix
    · obtain rfl := Option.some.inj (update_eq_some (hone (Or.inl rfl)) hj)
      refine ⟨hbroken, ?_⟩
      change c.sent ++ c.buffer.take n ++ c.buffer.drop n ++ _ = _
      rw [heq, htotal]
  | finish hbuffer =>
    obtain ⟨-, htotal⟩ := hI.of_some hi
    refine ⟨hI.sent_prefix, fun hj => ?_, fun _ _ => ⟨?_, hbuffer⟩⟩
    · cases update_eq_some (hone (Or.inl rfl)) hj
    · simpa [hbuffer] using htotal
  | @abandon r =>
    obtain ⟨-, htotal⟩ := hI.of_some hi
    refine ⟨hI.sent_prefix, fun hj => ?_, fun _ hbroken => ?_⟩
    · cases update_eq_some (hone (Or.inl rfl)) hj
    · -- not broken by this: nothing was missing
      have hempty : (r.isEmpty && c.buffer.isEmpty) = true := by
        cases hb : (r.isEmpty && c.buffer.isEmpty) with
        | true => rfl
        | false => simp [hb] at hbroken
      obtain ⟨hr, hbuffer⟩ := Bool.and_eq_true_iff.mp hempty
      rw [List.isEmpty_iff] at hr hbuffer
      exact ⟨by simpa [hr, hbuffer] using htotal, hbuffer⟩

end Inv

/-- While nobody writes, nothing gets into the buffer or onto the stream. -/
theorem Step.eq_of_none {c c' : MessageStream β} {r' : Option (List β)} (h : Step c none c' r') :
    c'.sent = c.sent ∧ c'.buffer = c.buffer ∧ c'.broken = c.broken := by
  cases h <;> exact ⟨rfl, rfl, rfl⟩

/-! ## Whole messages

What follows for a reader of the stream. A beginning of the bytes of some messages is the first
of these, whole, and a part of the next, and it is the only way of reading it so. -/

/-- How many of the messages are complete within their first `n` bytes. -/
def complete : List (List β) → ℕ → ℕ
  | [], _ => 0
  | m :: ms, n => if m.length ≤ n then complete ms (n - m.length) + 1 else 0

/-- More messages, and more bytes of them: no fewer are complete. -/
theorem complete_mono {ms ms' : List (List β)} {n n' : ℕ} (h : ms <+: ms') (hn : n ≤ n') :
    complete ms n ≤ complete ms' n' := by
  induction ms generalizing ms' n n' with
  | nil => exact Nat.zero_le _
  | cons m ms ih =>
    obtain ⟨more, rfl⟩ := h
    rw [List.cons_append, complete, complete]
    split_ifs with hm hm'
    · exact Nat.succ_le_succ (ih (List.prefix_append _ _) (by omega))
    · omega
    · exact Nat.zero_le _
    · exact Nat.zero_le _

/-- **Whole messages, then at most one incomplete.** A prefix of the bytes of some messages consists
of the first of them and a proper prefix of the next one. -/
theorem take_complete {ms : List (List β)} {bs : List β} (h : bs <+: ms.flatten) :
    ∃ part, bs = (ms.take (complete ms bs.length)).flatten ++ part ∧
      (part = [] ∨ ∃ m, ms[complete ms bs.length]? = some m ∧ part <+: m ∧ part ≠ m) := by
  induction ms generalizing bs with
  | nil => exact ⟨[], by simpa [complete] using h, Or.inl rfl⟩
  | cons m ms ih =>
    rw [List.flatten_cons] at h
    rw [complete]
    split_ifs with hle
    · obtain ⟨bs, rfl⟩ : m <+: bs :=
        List.prefix_of_prefix_length_le (List.prefix_append _ _) h hle
      obtain ⟨part, hbs, hpart⟩ := ih ((List.prefix_append_right_inj m).mp h)
      rw [List.length_append, Nat.add_sub_cancel_left]
      exact ⟨part, by rw [List.take_succ_cons, List.flatten_cons, List.append_assoc, ← hbs],
        by simpa using hpart⟩
    · refine ⟨bs, by simp, Or.inr ⟨m, rfl, ?_, ?_⟩⟩
      · exact List.prefix_of_prefix_length_le h (List.prefix_append _ _) (by omega)
      · rintro rfl
        exact hle (Nat.le_refl _)

end MessageStream
