import Mathlib.Data.List.Basic

/-!
# Resumable byte decoders

A decoder of a byte stream, as an asynchronous program sees it: it is finished, has failed, or
waits for one more byte. A `Decoder` is the tree of those possibilities, so it is both the
decoding function and the state of a decode in progress — a suspended decode *is* the subtree it
is at.

Three things that a function `List UInt8 → Option (α × List UInt8)` has to be told separately
are part of the type:

* a decoder never looks at a byte it does not consume, and how the transport splits the stream
  into reads cannot matter;
* it can be abandoned after any byte, and the bytes consumed until then are known;
* each `read` names the error that an I/O error or the end of the stream becomes *there*, which
  is what wrapping every `read` of a program in its own error context amounts to.

## Why a tree

The asynchronous decoders that this is for are written as sequences of awaited reads, each with
its own error context, and a task that runs one can be dropped at any of its awaits. A function
on whole inputs describes what such a decoder returns, but not where it stands when it is
dropped, and not that it has left the bytes behind the message untouched. Both matter: what a
dropped decode has consumed is gone from the stream, and what an over-eager one would consume
belongs to the next message.

The alternative would be a state machine for each decoder, with a step for each byte and a proof
that it computes the function. The tree is that machine, for all decoders at once; `bind`
composes it, so the decoders are written in `do` notation as the source writes them.

## One byte at a time

`read` asks for a single byte, also where the source asks for a buffer of `n` with `read_exact`.
This is no loss. A buffer that is filled in several reads is filled byte by byte, an end of the
stream in the middle of it is reported as the error of that one call, and `bytes` gives all its
bytes that error.

Buffers are therefore lists, and nothing here bounds them; a program's limits on the lengths it
accepts are branches of its decoders.

## Four ways to run one

* `after` consumes some bytes and gives what is left of the *decoder*, `none` if it stops before
  their end. All the algebra is about this one.
* `run` decodes from the front of a stream that then ends, and gives the result and what is left
  of the *stream*.
* `outcome` is `run`, with what a failure leaves as well.
* `feed` and `reads` decode what has arrived, in one or several reads, with more to come.

They agree in the evident sense, and the lemmas say so by way of `after`: a run that returns has
consumed what the decoder accepts and left the rest (`run_eq_ok`), and the division into reads
does not matter (`reads_eq`).

## Prefix-freeness

`after_halted_unique` is what a stream of messages rests on. Of one stream, a decoder that comes
to its end has consumed one prefix and no other, so two descriptions of "the message in front"
are the same. Unlike the usual prefix-freeness of a code it is not a property to be proved for
each decoder; it holds of all of them, since none looks ahead.

## Main definitions

* `Decoder` — the decoders, a monad
* `Decoder.mapError` — put a decoder into an error context
* `Decoder.after` — the decoder that is left after consuming some bytes
* `Decoder.Accepts` — the bytes are consumed exactly, with a result
* `Decoder.Refuses` — the decoder fails somewhere in the bytes
* `Decoder.run`, `Decoder.outcome`, `Decoder.feed`, `Decoder.reads` — decoding a stream

## Main results

* `Decoder.Accepts.bind` — sequencing decoders concatenates what they accept
* `Decoder.after_bind_cases` — and conversely, where a sequenced decode can stand
* `Decoder.after_halted_unique` — of one stream, a decoder consumes one prefix and no other
* `Decoder.run_eq_ok` — what a run returns and leaves
* `Decoder.reads_eq` — how the stream is divided into reads does not matter
-/

/-! ## Trees of reads

A decoder is done, has failed, or waits for one byte, with an error for the case that there is
none. The monad is substitution at the leaves. Nothing else is assumed of decoders: all lemmas of
this module are about arbitrary trees. -/

/-- A decoder with errors in `ε` and results in `α`. -/
inductive Decoder (ε α : Type) where
  /-- Finished with a result. -/
  | done (a : α)
  /-- Failed. -/
  | fail (e : ε)
  /-- Waiting for a byte; an I/O error at this point is reported as `io`. -/
  | read (io : ε) (k : UInt8 → Decoder ε α)

namespace Decoder

variable {ε ε' α β : Type}

/-- Run a decoder and continue with its result. -/
def bind : Decoder ε α → (α → Decoder ε β) → Decoder ε β
  | done a, f => f a
  | fail e, _ => fail e
  | read io k, f => read io fun b => (k b).bind f

instance : Monad (Decoder ε) where
  pure := done
  bind := bind

@[simp] theorem pure_eq (a : α) : (pure a : Decoder ε α) = done a := rfl

@[simp] theorem bind_eq (d : Decoder ε α) (f : α → Decoder ε β) : d >>= f = d.bind f := rfl

@[simp] theorem done_bind (a : α) (f : α → Decoder ε β) : (done a : Decoder ε α).bind f = f a := rfl

@[simp] theorem fail_bind (e : ε) (f : α → Decoder ε β) :
    (fail e : Decoder ε α).bind f = fail e := rfl

/-- Sequencing is associative. -/
theorem bind_assoc {γ : Type} (d : Decoder ε α) (f : α → Decoder ε β) (g : β → Decoder ε γ) :
    (d.bind f).bind g = d.bind fun a => (f a).bind g := by
  induction d with
  | done a => rfl
  | fail e => rfl
  | read io k ih => simp only [bind, ih]

/-- Put a decoder into an error context, which wraps its own errors and its I/O errors alike. -/
def mapError (f : ε → ε') : Decoder ε α → Decoder ε' α
  | done a => done a
  | fail e => fail (f e)
  | read io k => read (f io) fun b => (k b).mapError f

/-- Read one byte. -/
def byte (io : ε) : Decoder ε UInt8 := read io done

/-- Read exactly `n` bytes. -/
def bytes (io : ε) : ℕ → Decoder ε (List UInt8)
  | 0 => done []
  | n + 1 => read io fun b => (bytes io n).bind fun bs => done (b :: bs)

/-! ## Consuming bytes

`after` is the state of a decoder that has been given some bytes, and it is `none` if the decoder
has stopped before the last of them. Two results come from it: which bytes are consumed does not
depend on what follows, and a stream cannot be consumed to the end in two ways. -/

/-- What is left of a decoder after it has consumed `bs`; `none` if it stops before their end. -/
def after : Decoder ε α → List UInt8 → Option (Decoder ε α)
  | d, [] => some d
  | read _ k, b :: bs => (k b).after bs
  | done _, _ :: _ => none
  | fail _, _ :: _ => none

/-- `d` consumes exactly `bs` and returns `a`. -/
def Accepts (d : Decoder ε α) (bs : List UInt8) (a : α) : Prop := d.after bs = some (done a)

/-- A decoder that asks for no further byte. -/
def Halted : Decoder ε α → Prop
  | read _ _ => False
  | _ => True

@[simp] theorem halted_done (a : α) : (done a : Decoder ε α).Halted := trivial

@[simp] theorem halted_fail (e : ε) : (fail e : Decoder ε α).Halted := trivial

@[simp] theorem after_nil (d : Decoder ε α) : d.after [] = some d := by cases d <;> rfl

@[simp] theorem after_read_cons (io : ε) (k : UInt8 → Decoder ε α) (b : UInt8) (bs : List UInt8) :
    (read io k).after (b :: bs) = (k b).after bs := rfl

/-- Consuming one stretch behind another. -/
theorem after_append (d : Decoder ε α) (xs ys : List UInt8) :
    d.after (xs ++ ys) = (d.after xs).bind (·.after ys) := by
  induction xs generalizing d with
  | nil => simp
  | cons x xs ih => cases d with
    | read io k => exact ih (k x)
    | done a => rfl
    | fail e => rfl

/-- Consuming one byte more. -/
theorem after_snoc {d : Decoder ε α} {xs : List UInt8} {io : ε} {k : UInt8 → Decoder ε α}
    (h : d.after xs = some (read io k)) (b : UInt8) : d.after (xs ++ [b]) = some (k b) := by
  simp [after_append, h]

/-- A halted decoder consumes nothing. -/
theorem Halted.eq_nil {d d' : Decoder ε α} (hd : d.Halted) {bs : List UInt8}
    (h : d.after bs = some d') : bs = [] := by
  cases bs with
  | nil => rfl
  | cons b bs => cases d with
    | read io k => exact hd.elim
    | done a => cases h
    | fail e => cases h

/-- **Prefix-freeness.** Two ways of running a decoder to its end on one stream are the same. -/
theorem after_halted_unique {d r r' : Decoder ε α} {xs ys us vs : List UInt8}
    (hx : d.after xs = some r) (hr : r.Halted) (hy : d.after ys = some r') (hr' : r'.Halted)
    (h : xs ++ us = ys ++ vs) : xs = ys ∧ r = r' := by
  have key : ∀ {xs ys : List UInt8} {r r' : Decoder ε α}, d.after xs = some r → r.Halted →
      d.after ys = some r' → (∃ zs, ys = xs ++ zs) → xs = ys ∧ r = r' := by
    rintro xs _ r r' hx hr hy ⟨zs, rfl⟩
    rw [after_append, hx, Option.bind_some] at hy
    obtain rfl := hr.eq_nil hy
    simpa using hy
  rcases List.append_eq_append_iff.mp h with ⟨zs, hzs, -⟩ | ⟨zs, hzs, -⟩
  · exact key hx hr hy ⟨zs, hzs⟩
  · obtain ⟨h₁, h₂⟩ := key hy hr' hx ⟨zs, hzs⟩
    exact ⟨h₁.symm, h₂.symm⟩

/-- So there is one result, and one rest of the stream. -/
theorem Accepts.unique {d : Decoder ε α} {xs ys us vs : List UInt8} {a b : α}
    (hx : d.Accepts xs a) (hy : d.Accepts ys b) (h : xs ++ us = ys ++ vs) :
    xs = ys ∧ a = b ∧ us = vs := by
  obtain ⟨rfl, heq⟩ := after_halted_unique hx (halted_done a) hy (halted_done b) h
  cases heq
  exact ⟨rfl, rfl, List.append_cancel_left h⟩

/-- While a decoder runs on a stream, what it has consumed is part of what it consumes to its
end. -/
theorem isPrefix_of_after {d r r' : Decoder ε α} {xs ys us vs : List UInt8}
    (hx : d.after xs = some r) (hy : d.after ys = some r') (hr' : r'.Halted)
    (h : xs ++ us = ys ++ vs) : xs <+: ys := by
  rcases List.append_eq_append_iff.mp h with ⟨zs, rfl, -⟩ | ⟨zs, rfl, -⟩
  · exact List.prefix_append _ _
  · rw [after_append, hy, Option.bind_some] at hx
    have hnil : zs = [] := hr'.eq_nil hx
    simp only [hnil, List.append_nil, List.prefix_rfl]

/-! ## Sequencing

What a sequence accepts is what the first part accepts followed by what the second accepts. This
is shown in both directions: from left to right a codec is read field by field, and from right to
left it is known what is in a message that has been read. -/

/-- A sequence follows its first part. -/
theorem after_bind {d d' : Decoder ε α} {xs : List UInt8} (h : d.after xs = some d')
    (f : α → Decoder ε β) : (d.bind f).after xs = some (d'.bind f) := by
  induction xs generalizing d with
  | nil => simp only [after_nil, Option.some.injEq] at h ⊢; rw [h]
  | cons x xs ih => cases d with
    | read io k => exact ih h
    | done a => cases h
    | fail e => cases h

/-- **Sequencing.** If `d` accepts `x` and its continuation accepts `y`, the sequence accepts
`x ++ y`. -/
theorem Accepts.bind {d : Decoder ε α} {x y : List UInt8} {a : α} {f : α → Decoder ε β} {b : β}
    (hd : d.Accepts x a) (hf : (f a).Accepts y b) : (d.bind f).Accepts (x ++ y) b := by
  rw [Accepts, after_append, after_bind hd, Option.bind_some, done_bind]
  exact hf

/-- A continuation that reads nothing. -/
theorem Accepts.bind_done {d : Decoder ε α} {x : List UInt8} {a : α} {f : α → Decoder ε β} {b : β}
    (hd : d.Accepts x a) (hf : f a = done b) : (d.bind f).Accepts x b := by
  rw [Accepts, after_bind hd, done_bind, hf]

/-- Where a sequenced decode stands: still in its first part, or past it. -/
theorem after_bind_cases {d : Decoder ε α} {f : α → Decoder ε β} {zs : List UInt8}
    {r : Decoder ε β} (h : (d.bind f).after zs = some r) :
    (∃ d', d.after zs = some d' ∧ r = d'.bind f ∧ ∀ a, d' ≠ done a) ∨
      ∃ xs ys a, zs = xs ++ ys ∧ d.Accepts xs a ∧ (f a).after ys = some r := by
  induction zs generalizing d with
  | nil =>
    simp only [after_nil, Option.some.injEq] at h
    cases d with
    | done a => exact Or.inr ⟨[], [], a, rfl, rfl, by simpa using h⟩
    | fail e => exact Or.inl ⟨_, after_nil _, h.symm, nofun⟩
    | read io k => exact Or.inl ⟨_, after_nil _, h.symm, nofun⟩
  | cons z zs ih => cases d with
    | done a => exact Or.inr ⟨[], z :: zs, a, rfl, rfl, h⟩
    | fail e => cases h
    | read io k =>
      rcases ih (d := k z) h with h' | ⟨xs, ys, a, rfl, hx, hy⟩
      · exact Or.inl h'
      · exact Or.inr ⟨z :: xs, ys, a, rfl, hx, hy⟩

/-- Where a sequence stands once its first part has accepted what is in front. -/
theorem Accepts.after_bind {d : Decoder ε α} {f : α → Decoder ε β} {xs ys : List UInt8} {a : α}
    {r : Decoder ε β} (hd : d.Accepts xs a) (hf : (f a).after ys = some r) :
    (d.bind f).after (xs ++ ys) = some r := by
  rw [after_append, Decoder.after_bind hd, Option.bind_some, done_bind]
  exact hf

/-- What a sequence accepts splits into what its two parts accept. -/
theorem Accepts.of_bind {d : Decoder ε α} {f : α → Decoder ε β} {zs : List UInt8} {b : β}
    (h : (d.bind f).Accepts zs b) :
    ∃ xs ys a, zs = xs ++ ys ∧ d.Accepts xs a ∧ (f a).Accepts ys b := by
  rcases after_bind_cases h with ⟨d', -, hr, hd'⟩ | h'
  · cases d' with
    | done a => exact absurd rfl (hd' a)
    | fail e => cases hr
    | read io k => cases hr
  · exact h'

/-- **Sequencing**, from both sides. -/
theorem accepts_bind_iff {d : Decoder ε α} {f : α → Decoder ε β} {zs : List UInt8} {b : β} :
    (d.bind f).Accepts zs b ↔ ∃ xs ys a, zs = xs ++ ys ∧ d.Accepts xs a ∧ (f a).Accepts ys b := by
  refine ⟨Accepts.of_bind, ?_⟩
  rintro ⟨xs, ys, a, rfl, hd, hf⟩
  exact hd.bind hf

/-- A decoder that is done accepts nothing more. -/
theorem accepts_done_iff {a b : α} {xs : List UInt8} :
    (done a : Decoder ε α).Accepts xs b ↔ xs = [] ∧ a = b := by
  cases xs with
  | nil => simp [Accepts]
  | cons x xs => simp [Accepts, after]

/-- One that has failed accepts nothing at all. -/
theorem not_accepts_fail {e : ε} {b : α} {xs : List UInt8} :
    ¬ (fail e : Decoder ε α).Accepts xs b := by
  cases xs <;> simp [Accepts, after]

/-- A sequence that begins with a byte. -/
theorem accepts_byte_bind_iff {io : ε} {f : UInt8 → Decoder ε α} {zs : List UInt8} {a : α} :
    ((byte io).bind f).Accepts zs a ↔ ∃ b ys, zs = b :: ys ∧ (f b).Accepts ys a := by
  cases zs with
  | nil => simp [Accepts, byte, bind]
  | cons z zs => simp [Accepts, byte, bind]

/-- A decoder that accepts at least one byte is waiting for it. -/
theorem Accepts.cons {d : Decoder ε α} {b : UInt8} {bs : List UInt8} {a : α}
    (h : d.Accepts (b :: bs) a) : ∃ io k, d = read io k ∧ (k b).Accepts bs a := by
  cases d with
  | read io k => exact ⟨io, k, rfl, h⟩
  | done a' => cases h
  | fail e => cases h

/-- A decoder that accepts nothing more is done. -/
theorem Accepts.eq_done {d : Decoder ε α} {a : α} (h : d.Accepts [] a) : d = done a := by
  rw [Accepts, after_nil] at h
  exact Option.some.inj h

/-- An error context changes neither what is consumed … -/
theorem after_mapError (f : ε → ε') (d : Decoder ε α) (bs : List UInt8) :
    (d.mapError f).after bs = (d.after bs).map (mapError f) := by
  induction bs generalizing d with
  | nil => simp
  | cons b bs ih => cases d with
    | read io k => exact ih (k b)
    | done a => rfl
    | fail e => rfl

/-- … nor when the decoder is done … -/
theorem mapError_eq_done {f : ε → ε'} {d : Decoder ε α} {a : α} :
    d.mapError f = done a ↔ d = done a := by
  cases d <;> simp [mapError]

/-- … nor what it accepts. -/
theorem accepts_mapError {f : ε → ε'} {d : Decoder ε α} {bs : List UInt8} {a : α} :
    (d.mapError f).Accepts bs a ↔ d.Accepts bs a := by
  rw [Accepts, after_mapError, Accepts, Option.map_eq_some_iff]
  constructor
  · rintro ⟨d', h, hd'⟩
    rw [h, mapError_eq_done.mp hd']
  · intro h
    exact ⟨_, h, rfl⟩

/-- An error context around a sequence is one around each of its parts. -/
theorem mapError_bind (f : ε → ε') (d : Decoder ε α) (g : α → Decoder ε β) :
    (d.bind g).mapError f = (d.mapError f).bind fun a => (g a).mapError f := by
  induction d with
  | done a => rfl
  | fail e => rfl
  | read io k ih => simp only [bind, mapError, ih]

/-! ## Refusing

A decoder refuses bytes if it fails before their end. What has been refused is refused whatever
follows, and therefore a failure in a message does not depend on where the message ends, which
matters where nobody knows this. -/

/-- `d` fails somewhere in `bs`. -/
def Refuses (d : Decoder ε α) (bs : List UInt8) : Prop :=
  ∃ xs ys e, bs = xs ++ ys ∧ d.after xs = some (fail e)

/-- A sequence refuses what its first part refuses. -/
theorem Refuses.bind {d : Decoder ε α} {xs : List UInt8} (h : d.Refuses xs)
    (f : α → Decoder ε β) : (d.bind f).Refuses xs := by
  obtain ⟨us, vs, e, rfl, hafter⟩ := h
  exact ⟨us, vs, e, rfl, Decoder.after_bind hafter f⟩

/-- What comes behind does not matter. -/
theorem Refuses.append {d : Decoder ε α} {xs : List UInt8} (h : d.Refuses xs) (ys : List UInt8) :
    d.Refuses (xs ++ ys) := by
  obtain ⟨us, vs, e, rfl, hafter⟩ := h
  exact ⟨us, vs ++ ys, e, List.append_assoc _ _ _, hafter⟩

/-- Both together. -/
theorem Refuses.bind_left {d : Decoder ε α} {xs : List UInt8} (h : d.Refuses xs)
    (f : α → Decoder ε β) (ys : List UInt8) : (d.bind f).Refuses (xs ++ ys) :=
  (h.bind f).append ys

/-- It refuses what its second part refuses, behind what the first one accepts. -/
theorem Refuses.bind_right {d : Decoder ε α} {xs ys : List UInt8} {a : α} (h : d.Accepts xs a)
    {f : α → Decoder ε β} (hf : (f a).Refuses ys) : (d.bind f).Refuses (xs ++ ys) := by
  obtain ⟨us, vs, e, rfl, hafter⟩ := hf
  exact ⟨xs ++ us, vs, e, (List.append_assoc _ _ _).symm, h.after_bind hafter⟩

/-- An error context does not make anything acceptable. -/
theorem Refuses.mapError {d : Decoder ε α} {xs : List UInt8} (h : d.Refuses xs) (f : ε → ε') :
    (d.mapError f).Refuses xs := by
  obtain ⟨us, vs, e, rfl, hafter⟩ := h
  exact ⟨us, vs, f e, rfl, by rw [after_mapError, hafter]; rfl⟩

/-! ## Running on a whole stream

A stream that has ended is one more piece of information than the bytes so far: a decoder that
still waits then fails with its I/O error. `run` is for a stream that ends, `feed` for one of
which more may come, and `reads` for one that comes in pieces. The lemmas say when they agree. -/

/-- Decode from the front of a stream that ends after `bs`: the result and what is left. -/
def run : Decoder ε α → List UInt8 → Except ε (α × List UInt8)
  | done a, bs => .ok (a, bs)
  | fail e, _ => .error e
  | read io _, [] => .error io
  | read _ k, b :: bs => (k b).run bs

/-- **What a run consumes.** -/
theorem run_eq_ok {d : Decoder ε α} {bs rest : List UInt8} {a : α} :
    d.run bs = .ok (a, rest) ↔ ∃ xs, bs = xs ++ rest ∧ d.Accepts xs a := by
  induction bs generalizing d with
  | nil => cases d with
    | done a' =>
      simp only [run, Except.ok.injEq, Prod.mk.injEq]
      constructor
      · rintro ⟨rfl, rfl⟩
        exact ⟨[], rfl, rfl⟩
      · rintro ⟨xs, hxs, hacc⟩
        obtain ⟨rfl, rfl⟩ := List.append_eq_nil_iff.mp hxs.symm
        exact ⟨Decoder.done.inj (Option.some.inj hacc), rfl⟩
    | fail e =>
      refine ⟨nofun, ?_⟩
      rintro ⟨xs, hxs, hacc⟩
      obtain ⟨rfl, rfl⟩ := List.append_eq_nil_iff.mp hxs.symm
      cases hacc
    | read io k =>
      refine ⟨nofun, ?_⟩
      rintro ⟨xs, hxs, hacc⟩
      obtain ⟨rfl, rfl⟩ := List.append_eq_nil_iff.mp hxs.symm
      cases hacc
  | cons b bs ih => cases d with
    | done a' =>
      simp only [run, Except.ok.injEq, Prod.mk.injEq]
      constructor
      · rintro ⟨rfl, rfl⟩
        exact ⟨[], rfl, rfl⟩
      · rintro ⟨xs, hxs, hacc⟩
        obtain rfl := Halted.eq_nil (halted_done a') hacc
        exact ⟨Decoder.done.inj (Option.some.inj hacc), hxs⟩
    | fail e =>
      refine ⟨nofun, ?_⟩
      rintro ⟨xs, hxs, hacc⟩
      obtain rfl := Halted.eq_nil (halted_fail e) hacc
      cases hacc
    | read io k =>
      rw [run, ih]
      constructor
      · rintro ⟨xs, rfl, hacc⟩
        exact ⟨b :: xs, rfl, hacc⟩
      · rintro ⟨xs, hxs, hacc⟩
        cases xs with
        | nil => cases hacc
        | cons x xs =>
          obtain ⟨rfl, rfl⟩ := List.cons.inj hxs
          exact ⟨xs, rfl, hacc⟩

/-- What is accepted is decoded, and what follows is left. -/
theorem Accepts.run {d : Decoder ε α} {xs : List UInt8} {a : α} (h : d.Accepts xs a)
    (rest : List UInt8) : d.run (xs ++ rest) = .ok (a, rest) :=
  run_eq_ok.mpr ⟨xs, rfl, h⟩

/-- What is refused is an error, whatever follows. -/
theorem Refuses.run {d : Decoder ε α} {bs : List UInt8} (h : d.Refuses bs) :
    ∃ e, d.run bs = .error e := by
  obtain ⟨us, vs, e, rfl, hafter⟩ := h
  cases hrun : d.run (us ++ vs) with
  | error e => exact ⟨e, rfl⟩
  | ok x =>
    obtain ⟨a, rest⟩ := x
    obtain ⟨xs, hxs, haccepts⟩ := run_eq_ok.mp hrun
    obtain ⟨-, heq⟩ := after_halted_unique hafter (halted_fail e) haccepts (halted_done a) hxs
    cases heq

/-- The result and what is left, also when decoding fails. -/
def outcome : Decoder ε α → List UInt8 → Except ε α × List UInt8
  | done a, bs => (.ok a, bs)
  | fail e, bs => (.error e, bs)
  | read io _, [] => (.error io, [])
  | read _ k, b :: bs => (k b).outcome bs

/-- Decode what has arrived: the decoder that is left, and the bytes that it leaves. -/
def feed : Decoder ε α → List UInt8 → Decoder ε α × List UInt8
  | read _ k, b :: bs => (k b).feed bs
  | d, bs => (d, bs)

/-- A decoder that asks for more has consumed everything. -/
theorem feed_read {d : Decoder ε α} {bs rest : List UInt8} {io : ε} {k : UInt8 → Decoder ε α}
    (h : d.feed bs = (read io k, rest)) : rest = [] := by
  induction bs generalizing d with
  | nil =>
    cases d with
    | read io' k' => exact (Prod.mk.inj h).2.symm
    | done a => cases h
    | fail e => cases h
  | cons b bs ih =>
    cases d with
    | read io' k' => exact ih h
    | done a => cases h
    | fail e => cases h

@[simp] theorem feed_nil (d : Decoder ε α) : d.feed [] = (d, []) := by
  cases d <;> rfl

/-- What arrives first is consumed first. -/
theorem feed_of_after {d d' : Decoder ε α} {xs : List UInt8} (h : d.after xs = some d')
    (rest : List UInt8) : d.feed (xs ++ rest) = d'.feed rest := by
  induction xs generalizing d with
  | nil =>
    rw [after_nil, Option.some.injEq] at h
    rw [h, List.nil_append]
  | cons x xs ih => cases d with
    | read io k => exact ih h
    | done a => cases h
    | fail e => cases h

/-- What is accepted is consumed, and what follows is left. -/
theorem Accepts.feed {d : Decoder ε α} {xs : List UInt8} {a : α} (h : d.Accepts xs a)
    (rest : List UInt8) : d.feed (xs ++ rest) = (done a, rest) := by
  rw [feed_of_after h]
  cases rest <;> rfl

/-- Where a decoder gets to is where it has consumed what it does not leave. -/
theorem exists_after_of_feed {d d' : Decoder ε α} {bs rest : List UInt8}
    (h : d.feed bs = (d', rest)) : ∃ xs, bs = xs ++ rest ∧ d.after xs = some d' := by
  induction bs generalizing d with
  | nil =>
    rw [feed_nil] at h
    obtain ⟨rfl, rfl⟩ := Prod.mk.inj h
    exact ⟨[], rfl, after_nil d⟩
  | cons b bs ih => cases d with
    | read io k =>
      obtain ⟨xs, rfl, hxs⟩ := ih (d := k b) h
      exact ⟨b :: xs, rfl, hxs⟩
    | done a =>
      obtain ⟨rfl, rfl⟩ := Prod.mk.inj h
      exact ⟨[], rfl, rfl⟩
    | fail e =>
      obtain ⟨rfl, rfl⟩ := Prod.mk.inj h
      exact ⟨[], rfl, rfl⟩

/-- A decoder that asks for nothing leaves everything. -/
theorem Halted.feed {d : Decoder ε α} (h : d.Halted) (bs : List UInt8) : d.feed bs = (d, bs) := by
  cases d with
  | read io k => exact False.elim h
  | done a => cases bs <;> rfl
  | fail e => cases bs <;> rfl

/-- A continuation that asks for nothing leaves the stream where the first part has left it. -/
theorem feed_bind_of_halted {d : Decoder ε α} {f : α → Decoder ε β} (hf : ∀ a, (f a).Halted)
    (bs : List UInt8) : (d.bind f).feed bs = ((d.feed bs).1.bind f, (d.feed bs).2) := by
  induction bs generalizing d with
  | nil => simp only [feed_nil]
  | cons b bs ih => cases d with
    | read io k => exact ih (d := k b)
    | done a => exact (hf a).feed (b :: bs)
    | fail e => rfl

/-- Decode one read after the other; what is not consumed is left with all that comes later. -/
def reads : Decoder ε α → List (List UInt8) → Decoder ε α × List UInt8
  | d, [] => (d, [])
  | d, chunk :: chunks =>
    match d.feed chunk with
    | (read io k, _) => reads (read io k) chunks
    | (d', rest) => (d', rest ++ chunks.flatten)

/-- **The reads do not matter.** -/
theorem reads_eq (d : Decoder ε α) (chunks : List (List UInt8)) :
    d.reads chunks = d.feed chunks.flatten := by
  induction chunks generalizing d with
  | nil => rw [reads, List.flatten_nil, feed_nil]
  | cons chunk chunks ih =>
    obtain ⟨d', rest, hfeed⟩ : ∃ d' rest, d.feed chunk = (d', rest) := ⟨_, _, rfl⟩
    obtain ⟨xs, rfl, hxs⟩ := exists_after_of_feed hfeed
    rw [List.flatten_cons, List.append_assoc, feed_of_after hxs]
    simp only [reads, hfeed]
    cases d' with
    | read io k =>
      obtain rfl := feed_read hfeed
      exact ih (read io k)
    | done a => exact ((halted_done a).feed _).symm
    | fail e => exact ((halted_fail e).feed _).symm

/-- What the decoding returns, if it does; `eof` tells whether the stream has ended. -/
def result (eof : Bool) : Decoder ε α → Option (Except ε α)
  | done a => some (.ok a)
  | fail e => some (.error e)
  | read io _ => if eof then some (.error io) else none

/-- **What has been read.** -/
theorem feed_eq_done_iff {d : Decoder ε α} {bs rest : List UInt8} {a : α} :
    d.feed bs = (done a, rest) ↔ ∃ xs, bs = xs ++ rest ∧ d.Accepts xs a := by
  constructor
  · exact exists_after_of_feed
  · rintro ⟨xs, rfl, hxs⟩
    exact hxs.feed rest

/-- The outcome of a decode is that of what is left of it. -/
theorem outcome_of_after {d d' : Decoder ε α} {xs : List UInt8} (h : d.after xs = some d')
    (rest : List UInt8) : d.outcome (xs ++ rest) = d'.outcome rest := by
  induction xs generalizing d with
  | nil =>
    rw [after_nil, Option.some.injEq] at h
    rw [h, List.nil_append]
  | cons x xs ih => cases d with
    | read io k => exact ih h
    | done a => cases h
    | fail e => cases h

/-- The outcome of what is accepted. -/
theorem Accepts.outcome {d : Decoder ε α} {xs : List UInt8} {a : α} (h : d.Accepts xs a)
    (rest : List UInt8) : d.outcome (xs ++ rest) = (.ok a, rest) := by
  rw [outcome_of_after h]
  rfl

/-- The outcome of what is refused. -/
theorem Refuses.outcome {d : Decoder ε α} {xs : List UInt8} (h : d.Refuses xs)
    (rest : List UInt8) : ∃ e rest', d.outcome (xs ++ rest) = (.error e, rest') := by
  obtain ⟨us, vs, e, rfl, hafter⟩ := h
  rw [List.append_assoc, outcome_of_after hafter]
  exact ⟨e, _, rfl⟩

/-- A run is an outcome without what a failure leaves. -/
theorem run_eq_outcome (d : Decoder ε α) (bs : List UInt8) :
    d.run bs = (d.outcome bs).1.map fun a => (a, (d.outcome bs).2) := by
  induction bs generalizing d with
  | nil => cases d <;> rfl
  | cons b bs ih => cases d with
    | read io k => exact ih (k b)
    | done a => rfl
    | fail e => rfl

/-- A decoder only takes away from the stream. -/
theorem length_outcome_le (d : Decoder ε α) (bs : List UInt8) :
    (d.outcome bs).2.length ≤ bs.length := by
  induction bs generalizing d with
  | nil => cases d <;> exact Nat.le_refl _
  | cons b bs ih => cases d with
    | read io k => exact Nat.le_succ_of_le (ih (k b))
    | done a => exact Nat.le_refl _
    | fail e => exact Nat.le_refl _

/-- So what is left is not longer than what there was. -/
theorem length_le_of_outcome {d : Decoder ε α} {bs rest : List UInt8} {r : Except ε α}
    (h : d.outcome bs = (r, rest)) : rest.length ≤ bs.length := by
  have hle := length_outcome_le d bs
  rwa [h] at hle

/-- A decoder that has to read takes something away, if it returns. -/
theorem length_outcome_lt {d : Decoder ε α} (hd : ¬ d.Halted) {bs rest : List UInt8} {a : α}
    (h : d.outcome bs = (.ok a, rest)) : rest.length < bs.length := by
  cases d with
  | read io k => cases bs with
    | nil => cases h
    | cons b bs =>
      have hk : (k b).outcome bs = (.ok a, rest) := h
      exact Nat.lt_succ_of_le (length_le_of_outcome hk)
  | done a => exact absurd trivial hd
  | fail e => exact absurd trivial hd

/-- A run of a sequence is a run of its first part and one of its second, on what is left. -/
theorem run_bind (d : Decoder ε α) (f : α → Decoder ε β) (bs : List UInt8) :
    (d.bind f).run bs = (d.run bs).bind fun x => (f x.1).run x.2 := by
  induction bs generalizing d with
  | nil => cases d <;> rfl
  | cons b bs ih => cases d with
    | read io k => exact ih (k b)
    | done a => rfl
    | fail e => rfl

/-- A run in an error context. -/
theorem run_mapError (f : ε → ε') (d : Decoder ε α) (bs : List UInt8) :
    (d.mapError f).run bs = (d.run bs).mapError f := by
  induction bs generalizing d with
  | nil => cases d <;> rfl
  | cons b bs ih => cases d with
    | read io k => exact ih (k b)
    | done a => rfl
    | fail e => rfl

/-- Once its first part has accepted what is in front, a sequence goes on with the rest. -/
theorem Accepts.run_bind {d : Decoder ε α} {xs : List UInt8} {a : α} (h : d.Accepts xs a)
    (f : α → Decoder ε β) (rest : List UInt8) : (d.bind f).run (xs ++ rest) = (f a).run rest := by
  rw [Decoder.run_bind, h.run]
  rfl

/-- Reading as many bytes as there are gives them. -/
theorem accepts_bytes (io : ε) (bs : List UInt8) : (bytes io bs.length).Accepts bs bs := by
  induction bs with
  | nil => rfl
  | cons b bs ih =>
    change ((bytes io bs.length).bind fun cs => done (b :: cs)).Accepts bs (b :: bs)
    have := Accepts.bind (f := fun cs => done (b :: cs)) ih (b := b :: bs) (y := []) rfl
    simpa using this

/-- Reading `n` bytes accepts any `n` bytes, and nothing else. -/
theorem eq_of_accepts_bytes {io : ε} {n : ℕ} {xs bs : List UInt8}
    (h : (bytes io n).Accepts xs bs) : xs = bs ∧ bs.length = n := by
  induction n generalizing xs bs with
  | zero =>
    obtain rfl := Halted.eq_nil (halted_done _) h
    obtain rfl := Decoder.done.inj (Option.some.inj h)
    exact ⟨rfl, rfl⟩
  | succ n ih => cases xs with
    | nil => cases h
    | cons x xs =>
      obtain ⟨ys, zs, cs, rfl, hy, hz⟩ := Accepts.of_bind (d := bytes io n) h
      obtain ⟨rfl, hlen⟩ := ih hy
      obtain rfl := Halted.eq_nil (halted_done _) hz
      obtain rfl := Decoder.done.inj (Option.some.inj hz)
      exact ⟨by rw [List.append_nil], by rw [List.length_cons, hlen]⟩

/-- Both together. -/
theorem accepts_bytes_iff {io : ε} {n : ℕ} {xs bs : List UInt8} :
    (bytes io n).Accepts xs bs ↔ xs = bs ∧ bs.length = n := by
  refine ⟨eq_of_accepts_bytes, ?_⟩
  rintro ⟨rfl, rfl⟩
  exact accepts_bytes io xs

/-- A sequence that begins with `n` bytes. -/
theorem accepts_bytes_bind_iff {io : ε} {n : ℕ} {f : List UInt8 → Decoder ε α} {zs : List UInt8}
    {a : α} : ((bytes io n).bind f).Accepts zs a ↔
      ∃ xs ys, zs = xs ++ ys ∧ xs.length = n ∧ (f xs).Accepts ys a := by
  simp only [accepts_bind_iff, accepts_bytes_iff]
  constructor
  · rintro ⟨xs, ys, _, rfl, ⟨rfl, hlength⟩, hf⟩
    exact ⟨xs, ys, rfl, hlength, hf⟩
  · rintro ⟨xs, ys, rfl, hlength, hf⟩
    exact ⟨xs, ys, xs, rfl, ⟨rfl, hlength⟩, hf⟩

/-- A sequence fails where its first part does. -/
theorem outcome_bind_error {d : Decoder ε α} {bs rest : List UInt8} {e : ε}
    (h : d.outcome bs = (.error e, rest)) (f : α → Decoder ε β) :
    (d.bind f).outcome bs = (.error e, rest) := by
  induction bs generalizing d with
  | nil => cases d with
    | read io k => cases h; rfl
    | done a => cases h
    | fail e' => cases h; rfl
  | cons b bs ih => cases d with
    | read io k => exact ih h
    | done a => cases h
    | fail e' => cases h; rfl

/-! ## Streams that end too early

Each wait of a decoder has its own error for the end of the stream. If a stream is cut inside of
what a decoder accepts, the result is the error of the wait that the cut has reached, and never a
value. The predicate on errors is what a decoder can say in this case at all. -/

/-- The errors that the end of the stream can become. -/
def Reports (p : ε → Prop) : Decoder ε α → Prop
  | done _ => True
  | fail _ => True
  | read io k => p io ∧ ∀ b, (k b).Reports p

/-- A sequence reports what its parts report. -/
theorem Reports.bind {p : ε → Prop} {d : Decoder ε α} {f : α → Decoder ε β} (hd : d.Reports p)
    (hf : ∀ a, (f a).Reports p) : (d.bind f).Reports p := by
  induction d with
  | done a => exact hf a
  | fail e => trivial
  | read io k ih => exact ⟨hd.1, fun b => ih b (hd.2 b)⟩

/-- What is left of a decoder reports what the whole one does. -/
theorem Reports.after {p : ε → Prop} {d d' : Decoder ε α} {bs : List UInt8} (hd : d.Reports p)
    (h : d.after bs = some d') : d'.Reports p := by
  induction bs generalizing d with
  | nil =>
    rw [after_nil] at h
    exact Option.some.inj h ▸ hd
  | cons b bs ih => cases d with
    | read io k => exact ih (hd.2 b) h
    | done a => cases h
    | fail e => cases h

/-- Every decoder reports something. -/
theorem reports_true (d : Decoder ε α) : d.Reports fun _ => True := by
  induction d with
  | done a => trivial
  | fail e => trivial
  | read io k ih => exact ⟨trivial, ih⟩

/-- **Cut short.** What a decoder accepts, without its last bytes, ends with the I/O error of the
place where it is cut. -/
theorem Accepts.outcome_cut {p : ε → Prop} {d : Decoder ε α} {xs ys : List UInt8} {a : α}
    (hd : d.Reports p) (h : d.Accepts (xs ++ ys) a) (hys : ys ≠ []) :
    ∃ e, p e ∧ d.outcome xs = (.error e, []) := by
  rw [Accepts, after_append] at h
  obtain ⟨d', hxs, hd'⟩ := Option.bind_eq_some_iff.mp h
  have hreports := hd.after hxs
  have houtcome := outcome_of_after hxs []
  rw [List.append_nil] at houtcome
  cases d' with
  | read io k => exact ⟨io, hreports.1, houtcome⟩
  | done a' => exact absurd ((halted_done a').eq_nil hd') hys
  | fail e => exact absurd ((halted_fail e).eq_nil hd') hys

end Decoder
