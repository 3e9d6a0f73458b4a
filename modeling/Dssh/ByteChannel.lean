import Dssh.Lib.Machine

/-!
# A byte stream over a channel of chunks

`ChannelWriter` makes a byte sink of the sending side of a bounded channel, `ChannelReader` a
byte source of its receiving side. Both rest on adapters of another crate, which are parameters
here: a `SinkWriter` takes bytes and hands them to a sink of chunks, a `StreamReader` hands out
the bytes of a stream of chunks. `Lawful` says what they promise.

`poll_write` is a composition of two polls: the bytes are taken by the first, and the second
flushes them. When the second is pending, so is the composition, although the bytes are taken;
the caller repeats its call with the same bytes.

The caller of the writer is `write_all`, that of the reader reads with buffers of any size.
Which answers the two adapters give is decided by the channel, and part of the actions as an
`ε`.

## The contract that is broken

A poll of a write that returns `Pending` promises that nothing has been taken: the caller keeps
its bytes, and offers them again. The flush inside of `ChannelWriter::poll_write` hands the
bytes over without waiting for an explicit flush. When the channel is full it cannot complete,
and its `Pending` is passed on as that of the write. So the bytes are both in the adapter and
with the caller.

Whether this ever happens depends on the adapter. With one that takes bytes only when its
channel has room, the flush behind a successful write is never pending. `Lawful` does not
promise that, since the traits do not; `slotWriter` is a lawful adapter with a slot for one
chunk, like those built on a buffering sink, and `fullRun` is a run in which the channel is full
at the wrong moment.

## What is proved

`FlushReady` is the condition on a poll that excludes this, and nothing else: it looks at what
the two inner polls answer in the state before the step. Along all runs whose steps meet it,
everything is as one expects (`delivery`): bytes arrive once and in order, the end of the stream
is reported behind the last of them and only when the writer is gone, and every read with room
makes progress.

## The adapters

They are parameters because they are in another crate. Their answers depend on the channel, on
the waker and on timing, so each poll takes an argument of an arbitrary type `ε` that decides
it. The two given at the end are the smallest that behave as such adapters do; they are there so
that `Lawful` is seen to be satisfiable and runs can be executed.

Errors of the channel are the answer `failed` of a poll. A step is taken only where nothing
fails: what a caller does behind an error is no part of the contract.

## Main definitions

* `SinkWriter`, `StreamReader` with `Lawful` — the adapters, and what they promise
* `ChannelWriter.pollWrite`, `ChannelReader.pollStream` — the two functions of the source
* `ByteChannel`, `ByteChannel.step`, `ByteChannel.machine` — the two ends with their callers
* `ByteChannel.FlushReady` — no flush is pending after bytes have been taken
* `ByteChannel.Inv` — the accounting of the bytes

## Main results

* `ByteChannel.delivery` — as long as no such flush is pending, the reader gets exactly what has
  been written
* `ByteChannel.fullRun_delivers_twice` — and what happens otherwise
-/

namespace Dssh

/-! ## The adapters

Two types of another crate stand between bytes and chunks. They are records of functions on a
state of their own, with the contract that `AsyncWrite` and `AsyncRead` have as a predicate.
Nothing else is used of them. -/

/-- What a poll answers. -/
inductive Poll (α : Type) where
  /-- Not yet; the caller is woken when it is worth asking again. -/
  | pending
  /-- The result. -/
  | ready (a : α)
  /-- An error. -/
  | failed
  deriving DecidableEq

/-- An adapter from bytes to a sink of chunks. Every poll says which chunks it has handed over. -/
structure SinkWriter (ω ε : Type) where
  /-- Take some of these bytes. -/
  pollWrite : ω → List UInt8 → ε → Poll ℕ × ω × List (List UInt8)
  /-- Hand over what has been taken. -/
  pollFlush : ω → ε → Poll Unit × ω × List (List UInt8)

/-- What such an adapter promises: the bytes it takes are handed to the sink once and in order, and
a flush that is ready has handed over all of them. -/
structure SinkWriter.Lawful {ω ε : Type} (S : SinkWriter ω ε) (taken : ω → List UInt8) :
    Prop where
  /-- It takes at least one byte, from the front. -/
  write_ready {w w' : ω} {bs : List UInt8} {e : ε} {n : ℕ} {chunks : List (List UInt8)} :
    S.pollWrite w bs e = (.ready n, w', chunks) → bs ≠ [] →
      0 < n ∧ n ≤ bs.length ∧ chunks.flatten ++ taken w' = taken w ++ bs.take n
  /-- A pending write has taken none. -/
  write_pending {w w' : ω} {bs : List UInt8} {e : ε} {chunks : List (List UInt8)} :
    S.pollWrite w bs e = (.pending, w', chunks) → chunks.flatten ++ taken w' = taken w
  /-- A flush that is ready leaves nothing behind. -/
  flush_ready {w w' : ω} {e : ε} {chunks : List (List UInt8)} :
    S.pollFlush w e = (.ready (), w', chunks) → taken w' = [] ∧ chunks.flatten = taken w

/-- What polling a stream of chunks answers. -/
inductive StreamPoll where
  /-- There is no chunk yet. -/
  | pending
  /-- The next chunk. -/
  | item (chunk : List UInt8)
  /-- There will be none. -/
  | ended
  deriving DecidableEq

/-- What a read answers. -/
inductive ReadPoll where
  /-- There is nothing yet. -/
  | pending
  /-- Some bytes. -/
  | data (bytes : List UInt8)
  /-- There will be none. -/
  | eof
  deriving DecidableEq

/-- A read answers from what the adapter holds, or polls the stream first. -/
inductive ReadStep (ρ : Type) where
  /-- It need not ask. -/
  | done (answer : ReadPoll) (r : ρ)
  /-- It asks, and answers by what it is told. -/
  | pollStream (k : StreamPoll → ReadPoll × ρ)

/-- An adapter from a stream of chunks to bytes. -/
structure StreamReader (ρ : Type) where
  /-- A read into a buffer with room for so many bytes. -/
  pollRead : ρ → ℕ → ReadStep ρ

/-- What such an adapter promises, when it is polled with room for at least one byte on a stream
without empty chunks: it hands out the bytes of the chunks once and in order. -/
structure StreamReader.Lawful {ρ : Type} (T : StreamReader ρ) (held : ρ → List UInt8) : Prop where
  /-- What it holds, it hands out from the front. -/
  done {r r' : ρ} {n : ℕ} {answer : ReadPoll} : T.pollRead r n = .done answer r' → 0 < n →
    ∃ bs, answer = .data bs ∧ bs ≠ [] ∧ bs.length ≤ n ∧ bs ++ held r' = held r
  /-- It asks for a chunk only when it holds nothing, and passes on what it is told. -/
  poll_stream {r : ρ} {n : ℕ} {k : StreamPoll → ReadPoll × ρ} :
    T.pollRead r n = .pollStream k → 0 < n → held r = [] ∧
      ((k .pending).1 = .pending ∧ held (k .pending).2 = []) ∧
      ((k .ended).1 = .eof ∧ held (k .ended).2 = []) ∧
      ∀ chunk, chunk ≠ [] → ∃ bs, (k (.item chunk)).1 = .data bs ∧ bs ≠ [] ∧ bs.length ≤ n ∧
        bs ++ held (k (.item chunk)).2 = chunk

/-! ## The two ends

The functions of the source, and the state of the channel with both ends. A call of `write_all`
is a step that begins it and then as many polls as it takes; the reader is polled with any buffer
at any time. -/

/-- `ChannelWriter::poll_write`. -/
def ChannelWriter.pollWrite {ω ε : Type} (S : SinkWriter ω ε) (w : ω) (bs : List UInt8)
    (e₁ e₂ : ε) : Poll ℕ × ω × List (List UInt8) :=
  match S.pollWrite w bs e₁ with
  | (.ready written, w', chunks) =>
    match S.pollFlush w' e₂ with
    | (.ready (), w'', chunks') => (.ready written, w'', chunks ++ chunks')
    | (.failed, w'', chunks') => (.failed, w'', chunks ++ chunks')
    | (.pending, w'', chunks') => (.pending, w'', chunks ++ chunks')
  | other => other

/-- The stream of `ChannelReader::new`: what polling it answers, and what it leaves in the channel.
Empty chunks are skipped. -/
def ChannelReader.pollStream (dropped : Bool) : List (List UInt8) → StreamPoll × List (List UInt8)
  | [] => (if dropped then .ended else .pending, [])
  | data :: channel =>
    if data.isEmpty then pollStream dropped channel else (.item data, channel)

/-- The two ends of a byte channel, the writer used by `write_all`. -/
structure ByteChannel (ω ρ : Type) where
  /-- The adapter of the writer. -/
  writer : ω
  /-- The adapter of the reader. -/
  reader : ρ
  /-- A call of `write_all` in progress: its data, and how much of it `poll_write` has reported as
  written. -/
  writing : Option (List UInt8 × ℕ) := none
  /-- The data of the completed calls of `write_all`. -/
  completed : List (List UInt8) := []
  /-- The writer has been dropped. -/
  dropped : Bool := false
  /-- The chunks in the channel. -/
  channel : List (List UInt8) := []
  /-- What the reads have returned. -/
  delivered : List UInt8 := []
  /-- A read has reported the end of the stream. -/
  eof : Bool := false
  deriving DecidableEq

namespace ByteChannel

variable {ω ε ρ : Type}

/-- What can happen at the two ends. -/
inductive Action (ε : Type) where
  /-- Call `write_all`. -/
  | writeAll (data : List UInt8)
  /-- Poll the call in progress. -/
  | poll (e₁ e₂ : ε)
  /-- Drop the writer. -/
  | drop
  /-- Read into a buffer with room for `n` bytes. -/
  | read (n : ℕ)
  deriving DecidableEq

/-- `write_all` returns when nothing is left to write. -/
def settle (t : ByteChannel ω ρ) (data : List UInt8) (written : ℕ) : ByteChannel ω ρ :=
  if data.drop written = [] then { t with writing := none, completed := t.completed ++ [data] }
  else { t with writing := some (data, written) }

/-- The state after a read with this answer. -/
def onRead (t : ByteChannel ω ρ) (channel : List (List UInt8)) :
    ReadPoll × ρ → ByteChannel ω ρ
  | (.pending, r) => { t with reader := r, channel := channel }
  | (.data bs, r) => { t with reader := r, channel := channel, delivered := t.delivered ++ bs }
  | (.eof, r) => { t with reader := r, channel := channel, eof := true }

/-- One step; the channel has room for `capacity` chunks, and nothing fails. -/
def step (S : SinkWriter ω ε) (T : StreamReader ρ) (capacity : ℕ) (t : ByteChannel ω ρ) :
    Action ε → Option (ByteChannel ω ρ)
  | .writeAll data =>
    if t.writing = none ∧ t.dropped = false then some (t.settle data 0) else none
  | .poll e₁ e₂ =>
    match t.writing with
    | none => none
    | some (data, written) =>
      match ChannelWriter.pollWrite S t.writer (data.drop written) e₁ e₂ with
      | (.failed, _, _) => none
      | (.pending, w, chunks) =>
        if t.channel.length + chunks.length ≤ capacity then
          some { t with writer := w, channel := t.channel ++ chunks }
        else none
      | (.ready n, w, chunks) =>
        if t.channel.length + chunks.length ≤ capacity ∧ 0 < n then
          some ({ t with writer := w, channel := t.channel ++ chunks }.settle data (written + n))
        else none
  | .drop => if t.writing = none then some { t with dropped := true } else none
  | .read n =>
    if 0 < n then
      match T.pollRead t.reader n with
      | .done answer r => some (t.onRead t.channel (answer, r))
      | .pollStream k =>
        let (answer, channel) := ChannelReader.pollStream t.dropped t.channel
        some (t.onRead channel (k answer))
    else none

/-- A fresh pair of ends. -/
def machine (S : SinkWriter ω ε) (T : StreamReader ρ) (capacity : ℕ) (w : ω) (r : ρ) :
    Machine (ByteChannel ω ρ) (Action ε) :=
  ⟨{ writer := w, reader := r }, step S T capacity⟩

/-! ## The polls

A poll of the writer takes bytes and then flushes. If the flush is pending, the poll is, and
nobody is told that the bytes have been taken. This is the only case in which what the poll
reports and what it has done differ. -/

/-- No flush is pending after bytes have been taken. -/
def FlushReady (S : SinkWriter ω ε) (t : ByteChannel ω ρ) : Action ε → Prop
  | .poll e₁ e₂ => ∀ data written n w chunks, t.writing = some (data, written) →
      S.pollWrite t.writer (data.drop written) e₁ = (.ready n, w, chunks) →
        (S.pollFlush w e₂).1 ≠ .pending
  | _ => True

variable {S : SinkWriter ω ε} {T : StreamReader ρ} {taken : ω → List UInt8} {held : ρ → List UInt8}

/-- **One poll of the writer.** If the flush in it is not pending, the bytes that it reports are in
the channel, and no others. -/
theorem pollWrite_eq (hS : S.Lawful taken) {w w' : ω} {bs : List UInt8} (hbs : bs ≠ [])
    (hflushed : taken w = []) {e₁ e₂ : ε} {answer : Poll ℕ} {chunks : List (List UInt8)}
    (hready : ∀ n w' chunks, S.pollWrite w bs e₁ = (.ready n, w', chunks) →
      (S.pollFlush w' e₂).1 ≠ .pending)
    (h : ChannelWriter.pollWrite S w bs e₁ e₂ = (answer, w', chunks)) :
    answer = .failed ∨ taken w' = [] ∧
      ((answer = .pending ∧ chunks.flatten = []) ∨
        ∃ n, answer = .ready n ∧ 0 < n ∧ n ≤ bs.length ∧ chunks.flatten = bs.take n) := by
  rw [ChannelWriter.pollWrite] at h
  split at h
  · rename_i n w₁ chunks₁ hwrite
    obtain ⟨hpos, hle, htaken⟩ := hS.write_ready hwrite hbs
    rw [hflushed, List.nil_append] at htaken
    split at h
    · rename_i w₂ chunks₂ hflush
      obtain ⟨rfl, rfl, rfl⟩ := h
      obtain ⟨hempty, hchunks⟩ := hS.flush_ready hflush
      refine Or.inr ⟨hempty, Or.inr ⟨n, rfl, hpos, hle, ?_⟩⟩
      rw [List.flatten_append, hchunks, htaken]
    · obtain ⟨rfl, -, -⟩ := h
      exact Or.inl rfl
    · rename_i hflush
      exact absurd (congrArg Prod.fst hflush) (hready _ _ _ hwrite)
  · rename_i hnot
    cases answer with
    | failed => exact Or.inl rfl
    | ready n => exact absurd h (hnot n w' chunks)
    | pending =>
      have htaken := hS.write_pending h
      rw [hflushed, List.append_eq_nil_iff] at htaken
      exact Or.inr ⟨htaken.2, Or.inl ⟨rfl, htaken.1⟩⟩

/-- What the stream of the reader answers. -/
theorem pollStream_cases (dropped : Bool) (channel : List (List UInt8)) :
    (channel.flatten = [] ∧ ChannelReader.pollStream dropped channel =
        (if dropped then .ended else .pending, [])) ∨
      ∃ chunk rest, chunk ≠ [] ∧ channel.flatten = chunk ++ rest.flatten ∧
        ChannelReader.pollStream dropped channel = (.item chunk, rest) := by
  induction channel with
  | nil => exact Or.inl ⟨rfl, rfl⟩
  | cons data channel ih =>
    by_cases hempty : data = []
    · subst hempty
      exact ih
    · refine Or.inr ⟨data, channel, hempty, rfl, ?_⟩
      rw [ChannelReader.pollStream, if_neg (by simpa using hempty)]

/-! ## The invariant

The bytes of the completed calls, and those that the call in progress has reported, are what has
been read and what is in the channel and in the adapters. A poll with a pending flush breaks
this: it has put bytes into the channel that it will be given again. -/

/-- What the call of `write_all` in progress has reported as written. -/
def reported (t : ByteChannel ω ρ) : List UInt8 := t.writing.elim [] fun p => p.1.take p.2

/-- The accounting of the bytes. -/
structure Inv (taken : ω → List UInt8) (held : ρ → List UInt8) (t : ByteChannel ω ρ) : Prop where
  /-- The adapter of the writer holds nothing between two polls. -/
  flushed : taken t.writer = []
  /-- What has been delivered, what the reader holds and what is in the channel are together what
  has been written. -/
  bytes : t.delivered ++ held t.reader ++ t.channel.flatten = t.completed.flatten ++ t.reported
  /-- A call in progress has something to write. -/
  rest_ne : ∀ {data written}, t.writing = some (data, written) → data.drop written ≠ []
  /-- A writer that is gone writes nothing. -/
  idle : t.dropped = true → t.writing = none
  /-- The end is reported when the writer is gone and nothing is left. -/
  ended : t.eof = true → t.dropped = true ∧ held t.reader = [] ∧ t.channel.flatten = []

variable {t t' : ByteChannel ω ρ}

/-- The call goes on, or returns. -/
theorem Inv.settle {data : List UInt8} {written : ℕ} (hflushed : taken t.writer = [])
    (hbytes : t.delivered ++ held t.reader ++ t.channel.flatten =
      t.completed.flatten ++ data.take written)
    (hdropped : t.dropped = false) (hended : t.eof = false) :
    Inv taken held (t.settle data written) := by
  rw [ByteChannel.settle]
  split_ifs with hrest
  · refine ⟨hflushed, ?_, nofun, fun _ => rfl, fun heof => ?_⟩
    · rw [List.take_of_length_le (List.drop_eq_nil_iff.mp hrest)] at hbytes
      simpa [reported] using hbytes
    · rw [hended] at heof
      cases heof
  · refine ⟨hflushed, hbytes, fun h => ?_, fun h => ?_, fun heof => ?_⟩
    · obtain ⟨rfl, rfl⟩ := Prod.mk.inj (Option.some.inj h)
      exact hrest
    · rw [hdropped] at h
      cases h
    · rw [hended] at heof
      cases heof

/-- A poll of the writer keeps the accounting, if it is not pending at the wrong moment. -/
theorem Inv.poll (hS : S.Lawful taken) {capacity : ℕ} {e₁ e₂ : ε} (ht : Inv taken held t)
    (hok : FlushReady S t (.poll e₁ e₂)) (h : step S T capacity t (.poll e₁ e₂) = some t') :
    Inv taken held t' := by
  rw [step] at h
  cases hwriting : t.writing with
  | none => rw [hwriting] at h; cases h
  | some p =>
    obtain ⟨data, written⟩ := p
    have hdropped : t.dropped = false := by
      by_contra hdropped
      rw [ht.idle (by simpa using hdropped)] at hwriting
      cases hwriting
    have hended : t.eof = false := by
      by_contra heof
      rw [(ht.ended (by simpa using heof)).1] at hdropped
      cases hdropped
    have hbytes := ht.bytes
    rw [reported, hwriting, Option.elim_some] at hbytes
    obtain ⟨⟨answer, w, chunks⟩, hpoll⟩ :
        ∃ p, ChannelWriter.pollWrite S t.writer (data.drop written) e₁ e₂ = p := ⟨_, rfl⟩
    have hcases := pollWrite_eq hS (ht.rest_ne hwriting) ht.flushed
      (fun n w' chunks => hok data written n w' chunks hwriting) hpoll
    rw [hwriting] at h
    dsimp only at h
    rw [hpoll] at h
    rcases hcases with rfl | ⟨hflushed, ⟨rfl, hnil⟩ | ⟨n, rfl, hpos, hle, hchunks⟩⟩
    · cases h
    · dsimp only at h
      split_ifs at h
      obtain rfl := Option.some.inj h
      rw [← hwriting]
      refine ⟨hflushed, ?_, ht.rest_ne, ht.idle, fun heof => ?_⟩
      · have hnone : (t.channel ++ chunks).flatten = t.channel.flatten := by
          rw [List.flatten_append, hnil, List.append_nil]
        exact (congrArg _ hnone).trans ht.bytes
      · rw [show t.eof = true from heof] at hended
        cases hended
    · dsimp only at h
      split_ifs at h
      obtain rfl := Option.some.inj h
      refine .settle hflushed ?_ hdropped hended
      rw [List.flatten_append, hchunks, ← List.append_assoc, hbytes, List.append_assoc,
        ← List.take_add]

/-- What a read hands out is what was to be read next. -/
theorem Inv.onRead (ht : Inv taken held t) {channel : List (List UInt8)} {r : ρ} {bs : List UInt8}
    (h : bs ++ held r ++ channel.flatten = held t.reader ++ t.channel.flatten)
    (hended : t.eof = true → bs = []) :
    Inv taken held (t.onRead channel (.data bs, r)) := by
  refine ⟨ht.flushed, ?_, ht.rest_ne, ht.idle, fun heof => ?_⟩
  · have hbytes := ht.bytes
    rw [List.append_assoc, ← h] at hbytes
    simpa only [ByteChannel.onRead, reported, List.append_assoc] using hbytes
  · obtain ⟨hdropped, hheld, hchannel⟩ := ht.ended heof
    rw [hheld, hchannel, hended heof] at h
    simp only [List.nil_append, List.append_eq_nil_iff] at h
    exact ⟨hdropped, h.1, h.2⟩

/-- **One read.** It hands out bytes of the stream, or has already handed out all of them and
reports the end if the writer is gone. -/
theorem read_cases (hT : T.Lawful held) (S : SinkWriter ω ε) (capacity : ℕ) {n : ℕ} (hpos : 0 < n)
    (t : ByteChannel ω ρ) :
    ∃ t', step S T capacity t (.read n) = some t' ∧
      ((∃ channel r bs, t' = t.onRead channel (.data bs, r) ∧ bs ≠ [] ∧ bs.length ≤ n ∧
          bs ++ held r ++ channel.flatten = held t.reader ++ t.channel.flatten) ∨
        held t.reader = [] ∧ t.channel.flatten = [] ∧ ∃ r, held r = [] ∧
          t' = t.onRead [] (if t.dropped then .eof else .pending, r)) := by
  rw [step, if_pos hpos]
  cases hread : T.pollRead t.reader n with
  | done answer r =>
    obtain ⟨bs, rfl, hne, hlen, hbs⟩ := hT.done hread hpos
    exact ⟨_, rfl, Or.inl ⟨_, r, bs, rfl, hne, hlen, by rw [hbs]⟩⟩
  | pollStream k =>
    obtain ⟨hheld, ⟨hpending, hheldp⟩, ⟨hend, hhelde⟩, hitem⟩ := hT.poll_stream hread hpos
    rcases pollStream_cases t.dropped t.channel with
      ⟨hchannel, hpoll⟩ | ⟨chunk, rest, hchunk, hchannel, hpoll⟩
    · refine ⟨_, rfl, Or.inr ⟨hheld, hchannel, ?_⟩⟩
      rw [hpoll]
      cases t.dropped with
      | false => exact ⟨_, hheldp, congrArg (t.onRead []) (Prod.ext hpending rfl)⟩
      | true => exact ⟨_, hhelde, congrArg (t.onRead []) (Prod.ext hend rfl)⟩
    · obtain ⟨bs, hdata, hne, hlen, hbs⟩ := hitem chunk hchunk
      refine ⟨_, rfl, Or.inl ⟨rest, (k (.item chunk)).2, bs, ?_, hne, hlen, ?_⟩⟩
      · rw [hpoll]
        exact congrArg (t.onRead rest) (Prod.ext hdata rfl)
      · rw [hbs, hheld, hchannel, List.nil_append]

/-- A read keeps the accounting. -/
theorem Inv.read (hT : T.Lawful held) {capacity n : ℕ} (ht : Inv taken held t)
    (h : step S T capacity t (.read n) = some t') : Inv taken held t' := by
  have hpos : 0 < n := by
    by_contra hpos
    rw [step, if_neg hpos] at h
    cases h
  obtain ⟨t₁, ht₁, hcases⟩ := read_cases hT S capacity hpos t
  obtain rfl := Option.some.inj (h.symm.trans ht₁)
  rcases hcases with ⟨channel, r, bs, rfl, hne, -, hbs⟩ | ⟨hheld, hchannel, r, hr, rfl⟩
  · refine ht.onRead hbs fun heof => ?_
    obtain ⟨-, hheld, hchannel⟩ := ht.ended heof
    rw [hheld, hchannel, List.append_nil, List.append_eq_nil_iff, List.append_eq_nil_iff] at hbs
    exact hbs.1.1
  · have hbytes := ht.bytes
    rw [hheld, hchannel, List.append_nil, List.append_nil] at hbytes
    have hbytes' : t.delivered ++ held r ++ ([] : List (List UInt8)).flatten =
        t.completed.flatten ++ t.reported := by
      rw [hr, hbytes]
      exact (List.append_nil _).trans (List.append_nil _)
    cases hdropped : t.dropped with
    | false =>
      exact ⟨ht.flushed, hbytes', ht.rest_ne, ht.idle, fun heof => ⟨(ht.ended heof).1, hr, rfl⟩⟩
    | true => exact ⟨ht.flushed, hbytes', ht.rest_ne, ht.idle, fun _ => ⟨hdropped, hr, rfl⟩⟩

/-- Every step keeps the accounting, unless a flush is pending in it after bytes have been taken. -/
theorem Inv.step (hS : S.Lawful taken) (hT : T.Lawful held) {capacity : ℕ} {a : Action ε}
    (ht : Inv taken held t) (hok : FlushReady S t a)
    (h : ByteChannel.step S T capacity t a = some t') : Inv taken held t' := by
  cases a with
  | poll e₁ e₂ => exact ht.poll hS hok h
  | read n => exact ht.read hT h
  | writeAll data =>
    rw [ByteChannel.step] at h
    split_ifs at h with hidle
    obtain rfl := Option.some.inj h
    have hbytes := ht.bytes
    rw [reported, hidle.1] at hbytes
    refine .settle ht.flushed hbytes hidle.2 ?_
    by_contra heof
    have hdropped := (ht.ended (by simpa using heof)).1
    rw [hidle.2] at hdropped
    cases hdropped
  | drop =>
    rw [ByteChannel.step] at h
    split_ifs at h with hidle
    obtain rfl := Option.some.inj h
    exact ⟨ht.flushed, ht.bytes, ht.rest_ne, fun _ => hidle, fun heof => ⟨rfl, (ht.ended heof).2⟩⟩

/-- The accounting along runs. -/
theorem Inv.of_reach (hS : S.Lawful taken) (hT : T.Lawful held) {capacity : ℕ} {w : ω} {r : ρ}
    (hw : taken w = []) (hr : held r = [])
    (ht : (machine S T capacity w r).Reach (FlushReady S) t) : Inv taken held t := by
  refine ht.invariant ?_ fun _ ht hok h => ht.step hS hT hok h
  refine ⟨hw, ?_, nofun, nofun, nofun⟩
  change [] ++ held r ++ [] = []
  rw [hr]
  rfl

/-- **Delivery.** As long as no flush is pending after bytes have been taken, the reader gets the
data of the completed calls of `write_all`, each byte once and in order, and after them the
beginning of the data of the call in progress; the end of the stream is reported when the writer is
gone and everything has been read. Every read comes closer to that. -/
theorem delivery (hS : S.Lawful taken) (hT : T.Lawful held) {capacity : ℕ} {w : ω} {r : ρ}
    (hw : taken w = []) (hr : held r = [])
    (ht : (machine S T capacity w r).Reach (FlushReady S) t) :
    t.delivered <+: t.completed.flatten ++ t.reported ∧
      (t.eof = true → t.dropped = true ∧ t.delivered = t.completed.flatten) ∧
      ∀ n, 0 < n → ∃ t', ByteChannel.step S T capacity t (.read n) = some t' ∧
        ((∃ bs, bs ≠ [] ∧ bs.length ≤ n ∧ t'.delivered = t.delivered ++ bs) ∨
          t.delivered = t.completed.flatten ++ t.reported ∧ t'.delivered = t.delivered ∧
            t'.eof = t.dropped) := by
  have hinv := Inv.of_reach hS hT hw hr ht
  have hbytes := hinv.bytes
  refine ⟨⟨held t.reader ++ t.channel.flatten, ?_⟩, fun heof => ?_, fun n hpos => ?_⟩
  · rw [← List.append_assoc, hbytes]
  · obtain ⟨hdropped, hheld, hchannel⟩ := hinv.ended heof
    rw [hheld, hchannel, reported, hinv.idle hdropped] at hbytes
    exact ⟨hdropped, by simpa using hbytes⟩
  · obtain ⟨t', ht', hcases⟩ := read_cases hT S capacity hpos t
    refine ⟨t', ht', ?_⟩
    rcases hcases with ⟨channel, r, bs, rfl, hne, hlen, -⟩ | ⟨hheld, hchannel, r, -, rfl⟩
    · exact Or.inl ⟨bs, hne, hlen, rfl⟩
    · rw [hheld, hchannel, List.append_nil, List.append_nil] at hbytes
      refine Or.inr ⟨hbytes, ?_⟩
      cases hdropped : t.dropped with
      | false =>
        refine ⟨rfl, ?_⟩
        by_contra heof
        rw [(hinv.ended (Bool.not_eq_false _ ▸ heof)).1] at hdropped
        cases hdropped
      | true => exact ⟨rfl, rfl⟩

/-! ## Two adapters

Concrete adapters that keep the contract, so that the results are about something. With them the
failing run is a list of actions. -/

/-- An adapter that holds one chunk, and takes the next when it has handed that over. -/
def slotWriter : SinkWriter (Option (List UInt8)) Bool :=
  let pollFlush
    | none, _ => (.ready (), none, [])
    | some bs, true => (.ready (), none, [bs])
    | some bs, false => (.pending, some bs, [])
  { pollFlush
    pollWrite := fun w bs e =>
      match pollFlush w e with
      | (.ready (), _, chunks) => (.ready bs.length, some bs, chunks)
      | (_, w', chunks) => (.pending, w', chunks) }

/-- It takes one chunk, and hands it over. -/
theorem slotWriter_lawful : slotWriter.Lawful (·.getD []) where
  write_ready {w w' bs e n chunks} h hbs := by
    have hpos := List.length_pos_iff.mpr hbs
    rcases w with _ | held <;> rcases e with _ | _ <;> cases h <;> simp [hpos]
  write_pending {w w' bs e chunks} h := by
    rcases w with _ | held <;> rcases e with _ | _ <;> cases h
    rfl
  flush_ready {w w' e chunks} h := by
    rcases w with _ | held <;> rcases e with _ | _ <;> cases h <;> simp

/-- Its flush is pending only when the channel says so. -/
theorem slotWriter_flushReady {a : Action Bool} (ha : ∀ e, a ≠ .poll e false)
    (t : ByteChannel (Option (List UInt8)) ρ) : FlushReady slotWriter t a := by
  rcases a with _ | ⟨e₁, _ | _⟩ | _ | _
  case poll.false => exact absurd rfl (ha e₁)
  case poll.true =>
    intro data written n w chunks _ _
    cases w <;> nofun
  all_goals trivial

/-- An adapter that holds the rest of the last chunk. -/
def chunkReader : StreamReader (List UInt8) where
  pollRead held n :=
    if held = [] then
      .pollStream fun
        | .pending => (.pending, [])
        | .item chunk => (.data (chunk.take n), chunk.drop n)
        | .ended => (.eof, [])
    else .done (.data (held.take n)) (held.drop n)

/-- A buffer with room gets something. -/
theorem take_ne_nil {bs : List UInt8} {n : ℕ} (hbs : bs ≠ []) (hn : 0 < n) : bs.take n ≠ [] := by
  rw [Ne, List.take_eq_nil_iff, not_or]
  exact ⟨by omega, hbs⟩

/-- It hands out its chunk in parts. -/
theorem chunkReader_lawful : chunkReader.Lawful id where
  done {r r' n answer} h hn := by
    simp only [chunkReader] at h
    split_ifs at h with hheld
    obtain ⟨rfl, rfl⟩ := ReadStep.done.inj h
    exact ⟨_, rfl, take_ne_nil hheld hn, List.length_take_le .., List.take_append_drop ..⟩
  poll_stream {r n k} h hn := by
    simp only [chunkReader] at h
    split_ifs at h with hheld
    obtain rfl := ReadStep.pollStream.inj h
    exact ⟨hheld, ⟨rfl, rfl⟩, ⟨rfl, rfl⟩, fun chunk hchunk =>
      ⟨_, rfl, take_ne_nil hchunk hn, List.length_take_le .., List.take_append_drop ..⟩⟩

/-- A channel with room for two chunks between the two adapters. -/
def slots : Machine (ByteChannel (Option (List UInt8)) (List UInt8)) (Action Bool) :=
  machine slotWriter chunkReader 2 none []

/-- Three bytes are written and read in two parts, and the writer is dropped. -/
def smallRun : List (Action Bool) :=
  [.writeAll [1, 2, 3], .poll true true, .read 2, .drop, .read 2, .read 2]

theorem smallRun_delivery :
    ∃ t, slots.exec slots.init smallRun = some t ∧ t.eof = true ∧ t.delivered = [1, 2, 3] := by
  have hflushes : ∀ a ∈ smallRun, ∀ e, a ≠ .poll e false := by decide
  have hreach : slots.Reach (FlushReady slotWriter) _ :=
    Machine.Reach.init.exec (fun a ha => slotWriter_flushReady (hflushes a ha)) rfl
  have hend := (delivery slotWriter_lawful chunkReader_lawful rfl rfl hreach).2.1
  exact ⟨_, rfl, rfl, (hend rfl).2⟩

/-- A third call fills the slot of the adapter while the channel is full, and is polled again when
the reader has emptied it. -/
def fullRun : List (Action Bool) :=
  [.writeAll [1], .poll true true, .writeAll [2], .poll true true, .writeAll [3], .poll true false,
    .read 8, .read 8, .poll true true, .drop, .read 8, .read 8, .read 8]

/-- The chunk that the adapter had taken is delivered twice. -/
theorem fullRun_delivers_twice :
    slotWriter.Lawful (·.getD []) ∧ chunkReader.Lawful id ∧
      ∃ t, slots.exec slots.init fullRun = some t ∧ t.completed = [[1], [2], [3]] ∧
        t.eof = true ∧ t.delivered = [1, 2, 3, 3] :=
  ⟨slotWriter_lawful, chunkReader_lawful, _, rfl, rfl, rfl, rfl⟩

end ByteChannel

end Dssh
