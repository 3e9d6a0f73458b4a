import Dssh.Lib.Copy
import Dssh.Session.Limit

/-!
# Writing data from a reader

`data_from` and `extended_data_from` announce a length, and then copy that much from a reader
which may return it in any pieces. `SshChannelWriter.dataFrom` has the reader's bytes at once;
here they come read by read, and the reader is left with what has not been taken.

## The question

A data message can be written from a buffer or from a reader. The second exists so that a large
payload need not be in memory. Does it write the same message? Three things could differ. The
pieces in which the reader returns its bytes could show. The copy could take more than the
announced length, and the rest would be lost to whoever reads on. Or the reader could end too
early, when the length is already on the wire.

The first two do not happen (`CopiesAs.enough`). The third cannot be repaired once the head has
been sent: the operation reports the short copy as an error, and the message on the stream stays
incomplete (`CopiesAs.short`). What its caller makes of that is the caller's affair.

## How it is modelled

`tokio::io::copy(&mut source.take(length), …)` is the library's `Limited.copy`, with its buffer
of 8192 bytes; the size does not matter and appears in no statement. The source compares the
number of bytes copied with the length afterwards, and `copied` is that comparison.

## Main definitions

* `copiesFrom` — the copy with the check behind it
* `dataFromReader`, `extendedDataFromReader` — the two operations
* `CopiesAs` — an operation that does what another one does with the bytes at once

## Main results

* `copiesFrom_eq` — a copy takes what it is told to, or all there is, and reports which
* `dataFrom_as_data` — copying from a reader writes what writing the same bytes does
-/

namespace Dssh

namespace SshChannelWriter

/-- The buffer of `tokio::io::copy`. -/
def copyBufferSize : ℕ := 8192

/-! ## The two operations

Each writes its head with the announced length, copies, and compares what has been copied with
the length. The head is written before anything is known of the source. -/

/-- `io::copy(&mut source.take(length), ..)`, and the check of what it returns: the bytes written,
the result, and the reader. -/
def copiesFrom (source : Source UInt8) (length : ℕ) :
    Option (List UInt8 × Except ShortSource Unit × Source UInt8) := do
  let (bytes, source) ← Limited.copy copyBufferSize ⟨source, length⟩
  pure (bytes, if bytes.length = length then .ok () else .error ⟨length, bytes.length⟩, source)

/-- `data_from`; `none` when the length is no `VarInt` and the call panics. -/
def dataFromReader (source : Source UInt8) (length : ℕ) :
    Option (List UInt8 × Except ShortSource Unit × Source UInt8) := do
  let len ← VarInt.tryFrom length
  let (bytes, result, source) ← copiesFrom source length
  pure ([sshMsgChannelData.encode, len.encode, bytes].flatten, result, source)

/-- `extended_data_from`; `none` when the length is no `VarInt` and the call panics. -/
def extendedDataFromReader (dataType : VarInt) (source : Source UInt8) (length : ℕ) :
    Option (List UInt8 × Except ShortSource Unit × Source UInt8) := do
  let len ← VarInt.tryFrom length
  let (bytes, result, source) ← copiesFrom source length
  pure ([sshMsgChannelExtendedData.encode, dataType.encode, len.encode, bytes].flatten, result,
    source)

variable {source : Source UInt8} {n : ℕ}

/-- **The copy.** -/
theorem copiesFrom_eq (source : Source UInt8) (length : ℕ) :
    ∃ rest, copiesFrom source length =
        some (source.items.take length, copied source.items length, rest) ∧
      rest.items = source.items.drop length := by
  obtain ⟨rest, hcopy, hrest⟩ := Limited.copy_eq (show 0 < copyBufferSize by decide)
    ⟨source, length⟩
  refine ⟨rest, ?_, hrest⟩
  rw [copiesFrom, hcopy]
  rfl

/-- There was enough. -/
theorem copied_of_le {bytes : List UInt8} (h : n ≤ bytes.length) : copied bytes n = .ok () := by
  rw [copied, if_pos (List.length_take_of_le h)]

/-- There was not. -/
theorem copied_of_lt {bytes : List UInt8} (h : bytes.length < n) :
    copied bytes n = .error ⟨n, bytes.length⟩ := by
  rw [copied, List.take_of_length_le (by omega), if_neg (by omega)]

/-- The reader makes no difference to what is written and returned. -/
theorem dataFromReader_eq (source : Source UInt8) (length : ℕ) :
    ∃ rest : Source UInt8, rest.items = source.items.drop length ∧
      dataFromReader source length = (dataFrom source.items length).map fun x =>
        (x.1, x.2, rest) := by
  obtain ⟨rest, hcopy, hrest⟩ := copiesFrom_eq source length
  refine ⟨rest, hrest, ?_⟩
  rw [dataFromReader, dataFrom]
  cases VarInt.tryFrom length with
  | none => rfl
  | some len =>
    simp only [Option.bind_eq_bind, Option.bind_some, hcopy]
    rfl

/-- Nor for extended data. -/
theorem extendedDataFromReader_eq (dataType : VarInt) (source : Source UInt8) (length : ℕ) :
    ∃ rest : Source UInt8, rest.items = source.items.drop length ∧
      extendedDataFromReader dataType source length =
        (extendedDataFrom dataType source.items length).map fun x => (x.1, x.2, rest) := by
  obtain ⟨rest, hcopy, hrest⟩ := copiesFrom_eq source length
  refine ⟨rest, hrest, ?_⟩
  rw [extendedDataFromReader, extendedDataFrom]
  cases VarInt.tryFrom length with
  | none => rfl
  | some len =>
    simp only [Option.bind_eq_bind, Option.bind_some, hcopy]
    rfl

/-! ## Compared with the buffered operation

If there are enough bytes, the message is the one that the operation on a buffer writes, and the
rest of the source is untouched. If there are not, the message has been begun, and an error says
so. -/

/-- What an operation that copies `n` bytes from `source` has done, if `data` is what the buffered
operation writes: the same and nothing else is taken, or the reader has ended too early. -/
structure CopiesAs (source : Source UInt8) (n : ℕ) (data : List UInt8 → Option (List UInt8))
    (out : Option (List UInt8 × Except ShortSource Unit × Source UInt8)) : Prop where
  /-- From a source that has enough, the message is written as from a buffer, and the rest is
  left. -/
  enough : n ≤ source.items.length → ∃ message rest, data (source.items.take n) = some message ∧
    out = some (message, .ok (), rest) ∧ rest.items = source.items.drop n
  /-- From one that has not, part of it is written, and the error says how much. -/
  short : source.items.length < n → ∃ written rest,
    out = some (written, .error ⟨n, source.items.length⟩, rest) ∧ rest.items = []

/-- Both operations write `m bytes`, for the bytes they are given or have copied. -/
theorem CopiesAs.of_message {write : List UInt8 → Option (List UInt8)}
    {m : List UInt8 → List UInt8}
    {out : Option (List UInt8 × Except ShortSource Unit × Source UInt8)} {rest : Source UInt8}
    (hwrite : ∀ bytes : List UInt8, bytes.length = n → write bytes = some (m bytes))
    (hrest : rest.items = source.items.drop n)
    (hout : out = some (m (source.items.take n), copied source.items n, rest)) :
    CopiesAs source n write out := by
  refine ⟨fun hle => ?_, fun hlt => ?_⟩
  · rw [copied_of_le hle] at hout
    exact ⟨_, rest, hwrite _ (List.length_take_of_le hle), hout, hrest⟩
  · rw [copied_of_lt hlt] at hout
    exact ⟨_, rest, hout, hrest.trans (List.drop_eq_nil_of_le (Nat.le_of_lt hlt))⟩

/-- **Writing data from a reader** is writing the first `n` of its bytes. -/
theorem dataFrom_as_data (source : Source UInt8) (hn : n < 2 ^ 62) :
    CopiesAs source n data (dataFromReader source n) ∧
      ∀ dataType, CopiesAs source n (extendedData dataType)
        (extendedDataFromReader dataType source n) := by
  have hlen : VarInt.tryFrom n = some ⟨n, hn⟩ := VarInt.tryFrom_eq_some.mpr rfl
  refine ⟨?_, fun dataType => ?_⟩
  · obtain ⟨rest, hrest, hout⟩ := dataFromReader_eq source n
    rw [dataFrom, hlen] at hout
    refine .of_message (m := fun bytes =>
      [sshMsgChannelData.encode, VarInt.encode ⟨n, hn⟩, bytes].flatten) ?_ hrest hout
    intro bytes hbytes
    rw [data, hbytes, hlen]
    rfl
  · obtain ⟨rest, hrest, hout⟩ := extendedDataFromReader_eq dataType source n
    rw [extendedDataFrom, hlen] at hout
    refine .of_message (m := fun bytes =>
      [sshMsgChannelExtendedData.encode, dataType.encode, VarInt.encode ⟨n, hn⟩, bytes].flatten) ?_
      hrest hout
    intro bytes hbytes
    rw [extendedData, hbytes, hlen]
    rfl

/-- A reader that returns three bytes in two reads. -/
def twoPieces : Source UInt8 := ⟨[[104, 101], [108]], by decide⟩

/-- Two of its three bytes are copied; four are too many. -/
theorem twoPieces_as_data : CopiesAs twoPieces 2 data (dataFromReader twoPieces 2) ∧
    CopiesAs twoPieces 4 (extendedData (.ofNat 1))
      (extendedDataFromReader (.ofNat 1) twoPieces 4) :=
  ⟨(dataFrom_as_data twoPieces (by decide)).1,
    (dataFrom_as_data twoPieces (by decide)).2 (.ofNat 1)⟩

end SshChannelWriter

end Dssh
