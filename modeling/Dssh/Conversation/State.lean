import Dssh.Codec
import Dssh.Lib.TicketQueue
import Mathlib.Data.Finset.Basic

/-!
# The state of a conversation

A conversation is what any number of tasks share: two ordered resources (the reading and the
writing half of the control stream), the poison flag, the lock under which ticket pairs are
allocated, and the set of automatic failures. Everything else is local to the tasks. This module
holds the data; `Dssh.Conversation.Step` holds the atomic operations on it.

## Where a task is

`Pc` is the program counter of one task together with its locals. One task runs one call chain:
a `send_global_request`, a `send_global_notification`, or an `accept_global_request` followed by
what happens to the object it returns, so the objects `IncomingGlobalRequest`,
`IncomingGlobalNotice` and `DecodedGlobalRequest` are places of the task that owns them. There
are as many tasks as natural numbers, and each starts `idle`.

An object that is handed from one task to another is the same place, as nothing in the code
depends on which task of the runtime polls a future. That tasks are never reused loses nothing:
there are always more.

Dropping a value in the source runs several atomic operations one after the other. `DropAct`
names them and `Pc.unwinding` holds those that are still to be run, so that the order in which a
path poisons the session, advances the ticket counter and wakes the waiters is data that can be
compared with the source.

## What the grain is

The atomic counters, the flag, the mutex around the set and `Notify` are used by tasks that run
on several threads, with sequentially consistent orderings throughout. So one operation on one
of them is one step, and everything between two such operations is invisible to other tasks and
merged with one of them. A coarser grain would hide the interleavings that the code has to be
right about: a poison between the check and the wait, a counter that moves between the load and
the removal from the set.

The bytes on the stream are finer than messages for a similar reason. A future that is dropped
while a message is being written leaves part of it, and which part is decided by the transport.

## History

`Shared.history` and the `granted` and `released` lists record what has happened. No step reads
them, so they can be erased without changing what the tasks do; they are there for statements.

## What is absent

The channel part of a conversation. Opening and accepting channels goes through streams of their
own and touches none of this; it is modelled with the channels. The identity of the
conversation, the version of its peer and the owner of the transport are constants that nothing
here reads. Message types other than the three of global requests are refused by the decoders.

## Main definitions

* `Conversation.ControlMessage` — the messages on the control stream
* `Conversation.Pc` — where a task is
* `Conversation.DropAct` — the atomic operations of drop glue
* `Conversation.Shared`, `Conversation` — the shared state, and a conversation with its tasks
-/

namespace Dssh

namespace Conversation

/-! ## Messages

What the codecs of a request produce enters as bytes. The types that implement the request traits
are many, and their payloads matter to the conversation only as what is written and read between
the fields of its own. -/

def sshMsgGlobalRequest : VarInt := .ofNat 80

def sshMsgRequestSuccess : VarInt := .ofNat 81

def sshMsgRequestFailure : VarInt := .ofNat 82

/-- A value of a type that implements `WantReplyGlobalRequest` or `NotifyGlobalRequest`: its type
string and the bytes its payload encodes to. -/
structure GlobalRequest where
  /-- The string that tells the requests apart. -/
  requestType : SshString
  /-- The bytes behind the header. -/
  payload : List UInt8
  deriving DecidableEq

/-- What a handler answers: success with the bytes its response encodes to, or failure. -/
inductive Answer where
  /-- It has been granted. -/
  | success (response : List UInt8)
  /-- It has not. -/
  | failure
  deriving DecidableEq

/-- The messages written on the control stream. -/
inductive ControlMessage where
  /-- A request, or a notification if no reply is wanted. -/
  | globalRequest (request : GlobalRequest) (wantReply : Bool)
  /-- The reply to a request that was granted. -/
  | requestSuccess (response : List UInt8)
  /-- The reply to one that was not. -/
  | requestFailure
  deriving DecidableEq

/-- The parts of writing a message that can fail, as the error variants tell them apart. -/
inductive EncodeStage where
  /-- The type of the message. -/
  | messageType
  /-- The type of a request. -/
  | requestType
  /-- Whether a reply is wanted. -/
  | wantReply
  /-- The payload of a request, or the response. -/
  | payload
  | flush
  deriving DecidableEq, Repr

namespace ControlMessage

/-- The fields of a message, in the order they are encoded. -/
def fields : ControlMessage → List (EncodeStage × List UInt8)
  | globalRequest rq wantReply =>
    [(.messageType, sshMsgGlobalRequest.encode), (.requestType, SshString.encode rq.requestType),
      (.wantReply, SshBool.encode wantReply), (.payload, rq.payload)]
  | requestSuccess response =>
    [(.messageType, sshMsgRequestSuccess.encode), (.payload, response)]
  | requestFailure => [(.messageType, sshMsgRequestFailure.encode)]

/-- The bytes of a message. -/
def encode (m : ControlMessage) : List UInt8 := (m.fields.map Prod.snd).flatten

/-- The stage of an encoder that has handed over `n` bytes of these fields. -/
def stageAt : List (EncodeStage × List UInt8) → ℕ → EncodeStage
  | [], _ => .flush
  | (stage, bytes) :: fields, n =>
    if n < bytes.length then stage else stageAt fields (n - bytes.length)

/-- The message an answer is sent as. -/
def ofAnswer : Answer → ControlMessage
  | .success response => requestSuccess response
  | .failure => requestFailure

/-- Whether a message is the answer to a request. -/
def isReply : ControlMessage → Bool
  | globalRequest _ _ => false
  | requestSuccess _ => true
  | requestFailure => true

end ControlMessage

/-! ## Errors and outcomes

The variants of the errors, without the sources inside of them. An outcome also keeps the tickets
of the operation, for reference in statements; no step reads them. -/

/-- The errors of the writing half of an operation: `EncodeMessageType` to `Flush`, and
`SessionPoisoned`. -/
inductive WriteError where
  | encode (stage : EncodeStage)
  | sessionPoisoned
  deriving DecidableEq, Repr

/-- The errors of `send_global_request`. -/
inductive SendRequestError where
  | write (e : WriteError)
  | decodeResponseType
  | decodeSuccess (e : CodecError)
  | rejected
  | unexpectedResponseType (messageType : VarInt)
  | sessionPoisoned
  deriving DecidableEq, Repr

/-- The errors of `accept_global_request`. -/
inductive AcceptError where
  | decodeMessageType
  | decodeRequestType (e : CodecError)
  | decodeWantReply (e : CodecError)
  | unexpectedMessageType (messageType : VarInt)
  | sessionPoisoned
  deriving DecidableEq, Repr

/-- How a task ended. `V` is the type of decoded payloads and responses. The tickets of a request
are kept for reference. -/
inductive Outcome (V : Type) where
  | request (rq : GlobalRequest) (w r : ℕ) (result : Except SendRequestError V)
  | notification (result : Except WriteError Unit)
  | respond (result : Except WriteError Unit)
  | accept (e : AcceptError)
  | payload (e : CodecError)
  | notice (v : V)
  /-- The future or the object was dropped. -/
  | dropped

/-! ## Program counters

One constructor for each place between two atomic operations. Locals that are needed later are
its arguments: a ticket, the bytes got so far, what is left of a decoder, what is still to be
written. -/

/-- Where a task is inside `OrderedAccess::acquire`. A registered `Notified` future is the number
`seen` of `notify_waiters` calls before its registration. -/
inductive Acquire where
  /-- At the head of the loop: about to register. -/
  | register
  /-- About to load the poison flag. -/
  | checkPoison (seen : ℕ)
  /-- About to load `current_serving`. -/
  | checkServing (seen : ℕ)
  /-- At `notified.await`. -/
  | await (seen : ℕ)
  deriving DecidableEq

/-- Where a task is inside `acquire_writer`, `drain_auto_failures` included. -/
inductive WriterWait where
  /-- Draining: about to load `current_serving`. -/
  | drainLoad
  /-- Draining: about to remove `current` from the failure set. -/
  | drainRemove (current : ℕ)
  /-- Draining: in `acquire(current)`. -/
  | drainAcquire (current : ℕ) (acq : Acquire)
  /-- Draining: writing the automatic failure, with `rest` still to be handed to the writer. -/
  | drainWrite (current : ℕ) (rest : List UInt8)
  /-- About to compare `current_serving` with the ticket. -/
  | checkServing
  /-- About to register. -/
  | register
  /-- Registered, about to load the poison flag. -/
  | checkPoison (seen : ℕ)
  /-- Registered, about to compare `current_serving` with the ticket again. -/
  | recheckServing (seen : ℕ)
  /-- At `notified.await`. -/
  | await (seen : ℕ)
  /-- In `acquire(ticket)`. -/
  | acquire (acq : Acquire)

/-- The operations that write a message. A request carries the reader ticket of its pair. -/
inductive WriteOp where
  /-- The call of `send_global_request`. -/
  | request (rq : GlobalRequest) (r : ℕ)
  /-- The call of `send_global_notification`. -/
  | notification (notice : GlobalRequest)
  /-- The call of `respond_success` or `respond_failure`. -/
  | respond (answer : Answer)

/-- The operations that take a reader ticket. The response phase of a request carries the writer
ticket of its pair. -/
inductive ReadOp where
  /-- The call of `accept_global_request`. -/
  | accept
  /-- The second half of `send_global_request`. -/
  | response (rq : GlobalRequest) (w : ℕ)
  deriving DecidableEq

/-- The atomic operations of drop glue and of `poison()`. -/
inductive DropAct where
  /-- Set the flag. -/
  | storePoison
  /-- Wake those who wait for the reader. -/
  | notifyReader
  /-- Wake those who wait for the writer. -/
  | notifyWriter
  /-- `fetch_add` on the reader's `current_serving`, by the guard of ticket `t`. -/
  | advanceReader (t : ℕ)
  /-- `fetch_add` on the writer's `current_serving`, by the guard of ticket `t`. -/
  | advanceWriter (t : ℕ)
  | insertAutoFailure (t : ℕ)
  /-- A ticket number goes out of scope. -/
  | forgetTicket (t : ℕ)
  deriving DecidableEq

/-- `ConversationShared::poison`. -/
def poison : List DropAct := [.storePoison, .notifyReader, .notifyWriter]

/-- `OrderedGuard::drop` on the reader. -/
def dropReaderGuard (t : ℕ) : List DropAct := [.advanceReader t, .notifyReader]

/-- `OrderedGuard::drop` on the writer. -/
def dropWriterGuard (t : ℕ) : List DropAct := [.advanceWriter t, .notifyWriter]

/-- Where a task goes on when its drop glue has run. -/
inductive After (V : Type) where
  /-- It is over. -/
  | finish (o : Outcome V)
  /-- The next turn of the drain loop. -/
  | drain (op : WriteOp) (t : ℕ)
  /-- The response phase of a request. -/
  | response (rq : GlobalRequest) (w r : ℕ)
  /-- `decode_payload` returns a `DecodedGlobalRequest`. -/
  | decoded (ty : SshString) (w : ℕ) (v : V)

/-- Where a task is, with its locals. `t` is always the ticket its current phase is about, and
`got` the bytes it has consumed of the message it is reading. -/
inductive Pc (V : Type) where
  | idle
  /-- `allocate_request_ticket_pair`: about to lock. -/
  | pairLock (rq : GlobalRequest)
  /-- Locked, about to take the writer ticket. -/
  | pairWriter (rq : GlobalRequest)
  /-- Locked, about to take the reader ticket. -/
  | pairReader (rq : GlobalRequest) (w : ℕ)
  /-- About to unlock. -/
  | pairUnlock (rq : GlobalRequest) (w r : ℕ)
  | acquireWriter (op : WriteOp) (t : ℕ) (wait : WriterWait)
  /-- With the writer guard: `rest` is still to be handed to the writer, then flushed. -/
  | writing (op : WriteOp) (t : ℕ) (rest : List UInt8)
  | acquireReader (op : ReadOp) (t : ℕ) (acq : Acquire)
  /-- `accept_global_request`, decoding the header. -/
  | readingHeader (t : ℕ) (got : List UInt8) (d : Decoder AcceptError (SshString × Bool))
  /-- `send_global_request`, decoding the response. -/
  | readingResponse (rq : GlobalRequest) (w t : ℕ) (got : List UInt8)
      (d : Decoder SendRequestError V)
  /-- An `IncomingGlobalRequest` (with a writer ticket) or `IncomingGlobalNotice` (without). -/
  | incoming (ty : SshString) (t : ℕ) (w : Option ℕ) (got : List UInt8)
  /-- In `decode_payload`. -/
  | readingPayload (ty : SshString) (t : ℕ) (w : Option ℕ) (got : List UInt8)
      (d : Decoder CodecError V)
  /-- A `DecodedGlobalRequest`. -/
  | decoded (ty : SshString) (w : ℕ) (v : V)
  /-- Running drop glue. -/
  | unwinding (acts : List DropAct) (next : After V)
  | finished (o : Outcome V)

/-- The place a task goes on at. -/
def After.resume {V : Type} : After V → Pc V
  | finish o => .finished o
  | drain op t => .acquireWriter op t .drainLoad
  | response rq w r => .acquireReader (.response rq w) r .register
  | decoded ty w v => .decoded ty w v

/-! ## The shared state

The fields of `ConversationShared`, with the bytes of the control stream in place of its halves.
The history is read by no step. -/

/-- `OrderedAccessInner` without its resource. The counters are natural numbers: the source's `u64`
wraps only after `2 ^ 64` tickets. `notify_waiters` completes the `Notified` futures registered
before the call and leaves nothing for later ones, so a registration is the number of calls so far
and a future is complete when that number has changed. -/
structure OrderedAccess where
  /-- The next ticket to be taken. -/
  nextTicket : ℕ := 0
  /-- The ticket whose turn it is. -/
  currentServing : ℕ := 0
  /-- How often `notify_waiters` has been called. -/
  notifyCalls : ℕ := 0
  /-- History: the tickets guards were granted for. -/
  granted : List ℕ := []
  /-- History: the tickets of the guards that were dropped. -/
  released : List ℕ := []

/-- What has happened on the control stream. -/
structure History where
  /-- The messages writers have started, each with its writer ticket. -/
  started : List (ℕ × ControlMessage) := []
  /-- A writer has given up its message before all of it was on the wire. -/
  leftIncomplete : Bool := false
  /-- The bytes consumed from the incoming stream. -/
  consumed : List UInt8 := []
  /-- The operations that took the reader tickets `0, 1, …`. -/
  readOps : List ReadOp := []
  /-- The accepted requests that want a reply: their writer tickets and types. -/
  accepted : List (ℕ × SshString) := []
  /-- The answers handlers have chosen, dropping included. -/
  chosen : List (ℕ × Answer) := []

/-- `ConversationShared`, with the two halves of the control stream. The writer is buffered:
encoding puts bytes into `buffer`, from where they get onto the wire (`sent`) in order, at the
latest by flushing. -/
structure Shared where
  /-- The reading half. -/
  reader : OrderedAccess := {}
  /-- The writing half. -/
  writer : OrderedAccess := {}
  /-- The session is broken, and says so to everybody. -/
  poisoned : Bool := false
  /-- Somebody is taking a pair of tickets. -/
  ticketPairLock : Bool := false
  /-- The tickets of requests that are refused as soon as their turn comes. -/
  autoFailures : Finset ℕ := ∅
  /-- Bytes that have arrived and are not consumed. -/
  incoming : List UInt8 := []
  /-- What has been encoded and is not on the wire. -/
  buffer : List UInt8 := []
  /-- What is on the wire. -/
  sent : List UInt8 := []
  /-- What has happened; no step looks at it. -/
  history : History := {}

end Conversation

/-- A conversation and the tasks that use it. -/
structure Conversation (V : Type) where
  shared : Conversation.Shared
  tasks : ℕ → Conversation.Pc V

end Dssh
