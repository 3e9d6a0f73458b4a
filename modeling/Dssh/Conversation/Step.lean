import Dssh.Conversation.State
import Dssh.Lib.Machine

/-!
# The atomic operations of a conversation

`Pc.step` is one atomic operation of one task: a load, a store or a read-modify-write of a
shared variable, a locked access to the failure set, one `notify_waiters`, some bytes of I/O.
What the scheduler and the environment decide is the `Event`: which operation is called, how
many bytes an encoder or the transport takes, whether I/O fails, and where a future is dropped.
A future can be dropped only where it is suspended, so `cancel` is enabled at `notified.await`,
while bytes are being written, and while a decoder waits for a byte.

Payload formats belong to the request types, not to the conversation. They are the parameter
`GlobalProtocol`.

## How to read the step function

The match of `Pc.step` has one arm for each place and event that go together, in the order in
which a call passes through the places. An arm is the atomic operation that the source performs
there, and the place behind it. Operations on the shared state have names
(`Shared.takeWriterTicket`, `Shared.grantReader` and so on), each with what it records in the
history.

`acquire` is a function of its own (`Acquire.step`), since it is called from four places for two
resources: it returns whether to go on waiting, or that the guard has been granted or refused.
What the caller does with that is an arm of `Pc.step`, or of `stepAcquireWriter`.

## Errors and drops

Each early return of the source drops what the future holds. The values are dropped in the order
in which the language drops them: locals in the reverse order of their declaration, then what
was moved in. Where the order matters the arm lists it, as in `poison ++ dropReaderGuard t ++
forgetTicket w`. Both `PoisonOnDrop` and the `Drop` implementations of the incoming objects
poison *before* they release the guard, so that nobody gets the resource in between.

A ticket is a number in the source, and numbers have no destructor. Dropping a future that has a
ticket and has not used it does nothing at all. `forgetTicket` is the place where this happens
in drop glue; it changes nothing, and is there to be seen.

## The peer

`Action.arrive` adds bytes to what can be read. What the bytes are is up to the peer, so every
statement about `machine` is about an arbitrary one, well behaved or not. A statement about a
particular peer puts it in a machine of its own.
-/

namespace Dssh

namespace Conversation

/-- For every request type string, how its payload and its success response are decoded. -/
structure GlobalProtocol (V : Type) where
  /-- The payload of requests of this type. -/
  payload : SshString → Decoder CodecError V
  /-- The response to them. -/
  success : SshString → Decoder CodecError V

/-- The protocol in which all payloads and responses are empty. -/
def GlobalProtocol.empty : GlobalProtocol Unit := ⟨fun _ => .done (), fun _ => .done ()⟩

/-- What happens to a task. -/
inductive Event where
  /-- The operation is called. -/
  | sendGlobalRequest (rq : GlobalRequest)
  /-- The operation is called. -/
  | sendGlobalNotification (notice : GlobalRequest)
  /-- The operation is called. -/
  | acceptGlobalRequest
  /-- `decode_payload` is called on an incoming object. -/
  | decodePayload
  /-- `respond_success` or `respond_failure` is called on a decoded request. -/
  | respond (answer : Answer)
  /-- An incoming object or a decoded request is dropped. -/
  | drop
  /-- The task performs its next atomic operation. -/
  | run
  /-- The encoder hands `n` bytes to the writer. -/
  | write (n : ℕ)
  /-- `n` buffered bytes get onto the wire. -/
  | push (n : ℕ)
  /-- The I/O operation in progress fails. -/
  | ioError
  /-- The suspended future is dropped. -/
  | cancel

/-! ## Operations on the shared state

One definition for each thing that is done to the shared state. The step function names them, so
that what it does to a field can be found here. -/

namespace OrderedAccess

/-- `take_ticket` -/
def takeTicket (oa : OrderedAccess) : OrderedAccess := { oa with nextTicket := oa.nextTicket + 1 }

/-- `notify_waiters` -/
def notifyWaiters (oa : OrderedAccess) : OrderedAccess :=
  { oa with notifyCalls := oa.notifyCalls + 1 }

/-- A guard is created for ticket `t`. -/
def grant (oa : OrderedAccess) (t : ℕ) : OrderedAccess := { oa with granted := oa.granted ++ [t] }

/-- The guard of ticket `t` advances the counter. -/
def advance (oa : OrderedAccess) (t : ℕ) : OrderedAccess :=
  { oa with currentServing := oa.currentServing + 1, released := oa.released ++ [t] }

end OrderedAccess

namespace Shared

/-- A ticket of the writer is taken. -/
def takeWriterTicket (sh : Shared) : Shared := { sh with writer := sh.writer.takeTicket }

/-- A ticket of the reader is taken, for this operation. -/
def takeReaderTicket (sh : Shared) (op : ReadOp) : Shared :=
  { sh with
    reader := sh.reader.takeTicket
    history := { sh.history with readOps := sh.history.readOps ++ [op] } }

/-- `take_ticket` for the reply to an incoming request. -/
def takeReplyTicket (sh : Shared) (ty : SshString) : Shared :=
  { sh with
    writer := sh.writer.takeTicket
    history :=
      { sh.history with accepted := sh.history.accepted ++ [(sh.writer.nextTicket, ty)] } }

/-- The writer guard is granted for ticket `t`, to write `m`. -/
def grantWriter (sh : Shared) (t : ℕ) (m : ControlMessage) : Shared :=
  { sh with
    writer := sh.writer.grant t
    history := { sh.history with started := sh.history.started ++ [(t, m)] } }

/-- The reader guard is granted for ticket `t`. -/
def grantReader (sh : Shared) (t : ℕ) : Shared := { sh with reader := sh.reader.grant t }

/-- The writer takes bytes into its buffer. -/
def write (sh : Shared) (bytes : List UInt8) : Shared := { sh with buffer := sh.buffer ++ bytes }

/-- Buffered bytes get onto the wire. -/
def push (sh : Shared) (n : ℕ) : Shared :=
  { sh with sent := sh.sent ++ sh.buffer.take n, buffer := sh.buffer.drop n }

/-- A writer gives up with `rest` not handed over. -/
def abandon (sh : Shared) (rest : List UInt8) : Shared :=
  { sh with
    history :=
      { sh.history with
        leftIncomplete := sh.history.leftIncomplete || !(rest.isEmpty && sh.buffer.isEmpty) } }

/-- The reader consumes the byte `b`, leaving `rest`. -/
def consume (sh : Shared) (b : UInt8) (rest : List UInt8) : Shared :=
  { sh with
    incoming := rest
    history := { sh.history with consumed := sh.history.consumed ++ [b] } }

/-- A handler decides how the request with writer ticket `w` is answered. -/
def choose (sh : Shared) (w : ℕ) (a : Answer) : Shared :=
  { sh with history := { sh.history with chosen := sh.history.chosen ++ [(w, a)] } }

end Shared

/-- What an operation of drop glue does. -/
def DropAct.exec (sh : Shared) : DropAct → Shared
  | storePoison => { sh with poisoned := true }
  | notifyReader => { sh with reader := sh.reader.notifyWaiters }
  | notifyWriter => { sh with writer := sh.writer.notifyWaiters }
  | advanceReader t => { sh with reader := sh.reader.advance t }
  | advanceWriter t => { sh with writer := sh.writer.advance t }
  | insertAutoFailure t => { sh with autoFailures := insert t sh.autoFailures }
  | forgetTicket _ => sh

/-! ## `OrderedAccess::acquire`

The loop of `acquire`, an operation at a time: register, load the flag, load the counter, wait.
It is the same for the reader and the writer. -/

/-- What one atomic operation of `acquire` leads to. -/
inductive Acquire.Next where
  /-- Go on at this place. -/
  | wait (acq : Acquire)
  /-- The session is poisoned. -/
  | refused
  /-- The guard is made. -/
  | granted

/-- One atomic operation of `acquire(ticket)`; `none` while `notified.await` is pending. -/
def Acquire.step (oa : OrderedAccess) (poisoned : Bool) (ticket : ℕ) : Acquire → Option Next
  | register => some (.wait (.checkPoison oa.notifyCalls))
  | checkPoison seen => some (if poisoned then .refused else .wait (.checkServing seen))
  | checkServing seen =>
    some (if oa.currentServing = ticket then .granted else .wait (.await seen))
  | await seen => if oa.notifyCalls = seen then none else some (.wait .register)

/-! ## Outcomes and decoders of the operations

Where the operations differ: what they write, how they decode, and which error they return at
which place. -/

variable {V : Type}

namespace WriteOp

/-- The message an operation writes. -/
def message : WriteOp → ControlMessage
  | request rq _ => .globalRequest rq true
  | notification notice => .globalRequest notice false
  | respond answer => .ofAnswer answer

/-- What an operation with writer ticket `t` returns when its writing half fails. -/
def failed (t : ℕ) (e : WriteError) : WriteOp → Outcome V
  | request rq r => .request rq t r (.error (.write e))
  | notification _ => .notification (.error e)
  | respond _ => .respond (.error e)

/-- What an operation with writer ticket `t` does when its message is written. -/
def written (t : ℕ) : WriteOp → After V
  | request rq r => .response rq t r
  | notification _ => .finish (.notification (.ok ()))
  | respond _ => .finish (.respond (.ok ()))

/-- The error of an operation whose I/O fails with `rest` not handed over. -/
def encodeError (op : WriteOp) (rest : List UInt8) : WriteError :=
  .encode (ControlMessage.stageAt op.message.fields (op.message.encode.length - rest.length))

end WriteOp

/-- What an operation returns when the reader is refused to it. -/
def ReadOp.refused (t : ℕ) : ReadOp → Outcome V
  | accept => .accept .sessionPoisoned
  | response rq w => .request rq w t (.error .sessionPoisoned)

/-- The header of an incoming request, as `accept_global_request` decodes it. -/
def acceptHeader : Decoder AcceptError (SshString × Bool) := do
  let messageType ← VarInt.decoder .decodeMessageType
  if messageType ≠ sshMsgGlobalRequest then .fail (.unexpectedMessageType messageType)
  else
    let requestType ← SshString.decoder.mapError .decodeRequestType
    let wantReply ← SshBool.decoder.mapError .decodeWantReply
    pure (requestType, wantReply)

/-- The response to a request, as `send_global_request` decodes it. -/
def responseDecoder (P : GlobalProtocol V) (ty : SshString) : Decoder SendRequestError V := do
  let messageType ← VarInt.decoder .decodeResponseType
  if messageType = sshMsgRequestSuccess then (P.success ty).mapError .decodeSuccess
  else if messageType = sshMsgRequestFailure then .fail .rejected
  else .fail (.unexpectedResponseType messageType)

/-- The place of an operation that is granted the reader. -/
def ReadOp.reading (P : GlobalProtocol V) (t : ℕ) : ReadOp → Pc V
  | accept => .readingHeader t [] acceptHeader
  | response rq w => .readingResponse rq w t [] (responseDecoder P rq.requestType)

/-- The drop glue of an unused writer ticket in an `Option<u64>` field. -/
def forgetTicket : Option ℕ → List DropAct
  | none => []
  | some w => [.forgetTicket w]

/-! ## The step

The places of `acquire_writer` are shared by all that write and have a function of their own. All
others are cases of `Pc.step`, in the order in which they follow each other in the source. -/

/-- One atomic operation of `acquire_writer(t)` on behalf of `op`. -/
def stepAcquireWriter (sh : Shared) (op : WriteOp) (t : ℕ) :
    WriterWait → Event → Option (Shared × Pc V)
  | .drainLoad, .run =>
    some (sh, .acquireWriter op t (.drainRemove sh.writer.currentServing))
  | .drainRemove current, .run =>
    if current ∈ sh.autoFailures then
      some ({ sh with autoFailures := sh.autoFailures.erase current },
        .acquireWriter op t (.drainAcquire current .register))
    else some (sh, .acquireWriter op t .checkServing)
  | .drainAcquire current acq, .run =>
    match acq.step sh.writer sh.poisoned current with
    | none => none
    | some (.wait acq') => some (sh, .acquireWriter op t (.drainAcquire current acq'))
    | some .refused => some (sh, .finished (op.failed t .sessionPoisoned))
    | some .granted =>
      some (sh.grantWriter current .requestFailure,
        .acquireWriter op t (.drainWrite current ControlMessage.requestFailure.encode))
  | .drainAcquire _ (.await _), .cancel => some (sh, .finished .dropped)
  | .drainWrite current rest, .write n =>
    if 0 < n ∧ n ≤ rest.length then
      some (sh.write (rest.take n), .acquireWriter op t (.drainWrite current (rest.drop n)))
    else none
  | .drainWrite current rest, .push n =>
    if 0 < n ∧ n ≤ sh.buffer.length then
      some (sh.push n, .acquireWriter op t (.drainWrite current rest))
    else none
  | .drainWrite current rest, .run =>
    if rest = [] ∧ sh.buffer = [] then
      some (sh, .unwinding (dropWriterGuard current) (.drain op t))
    else none
  -- the drain loop drops its guard by hand, and poisons only afterwards
  | .drainWrite current rest, .ioError =>
    some (sh.abandon rest, .unwinding (dropWriterGuard current ++ poison ++ [.forgetTicket t])
      (.finish (op.failed t .sessionPoisoned)))
  | .drainWrite current rest, .cancel =>
    some (sh.abandon rest, .unwinding (dropWriterGuard current) (.finish .dropped))
  | .checkServing, .run =>
    some (sh, .acquireWriter op t
      (if sh.writer.currentServing = t then .acquire .register else .register))
  | .register, .run => some (sh, .acquireWriter op t (.checkPoison sh.writer.notifyCalls))
  | .checkPoison seen, .run =>
    some (sh, if sh.poisoned then .finished (op.failed t .sessionPoisoned)
      else .acquireWriter op t (.recheckServing seen))
  | .recheckServing seen, .run =>
    some (sh, .acquireWriter op t
      (if sh.writer.currentServing = t then .acquire .register else .await seen))
  | .await seen, .run =>
    if sh.writer.notifyCalls = seen then none else some (sh, .acquireWriter op t .drainLoad)
  | .await _, .cancel => some (sh, .finished .dropped)
  | .acquire acq, .run =>
    match acq.step sh.writer sh.poisoned t with
    | none => none
    | some (.wait acq') => some (sh, .acquireWriter op t (.acquire acq'))
    | some .refused => some (sh, .finished (op.failed t .sessionPoisoned))
    | some .granted => some (sh.grantWriter t op.message, .writing op t op.message.encode)
  | .acquire (.await _), .cancel => some (sh, .finished .dropped)
  | _, _ => none

/-- One atomic operation of a task. -/
def Pc.step (P : GlobalProtocol V) (sh : Shared) : Pc V → Event → Option (Shared × Pc V)
  | .idle, .sendGlobalRequest rq => some (sh, .pairLock rq)
  | .idle, .sendGlobalNotification notice =>
    some (sh.takeWriterTicket,
      .acquireWriter (.notification notice) sh.writer.nextTicket .drainLoad)
  | .idle, .acceptGlobalRequest =>
    some (sh.takeReaderTicket .accept, .acquireReader .accept sh.reader.nextTicket .register)
  | .pairLock rq, .run =>
    if sh.ticketPairLock then none else some ({ sh with ticketPairLock := true }, .pairWriter rq)
  | .pairWriter rq, .run => some (sh.takeWriterTicket, .pairReader rq sh.writer.nextTicket)
  | .pairReader rq w, .run =>
    some (sh.takeReaderTicket (.response rq w), .pairUnlock rq w sh.reader.nextTicket)
  | .pairUnlock rq w r, .run =>
    some ({ sh with ticketPairLock := false }, .acquireWriter (.request rq r) w .drainLoad)
  | .acquireWriter op t wait, e => stepAcquireWriter sh op t wait e
  | .writing op t rest, .write n =>
    if 0 < n ∧ n ≤ rest.length then
      some (sh.write (rest.take n), .writing op t (rest.drop n))
    else none
  | .writing op t rest, .push n =>
    if 0 < n ∧ n ≤ sh.buffer.length then some (sh.push n, .writing op t rest) else none
  | .writing op t rest, .run =>
    if rest = [] ∧ sh.buffer = [] then
      some (sh, .unwinding (dropWriterGuard t) (op.written t))
    else none
  | .writing op t rest, .ioError =>
    some (sh.abandon rest, .unwinding (poison ++ dropWriterGuard t)
      (.finish (op.failed t (op.encodeError rest))))
  | .writing _ t rest, .cancel =>
    some (sh.abandon rest, .unwinding (poison ++ dropWriterGuard t) (.finish .dropped))
  | .acquireReader op t acq, .run =>
    match acq.step sh.reader sh.poisoned t with
    | none => none
    | some (.wait acq') => some (sh, .acquireReader op t acq')
    | some .refused => some (sh, .finished (op.refused t))
    | some .granted => some (sh.grantReader t, op.reading P t)
  | .acquireReader _ _ (.await _), .cancel => some (sh, .finished .dropped)
  | .readingHeader t got (.read _ k), .run =>
    match sh.incoming with
    | [] => none
    | b :: rest => some (sh.consume b rest, .readingHeader t (got ++ [b]) (k b))
  | .readingHeader t _ (.read io _), .ioError =>
    some (sh, .unwinding (poison ++ dropReaderGuard t) (.finish (.accept io)))
  | .readingHeader t _ (.read _ _), .cancel =>
    some (sh, .unwinding (poison ++ dropReaderGuard t) (.finish .dropped))
  | .readingHeader t _ (.fail e), .run =>
    some (sh, .unwinding (poison ++ dropReaderGuard t) (.finish (.accept e)))
  | .readingHeader t got (.done (ty, wantReply)), .run =>
    if wantReply then
      some (sh.takeReplyTicket ty, .incoming ty t (some sh.writer.nextTicket) got)
    else some (sh, .incoming ty t none got)
  | .readingResponse rq w t got (.read _ k), .run =>
    match sh.incoming with
    | [] => none
    | b :: rest => some (sh.consume b rest, .readingResponse rq w t (got ++ [b]) (k b))
  -- the response phase has no `PoisonOnDrop`
  | .readingResponse rq w t _ (.read io _), .ioError =>
    some (sh, .unwinding (dropReaderGuard t) (.finish (.request rq w t (.error io))))
  | .readingResponse _ _ t _ (.read _ _), .cancel =>
    some (sh, .unwinding (dropReaderGuard t) (.finish .dropped))
  | .readingResponse rq w t _ (.fail e), .run =>
    some (sh, .unwinding (dropReaderGuard t) (.finish (.request rq w t (.error e))))
  | .readingResponse rq w t _ (.done v), .run =>
    some (sh, .unwinding (dropReaderGuard t) (.finish (.request rq w t (.ok v))))
  | .incoming ty t w got, .decodePayload =>
    some (sh, .readingPayload ty t w got (P.payload ty))
  | .incoming _ t w _, .drop =>
    some (sh, .unwinding (poison ++ dropReaderGuard t ++ forgetTicket w) (.finish .dropped))
  | .readingPayload ty t w got (.read _ k), .run =>
    match sh.incoming with
    | [] => none
    | b :: rest => some (sh.consume b rest, .readingPayload ty t w (got ++ [b]) (k b))
  | .readingPayload _ t w _ (.read io _), .ioError =>
    some (sh, .unwinding (poison ++ dropReaderGuard t ++ forgetTicket w) (.finish (.payload io)))
  | .readingPayload _ t w _ (.read _ _), .cancel =>
    some (sh, .unwinding (poison ++ dropReaderGuard t ++ forgetTicket w) (.finish .dropped))
  | .readingPayload _ t w _ (.fail e), .run =>
    some (sh, .unwinding (poison ++ dropReaderGuard t ++ forgetTicket w) (.finish (.payload e)))
  | .readingPayload ty t w _ (.done v), .run =>
    some (sh, .unwinding (dropReaderGuard t)
      (match w with
      | some w => .decoded ty w v
      | none => .finish (.notice v)))
  | .decoded _ w _, .respond a =>
    some (sh.choose w a, .acquireWriter (.respond a) w .drainLoad)
  | .decoded _ w _, .drop =>
    some (sh.choose w .failure,
      .unwinding [.insertAutoFailure w, .notifyWriter] (.finish .dropped))
  | .unwinding (act :: acts) next, .run => some (act.exec sh, .unwinding acts next)
  | .unwinding [] next, .run => some (sh, next.resume)
  | _, _ => none

/-- What the scheduler and the peer decide. -/
inductive Action where
  /-- An atomic operation of a task. -/
  | task (i : ℕ) (e : Event)
  /-- Bytes arrive from the peer. -/
  | arrive (bytes : List UInt8)

end Conversation

namespace Conversation

variable {V : Type}

/-- No tickets taken, nothing read or written, every task idle. -/
def initial : Conversation V := ⟨{}, fun _ => .idle⟩

/-- Bytes arrive from the peer. -/
def arrive (s : Conversation V) (bytes : List UInt8) : Conversation V :=
  { s with shared := { s.shared with incoming := s.shared.incoming ++ bytes } }

/-- One step of the conversation. -/
def step (P : GlobalProtocol V) (s : Conversation V) : Action → Option (Conversation V)
  | .task i e =>
    ((s.tasks i).step P s.shared e).map fun (sh, pc) => ⟨sh, Function.update s.tasks i pc⟩
  | .arrive bytes => some (s.arrive bytes)

/-- Conversations as a machine: any number of tasks, any schedule, any peer. -/
def machine (P : GlobalProtocol V) : Machine (Conversation V) Action := ⟨initial, step P⟩

end Conversation

end Dssh
