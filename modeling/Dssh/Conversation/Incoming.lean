import Dssh.Conversation.Tickets

/-!
# The incoming control stream

Readers take messages off the stream one at a time, under the reader guard. Who gives up in the
middle of a message leaves the stream where no message begins, so it has to poison the session
before the guard is released. `accept_global_request` and the objects it returns do so, through
`PoisonOnDrop`. The response phase of `send_global_request` does not.

`IsMessage` says what a complete control message is, independently of the decoders that read it.

## Where a message ends

A control message has no length. Where a request ends depends on the payload of its type, and
where a SUCCESS ends depends on the type of the request that it *answers*, which is not in the
message at all. The same bytes may be a complete reply to one request and half of a reply to
another. So whether a stream has been consumed up to the end of a message can only be said
relative to the requests that have been asked.

`Messages P answered bytes` has these types as a parameter: the replies in `bytes` are complete
for requests of the types `answered`, one after the other. `Whole` ties them to the side that
reads: `answered` is an initial part of the types it has asked, in the order of its reader
tickets. Given the types asked, a stream can be read in one way only (`Messages.unique`), which
also shows how it goes wrong: `otherReplyRun_misaligned` has a request cancelled before its
response has come, and the next request, of another type, takes the reply for its own.

## The two ways to lose the place

`LosesPlace` is the condition under which the result holds, read off the state before a step. A
response is given up in the middle: by an I/O error or cancellation behind its first byte, or by
a decoding error; the source returns there with `?`, which drops the guard and poisons nothing.
Or a response *begins* to be read where the next reply on the stream is to another request whose
success value is encoded differently. The second can happen only behind a cancellation that gave
up before the first byte.

Requests whose success values are encoded alike may answer for each other as far as the place in
the stream is concerned. The condition says so, since nothing goes wrong with the stream then,
whatever the caller makes of the value.

## How the proof goes

`Pc.Aligned` says for each place of a reader what it has got of the message at hand, and that
whole messages come before. One step of one reader keeps it (`Pc.Steps.aligned`). Only the
reader with the guard consumes anything, so the other tasks' standing is not touched, and a
guard is released at the end of a message or on a poisoned session.

## Main definitions

* `IsMessage`, `Messages`, `Whole` — complete messages, for a side that has asked some requests
* `Pc.Aligned` — where a reader stands
* `Conversation.LosesPlace` — the steps that the result excludes

## Main results

* `Messages.unique` — a stream can be read in one way
* `Conversation.aligned` — where a reader stands in the stream, in runs in which nobody loses
  the place
* `Conversation.released_whole` — in the same runs, a reader guard is released on a poisoned
  session or between two messages
* `Conversation.halfResponseRun_misaligned`, `Conversation.otherReplyRun_misaligned` — runs in
  which the place is lost
-/

namespace Dssh

open TicketQueue

namespace Conversation

variable {V : Type}

/-! ## Complete messages

A request can be told from a reply by its type, and both can be read to their ends by somebody
who knows the types of the requests that this side has asked. `messageDecoder` does this. It
shows that the stream can be read in one way only, which is needed to say that bytes are *not*
whole messages. -/

/-- The bytes of a complete control message: a type, and what the type calls for. After SUCCESS that
is the success value of the request answered, so a reply is complete for a request of type `ty`; a
request of the peer answers nothing. -/
inductive IsMessage (P : GlobalProtocol V) : Option SshString → List UInt8 → Prop
  /-- A request of the peer. -/
  | request {ty : SshString} {wantReply : Bool} {v : V} {x y z body : List UInt8}
      (htype : (VarInt.decoder CodecError.readIo).Accepts x sshMsgGlobalRequest)
      (hname : SshString.decoder.Accepts y ty) (hreply : SshBool.decoder.Accepts z wantReply)
      (hbody : (P.payload ty).Accepts body v) : IsMessage P none (x ++ (y ++ z) ++ body)
  | success {ty : SshString} {v : V} {x body : List UInt8}
      (htype : (VarInt.decoder CodecError.readIo).Accepts x sshMsgRequestSuccess)
      (hbody : (P.success ty).Accepts body v) : IsMessage P (some ty) (x ++ body)
  | failure {ty : SshString} {x : List UInt8}
      (htype : (VarInt.decoder CodecError.readIo).Accepts x sshMsgRequestFailure) :
      IsMessage P (some ty) x

/-- Complete messages, one after the other; the replies among them are complete for requests of the
types `answered`, in this order. -/
def Messages (P : GlobalProtocol V) (answered : List SshString) (bytes : List UInt8) : Prop :=
  ∃ messages : List (Option SshString × List UInt8), (∀ m ∈ messages, IsMessage P m.1 m.2) ∧
    messages.filterMap Prod.fst = answered ∧ bytes = (messages.map Prod.snd).flatten

/-- No messages are no bytes. -/
theorem Messages.nil (P : GlobalProtocol V) : Messages P [] [] := ⟨[], by simp, rfl, rfl⟩

/-- Another message at the end. -/
theorem Messages.append {P : GlobalProtocol V} {answered : List SshString} {bytes m : List UInt8}
    {answers : Option SshString} (h : Messages P answered bytes) (hm : IsMessage P answers m) :
    Messages P (answered ++ answers.toList) (bytes ++ m) := by
  obtain ⟨messages, hall, rfl, rfl⟩ := h
  refine ⟨messages ++ [(answers, m)], fun x hx => ?_, ?_, by simp⟩
  · rcases List.mem_append.mp hx with hx | hx
    · exact hall x hx
    · exact List.mem_singleton.mp hx ▸ hm
  · cases answers <;> simp

/-- Every message begins with a complete type. -/
theorem IsMessage.exists_type {P : GlobalProtocol V} {answers : Option SshString} {m : List UInt8}
    (h : IsMessage P answers m) :
    ∃ x rest mt, m = x ++ rest ∧ (VarInt.decoder CodecError.readIo).Accepts x mt := by
  cases h with
  | request htype => exact ⟨_, _, _, List.append_assoc _ _ _, htype⟩
  | success htype => exact ⟨_, _, _, rfl, htype⟩
  | failure htype => exact ⟨_, [], _, (List.append_nil _).symm, htype⟩

/-- No message is empty. -/
theorem IsMessage.ne_nil {P : GlobalProtocol V} {answers : Option SshString} {m : List UInt8}
    (h : IsMessage P answers m) : m ≠ [] := by
  obtain ⟨x, rest, mt, rfl, htype⟩ := h.exists_type
  cases x with
  | nil => cases htype
  | cons => exact List.cons_ne_nil _ _

/-- The decoder of a complete message, for a side on which the next reply is to a request of type
`next`. It returns what the message answers. -/
def messageDecoder (P : GlobalProtocol V) (next : SshString) :
    Decoder CodecError (Option SshString) := do
  let messageType ← VarInt.decoder .readIo
  if messageType = sshMsgGlobalRequest then
    let requestType ← SshString.decoder
    let _ ← SshBool.decoder
    let _ ← P.payload requestType
    pure none
  else if messageType = sshMsgRequestSuccess then
    let _ ← P.success next
    pure (some next)
  else if messageType = sshMsgRequestFailure then pure (some next)
  else .fail .readIo

/-- Behind the type of a success message comes a value that depends on the request. -/
theorem messageDecoder_success (P : GlobalProtocol V) (next : SshString) :
    (messageDecoder P next).after sshMsgRequestSuccess.encode
      = some ((P.success next).bind fun _ => pure (some next)) := by
  rw [messageDecoder, Decoder.bind_eq, Decoder.after_bind (VarInt.accepts_encode _ _),
    Decoder.done_bind, if_neg (by decide), if_pos rfl]
  rfl

/-- This is what it accepts, on a side that waits for such a reply. -/
theorem IsMessage.accepts {P : GlobalProtocol V} {next : SshString} {answers : Option SshString}
    {m : List UInt8} (h : IsMessage P answers m) (hnext : ∀ ty ∈ answers, ty = next) :
    (messageDecoder P next).Accepts m answers := by
  cases h with
  | request htype hname hreply hbody =>
    rw [List.append_assoc, List.append_assoc]
    refine Decoder.Accepts.bind htype ?_
    rw [if_pos rfl]
    exact hname.bind (hreply.bind (hbody.bind_done rfl))
  | success htype hbody =>
    obtain rfl := hnext _ rfl
    refine Decoder.Accepts.bind htype ?_
    rw [if_neg (by decide), if_pos rfl]
    exact hbody.bind_done rfl
  | failure htype =>
    obtain rfl := hnext _ rfl
    refine Decoder.Accepts.bind_done htype ?_
    rw [if_neg (by decide), if_neg (by decide), if_pos rfl]
    rfl

/-- The first of some messages, and what the rest of them answer. -/
theorem Messages.cons {P : GlobalProtocol V} {messages : List (Option SshString × List UInt8)}
    {m : Option SshString × List UInt8} {asked : List SshString}
    (hasked : (m :: messages).filterMap Prod.fst <+: asked) (hm : IsMessage P m.1 m.2) :
    (messageDecoder P asked.headI).Accepts m.2 m.1 ∧
      messages.filterMap Prod.fst <+: asked.drop m.1.toList.length := by
  obtain ⟨answers, bytes⟩ := m
  cases answers with
  | none => exact ⟨hm.accepts nofun, hasked⟩
  | some ty =>
    obtain ⟨tys, rfl⟩ := hasked
    refine ⟨hm.accepts fun ty' hty => ?_, List.prefix_append _ _⟩
    exact (Option.mem_some_iff.mp hty).symm

/-- **The stream can be read in one way.** Which requests have been answered in it is determined by
its bytes. -/
theorem Messages.unique {P : GlobalProtocol V} {asked answered answered' : List SshString}
    {bytes : List UInt8} (h : Messages P answered bytes) (h' : Messages P answered' bytes)
    (hasked : answered <+: asked) (hasked' : answered' <+: asked) : answered = answered' := by
  obtain ⟨messages, hall, rfl, rfl⟩ := h
  obtain ⟨messages', hall', rfl, hbytes⟩ := h'
  induction messages generalizing asked messages' with
  | nil => cases messages' with
    | nil => rfl
    | cons m' messages' =>
      have hnil := (List.append_eq_nil_iff.mp (List.flatten_cons .. ▸ hbytes.symm)).1
      exact absurd hnil (hall' m' List.mem_cons_self).ne_nil
  | cons m messages ih => cases messages' with
    | nil =>
      have hnil := (List.append_eq_nil_iff.mp (List.flatten_cons .. ▸ hbytes)).1
      exact absurd hnil (hall m List.mem_cons_self).ne_nil
    | cons m' messages' =>
      obtain ⟨hm, hall⟩ := List.forall_mem_cons.mp hall
      obtain ⟨hm', hall'⟩ := List.forall_mem_cons.mp hall'
      obtain ⟨haccepts, hrest⟩ := Messages.cons hasked hm
      obtain ⟨haccepts', hrest'⟩ := Messages.cons hasked' hm'
      obtain ⟨-, hanswers, hbytes⟩ := haccepts.unique haccepts' (by simpa using hbytes)
      have hlater := ih hall hrest messages' hall' hbytes (hanswers ▸ hrest')
      rw [List.filterMap_cons, List.filterMap_cons, hanswers, hlater]

/-- A whole number of complete messages, seen by a side that has asked requests of the types
`asked`: the `i`-th reply is complete for the `i`-th of them. -/
def Whole (P : GlobalProtocol V) (asked : List SshString) (bytes : List UInt8) : Prop :=
  ∃ answered, answered <+: asked ∧ Messages P answered bytes

/-- Nothing has been consumed. -/
theorem Whole.nil (P : GlobalProtocol V) (asked : List SshString) : Whole P asked [] :=
  ⟨[], List.nil_prefix, .nil P⟩

/-- More requests may be asked. -/
theorem Whole.mono {P : GlobalProtocol V} {asked asked' : List SshString} {bytes : List UInt8}
    (hwhole : Whole P asked bytes) (h : asked <+: asked') : Whole P asked' bytes := by
  obtain ⟨answered, hprefix, hmessages⟩ := hwhole
  exact ⟨answered, hprefix.trans h, hmessages⟩

/-- Another request of the peer. -/
theorem Whole.append {P : GlobalProtocol V} {asked : List SshString} {bytes m : List UInt8}
    (h : Whole P asked bytes) (hm : IsMessage P none m) : Whole P asked (bytes ++ m) := by
  obtain ⟨answered, hprefix, hmessages⟩ := h
  exact ⟨answered, hprefix, by simpa using hmessages.append hm⟩

/-- What the header decoder accepts, followed by what the payload decoder accepts. -/
theorem IsMessage.of_accepts_header {P : GlobalProtocol V} {header body : List UInt8}
    {ty : SshString} {wantReply : Bool} {v : V}
    (hheader : acceptHeader.Accepts header (ty, wantReply))
    (hbody : (P.payload ty).Accepts body v) : IsMessage P none (header ++ body) := by
  obtain ⟨x, rest, mt, rfl, htype, h⟩ := Decoder.Accepts.of_bind hheader
  split at h
  · cases rest <;> cases h
  · rename_i hmt
    obtain rfl := not_not.mp hmt
    obtain ⟨y, rest, ty', rfl, hname, h⟩ := Decoder.Accepts.of_bind h
    obtain ⟨z, rest, wr', rfl, hreply, h⟩ := Decoder.Accepts.of_bind h
    have hnil : rest = [] := (Decoder.halted_done _).eq_nil h
    subst hnil
    obtain ⟨rfl, rfl⟩ : ty' = ty ∧ wr' = wantReply := by simpa [Decoder.Accepts] using h
    rw [List.append_nil]
    exact .request ((VarInt.accepts_iff _ _).mp htype) (Decoder.accepts_mapError.mp hname)
      (Decoder.accepts_mapError.mp hreply) hbody

/-- What the response decoder for a request accepts is a success message that answers it. -/
theorem IsMessage.of_accepts_response {P : GlobalProtocol V} {bytes : List UInt8} {ty : SshString}
    {v : V} (h : (responseDecoder P ty).Accepts bytes v) : IsMessage P (some ty) bytes := by
  obtain ⟨x, body, mt, rfl, htype, h⟩ := Decoder.Accepts.of_bind h
  split at h
  · rename_i hmt
    subst hmt
    exact .success ((VarInt.accepts_iff _ _).mp htype) (Decoder.accepts_mapError.mp h)
  · split at h <;> cases body <;> cases h

/-- What it rejects is a failure message. -/
theorem IsMessage.of_rejected {P : GlobalProtocol V} {bytes : List UInt8} {ty : SshString}
    (h : (responseDecoder P ty).after bytes = some (.fail .rejected)) :
    IsMessage P (some ty) bytes := by
  rcases Decoder.after_bind_cases h with ⟨d', hd', hfail, hdone⟩ | ⟨x, body, mt, rfl, htype, h⟩
  · cases d' with
    | fail e => exact absurd hd' (VarInt.after_decoder_ne_fail _ _ _)
    | done n => exact absurd rfl (hdone n)
    | read io k => cases hfail
  · split at h
    · rw [Decoder.after_mapError, Option.map_eq_some_iff] at h
      obtain ⟨d, -, hd⟩ := h
      cases d <;> cases hd
    · split at h
      · rename_i hmt
        subst hmt
        have hnil : body = [] := (Decoder.halted_fail _).eq_nil h
        rw [hnil, List.append_nil]
        exact .failure ((VarInt.accepts_iff _ _).mp htype)
      · cases body <;> cases h

/-- Requests whose success values are encoded alike have the same responses. -/
theorem responseDecoder_congr {P : GlobalProtocol V} {ty ty' : SshString}
    (h : P.success ty = P.success ty') : responseDecoder P ty = responseDecoder P ty' := by
  rw [responseDecoder, responseDecoder, h]

/-! ## Which request a reply answers

Replies carry no name. The `i`-th of them is to the `i`-th request that was written, and requests
are written in the order of their reader tickets. So `asked` gives for each reply the type that
it has to be decoded with. -/

/-- The type of the request whose response an operation reads. -/
def ReadOp.awaits : ReadOp → Option SshString
  | accept => none
  | response rq _ => some rq.requestType

/-- The types of the requests asked, in the order of their tickets: they are written in this order,
and a peer answers in the order in which it reads. -/
def Shared.asked (sh : Shared) : List SshString := sh.history.readOps.filterMap ReadOp.awaits

/-- Requests asked are only added. -/
theorem Pc.Steps.asked_mono {P : GlobalProtocol V} {sh sh' : Shared} {pc pc' : Pc V} {e : Event}
    (h : pc.Steps P sh e sh' pc') : sh.asked <+: sh'.asked :=
  h.readOps_mono.filterMap _

/-- A response begins to be read where the next reply on the stream is to a request whose success
value is encoded differently: an earlier response has been given up before its first byte. -/
def Pc.Misreads (P : GlobalProtocol V) (sh : Shared) : Pc V → Event → Prop
  | acquireReader (.response rq _) t (.checkServing _), .run =>
    sh.reader.currentServing = t ∧ ∃ answered, answered <+: sh.asked ∧
      Messages P answered sh.history.consumed ∧
      ∀ ty, answered ++ [ty] <+: sh.asked → P.success ty ≠ P.success rq.requestType
  | _, _ => False

/-! ## Where a reader stands

A reader that holds the guard has consumed whole messages and then `got`, and what is left of its
decoder is what the decoder of a whole message has left after `got`. Who holds no guard stands
nowhere. Drop glue may release the guard in the middle, but then it has poisoned the session
before. -/

/-- Drop glue releases a reader guard, if it has one, only after poisoning the session. -/
def releasesPoisoned : List DropAct → Prop
  | [] => True
  | .storePoison :: _ => True
  | .advanceReader _ :: _ => False
  | _ :: acts => releasesPoisoned acts

/-- Where a task stands in the stream of which `consumed` has been consumed: what it has got is the
part of a message its decoder says, and whole messages come before. Who reads a response stands
before the reply to a request whose success value is encoded as that of its own. -/
def Pc.Aligned (P : GlobalProtocol V) (asked : List SshString) (consumed : List UInt8) : Pc V → Prop
  | readingHeader _ got d =>
    ∃ before, Whole P asked before ∧ consumed = before ++ got ∧ acceptHeader.after got = some d
  | readingResponse rq _ _ got d =>
    ∃ before answered ty, Messages P answered before ∧ answered ++ [ty] <+: asked ∧
      P.success ty = P.success rq.requestType ∧ consumed = before ++ got ∧
      (responseDecoder P rq.requestType).after got = some d
  | incoming ty _ _ got =>
    ∃ before wantReply, Whole P asked before ∧ consumed = before ++ got ∧
      acceptHeader.Accepts got (ty, wantReply)
  | readingPayload ty _ _ got d =>
    ∃ before header body wantReply, Whole P asked before ∧ consumed = before ++ got ∧
      got = header ++ body ∧ acceptHeader.Accepts header (ty, wantReply) ∧
      (P.payload ty).after body = some d
  | unwinding acts _ => releasesPoisoned acts ∨ Whole P asked consumed
  | _ => True

/-- More requests may be asked meanwhile. -/
theorem Pc.Aligned.mono {P : GlobalProtocol V} {asked asked' : List SshString}
    {consumed : List UInt8} {pc : Pc V} (ha : pc.Aligned P asked consumed) (h : asked <+: asked') :
    pc.Aligned P asked' consumed := by
  cases pc with
  | readingHeader =>
    obtain ⟨before, hwhole, hrest⟩ := ha
    exact ⟨before, hwhole.mono h, hrest⟩
  | readingResponse =>
    obtain ⟨before, answered, ty, hmessages, hnext, hrest⟩ := ha
    exact ⟨before, answered, ty, hmessages, hnext.trans h, hrest⟩
  | incoming =>
    obtain ⟨before, wantReply, hwhole, hrest⟩ := ha
    exact ⟨before, wantReply, hwhole.mono h, hrest⟩
  | readingPayload =>
    obtain ⟨before, header, body, wantReply, hwhole, hrest⟩ := ha
    exact ⟨before, header, body, wantReply, hwhole.mono h, hrest⟩
  | unwinding => exact ha.imp id fun hwhole => hwhole.mono h
  | _ => trivial

/-- Drop glue that releases no guard. -/
theorem releasesPoisoned_of_filterMap {acts : List DropAct}
    (h : acts.filterMap DropAct.readerGuard = []) : releasesPoisoned acts := by
  induction acts with
  | nil => trivial
  | cons act acts ih => cases act with
    | storePoison => trivial
    | advanceReader t => cases h
    | _ => exact ih h

/-- Who does not hold the reader guard stands nowhere. -/
theorem Pc.Aligned.of_readerGuards {P : GlobalProtocol V} {pc : Pc V} (h : pc.readerGuards = [])
    (asked : List SshString) (consumed : List UInt8) : pc.Aligned P asked consumed := by
  cases pc with
  | readingHeader | readingResponse | incoming | readingPayload => cases h
  | unwinding acts next => exact Or.inl (releasesPoisoned_of_filterMap h)
  | _ => trivial

/-- A response is given up in the middle: after the first byte by an I/O error or by cancellation,
or because it cannot be decoded. -/
def Pc.givesUpResponse : Pc V → Event → Bool
  | readingResponse _ _ _ got (.read _ _), .ioError => !got.isEmpty
  | readingResponse _ _ _ got (.read _ _), .cancel => !got.isEmpty
  | readingResponse _ _ _ _ (.fail .rejected), .run => false
  | readingResponse _ _ _ _ (.fail _), .run => true
  | _, _ => false

/-- A response that has been read to its end is a complete reply to the request whose turn it is. -/
theorem Whole.append_reply {P : GlobalProtocol V} {asked answered : List SshString} {ty : SshString}
    {bytes m : List UInt8} (hmessages : Messages P answered bytes)
    (hnext : answered ++ [ty] <+: asked)
    (hm : IsMessage P (some ty) m) : Whole P asked (bytes ++ m) :=
  ⟨answered ++ [ty], hnext, hmessages.append hm⟩

/-- **One step of a reader.** Unless it gives up a response in the middle or begins to read the
reply to another request, or the session is poisoned, a reader that was aligned is aligned after its
step. -/
theorem Pc.Steps.aligned {P : GlobalProtocol V} {sh sh' : Shared} {pc pc' : Pc V} {e : Event}
    (hstart : pc.readerGuards = [] → pc'.readerGuards ≠ [] → Whole P sh.asked sh.history.consumed)
    (hok : pc.givesUpResponse e = false) (hreads : ¬ pc.Misreads P sh e)
    (hpoison : sh'.poisoned = false) (ha : pc.Aligned P sh.asked sh.history.consumed)
    (h : pc.Steps P sh e sh' pc') : pc'.Aligned P sh'.asked sh'.history.consumed := by
  cases h with
  | acquireWriter hwait => cases hwait with
    | drainFlushed | drainWriteCancel | drainIoError => exact Or.inl trivial
    | _ => trivial
  | flushed => exact Or.inl trivial
  | writeIoError | writeCancel => exact Or.inl trivial
  | @readerGranted op t _ hserving =>
    have hwhole := hstart rfl (by simp)
    cases op with
    | accept => exact ⟨_, hwhole, (List.append_nil _).symm, rfl⟩
    | response rq w =>
      obtain ⟨answered, hprefix, hmessages⟩ := hwhole
      obtain ⟨ty, hnext, hty⟩ : ∃ ty, answered ++ [ty] <+: sh.asked ∧
          P.success ty = P.success rq.requestType := by
        by_contra hother
        exact hreads ⟨hserving, answered, hprefix, hmessages,
          fun ty hnext hty => hother ⟨ty, hnext, hty⟩⟩
      exact ⟨_, answered, ty, hmessages, hnext, hty, (List.append_nil _).symm, Decoder.after_nil _⟩
  | headerByte =>
    obtain ⟨before, hwhole, hconsumed, hafter⟩ := ha
    exact ⟨before, hwhole, by simp [Shared.consume, hconsumed], Decoder.after_snoc hafter _⟩
  | responseByte =>
    obtain ⟨before, answered, ty, hmessages, hnext, hty, hconsumed, hafter⟩ := ha
    exact ⟨before, answered, ty, hmessages, hnext, hty, by simp [Shared.consume, hconsumed],
      Decoder.after_snoc hafter _⟩
  | payloadByte =>
    obtain ⟨before, header, body, wantReply, hwhole, hconsumed, rfl, hheader, hafter⟩ := ha
    exact ⟨before, header, _, wantReply, hwhole, by simp [Shared.consume, hconsumed],
      List.append_assoc _ _ _, hheader, Decoder.after_snoc hafter _⟩
  | headerIoError | headerCancel | headerFailed => exact Or.inl trivial
  | dropIncoming | payloadIoError | payloadCancel | payloadFailed => exact Or.inl trivial
  | requestAccepted =>
    obtain ⟨before, hwhole, hconsumed, hafter⟩ := ha
    exact ⟨before, true, hwhole, hconsumed, hafter⟩
  | noticeAccepted =>
    obtain ⟨before, hwhole, hconsumed, hafter⟩ := ha
    exact ⟨before, false, hwhole, hconsumed, hafter⟩
  | decodePayload =>
    obtain ⟨before, wantReply, hwhole, hconsumed, hheader⟩ := ha
    exact ⟨before, _, [], wantReply, hwhole, hconsumed, (List.append_nil _).symm, hheader,
      Decoder.after_nil _⟩
  | @responseIoError _ _ _ got | @responseCancel _ _ _ got =>
    obtain ⟨before, answered, ty, hmessages, hnext, -, hconsumed, -⟩ := ha
    have hgot : got = [] := by simpa [Pc.givesUpResponse] using hok
    rw [hgot, List.append_nil] at hconsumed
    exact Or.inr (hconsumed ▸ ⟨answered, (List.prefix_append _ _).trans hnext, hmessages⟩)
  | @responseFailed rq w t got err =>
    obtain ⟨before, answered, ty, hmessages, hnext, hty, hconsumed, hafter⟩ := ha
    rw [← responseDecoder_congr hty] at hafter
    cases err with
    | rejected => exact Or.inr (hconsumed ▸ .append_reply hmessages hnext (.of_rejected hafter))
    | _ => cases hok
  | responseDone =>
    obtain ⟨before, answered, ty, hmessages, hnext, hty, hconsumed, hafter⟩ := ha
    rw [← responseDecoder_congr hty] at hafter
    exact Or.inr (hconsumed ▸ .append_reply hmessages hnext (.of_accepts_response hafter))
  | requestDecoded | noticeDecoded =>
    obtain ⟨before, header, body, wantReply, hwhole, hconsumed, rfl, hheader, hafter⟩ := ha
    exact Or.inr (hconsumed ▸ hwhole.append (.of_accepts_header hheader hafter))
  | dropDecoded => exact Or.inl trivial
  | @dropAct act acts next => cases act with
    | storePoison => cases hpoison
    | advanceReader t => exact Or.inr (ha.resolve_left id)
    | _ => exact ha
  | @resume next => cases next <;> trivial
  | _ => trivial

/-- Nobody consumes without the guard. -/
theorem Pc.Steps.consumed_eq {P : GlobalProtocol V} {sh sh' : Shared} {pc pc' : Pc V} {e : Event}
    (h : pc.Steps P sh e sh' pc') (hnone : pc.readerGuards = []) :
    sh'.history.consumed = sh.history.consumed := by
  cases h with
  | headerByte | responseByte | payloadByte => cases hnone
  | acquireWriter hwait => cases hwait <;> rfl
  | @dropAct act => cases act <;> rfl
  | _ => rfl

/-- Who begins to read had the ticket being served. -/
theorem Pc.Steps.own_of_start {P : GlobalProtocol V} {sh sh' : Shared} {pc pc' : Pc V} {e : Event}
    (h : pc.Steps P sh e sh' pc') (hnone : pc.readerGuards = []) (hsome : pc'.readerGuards ≠ []) :
    pc.readerHand.slot .own = some sh.reader.currentServing := by
  cases h with
  | readerGranted hserving => exact congrArg some hserving.symm
  | acquireWriter hwait => cases hwait <;> exact absurd rfl hsome
  | @flushed op => cases op <;> exact absurd rfl hsome
  | @dropAct act acts next => cases act with
    | advanceReader => cases hnone
    | _ => exact absurd hnone hsome
  | @resume next => cases next <;> exact absurd rfl hsome
  | _ => first | exact absurd rfl hsome | cases hnone

/-- Who stops reading releases the guard, between two messages or on a poisoned session. -/
theorem Pc.Steps.whole_of_release {P : GlobalProtocol V} {sh sh' : Shared} {pc pc' : Pc V}
    {e : Event} (h : pc.Steps P sh e sh' pc') (ha : pc.Aligned P sh.asked sh.history.consumed)
    (hsome : pc.readerGuards ≠ []) (hnone : pc'.readerGuards = []) :
    Whole P sh'.asked sh'.history.consumed := by
  cases h with
  | acquireWriter hwait => cases hwait <;> exact absurd rfl hsome
  | @dropAct act acts next => cases act with
    | advanceReader => exact ha.resolve_left id
    | _ => exact absurd hnone hsome
  | resume => exact absurd rfl hsome
  | readerGranted => simp at hnone
  | _ => first | exact absurd rfl hsome | cases hnone

/-- Only a release advances the counter. -/
theorem Pc.Steps.whole_of_advance {P : GlobalProtocol V} {sh sh' : Shared} {pc pc' : Pc V}
    {e : Event} (h : pc.Steps P sh e sh' pc') (ha : pc.Aligned P sh.asked sh.history.consumed)
    (hne : sh'.reader.currentServing ≠ sh.reader.currentServing) :
    Whole P sh'.asked sh'.history.consumed := by
  cases h with
  | acquireWriter hwait => cases hwait <;> exact absurd rfl hne
  | @dropAct act acts next => cases act with
    | advanceReader => exact ha.resolve_left id
    | _ => exact absurd rfl hne
  | _ => exact absurd rfl hne

end Conversation

namespace Conversation

variable {V : Type} {P : GlobalProtocol V} {s s' : Conversation V}

/-! ## Every run

The bytes consumed belong to the one reader that has the guard, if there is one; if not, they are
whole messages. A step of any task keeps this, with the two exceptions that the condition names,
and so it holds along every run without them. -/

/-- On a session that is not poisoned, a response is given up in the middle, or the reply to another
request begins to be read as the response. -/
def LosesPlace (P : GlobalProtocol V) (s : Conversation V) : Action → Prop
  | .task i e => s.shared.poisoned = false ∧
      ((s.tasks i).givesUpResponse e = true ∨ (s.tasks i).Misreads P s.shared e)
  | .arrive _ => False

/-- Where the readers stand. -/
structure AlignedInv (P : GlobalProtocol V) (s : Conversation V) : Prop where
  /-- Every reader stands where it should. -/
  tasks : ∀ i, (s.tasks i).Aligned P s.shared.asked s.shared.history.consumed
  /-- Between two readers, whole messages have been consumed. -/
  free : (∀ i, (s.tasks i).readerGuards = []) → Whole P s.shared.asked s.shared.history.consumed

/-- While a task has the ticket being served and no guard, nobody has one. -/
theorem readerGuards_eq_nil_of_own (hs : (machine P).Reachable s) {i : ℕ}
    (h : (s.tasks i).readerHand.slot .own = some s.shared.reader.currentServing) (j : ℕ) :
    (s.tasks j).readerGuards = [] := by
  have hnone : (s.tasks j).readerGuards.head? = none :=
    (ticketInv hs).reader.guard_none_of_serving (by decide) h j
  exact List.head?_eq_none_iff.mp hnone

/-- While a task has the guard, nobody else has one. -/
theorem readerGuards_eq_nil_of_ne (hs : (machine P).Reachable s) {i j : ℕ}
    (h : (s.tasks i).readerGuards ≠ []) (hj : j ≠ i) : (s.tasks j).readerGuards = [] := by
  by_contra hne
  have hguard : ∀ {k}, (s.tasks k).readerGuards ≠ [] → ∃ t, (s.readerHand k).guard = some t :=
    fun {k} hk => Option.isSome_iff_exists.mp (List.isSome_head?.mpr hk)
  obtain ⟨t, ht⟩ := hguard h
  obtain ⟨u, hu⟩ := hguard hne
  exact hj ((ticketInv hs).reader.guard_unique hu ht)

/-- Nothing has been read. -/
theorem AlignedInv.initial : AlignedInv P initial where
  tasks _ := trivial
  free _ := .nil P []

/-- A step that does not lose the place. -/
theorem AlignedInv.step {a : Action} (hs : (machine P).Reachable s)
    (hI : s.shared.poisoned = false → AlignedInv P s) (hok : ¬ s.LosesPlace P a)
    (h : s.step P a = some s') (hp' : s'.shared.poisoned = false) : AlignedInv P s' := by
  cases a with
  | arrive bytes =>
    obtain rfl := Option.some.inj h
    exact ⟨(hI hp').tasks, (hI hp').free⟩
  | task i e =>
    obtain ⟨pc', hst, htasks⟩ := step_task h
    have hp : s.shared.poisoned = false := by
      by_contra hne
      rw [hst.poisoned (Bool.eq_true_of_not_eq_false hne)] at hp'
      cases hp'
    have hI := hI hp
    obtain ⟨hgives, hreads⟩ := not_or.mp fun h => hok ⟨hp, h⟩
    have hstart : (s.tasks i).readerGuards = [] → pc'.readerGuards ≠ [] →
        Whole P s.shared.asked s.shared.history.consumed := fun hnone hsome =>
      hI.free (readerGuards_eq_nil_of_own hs (hst.own_of_start hnone hsome))
    refine ⟨(forall_tasks
      (Q := fun pc => pc.Aligned P s'.shared.asked s'.shared.history.consumed) htasks).mpr
      ⟨hst.aligned hstart (Bool.eq_false_of_not_eq_true hgives) hreads hp' (hI.tasks i),
        fun j hj => ?_⟩, fun hfree => ?_⟩
    · by_cases hi : (s.tasks i).readerGuards = []
      · rw [hst.consumed_eq hi]
        exact (hI.tasks j).mono hst.asked_mono
      · exact .of_readerGuards (readerGuards_eq_nil_of_ne hs hi hj) _ _
    · obtain ⟨hpc', hothers⟩ :=
        (forall_tasks (Q := fun pc => pc.readerGuards = []) htasks).mp hfree
      by_cases hi : (s.tasks i).readerGuards = []
      · rw [hst.consumed_eq hi]
        refine (hI.free fun j => ?_).mono hst.asked_mono
        by_cases hj : j = i
        · rw [hj, hi]
        · exact hothers j hj
      · exact hst.whole_of_release (hI.tasks i) hi hpc'

/-- Where the readers stand in a session that is not poisoned, as long as nobody loses the place. -/
theorem aligned (hs : (machine P).Reach (fun s a => ¬ s.LosesPlace P a) s)
    (hp : s.shared.poisoned = false) : AlignedInv P s :=
  hs.invariant (I := fun s => s.shared.poisoned = false → AlignedInv P s)
    (fun _ => .initial)
    (fun hr hI hok h hp => AlignedInv.step hr.reachable hI hok h hp) hp

/-- **The incoming stream.** In a run in which nobody gives up a response in the middle or begins to
read the reply to another request, whenever the reader's `current_serving` is advanced the session
is poisoned or whole messages have been consumed, and so it is whenever an operation begins to read.
-/
theorem released_whole (hs : (machine P).Reach (fun s a => ¬ s.LosesPlace P a) s) {a : Action}
    (h : s.step P a = some s') :
    (s'.shared.reader.currentServing ≠ s.shared.reader.currentServing →
      s'.shared.poisoned = true ∨ Whole P s'.shared.asked s'.shared.history.consumed) ∧
    ∀ i, (s.tasks i).readerGuards = [] → (s'.tasks i).readerGuards ≠ [] →
      s.shared.poisoned = true ∨ Whole P s.shared.asked s.shared.history.consumed := by
  cases a with
  | arrive bytes =>
    obtain rfl := Option.some.inj h
    exact ⟨fun hne => absurd rfl hne, fun i hnone hsome => absurd hnone hsome⟩
  | task i e =>
    obtain ⟨pc', hst, htasks⟩ := step_task h
    cases hp : s.shared.poisoned with
    | true => exact ⟨fun _ => Or.inl (hst.poisoned hp), fun _ _ _ => Or.inl rfl⟩
    | false =>
      have hI := aligned hs hp
      refine ⟨fun hne => Or.inr (hst.whole_of_advance (hI.tasks i) hne), fun j hnone hsome => ?_⟩
      by_cases hj : j = i
      · subst hj
        rw [htasks, Function.update_self] at hsome
        exact Or.inr (hI.free
          (readerGuards_eq_nil_of_own hs.reachable (hst.own_of_start hnone hsome)))
      · rw [htasks, Function.update_of_ne hj] at hsome
        exact absurd hnone hsome

/-! ## Runs that lose the place

The two exceptions, each with a run. In the first one a response is given up behind its first
byte. In the second one it is given up before that, and the next request reads it with another
type in mind: then the place is lost as well, although every operation has read its response to
the end that it expected. -/

/-- Bytes behind which the decoder of a message waits for more are not whole messages. -/
theorem not_whole_of_reading {asked : List SshString} {bytes : List UInt8} {io : CodecError}
    {k : UInt8 → Decoder CodecError (Option SshString)} (hne : bytes ≠ [])
    (hafter : (messageDecoder P asked.headI).after bytes = some (.read io k)) :
    ¬ Whole P asked bytes := by
  rintro ⟨-, hprefix, messages, hall, rfl, rfl⟩
  cases messages with
  | nil => exact hne rfl
  | cons m messages =>
    have haccepts := (Messages.cons hprefix (hall m List.mem_cons_self)).1
    rw [List.map_cons, List.flatten_cons, Decoder.after_append, haccepts, Option.bind_some]
      at hafter
    have hnil := (Decoder.halted_done _).eq_nil hafter
    rw [hnil] at hafter
    cases hafter

/-- A request is sent and its response begun: one byte of it has arrived and is consumed. -/
def halfResponseRun : List Action :=
  .task 0 (.sendGlobalRequest ⟨"", []⟩) :: List.replicate 10 (.task 0 .run) ++
    [.task 0 (.write 4), .task 0 (.push 4)] ++ List.replicate 7 (.task 0 .run) ++
    [.arrive [0x40], .task 0 .run]

/-- When the request is cancelled there, the guard is released in the middle of the response, on a
session that is not poisoned. -/
theorem halfResponseRun_misaligned :
    ∃ s s', (machine .empty).exec initial (halfResponseRun ++ [.task 0 .cancel]) = some s ∧
      s.step .empty (.task 0 .run) = some s' ∧
      s'.shared.reader.currentServing ≠ s.shared.reader.currentServing ∧
      s'.shared.poisoned = false ∧ ¬ Whole .empty s'.shared.asked s'.shared.history.consumed := by
  obtain ⟨s, hs, htest⟩ := (Option.any_eq_true
    (fun s : Conversation Unit => (s.step .empty (.task 0 .run)).any
      fun s' : Conversation Unit =>
        decide (s'.shared.reader.currentServing ≠ s.shared.reader.currentServing) &&
          (!s'.shared.poisoned && decide (s'.shared.history.consumed = [0x40])))
    ((machine .empty).exec initial (halfResponseRun ++ [.task 0 .cancel]))).mp (by decide)
  obtain ⟨s', hs', htest⟩ := (Option.any_eq_true _ _).mp htest
  simp only [Bool.and_eq_true, decide_eq_true_eq, Bool.not_eq_true'] at htest
  obtain ⟨hserving, hpoison, hconsumed⟩ := htest
  exact ⟨s, s', hs, hs', hserving, hpoison,
    hconsumed ▸ not_whole_of_reading (List.cons_ne_nil _ _) rfl⟩

/-- A protocol in which the success value of one type of request is empty, and of all others a
boolean. -/
def boolProtocol : GlobalProtocol Bool where
  payload _ := .done false
  success ty := if ty = "" then .done false else SshBool.decoder

/-- Two requests are written, the first of them with a boolean for its success value. -/
def twoRequestsRun : List Action :=
  .task 0 (.sendGlobalRequest ⟨"bool", []⟩) :: List.replicate 10 (.task 0 .run) ++
    [.task 0 (.write 8), .task 0 (.push 8)] ++ List.replicate 6 (.task 0 .run) ++
    .task 1 (.sendGlobalRequest ⟨"", []⟩) :: List.replicate 10 (.task 1 .run) ++
    [.task 1 (.write 4), .task 1 (.push 4)] ++ List.replicate 4 (.task 1 .run)

/-- The first request is cancelled before it has read anything, and the second one reads what the
first was answered: it stops in the middle, on a session that is not poisoned. -/
theorem otherReplyRun_misaligned :
    ∃ s s', (machine boolProtocol).exec initial (twoRequestsRun ++
        [.task 0 .run, .task 0 .cancel, .task 0 .run, .arrive [0x40, 0x51]] ++
        List.replicate 6 (.task 1 .run)) = some s ∧
      s.step boolProtocol (.task 1 .run) = some s' ∧
      s'.shared.reader.currentServing ≠ s.shared.reader.currentServing ∧
      s'.shared.poisoned = false ∧
      ¬ Whole boolProtocol s'.shared.asked s'.shared.history.consumed := by
  obtain ⟨s, hs, htest⟩ := (Option.any_eq_true
    (fun s : Conversation Bool => (s.step boolProtocol (.task 1 .run)).any
      fun s' : Conversation Bool =>
        decide (s'.shared.reader.currentServing ≠ s.shared.reader.currentServing) &&
          (!s'.shared.poisoned && (decide (s'.shared.asked = ["bool", ""]) &&
            decide (s'.shared.history.consumed = [0x40, 0x51]))))
    ((machine boolProtocol).exec initial (twoRequestsRun ++
        [.task 0 .run, .task 0 .cancel, .task 0 .run, .arrive [0x40, 0x51]] ++
        List.replicate 6 (.task 1 .run)))).mp (by decide +kernel)
  obtain ⟨s', hs', htest⟩ := (Option.any_eq_true _ _).mp htest
  simp only [Bool.and_eq_true, decide_eq_true_eq, Bool.not_eq_true'] at htest
  obtain ⟨hserving, hpoison, hasked, hconsumed⟩ := htest
  refine ⟨s, s', hs, hs', hserving, hpoison, ?_⟩
  have hsuccess : boolProtocol.success "bool" = SshBool.decoder := by simp [boolProtocol]
  have hafter := messageDecoder_success boolProtocol "bool"
  rw [hsuccess] at hafter
  rw [hasked, hconsumed]
  exact not_whole_of_reading (List.cons_ne_nil _ _) hafter

/-- No response is given up, and who begins to read a response begins to read the first one, or the
second behind the first. -/
def readsInTurn (s : Conversation Bool) : Action → Bool
  | .task i e => !(s.tasks i).givesUpResponse e &&
    match s.tasks i, e with
    | .acquireReader (.response rq _) _ (.checkServing _), .run =>
      decide (s.shared.asked = ["bool", ""] ∧
        (s.shared.history.consumed = [] ∧ rq.requestType = "bool" ∨
          s.shared.history.consumed = [0x40, 0x51, 1] ∧ rq.requestType = ""))
    | _, _ => true
  | .arrive _ => true

/-- Such a step does not lose the place. -/
theorem not_losesPlace_of_readsInTurn {s : Conversation Bool} {a : Action}
    (h : s.readsInTurn a = true) : ¬ s.LosesPlace boolProtocol a := by
  cases a with
  | arrive => exact id
  | task i e =>
    obtain ⟨hgives, hturn⟩ := Bool.and_eq_true_iff.mp h
    rintro ⟨-, hgive | hreads⟩
    · simp [hgive] at hgives
    · unfold Pc.Misreads at hreads
      split at hreads
      · rename_i rq w t seen hpc
        obtain ⟨-, answered, hprefix, hmessages, hother⟩ := hreads
        simp only [hpc, decide_eq_true_eq] at hturn
        obtain ⟨hasked, ⟨hconsumed, hty⟩ | ⟨hconsumed, hty⟩⟩ := hturn
        · rw [hconsumed] at hmessages
          rw [hasked] at hother
          obtain rfl := hmessages.unique (.nil _) hprefix List.nil_prefix
          exact hother "bool" ⟨[""], rfl⟩ (by rw [hty])
        · have hfirst : Messages boolProtocol ["bool"] [0x40, 0x51, 1] := by
            have hmessage : IsMessage boolProtocol (some "bool") ([0x40, 0x51] ++ [1]) := by
              refine .success rfl (v := true) ?_
              simp only [boolProtocol, if_neg (show "bool" ≠ "" by decide)]
              rfl
            exact (Messages.nil boolProtocol).append hmessage
          rw [hconsumed] at hmessages
          rw [hasked] at hprefix hother
          obtain rfl := hmessages.unique hfirst hprefix ⟨[""], rfl⟩
          exact hother "" ⟨[], rfl⟩ (by rw [hty])
      · exact hreads

/-- When both read their responses to the end, the guard is released after whole messages. -/
theorem twoRequestsRun_released_whole :
    ∃ s s', (machine boolProtocol).exec initial (twoRequestsRun ++
        .arrive [0x40, 0x51, 1, 0x40, 0x51] :: List.replicate 6 (.task 0 .run) ++
        List.replicate 6 (.task 1 .run)) = some s ∧
      s.step boolProtocol (.task 1 .run) = some s' ∧
      s'.shared.reader.currentServing ≠ s.shared.reader.currentServing ∧
      s'.shared.poisoned = false ∧
      ((s'.shared.reader.currentServing ≠ s.shared.reader.currentServing →
        s'.shared.poisoned = true ∨ Whole boolProtocol s'.shared.asked s'.shared.history.consumed) ∧
      ∀ i, (s.tasks i).readerGuards = [] → (s'.tasks i).readerGuards ≠ [] →
        s.shared.poisoned = true ∨
          Whole boolProtocol s.shared.asked s.shared.history.consumed) := by
  obtain ⟨s, hs, htest⟩ := (Option.any_eq_true
    (fun s : Conversation Bool => (s.step boolProtocol (.task 1 .run)).any
      fun s' : Conversation Bool =>
        decide (s'.shared.reader.currentServing ≠ s.shared.reader.currentServing) &&
          !s'.shared.poisoned)
    ((machine boolProtocol).exec initial (twoRequestsRun ++
        .arrive [0x40, 0x51, 1, 0x40, 0x51] :: List.replicate 6 (.task 0 .run) ++
        List.replicate 6 (.task 1 .run)))).mp (by decide +kernel)
  obtain ⟨s', hs', htest⟩ := (Option.any_eq_true _ _).mp htest
  simp only [Bool.and_eq_true, decide_eq_true_eq, Bool.not_eq_true'] at htest
  have hturn : ∀ x ∈ (machine boolProtocol).trace initial (twoRequestsRun ++
      .arrive [0x40, 0x51, 1, 0x40, 0x51] :: List.replicate 6 (.task 0 .run) ++
      List.replicate 6 (.task 1 .run)), x.1.readsInTurn x.2 = true := by decide +kernel
  exact ⟨s, s', hs, hs', htest.1, htest.2, released_whole ((Machine.Path.of_exec hs).reach
    fun x hx => not_losesPlace_of_readsInTurn (hturn x hx)) (a := .task 1 .run) hs'⟩

end Conversation

end Dssh
