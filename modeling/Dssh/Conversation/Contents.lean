import Dssh.Conversation.Reading

/-!
# What messages contain

The conversation does not look into payloads and responses. If callers send requests whose
payloads decode, and handlers answer with replies to the requests they were given, then what is
on the wire is such requests and replies, and a reply is to the request whose ticket it was
written with.

## A contract with the callers

The API takes payloads of any type that can be encoded. Nothing stops a caller from sending
bytes that its own peer cannot decode, or a handler from answering with the response of another
request. For a result about two conversations that talk to each other, both have to behave, and
`Pc.Contracts` says what that is: a condition on the calls, with the state of the task where it
is needed, and on nothing else.

From it the contents of the history follow (`Shared.Typed`). The handler's type string is a
local of the task that accepted the request, and reaches the point where the answer is chosen
unchanged; that is the only thing that has to be carried along.

## Main definitions

* `Known`, `Replies` — a request both sides know, and an answer to it
* `Pc.Contracts` — what callers promise
* `Shared.Typed` — what the history then contains

## Main results

* `Conversation.typed` — every request started is one the peer knows, and every answer chosen is
  to the request that was accepted with its ticket
-/

namespace Dssh

namespace Conversation

variable {V : Type}

/-! ## Promises

What the contract of the callers says of a message, place by place. A request is of a type that
both sides know and its payload decodes. A reply is one to the request it answers, whose type the
task has kept since it accepted it. -/

/-- A request both sides know: the peer does not refuse its type string, and its payload decodes. -/
structure Known (P : GlobalProtocol V) (rq : GlobalRequest) : Prop where
  /-- The name is short enough to be read. -/
  name : (SshString.utf8 rq.requestType).length ≤ maxRemoteFieldSize
  /-- The payload decodes. -/
  payload : ∃ v, (P.payload rq.requestType).Accepts rq.payload v

/-- What callers promise: to send requests the peer knows, and to answer with replies to the request
at hand. -/
def Pc.Contracts (P : GlobalProtocol V) : Pc V → Event → Prop
  | _, .sendGlobalRequest rq => Known P rq
  | _, .sendGlobalNotification notice => Known P notice
  | .decoded ty _ _, .respond a => Replies P ty a
  | _, _ => True

/-- A message that is to be written has a payload that decodes. -/
def WriteOp.Typed (P : GlobalProtocol V) : WriteOp → Prop
  | request rq _ => Known P rq
  | notification notice => Known P notice
  | respond _ => True

/-- The same for what a task keeps while it runs drop glue. -/
def After.Typed (P : GlobalProtocol V) (accepted : List (ℕ × SshString)) : After V → Prop
  | drain op _ => op.Typed P
  | decoded ty w _ => (w, ty) ∈ accepted
  | _ => True

/-- A task sends requests the peer knows, and the type it has for an incoming request is the one the
request was accepted with. -/
def Pc.Typed (P : GlobalProtocol V) (accepted : List (ℕ × SshString)) : Pc V → Prop
  | pairLock rq => Known P rq
  | pairWriter rq => Known P rq
  | pairReader rq _ => Known P rq
  | pairUnlock rq _ _ => Known P rq
  | acquireWriter op _ _ => op.Typed P
  | incoming ty _ w _ => ∀ t ∈ w, (t, ty) ∈ accepted
  | readingPayload ty _ w _ _ => ∀ t ∈ w, (t, ty) ∈ accepted
  | decoded ty w _ => (w, ty) ∈ accepted
  | unwinding _ next => next.Typed P accepted
  | _ => True

/-- The history of a conversation that sends such requests and gives such answers. -/
structure Shared.Typed (P : GlobalProtocol V) (sh : Shared) : Prop where
  /-- Requests are such that the peer knows them. -/
  known : ∀ {t rq wantReply}, (t, .globalRequest rq wantReply) ∈ sh.history.started → Known P rq
  /-- Answers are to the requests whose tickets they have. -/
  replies : ∀ {w a}, (w, a) ∈ sh.history.chosen →
    ∃ ty, (w, ty) ∈ sh.history.accepted ∧ Replies P ty a

/-! ## Steps that keep them

Messages are written by tasks that have kept what they write from the time of the promise. So the
property is carried from place to place, through drop glue as well, to where the message gets
into the history. -/

/-- Accepted requests stay accepted. -/
theorem Pc.Steps.accepted_subset {P : GlobalProtocol V} {sh sh' : Shared}
    {pc pc' : Pc V} {e : Event}
    (h : pc.Steps P sh e sh' pc') : sh.history.accepted ⊆ sh'.history.accepted := by
  cases h with
  | requestAccepted => exact List.subset_append_left _ _
  | acquireWriter hwait => cases hwait <;> exact List.Subset.refl _
  | @dropAct act => cases act <;> exact List.Subset.refl _
  | _ => exact List.Subset.refl _

/-- More requests may be accepted. -/
theorem Pc.Typed.mono {P : GlobalProtocol V} {accepted accepted' : List (ℕ × SshString)} {pc : Pc V}
    (hty : pc.Typed P accepted) (h : accepted ⊆ accepted') : pc.Typed P accepted' := by
  cases pc with
  | incoming | readingPayload => exact fun t ht => h (hty t ht)
  | decoded => exact h hty
  | unwinding acts next => cases next with
    | decoded => exact h hty
    | _ => exact hty
  | _ => exact hty

/-- A task goes on with what it has kept. -/
theorem After.typed_resume {P : GlobalProtocol V} {accepted : List (ℕ × SshString)} {next : After V}
    (h : next.Typed P accepted) : next.resume.Typed P accepted := by
  cases next with
  | drain | decoded => exact h
  | _ => trivial

/-- **One step of a task.** -/
theorem Pc.Steps.typed {P : GlobalProtocol V} {sh sh' : Shared} {pc pc' : Pc V} {e : Event}
    (h : pc.Steps P sh e sh' pc') (hcontract : pc.Contracts P e)
    (hty : pc.Typed P sh.history.accepted) : pc'.Typed P sh'.history.accepted := by
  cases h with
  | sendGlobalRequest | sendGlobalNotification => exact hcontract
  | acquireWriter hwait => cases hwait <;> first | exact hty | trivial
  | @flushed op => cases op <;> trivial
  | @readerGranted op => cases op <;> trivial
  | requestAccepted =>
    intro t ht
    obtain rfl := Option.mem_some_iff.mp ht
    exact List.mem_append_right _ List.mem_cons_self
  | noticeAccepted => exact fun t ht => absurd ht (Option.not_mem_none t)
  | requestDecoded => exact hty _ (Option.mem_some_iff.mpr rfl)
  | respond => trivial
  | @dropAct act => cases act <;> exact hty
  | resume => exact After.typed_resume hty
  | _ => first | exact hty | trivial

/-- What it does to the history. -/
theorem Pc.Steps.shared_typed {P : GlobalProtocol V} {sh sh' : Shared} {pc pc' : Pc V} {e : Event}
    (h : pc.Steps P sh e sh' pc') (hcontract : pc.Contracts P e)
    (hty : pc.Typed P sh.history.accepted) (hS : sh.Typed P) : sh'.Typed P := by
  obtain ⟨hknown, hreplies⟩ := hS
  cases h with
  | @acquireWriter op _ _ _ _ _ hwait => cases hwait with
    | drainGranted =>
      refine ⟨fun hmem => ?_, hreplies⟩
      rcases List.mem_append.mp hmem with hmem | hmem
      · exact hknown hmem
      · cases List.mem_singleton.mp hmem
    | acquireGranted =>
      refine ⟨fun {t rq wantReply} hmem => ?_, hreplies⟩
      rcases List.mem_append.mp hmem with hmem | hmem
      · exact hknown hmem
      · have hmessage := congrArg Prod.snd (List.mem_singleton.mp hmem)
        cases op with
        | request rq' r =>
          obtain rfl : rq = rq' := by cases hmessage; rfl
          exact hty
        | notification notice =>
          obtain rfl : rq = notice := by cases hmessage; rfl
          exact hty
        | respond a => cases a <;> cases hmessage
    | _ => exact ⟨hknown, hreplies⟩
  | requestAccepted =>
    refine ⟨hknown, fun hmem => ?_⟩
    obtain ⟨ty, hacc, hreply⟩ := hreplies hmem
    exact ⟨ty, List.mem_append_left _ hacc, hreply⟩
  | @respond ty w v a =>
    refine ⟨hknown, fun hmem => ?_⟩
    rcases List.mem_append.mp hmem with hmem | hmem
    · exact hreplies hmem
    · cases List.mem_singleton.mp hmem
      exact ⟨ty, hty, hcontract⟩
  | @dropDecoded ty w v =>
    refine ⟨hknown, fun hmem => ?_⟩
    rcases List.mem_append.mp hmem with hmem | hmem
    · exact hreplies hmem
    · cases List.mem_singleton.mp hmem
      exact ⟨ty, hty, trivial⟩
  | @dropAct act => cases act <;> exact ⟨hknown, hreplies⟩
  | _ => exact ⟨hknown, hreplies⟩

end Conversation

namespace Conversation

variable {V : Type} {P : GlobalProtocol V} {s s' : Conversation V}

/-- What callers promise in a step. -/
def Contracts (P : GlobalProtocol V) (s : Conversation V) : Action → Prop
  | .task i e => (s.tasks i).Contracts P e
  | .arrive _ => True

/-- **Contents.** As long as callers keep their promises. -/
theorem typed (hs : (machine P).Reach (Contracts P) s) :
    s.shared.Typed P ∧ ∀ i, (s.tasks i).Typed P s.shared.history.accepted := by
  refine hs.invariant
    (I := fun s => s.shared.Typed P ∧ ∀ i, (s.tasks i).Typed P s.shared.history.accepted)
    ⟨⟨by simp [machine, initial], by simp [machine, initial]⟩, fun _ => trivial⟩
    fun {s a s'} _ hI hok h => ?_
  obtain ⟨hS, hty⟩ := hI
  cases a with
  | arrive bytes =>
    obtain rfl := Option.some.inj h
    exact ⟨⟨hS.known, hS.replies⟩, hty⟩
  | task i e =>
    obtain ⟨pc', hst, htasks⟩ := step_task h
    exact ⟨hst.shared_typed hok (hty i) hS, (forall_tasks htasks).mpr
      ⟨hst.typed hok (hty i), fun j _ => (hty j).mono hst.accepted_subset⟩⟩

end Conversation

end Dssh
