import Dssh.Conversation.Step
import Dssh.Session.Forwards
import Dssh.Lib.Loop
import Mathlib.Data.Finset.Insert

/-!
# Answering the global requests of a session

`run_session` reads one global request after the other with `accept_global_request` and hands it
to `dispatch_global`, which answers it before the next one is read. Here the two make one turn
of a loop over the control stream. Everything else that may stand there (a payload that does not
decode, a request of another type, a notification) poisons the session, and the next
`accept_global_request` refuses.

The answers are those of a machine that knows nothing of tasks, handles and codecs: `Reference`
has a set of canonical hosts and ports, and a set of paths. Only the operating system is the
same.

## What a client can rely on

For any sequence of requests it gets as many replies, in order, and each of them is what a
description of forwarding in two sets would say. That is the refinement. `refines_dispatch` is
one step of it. The keys of the tables are the members of the sets, and the reply is the same.
`answered` is the run, on the bytes: the concatenation of the encoded requests is read to its
end, and the concatenation of the encoded replies has been written.

That a request that fails changes nothing is part of it. A client that is refused does not know
why, and must be able to try again.

## Where the reference machine ends

Requests with a field of more than a mebibyte are refused by the decoder, and this ends the
session (`oneTooLong_host_refused`). So the requests are those whose fields are within the
limit, as they come from a peer of the same kind. Ports that are no ports are within it, and
have a failure as their reply.

The operating system is a parameter, one answer book for each request, since what can be bound
changes. Both machines ask the same book. `responds` is always true here: a reply that cannot be
written has nobody to read it.

## Main definitions

* `GlobalRequests`, `GlobalRequests.turn` — the loop over the control stream
* `Reference`, `Reference.step`, `Reference.run` — what forwarding is, without tasks and handles
* `GlobalRequests.Refines` — the tables have the keys that the sets have

## Main results

* `GlobalRequests.refines_dispatch` — one request on both sides
* `GlobalRequests.answered` — any sequence of requests is answered as the reference machine does
* `GlobalRequests.oneTooLong_host_refused` — a host above the length limit is not answered at
  all
-/

namespace Dssh

open Conversation

namespace ForwardRequest

/-! ## Requests on the wire

The requests as bytes. As with the session requests, the decoder of a payload is chosen by the
name. -/

/-- The name of a request. -/
def requestType : ForwardRequest → SshString
  | tcpipForward _ => "tcpip-forward"
  | cancelTcpipForward _ => "cancel-tcpip-forward"
  | streamlocalForward _ => "streamlocal-forward@openssh.com"
  | cancelStreamlocalForward _ => "cancel-streamlocal-forward@openssh.com"

/-- The bytes of the payload. -/
def payload : ForwardRequest → List UInt8
  | tcpipForward r => Wire.encode r
  | cancelTcpipForward r => Wire.encode r
  | streamlocalForward r => Wire.encode r
  | cancelStreamlocalForward r => Wire.encode r

/-- No field of the payload is longer than what a peer accepts. -/
def Bounded : ForwardRequest → Prop
  | tcpipForward r => Wire.Bounded r
  | cancelTcpipForward r => Wire.Bounded r
  | streamlocalForward r => Wire.Bounded r
  | cancelStreamlocalForward r => Wire.Bounded r

/-- The decoder of the payload of a request of type `ty`; `none` for a type that `dispatch_global`
does not know. -/
def payloadDecoder (ty : SshString) : Option (Decoder ForwardError ForwardRequest) :=
  match ty with
  | "tcpip-forward" => some (TcpipForwardRequest.decoder.bind fun r => .done (.tcpipForward r))
  | "cancel-tcpip-forward" =>
    some (CancelTcpipForwardRequest.decoder.bind fun r => .done (.cancelTcpipForward r))
  | "streamlocal-forward@openssh.com" =>
    some (StreamlocalForwardRequest.decoder.bind fun r => .done (.streamlocalForward r))
  | "cancel-streamlocal-forward@openssh.com" =>
    some (CancelStreamlocalForwardRequest.decoder.bind fun r => .done (.cancelStreamlocalForward r))
  | _ => none

/-- The decoder for the type of a request reads exactly its payload. -/
theorem accepts_payload {rq : ForwardRequest} (h : rq.Bounded) :
    ∃ d, payloadDecoder rq.requestType = some d ∧ d.Accepts rq.payload rq := by
  cases rq with
  | tcpipForward r => exact ⟨_, rfl, (LawfulWire.inverts.accepts h).bind_done rfl⟩
  | cancelTcpipForward r => exact ⟨_, rfl, (LawfulWire.inverts.accepts h).bind_done rfl⟩
  | streamlocalForward r => exact ⟨_, rfl, (LawfulWire.inverts.accepts h).bind_done rfl⟩
  | cancelStreamlocalForward r => exact ⟨_, rfl, (LawfulWire.inverts.accepts h).bind_done rfl⟩

/-- The names are short. -/
theorem utf8_requestType_length (rq : ForwardRequest) :
    rq.requestType.utf8.length ≤ maxRemoteFieldSize := by
  cases rq <;> simp only [requestType] <;> decide

/-- The request as it is sent, wanting a reply. -/
def message (rq : ForwardRequest) : ControlMessage :=
  .globalRequest ⟨rq.requestType, rq.payload⟩ true

end ForwardRequest

/-! ## The loop

`accept_global_request` and `dispatch_global` in turn. An error of either ends the loop, and the
session with it. -/

/-- What ends the loop; all of it poisons the session. -/
inductive ServeError where
  | accept (e : AcceptError)
  | payload (e : ForwardError)
  | unknownRequest (requestType : SshString)
  | unknownNotice (requestType : SshString)
  deriving DecidableEq

/-- The tables, and the number of requests handled so far. -/
structure GlobalRequests where
  /-- What the requests have set up. -/
  forwards : Forwards := {}
  /-- How many have been handled; the answers of the system are numbered by it. -/
  handled : ℕ := 0

namespace GlobalRequests

/-- One turn: `accept_global_request`, and `dispatch_global` with the operating system at the time
of this request. -/
def body (os : ℕ → Os) (s : GlobalRequests) :
    Decoder ServeError (Loop.Flow GlobalRequests Empty × List UInt8) := do
  let (requestType, wantReply) ← acceptHeader.mapError .accept
  if wantReply then
    match ForwardRequest.payloadDecoder requestType with
    | some d =>
      let rq ← d.mapError .payload
      let (forwards, answer) := dispatchGlobal (os s.handled) true s.forwards rq
      pure (.again ⟨forwards, s.handled + 1⟩, (ControlMessage.ofAnswer answer).encode)
    | none => .fail (.unknownRequest requestType)
  else .fail (.unknownNotice requestType)

/-- The body as a turn of the loop, on what is on the stream. -/
def turn (os : ℕ → Os) : GlobalRequests × List UInt8 → List UInt8 →
    Turn (GlobalRequests × List UInt8) (Except ServeError Empty × List UInt8) :=
  Loop.ofDecoder (body os)

/-! ## The reference machine

What a client may expect: a set of listeners, and a reply for each request that depends on this
set and on what the operating system says. -/

/-- The listeners a client has: canonical hosts with ports, and paths. -/
structure Reference where
  /-- What is listened on for the client, … -/
  tcp : Finset (String × ℕ) := ∅
  /-- … and which sockets are. -/
  unix : Finset String := ∅

/-- What a client is told. -/
inductive Reply where
  | failure
  | success
  /-- Success, with the port. -/
  | bound (port : ℕ)
  deriving DecidableEq

/-- The reply as it is given to `respond_success` or `respond_failure`. -/
def Reply.answer : Reply → Answer
  | failure => .failure
  | success => .success []
  | bound port => .success (TcpipForwardReply.encode ⟨.ofNat port⟩)

namespace Reference

/-- What a request does, and its reply. -/
def step (os : Os) (s : Reference) : ForwardRequest → Reference × Reply
  | .tcpipForward r =>
    let host := canonicalizeRemoteBindHost r.bindAddress
    if 65535 < r.bindPort.val then (s, .failure)
    else
      match bindTcpForwardGroup os host (.ofNat r.bindPort.val) with
      | .error _ => (s, .failure)
      | .ok listener =>
        ({ s with tcp := insert (host, listener.boundPort.toNat) s.tcp },
          .bound listener.boundPort.toNat)
  | .cancelTcpipForward r =>
    let key := (canonicalizeRemoteBindHost r.bindAddress, r.bindPort.val)
    if r.bindPort.val ≤ 65535 ∧ key ∈ s.tcp then ({ s with tcp := s.tcp.erase key }, .success)
    else (s, .failure)
  | .streamlocalForward r =>
    if os.bindUnixSocket r.socketPath then
      ({ s with unix := insert r.socketPath s.unix }, .success)
    else (s, .failure)
  | .cancelStreamlocalForward r =>
    if r.socketPath ∈ s.unix then ({ s with unix := s.unix.erase r.socketPath }, .success)
    else (s, .failure)

/-- A sequence of requests, the first of them the `n`-th of all: the state in the end, and the
replies. -/
def run (os : ℕ → Os) (s : Reference) (n : ℕ) : List ForwardRequest → Reference × List Reply
  | [] => (s, [])
  | rq :: rqs =>
    let (s', reply) := step (os n) s rq
    let (s'', replies) := run os s' (n + 1) rqs
    (s'', reply :: replies)

/-- One reply for each request. -/
theorem length_run (os : ℕ → Os) (s : Reference) (n : ℕ) (rqs : List ForwardRequest) :
    (run os s n rqs).2.length = rqs.length := by
  induction rqs generalizing s n with
  | nil => rfl
  | cons rq rqs ih => exact congrArg (· + 1) (ih _ _)

end Reference

/-- The bytes of the replies. -/
def written (replies : List Reply) : List UInt8 :=
  (replies.map fun reply => (ControlMessage.ofAnswer reply.answer).encode).flatten

/-! ## One request on both sides

The tables of the server have the same keys as the set, and a request keeps it so. The reply is
the same, also where it is a failure. -/

/-- The keys of the tables are the members of the sets. -/
structure Refines (f : Forwards) (s : Reference) : Prop where
  /-- A host and a port are set exactly if they have a handle. -/
  tcp : ∀ host port, (host, port) ∈ s.tcp ↔ ∃ p : UInt16, p.toNat = port ∧ (host, p) ∈ f.tcpForwards
  /-- And so is a path. -/
  unix : ∀ socketPath, socketPath ∈ s.unix ↔ socketPath ∈ f.unixForwards

variable {f : Forwards} {s : Reference} {os : Os}

/-- Numbers that are no ports, … -/
theorem u16TryFrom_eq_none {n : VarInt} : u16TryFrom n = none ↔ 65535 < n.val := by
  rw [u16TryFrom]
  split_ifs with h
  · exact iff_of_false nofun (by omega)
  · exact iff_of_true rfl (by omega)

/-- … and numbers that are. -/
theorem u16TryFrom_eq_some {n : VarInt} (h : n.val ≤ 65535) :
    u16TryFrom n = some (.ofNat n.val) := by
  rw [u16TryFrom, if_pos (by omega)]

/-- A port in the set is one in the table. -/
theorem Refines.mem_tcp (h : Refines f s) (host : String) {port : ℕ} (hport : port ≤ 65535) :
    (host, port) ∈ s.tcp ↔ (host, UInt16.ofNat port) ∈ f.tcpForwards := by
  have hlt : port < UInt16.size := by simp only [UInt16.size]; omega
  rw [h.tcp]
  constructor
  · rintro ⟨p, rfl, hp⟩
    rwa [UInt16.ofNat_toNat]
  · exact fun hp => ⟨_, UInt16.toNat_ofNat_of_lt hlt, hp⟩

/-- A listener is bound. -/
theorem Refines.insert_tcp (h : Refines f s) (host : String) (port : UInt16) (i : ℕ)
    (ts : JoinSet ForwardTask Unit) :
    Refines { f with tcpForwards := f.tcpForwards.insert (host, port) i, forwardTasks := ts }
      { s with tcp := insert (host, port.toNat) s.tcp } := by
  refine ⟨fun host' port' => ?_, h.unix⟩
  simp only [Finset.mem_insert, AList.mem_insert, Prod.mk.injEq, h.tcp]
  constructor
  · rintro (⟨rfl, rfl⟩ | ⟨p, hp, hmem⟩)
    · exact ⟨port, rfl, Or.inl ⟨rfl, rfl⟩⟩
    · exact ⟨p, hp, Or.inr hmem⟩
  · rintro ⟨p, rfl, ⟨rfl, rfl⟩ | hmem⟩
    · exact Or.inl ⟨rfl, rfl⟩
    · exact Or.inr ⟨p, rfl, hmem⟩

/-- A listener is cancelled. -/
theorem Refines.erase_tcp (h : Refines f s) (host : String) (port : UInt16)
    (ts : JoinSet ForwardTask Unit) :
    Refines { f with tcpForwards := f.tcpForwards.erase (host, port), forwardTasks := ts }
      { s with tcp := s.tcp.erase (host, port.toNat) } := by
  refine ⟨fun host' port' => ?_, h.unix⟩
  simp only [Finset.mem_erase, AList.mem_erase, ne_eq, Prod.mk.injEq, h.tcp]
  constructor
  · rintro ⟨hne, p, rfl, hmem⟩
    exact ⟨p, rfl, fun ⟨hhost, hp⟩ => hne ⟨hhost, by rw [hp]⟩, hmem⟩
  · rintro ⟨p, rfl, hne, hmem⟩
    exact ⟨fun ⟨hhost, hp⟩ => hne ⟨hhost, UInt16.toNat_inj.mp hp⟩, p, rfl, hmem⟩

/-- **One request.** It has the same reply on both sides, and the same effect. -/
theorem refines_dispatch (h : Refines f s) (rq : ForwardRequest) :
    Refines (dispatchGlobal os true f rq).1 (Reference.step os s rq).1 ∧
      (dispatchGlobal os true f rq).2 = (Reference.step os s rq).2.answer := by
  cases rq with
  | tcpipForward r =>
    rw [dispatchGlobal, Reference.step, acceptTcpForward]
    by_cases hport : 65535 < r.bindPort.val
    · rw [if_pos hport, u16TryFrom_eq_none.mpr hport]
      exact ⟨h, rfl⟩
    · rw [if_neg hport, u16TryFrom_eq_some (by omega)]
      cases hbind : bindTcpForwardGroup os (canonicalizeRemoteBindHost r.bindAddress)
          (.ofNat r.bindPort.val) with
      | error e =>
        simp only [hbind]
        exact ⟨h, rfl⟩
      | ok listener =>
        simp only [hbind, if_true]
        exact ⟨h.insert_tcp _ _ _ _, rfl⟩
  | cancelTcpipForward r =>
    rw [dispatchGlobal, Reference.step]
    by_cases hport : r.bindPort.val ≤ 65535
    · have hval : (UInt16.ofNat r.bindPort.val).toNat = r.bindPort.val :=
        UInt16.toNat_ofNat_of_lt (by simp only [UInt16.size]; omega)
      have hmem := h.mem_tcp (canonicalizeRemoteBindHost r.bindAddress) hport
      rw [u16TryFrom_eq_some hport]
      cases hlookup : f.tcpForwards.lookup
          (canonicalizeRemoteBindHost r.bindAddress, .ofNat r.bindPort.val) with
      | some i =>
        rw [← AList.lookup_isSome, hlookup] at hmem
        simp only [hlookup]
        rw [if_pos ⟨hport, hmem.mpr rfl⟩]
        have herase := h.erase_tcp (canonicalizeRemoteBindHost r.bindAddress)
          (.ofNat r.bindPort.val) (f.forwardTasks.abort i)
        rw [hval] at herase
        exact ⟨herase, rfl⟩
      | none =>
        rw [← AList.lookup_isSome, hlookup] at hmem
        simp only [hlookup]
        rw [if_neg fun hkey => by simpa using hmem.mp hkey.2]
        exact ⟨h, rfl⟩
    · rw [if_neg fun hkey => hport hkey.1, u16TryFrom_eq_none.mpr (by omega)]
      exact ⟨h, rfl⟩
  | streamlocalForward r =>
    rw [dispatchGlobal, Reference.step, acceptUnixForward]
    by_cases hbind : os.bindUnixSocket r.socketPath = true
    · simp only [hbind, if_true]
      refine ⟨⟨h.tcp, fun socketPath => ?_⟩, rfl⟩
      simp only [Finset.mem_insert, AList.mem_insert, h.unix]
    · simp only [hbind]
      exact ⟨h, rfl⟩
  | cancelStreamlocalForward r =>
    have hmem := h.unix r.socketPath
    rw [dispatchGlobal, Reference.step]
    cases hlookup : f.unixForwards.lookup r.socketPath with
    | some i =>
      rw [← AList.lookup_isSome, hlookup] at hmem
      rw [if_pos (hmem.mpr rfl)]
      refine ⟨⟨h.tcp, fun socketPath => ?_⟩, rfl⟩
      simp only [Finset.mem_erase, AList.mem_erase, h.unix]
    | none =>
      rw [← AList.lookup_isSome, hlookup] at hmem
      rw [if_neg fun hkey => by simpa using hmem.mp hkey]
      exact ⟨h, rfl⟩

/-- Who is handed a listener has answered with success. -/
theorem answer_of_acceptTcpForward {responds : Bool} {r : TcpipForwardRequest}
    {listener : TcpForwardListener} {answer : Answer}
    (h : acceptTcpForward os responds r = (.ok listener, answer)) : answer ≠ .failure := by
  rw [acceptTcpForward] at h
  split at h
  · cases h
  · split at h
    · cases h
    · obtain ⟨-, rfl⟩ := Prod.mk.inj h
      intro hfailure
      cases hfailure

/-- The same for paths. -/
theorem answer_of_acceptUnixForward {responds : Bool} {r : StreamlocalForwardRequest}
    {socketPath : String} {answer : Answer}
    (h : acceptUnixForward os responds r = (.ok socketPath, answer)) : answer ≠ .failure := by
  rw [acceptUnixForward] at h
  split at h
  · obtain ⟨-, rfl⟩ := Prod.mk.inj h
    intro hfailure
    cases hfailure
  · cases h

/-- **A request that fails changes nothing.** -/
theorem dispatch_of_failure {responds : Bool} {rq : ForwardRequest}
    (h : (dispatchGlobal os responds f rq).2 = .failure) :
    (dispatchGlobal os responds f rq).1 = f := by
  cases rq with
  | tcpipForward r =>
    obtain ⟨⟨result, answer⟩, haccept⟩ : ∃ p, acceptTcpForward os responds r = p := ⟨_, rfl⟩
    simp only [dispatchGlobal, haccept] at h ⊢
    cases result with
    | error e => rfl
    | ok listener => exact absurd h (answer_of_acceptTcpForward haccept)
  | streamlocalForward r =>
    obtain ⟨⟨result, answer⟩, haccept⟩ : ∃ p, acceptUnixForward os responds r = p := ⟨_, rfl⟩
    simp only [dispatchGlobal, haccept] at h ⊢
    cases result with
    | error e => rfl
    | ok socketPath => exact absurd h (answer_of_acceptUnixForward haccept)
  | cancelTcpipForward r =>
    simp only [dispatchGlobal] at h ⊢
    split at h
    · rfl
    · split at h
      · cases h
      · rfl
  | cancelStreamlocalForward r =>
    simp only [dispatchGlobal] at h ⊢
    split at h
    · cases h
    · rfl

/-! ## Sequences of requests

By the rule for loops over messages, the loop on the bytes is a fold over the requests, and the
fold is a run of the reference machine. -/

/-- What a turn makes of a request. -/
def next (os : ℕ → Os) (s : GlobalRequests × List UInt8) (rq : ForwardRequest) :
    GlobalRequests × List UInt8 :=
  let (forwards, answer) := dispatchGlobal (os s.1.handled) true s.1.forwards rq
  (⟨forwards, s.1.handled + 1⟩, s.2 ++ (ControlMessage.ofAnswer answer).encode)

/-- The header of a request is read. -/
theorem accepts_acceptHeader (rq : ForwardRequest) :
    acceptHeader.Accepts
      (sshMsgGlobalRequest.encode ++ (SshString.encode rq.requestType ++ SshBool.encode true))
      (rq.requestType, true) := by
  have htype := SshString.accepts_encode rq.utf8_requestType_length
  refine (VarInt.accepts_encode AcceptError.decodeMessageType _).bind ?_
  rw [if_neg (not_not.mpr rfl)]
  refine (Decoder.accepts_mapError.mpr htype).bind ?_
  exact (Decoder.accepts_mapError.mpr (SshBool.accepts_encode true)).bind_done rfl

/-- A request at the front of the stream is read and answered. -/
theorem turn_request {os : ℕ → Os} {rq : ForwardRequest} (hrq : rq.Bounded)
    (s : GlobalRequests × List UInt8) (tail : List UInt8) :
    turn os s (rq.message.encode ++ tail) = .again (next os s rq) tail := by
  obtain ⟨d, hd, hpayload⟩ := rq.accepts_payload hrq
  have hbody : (body os s.1).Accepts rq.message.encode
      (.again (next os s rq).1,
        (ControlMessage.ofAnswer
          (dispatchGlobal (os s.1.handled) true s.1.forwards rq).2).encode) := by
    have hbytes : rq.message.encode =
        sshMsgGlobalRequest.encode ++ (SshString.encode rq.requestType ++ SshBool.encode true) ++
          rq.payload := by
      simp [ForwardRequest.message, ControlMessage.encode, ControlMessage.fields]
    rw [hbytes]
    refine (Decoder.accepts_mapError.mpr (accepts_acceptHeader rq)).bind ?_
    simp only [if_true, hd]
    exact (Decoder.accepts_mapError.mpr hpayload).bind_done rfl
  exact Loop.ofDecoder_again hbody tail

/-- Both sides on a sequence of requests. -/
theorem refines_foldl (os : ℕ → Os) {f : Forwards} {s : Reference} (h : Refines f s) (n : ℕ)
    (out : List UInt8) (rqs : List ForwardRequest) :
    ∃ f', rqs.foldl (next os) (⟨f, n⟩, out) =
        (⟨f', n + rqs.length⟩, out ++ written (Reference.run os s n rqs).2) ∧
      Refines f' (Reference.run os s n rqs).1 := by
  induction rqs generalizing f s n out with
  | nil => exact ⟨f, by simp [written, Reference.run], h⟩
  | cons rq rqs ih =>
    obtain ⟨hrefines, hreply⟩ : Refines (dispatchGlobal (os n) true f rq).1 _ ∧ _ :=
      refines_dispatch h rq
    obtain ⟨f', hfold, hf'⟩ := ih hrefines (n + 1)
      (out ++ (ControlMessage.ofAnswer (Reference.step (os n) s rq).2.answer).encode)
    refine ⟨f', ?_, hf'⟩
    have hnext : next os (⟨f, n⟩, out) rq = (⟨(dispatchGlobal (os n) true f rq).1, n + 1⟩,
        out ++ (ControlMessage.ofAnswer (dispatchGlobal (os n) true f rq).2).encode) := rfl
    have hwritten : written (Reference.run os s n (rq :: rqs)).2 =
        (ControlMessage.ofAnswer (Reference.step (os n) s rq).2.answer).encode ++
          written (Reference.run os (Reference.step (os n) s rq).1 (n + 1) rqs).2 := rfl
    rw [List.foldl_cons, hnext, hreply, hfold, hwritten, List.length_cons, List.append_assoc,
      Nat.add_assoc, Nat.add_comm 1]

/-- **The answers.** Any sequence of requests is read to its end, whatever the operating system
says and whatever follows, without poisoning the session; the replies written are those of the
reference machine, one for each request and in order, and the tables have the keys that it has. A
request that fails changes nothing. -/
theorem answered (os : ℕ → Os) {rqs : List ForwardRequest} (hrqs : ∀ rq ∈ rqs, rq.Bounded) :
    (∃ f, (∀ tail, Loop.Reaches (turn os) ({}, [])
          ((rqs.map fun rq => rq.message.encode).flatten ++ tail)
          (⟨f, rqs.length⟩, written (Reference.run os {} 0 rqs).2) tail) ∧
        Refines f (Reference.run os {} 0 rqs).1) ∧
      (Reference.run os {} 0 rqs).2.length = rqs.length ∧
      ∀ os responds f rq, (dispatchGlobal os responds f rq).2 = .failure →
        (dispatchGlobal os responds f rq).1 = f := by
  refine ⟨?_, Reference.length_run os {} 0 rqs, fun _ _ _ _ => dispatch_of_failure⟩
  have hinit : Refines {} {} := by
    refine ⟨fun host port => iff_of_false (Finset.notMem_empty _) ?_,
      fun socketPath => iff_of_false (Finset.notMem_empty _) (AList.notMem_empty _)⟩
    rintro ⟨p, -, hp⟩
    exact AList.notMem_empty _ hp
  obtain ⟨f, hfold, hf⟩ := refines_foldl os hinit 0 [] rqs
  refine ⟨f, fun tail => ?_, hf⟩
  have hturn : ∀ rq ∈ rqs, ∀ s tail, turn os s (rq.message.encode ++ tail) =
      .again (next os s rq) tail := fun rq hrq s tail => turn_request (hrqs rq hrq) s tail
  have hreaches := Loop.reaches_messages hturn ({}, []) tail
  rwa [hfold, Nat.zero_add] at hreaches

/-- A port is forwarded, cancelled, and cancelled again. -/
def cancelledTwice : List ForwardRequest :=
  [.tcpipForward ⟨"*", .ofNat 80⟩, .cancelTcpipForward ⟨"", .ofNat 80⟩,
    .cancelTcpipForward ⟨"", .ofNat 80⟩]

/-- The second cancellation fails. -/
theorem cancelledTwice_answered :
    (Reference.run (fun _ => Forwards.openOs) {} 0 cancelledTwice).2 =
        [.bound 80, .success, .failure] ∧
      ∃ f, ∀ tail, Loop.Reaches (turn fun _ => Forwards.openOs) ({}, [])
        ((cancelledTwice.map fun rq => rq.message.encode).flatten ++ tail)
        (⟨f, 3⟩, written (Reference.run (fun _ => Forwards.openOs) {} 0 cancelledTwice).2)
          tail := by
  have hbounded : ∀ rq ∈ cancelledTwice, rq.Bounded := by
    intro rq hrq
    rcases hrq with _ | ⟨_, _ | ⟨_, _ | ⟨_, ⟨⟩⟩⟩⟩
    · exact TcpipForwardRequest.bounded_iff.mpr (by decide)
    · exact CancelTcpipForwardRequest.bounded_iff.mpr (by decide)
    · exact CancelTcpipForwardRequest.bounded_iff.mpr (by decide)
  obtain ⟨f, hreaches, -⟩ := (answered (fun _ => Forwards.openOs) hbounded).1
  exact ⟨by decide, f, hreaches⟩

/-- **The limit on the fields.** A host one byte too long poisons the session, and there is no
reply. -/
theorem oneTooLong_host_refused :
    ∃ e rest, Loop.run (turn fun _ => Forwards.openOs) ({}, [])
        (ForwardRequest.tcpipForward
          ⟨String.ofList (List.replicate (maxRemoteFieldSize + 1) 'a'), .ofNat 80⟩).message.encode =
      some ((.error e, []), rest) := by
  set r : TcpipForwardRequest :=
    ⟨String.ofList (List.replicate (maxRemoteFieldSize + 1) 'a'), .ofNat 80⟩ with hr
  have hlength : r.bindAddress.utf8.length = maxRemoteFieldSize + 1 :=
    SshString.length_utf8_replicate _
  set header := sshMsgGlobalRequest.encode ++
    (SshString.encode "tcpip-forward" ++ SshBool.encode true) with hheader
  have hrefuses : (body (fun _ => Forwards.openOs) {}).Refuses (header ++ Wire.encode r) := by
    have haccepts := accepts_acceptHeader (.tcpipForward r)
    refine .bind_right (Decoder.accepts_mapError.mpr haccepts) ?_
    have hdecoder : TcpipForwardRequest.decoder.Refuses (Wire.encode r) :=
      ((SshString.refuses (by omega) (by rw [hlength]; decide)).mapError _).bind_left _ _
    exact ((hdecoder.bind _).mapError _).bind _
  obtain ⟨e, rest, hturn⟩ : ∃ e rest, turn (fun _ => Forwards.openOs) ({}, [])
      (header ++ Wire.encode r ++ []) = .stop (.error e, []) rest :=
    Loop.ofDecoder_refuses hrefuses []
  have hbytes : (ForwardRequest.tcpipForward r).message.encode = header ++ Wire.encode r ++ [] := by
    simp [ForwardRequest.message, ControlMessage.encode, ControlMessage.fields, hheader,
      ForwardRequest.requestType, ForwardRequest.payload]
  exact ⟨e, rest, by rw [hbytes, Loop.run_stop hturn]⟩

end GlobalRequests

end Dssh
