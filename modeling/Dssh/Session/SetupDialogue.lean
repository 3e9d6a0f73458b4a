import Dssh.Session.Setup
import Dssh.Lib.Machine

/-!
# Setting up a session, both sides

A `ClientSession` that asks for terminals and then for a command or a shell, and `session_setup`
on the other end of the channel. Each call of the client writes a request and reads the answer;
the bytes of both directions arrive one by one. The step of the system is partial and
deterministic, and its actions say which side goes on.

## Two statements about one loop

`Setup` has the server's loop on a stream that is there as a whole, with any requests in any
mixture of wanting a reply or not. A client of this library does not send a stream. It waits for
the answer to each request before it writes the next, and it makes certain calls only. So there
is a second statement, about the two sides together, in which the bytes of the answers arrive as
well: no call fails, nobody waits for ever, the number of steps is bounded, and in the end the
two sides agree. `setup_agreed` has both.

## The state

At any time one of two things is the case. Between calls, both directions are empty, and the
server is at the beginning of a turn, or back. During a call, the request is partly in the
stream and partly read, or the answer is. `Stands` has one case for each of these, with the
decoders as they are after what has been read. A step leads from one case to another, and takes
one from what is to come (`Stands.step`), which is counted in bytes (`cost`, `remaining`). As
long as calls are to come, somebody can go on.

The dialogue is used again by the model of a whole session, in front of the streams of input and
output.

## What a client cannot send

Its fields have to be within the limit of the decoder. `oneTooLong_env_refused` shows what
becomes of a variable that is a byte too long: it is written, and the server ends the setup
without an answer.

## Main definitions

* `SetupDialogue`, `SetupDialogue.step` — the two sides and the channel between them
* `SetupDialogue.Stands` — where they stand
* `SetupDialogue.clientCalls`, `SetupDialogue.Agreed` — what the client does, and how it ends

## Main results

* `SetupDialogue.exec_agreed` — every run gets closer to the end with every step, and agrees
  there
* `SetupDialogue.setup_agreed` — the server's loop alone, and the two sides together
-/

namespace Dssh

/-! ## The client

A call writes its request and then reads the answer, byte by byte. The server is the loop of the
setup, suspended wherever bytes are missing. -/

/-- The errors of reading the answer. -/
inductive SendChannelRequestError where
  | decodeResponseType
  | rejected
  | unexpectedResponseType (messageType : VarInt)
  deriving DecidableEq, Repr

/-- What `SshChannel::request` reads after it has written the request. -/
def SshChannel.readResponse : Decoder SendChannelRequestError Unit := do
  let messageType ← VarInt.decoder .decodeResponseType
  if messageType = sshMsgChannelSuccess then pure ()
  else if messageType = sshMsgChannelFailure then .fail .rejected
  else .fail (.unexpectedResponseType messageType)

/-- A success is read as one. -/
theorem SshChannel.readResponse_accepts : readResponse.Accepts ChannelResponder.respondSuccess () :=
  Decoder.Accepts.bind (VarInt.accepts_encode _ _) rfl

namespace SetupDialogue

open SessionSetup

/-- The server: in its loop, with a decode in progress, or back from `session_setup`. -/
inductive Server where
  | reading (s : Locals) (d : Decoder SessionSetupError (Loop.Flow Locals Locals × List UInt8))
  | returned (result : Except SessionSetupError SessionSetup)

end SetupDialogue

open SessionSetup in
/-- The two sides and the channel between them. -/
structure SetupDialogue where
  /-- The calls that have not returned; the first one is in progress if there is a `response`. -/
  calls : List SessionRequest
  /-- The read of the response in progress. -/
  response : Option (Decoder SendChannelRequestError Unit) := none
  /-- What the calls have returned. -/
  results : List (Except SendChannelRequestError Unit) := []
  /-- What is under way to the server. -/
  toServer : List UInt8 := []
  /-- What is under way to the client. -/
  toClient : List UInt8 := []
  /-- The setup on the side of the server. -/
  server : SetupDialogue.Server := .reading {} (body {})

namespace SetupDialogue

open SessionSetup

/-- Who goes on. -/
inductive Action where
  /-- The client calls `request_pty`, `exec` or `shell`, and the request is written. -/
  | call
  /-- A byte arrives at the server. -/
  | serve
  /-- A byte arrives at the client. -/
  | receive
  deriving DecidableEq

/-- What the server does next, and what it writes. -/
def proceed (openpty : Winsize → Option ℕ) (s : Locals) :
    Decoder SessionSetupError (Loop.Flow Locals Locals × List UInt8) → Server × List UInt8
  | .done (.again s', written) => (.reading s' (body s'), written)
  | .done (.stop s', written) => (.returned (finish openpty s'), written)
  | .fail e => (.returned (.error e), [])
  | .read io k => (.reading s (.read io k), [])

/-- One step of the system. -/
def step (openpty : Winsize → Option ℕ) (t : SetupDialogue) : Action → Option SetupDialogue
  | .call =>
    match t.response, t.calls with
    | none, rq :: _ =>
      some { t with
        response := some SshChannel.readResponse
        toServer := t.toServer ++ SshChannel.request rq }
    | _, _ => none
  | .serve =>
    match t.server, t.toServer with
    | .reading s (.read _ k), b :: toServer =>
      let p := proceed openpty s (k b)
      some { t with server := p.1, toServer := toServer, toClient := t.toClient ++ p.2 }
    | _, _ => none
  | .receive =>
    match t.response, t.toClient with
    | some (.read _ k), b :: toClient =>
      match k b with
      | .done _ =>
        some { t with
          toClient := toClient, response := none, calls := t.calls.tail
          results := t.results ++ [.ok ()] }
      | .fail e =>
        some { t with
          toClient := toClient, response := none, calls := t.calls.tail
          results := t.results ++ [.error e] }
      | .read io k' => some { t with toClient := toClient, response := some (.read io k') }
    | _, _ => none

/-- A client that is going to make the calls, and a server that is waiting. -/
def machine (openpty : Winsize → Option ℕ) (calls : List SessionRequest) :
    Machine SetupDialogue Action :=
  ⟨{ calls := calls }, step openpty⟩

/-! ## Where the two sides stand

The calls are made one by one, so at any time one request is being written, read, answered, or
its answer is being read. Each step moves on, and the number of the steps that are left can be
given. -/

/-- The local variables of the server after some requests. -/
def locals (made : List SessionRequest) : Locals := made.foldl Locals.request {}

/-- The server when it has answered the requests `made`, and `calls` are to come. -/
def serverAfter (openpty : Winsize → Option ℕ) (made calls : List SessionRequest) : Server :=
  if calls = [] then .returned (finish openpty (locals made))
  else .reading (locals made) (body (locals made))

/-- Where the server's loop goes with a request. -/
def flowAfter (made : List SessionRequest) (rq : SessionRequest) (calls : List SessionRequest) :
    Loop.Flow Locals Locals :=
  if calls = [] then .stop (locals (made ++ [rq])) else .again (locals (made ++ [rq]))

/-- Where the two sides stand when the client makes the calls `all`. -/
inductive Stands (openpty : Winsize → Option ℕ) (all : List SessionRequest) : SetupDialogue → Prop
  /-- Between calls. -/
  | idle {made calls : List SessionRequest} (h : made ++ calls = all) :
      Stands openpty all
        ⟨calls, none, made.map fun _ => .ok (), [], [], serverAfter openpty made calls⟩
  /-- The request is on its way. -/
  | asking {made calls : List SessionRequest} {rq : SessionRequest}
      {d : Decoder SessionSetupError (Loop.Flow Locals Locals × List UInt8)} {b : UInt8}
      {bs : List UInt8} (h : made ++ rq :: calls = all)
      (hd : d.Accepts (b :: bs) (flowAfter made rq calls, ChannelResponder.respondSuccess)) :
      Stands openpty all
        ⟨rq :: calls, some SshChannel.readResponse, made.map fun _ => .ok (), b :: bs, [],
          .reading (locals made) d⟩
  /-- The answer is on its way. -/
  | answering {made calls : List SessionRequest} {rq : SessionRequest}
      {d : Decoder SendChannelRequestError Unit} {b : UInt8} {bs : List UInt8}
      (h : made ++ rq :: calls = all) (hd : d.Accepts (b :: bs) ()) :
      Stands openpty all
        ⟨rq :: calls, some d, made.map fun _ => .ok (), [], b :: bs,
          serverAfter openpty (made ++ [rq]) calls⟩

/-- How many steps a call takes: one to write the request, and one for each byte. -/
def cost (rq : SessionRequest) : ℕ :=
  1 + (SshChannel.request rq).length + ChannelResponder.respondSuccess.length

/-- How many steps are to come. -/
def remaining (t : SetupDialogue) : ℕ :=
  match t.response with
  | none => (t.calls.map cost).sum
  | some _ =>
    t.toServer.length + (if t.toServer = [] then 0 else ChannelResponder.respondSuccess.length) +
      t.toClient.length + (t.calls.tail.map cost).sum

variable {openpty : Winsize → Option ℕ} {all : List SessionRequest} {t t' : SetupDialogue}

/-- The requests that a client makes: some that prepare, and one that starts. -/
def Proper (all : List SessionRequest) : Prop :=
  ∀ made rq calls, made ++ rq :: calls = all →
    rq.Bounded ∧ if calls = [] then Starts rq else Prepares rq

/-- A request as the client writes it is a message that wants a reply. -/
theorem request_eq (rq : SessionRequest) :
    SshChannel.request rq = (ChannelMessage.request rq true).head ++ rq.payload := by
  simp [SshChannel.request, ChannelMessage.head]

/-- One request more. -/
theorem locals_append (made : List SessionRequest) (rq : SessionRequest) :
    locals (made ++ [rq]) = (locals made).request rq := by
  rw [locals, List.foldl_append]
  rfl

/-- The server reads a request that it expects. -/
theorem body_accepts {made calls : List SessionRequest} {rq : SessionRequest} (hall : Proper all)
    (h : made ++ rq :: calls = all) :
    (body (locals made)).Accepts (SshChannel.request rq)
      (flowAfter made rq calls, ChannelResponder.respondSuccess) := by
  obtain ⟨hbounded, hkind⟩ := hall made rq calls h
  rw [request_eq, flowAfter, locals_append]
  split_ifs at hkind ⊢ with hcalls
  · exact body_starts hkind hbounded true
  · exact body_prepares hkind hbounded true

/-- A call writes its request. -/
theorem Stands.call {made calls : List SessionRequest} (hall : Proper all)
    (h : made ++ calls = all)
    (hstep : step openpty ⟨calls, none, made.map fun _ => .ok (), [], [],
      serverAfter openpty made calls⟩ .call = some t') :
    Stands openpty all t' ∧ (calls.map cost).sum = remaining t' + 1 := by
  cases calls with
  | nil => cases hstep
  | cons rq calls =>
    have haccepts := body_accepts hall h
    obtain ⟨b, bs, hbs⟩ : ∃ b bs, SshChannel.request rq = b :: bs :=
      List.exists_cons_of_ne_nil (by rw [request_eq]; simp [ChannelMessage.head_ne_nil])
    obtain rfl := Option.some.inj hstep
    rw [hbs] at haccepts
    constructor
    · rw [hbs, serverAfter, if_neg (List.cons_ne_nil _ _)]
      exact .asking h haccepts
    · simp only [remaining, cost, List.nil_append, hbs, List.map_cons, List.sum_cons,
        List.length_cons, List.length_nil, List.tail_cons, if_neg (List.cons_ne_nil b bs)]
      omega

/-- The server in the middle of a decode. -/
theorem step_serve (calls : List SessionRequest) (response : Option (Decoder _ Unit))
    (results : List (Except SendChannelRequestError Unit)) (b : UInt8) (bs toClient : List UInt8)
    (s : Locals) (io : SessionSetupError)
    (k : UInt8 → Decoder SessionSetupError (Loop.Flow Locals Locals × List UInt8)) :
    step openpty ⟨calls, response, results, b :: bs, toClient, .reading s (.read io k)⟩ .serve =
      some ⟨calls, response, results, bs, toClient ++ (proceed openpty s (k b)).2,
        (proceed openpty s (k b)).1⟩ := rfl

/-- A byte of the request is read; with the last one, the answer is written. -/
theorem Stands.serve {made calls : List SessionRequest} {rq : SessionRequest}
    {d : Decoder SessionSetupError (Loop.Flow Locals Locals × List UInt8)} {b : UInt8}
    {bs : List UInt8}
    (h : made ++ rq :: calls = all)
    (hd : d.Accepts (b :: bs) (flowAfter made rq calls, ChannelResponder.respondSuccess))
    (hstep : step openpty ⟨rq :: calls, some SshChannel.readResponse, made.map fun _ => .ok (),
      b :: bs, [], .reading (locals made) d⟩ .serve = some t') :
    Stands openpty all t' ∧
      bs.length + 1 + ChannelResponder.respondSuccess.length + (calls.map cost).sum =
        remaining t' + 1 := by
  obtain ⟨io, k, rfl, hk⟩ := hd.cons
  rw [step_serve] at hstep
  obtain rfl := Option.some.inj hstep
  cases bs with
  | nil =>
    have hproceed : proceed openpty (locals made) (k b) =
        (serverAfter openpty (made ++ [rq]) calls, ChannelResponder.respondSuccess) := by
      rw [hk.eq_done, flowAfter, serverAfter]
      split_ifs <;> rfl
    obtain ⟨c, cs, hsuccess⟩ : ∃ c cs, ChannelResponder.respondSuccess = c :: cs :=
      List.exists_cons_of_ne_nil (by decide)
    have hresponse := SshChannel.readResponse_accepts
    rw [hproceed, List.nil_append]
    constructor
    · rw [hsuccess] at hresponse ⊢
      exact .answering h hresponse
    · simp [remaining]
      omega
  | cons b' bs =>
    obtain ⟨io', k', hkb, hk'⟩ := hk.cons
    have hproceed : proceed openpty (locals made) (k b) = (.reading (locals made) (k b), []) := by
      rw [hkb]
      rfl
    rw [hproceed, List.nil_append]
    refine ⟨.asking h hk, ?_⟩
    simp [remaining]
    omega

/-- A byte of the answer is read; with the last one, the call returns. -/
theorem Stands.receive {made calls : List SessionRequest} {rq : SessionRequest}
    {d : Decoder SendChannelRequestError Unit} {b : UInt8} {bs : List UInt8}
    (h : made ++ rq :: calls = all) (hd : d.Accepts (b :: bs) ())
    (hstep : step openpty ⟨rq :: calls, some d, made.map fun _ => .ok (), [], b :: bs,
      serverAfter openpty (made ++ [rq]) calls⟩ .receive = some t') :
    Stands openpty all t' ∧ bs.length + 1 + (calls.map cost).sum = remaining t' + 1 := by
  obtain ⟨io, k, rfl, hk⟩ := hd.cons
  cases bs with
  | nil =>
    simp only [step, hk.eq_done] at hstep
    obtain rfl := Option.some.inj hstep
    have hresults : (made.map fun _ => .ok ()) ++ [Except.ok ()] =
        ((made ++ [rq]).map fun _ => (.ok () : Except SendChannelRequestError Unit)) := by simp
    rw [hresults]
    refine ⟨.idle (by simpa using h), ?_⟩
    simp [remaining]
    omega
  | cons b' bs =>
    obtain ⟨io', k', hkb, hk'⟩ := hk.cons
    simp only [step, hkb] at hstep
    obtain rfl := Option.some.inj hstep
    rw [← hkb]
    refine ⟨.answering h hk, ?_⟩
    simp [remaining]
    omega

/-- The server waits for bytes. -/
theorem step_serve_nil (h : t.toServer = []) : step openpty t .serve = none := by
  rw [step, h]
  split <;> simp_all

/-- The client waits for bytes. -/
theorem step_receive_nil (h : t.toClient = []) : step openpty t .receive = none := by
  rw [step, h]
  split <;> simp_all

/-- **Every step gets closer to the end.** -/
theorem Stands.step (hall : Proper all) (ht : Stands openpty all t) {a : Action}
    (hstep : SetupDialogue.step openpty t a = some t') :
    Stands openpty all t' ∧ remaining t = remaining t' + 1 := by
  cases ht with
  | idle h => cases a with
    | call => exact Stands.call hall h hstep
    | serve => rw [step_serve_nil rfl] at hstep; cases hstep
    | receive => rw [step_receive_nil rfl] at hstep; cases hstep
  | asking h hd => cases a with
    | call => cases hstep
    | serve =>
      obtain ⟨hstands, hremaining⟩ := Stands.serve h hd hstep
      refine ⟨hstands, ?_⟩
      rw [← hremaining]
      simp [remaining]
    | receive => rw [step_receive_nil rfl] at hstep; cases hstep
  | answering h hd => cases a with
    | call => cases hstep
    | serve => rw [step_serve_nil rfl] at hstep; cases hstep
    | receive =>
      obtain ⟨hstands, hremaining⟩ := Stands.receive h hd hstep
      refine ⟨hstands, ?_⟩
      rw [← hremaining]
      simp [remaining]

/-- **Nobody waits for ever.** As long as calls are to come, somebody can go on. -/
theorem Stands.progress (ht : Stands openpty all t) (hcalls : t.calls ≠ []) :
    ∃ a t', SetupDialogue.step openpty t a = some t' := by
  cases ht with
  | @idle made calls h => cases calls with
    | nil => exact absurd rfl hcalls
    | cons rq calls => exact ⟨.call, _, rfl⟩
  | asking h hd =>
    obtain ⟨io, k, rfl, -⟩ := hd.cons
    exact ⟨.serve, _, step_serve ..⟩
  | @answering made calls rq d b bs h hd =>
    obtain ⟨io, k, rfl, hk⟩ := hd.cons
    refine ⟨.receive, ?_⟩
    cases bs with
    | nil => exact ⟨_, by simp only [SetupDialogue.step, hk.eq_done]; rfl⟩
    | cons b' bs =>
      obtain ⟨io', k', hkb, -⟩ := hk.cons
      exact ⟨_, by simp only [SetupDialogue.step, hkb]; rfl⟩

/-- The calls of a client that asks for terminals, and then for a command or a shell. -/
def clientCalls (ptys : List PtyRequest) (last : SessionRequest) : List SessionRequest :=
  ptys.map SessionRequest.ptyReq ++ [last]

/-- These are requests that the server expects. -/
theorem proper_clientCalls {ptys : List PtyRequest} (hptys : ∀ r ∈ ptys, Wire.Bounded r)
    {last : SessionRequest} (hlast : Starts last) (hbounded : last.Bounded) :
    Proper (clientCalls ptys last) := by
  intro made rq calls h
  rcases List.eq_nil_or_concat' calls with rfl | ⟨calls, rq', rfl⟩
  · obtain ⟨-, rfl⟩ := List.append_inj' h rfl |>.imp_right List.singleton_inj.mp
    exact ⟨hbounded, by rwa [if_pos rfl]⟩
  · rw [← List.cons_append, ← List.append_assoc] at h
    obtain ⟨hall, -⟩ := List.append_inj' h rfl
    have hmem : rq ∈ ptys.map SessionRequest.ptyReq := by rw [← hall]; simp
    obtain ⟨r, hr, rfl⟩ := List.mem_map.mp hmem
    exact ⟨hptys r hr, by rw [if_neg (by simp)]; trivial⟩

/-- Before the first call. -/
theorem stands_init (openpty : Winsize → Option ℕ) (ptys : List PtyRequest)
    (last : SessionRequest) :
    Stands openpty (clientCalls ptys last) (machine openpty (clientCalls ptys last)).init := by
  have hidle : Stands openpty (clientCalls ptys last) _ := .idle (List.nil_append _)
  rwa [serverAfter, if_neg (by simp [clientCalls])] at hidle

/-! ## The whole setup

When no calls are left, the two sides agree: on the results of the calls, and on what has been
set up. -/

/-- What is set up by the requests `rqs` and `last`. -/
def SetUp (setup : SessionSetup) (rqs : List SessionRequest) (last : SessionRequest) : Prop :=
  setup.command = commandOf last ∧ setup.isShell = decide (last = .shell) ∧
    setup.clientEnv = envPairs rqs ∧
    setup.termType = (ptyRequests rqs).getLast?.map PtyRequest.termType ∧
    Allocated setup.pty (ptyRequests rqs).getLast?

/-- The dialogue is over: every call has returned `Ok`, nothing is left on the channel, and the
server has set up what the client has asked for. -/
def Agreed (t : SetupDialogue) (ptys : List PtyRequest) (last : SessionRequest) : Prop :=
  t.calls = [] ∧ t.results = (clientCalls ptys last).map (fun _ => .ok ()) ∧ t.toServer = [] ∧
    t.toClient = [] ∧ ∃ setup, t.server = .returned (.ok setup) ∧
      SetUp setup (ptys.map SessionRequest.ptyReq) last

/-- Requests for terminals are those. -/
theorem ptyRequests_map (ptys : List PtyRequest) :
    ptyRequests (ptys.map SessionRequest.ptyReq) = ptys := by
  simp [ptyRequests, List.filterMap_map]

/-- Without calls to come, the two sides agree. -/
theorem Stands.agreed {openpty : Winsize → Option ℕ} {ptys : List PtyRequest}
    {last : SessionRequest} (hlast : Starts last)
    (hpty : ∀ r ∈ ptys.getLast?, ∃ winsize, allocatePty openpty r = .ok winsize)
    {t : SetupDialogue} (ht : Stands openpty (clientCalls ptys last) t) (hcalls : t.calls = []) :
    Agreed t ptys last := by
  cases ht with
  | asking | answering => cases hcalls
  | @idle made calls hmade =>
    obtain rfl : calls = [] := hcalls
    obtain rfl : made = clientCalls ptys last := by rw [← hmade, List.append_nil]
    have hprepares : ∀ rq ∈ ptys.map SessionRequest.ptyReq, Prepares rq := by simp [Prepares]
    rw [← ptyRequests_map ptys] at hpty
    obtain ⟨pty, hfinish, hallocated⟩ := finish_requests hprepares hlast hpty
    refine ⟨rfl, rfl, rfl, rfl, ⟨commandOf last, last = .shell, pty, _, _⟩, ?_,
      rfl, rfl, rfl, rfl, hallocated⟩
    rw [serverAfter, if_pos rfl, clientCalls, locals_append, locals, hfinish]
    rfl

/-- **The two sides.** No call fails, the dialogue goes on until all of them have returned, which
takes a bounded number of steps, and then the two sides agree. -/
theorem exec_agreed {openpty : Winsize → Option ℕ} {ptys : List PtyRequest}
    (hptys : ∀ r ∈ ptys, Wire.Bounded r) {last : SessionRequest} (hlast : Starts last)
    (hbounded : last.Bounded)
    (hpty : ∀ r ∈ ptys.getLast?, ∃ winsize, allocatePty openpty r = .ok winsize)
    {as : List Action} {t : SetupDialogue}
    (h : (machine openpty (clientCalls ptys last)).exec
      (machine openpty (clientCalls ptys last)).init as = some t) :
    (∀ r ∈ t.results, r = .ok ()) ∧ as.length ≤ ((clientCalls ptys last).map cost).sum ∧
      ((∃ a t', step openpty t a = some t') ∨ Agreed t ptys last) := by
  have hall := proper_clientCalls hptys hlast hbounded
  obtain ⟨hstands, hcount⟩ := Machine.exec_bounded
    (I := Stands openpty (clientCalls ptys last)) (μ := remaining)
    (fun hs hstep => (Stands.step hall hs hstep).imp_right fun heq => by omega)
    (stands_init openpty ptys last) h
  refine ⟨?_, ?_, ?_⟩
  · cases hstands <;> simp
  · have hinit : remaining (machine openpty (clientCalls ptys last)).init =
        ((clientCalls ptys last).map cost).sum := rfl
    omega
  · by_cases hcalls : t.calls = []
    · exact Or.inr (hstands.agreed hlast hpty hcalls)
    · exact Or.inl (hstands.progress hcalls)

/-- **Setting up a session.** `session_setup` reads a sequence of requests exactly, grants each that
wants a reply, and returns what they ask for; and a client that makes its calls one after the other
gets `Ok` from each of them. -/
theorem setup_agreed (openpty : Winsize → Option ℕ) :
    (∀ (rqs : List (SessionRequest × Bool)) (last : SessionRequest) (wantReply : Bool)
      (tail : List UInt8), (∀ x ∈ rqs, Prepares x.1 ∧ x.1.Bounded) → Starts last → last.Bounded →
      (∀ r ∈ (ptyRequests (rqs.map Prod.fst)).getLast?,
        ∃ winsize, allocatePty openpty r = .ok winsize) →
      ∃ setup, sessionSetup openpty
            (ChannelMessage.stream (messages (rqs ++ [(last, wantReply)])) ++ tail) =
          some ((.ok setup, responses (rqs ++ [(last, wantReply)])), tail) ∧
        SetUp setup (rqs.map Prod.fst) last) ∧
    ∀ (ptys : List PtyRequest) (last : SessionRequest), (∀ r ∈ ptys, Wire.Bounded r) →
      Starts last → last.Bounded →
      (∀ r ∈ ptys.getLast?, ∃ winsize, allocatePty openpty r = .ok winsize) →
      ∀ (as : List Action) (t : SetupDialogue),
        (machine openpty (clientCalls ptys last)).exec
          (machine openpty (clientCalls ptys last)).init as = some t →
        (∀ r ∈ t.results, r = .ok ()) ∧ as.length ≤ ((clientCalls ptys last).map cost).sum ∧
          ((∃ a t', step openpty t a = some t') ∨ Agreed t ptys last) := by
  constructor
  · intro rqs last wantReply tail hrqs hlast hbounded hpty
    obtain ⟨pty, hsetup, hallocated⟩ :=
      sessionSetup_requests hrqs hlast hbounded wantReply hpty tail
    exact ⟨_, hsetup, rfl, rfl, rfl, rfl, hallocated⟩
  · intro ptys last hptys hlast hbounded hpty as t h
    exact exec_agreed hptys hlast hbounded hpty h

/-- A terminal of 80 columns and 24 rows. -/
def smallPty : PtyRequest := ⟨"xterm", .ofNat 80, .ofNat 24, .ofNat 0, .ofNat 0, []⟩

/-- A terminal and a shell, one of them without a reply. -/
theorem smallPty_setup_agreed :
    (∃ setup, sessionSetup (fun _ => none) (ChannelMessage.stream
          (messages ([(.ptyReq smallPty, true)] ++ [(.shell, false)])) ++ [7]) =
        some ((.ok setup, responses ([(.ptyReq smallPty, true)] ++ [(.shell, false)])), [7]) ∧
      SetUp setup [.ptyReq smallPty] .shell) ∧
    ∀ (as : List Action) (t : SetupDialogue),
      (machine (fun _ => none) (clientCalls [smallPty] .shell)).exec
        (machine (fun _ => none) (clientCalls [smallPty] .shell)).init as = some t →
      (∀ r ∈ t.results, r = .ok ()) ∧ as.length ≤ ((clientCalls [smallPty] .shell).map cost).sum ∧
        ((∃ a t', step (fun _ => none) t a = some t') ∨ Agreed t [smallPty] .shell) := by
  have hbounded : Wire.Bounded smallPty := PtyRequest.bounded_iff.mpr (by decide)
  have hpty : ∀ r ∈ [smallPty].getLast?, ∃ winsize,
      allocatePty (fun _ => none) r = .ok winsize := by
    intro r hr
    obtain rfl := Option.some.inj hr
    exact ⟨⟨80, 24, 0, 0⟩, rfl⟩
  refine ⟨(setup_agreed _).1 [(.ptyReq smallPty, true)] .shell false [7] ?_ trivial trivial hpty,
    (setup_agreed _).2 [smallPty] .shell ?_ trivial trivial hpty⟩
  · intro x hx
    obtain rfl := List.mem_singleton.mp hx
    exact ⟨trivial, hbounded⟩
  · intro r hr
    obtain rfl := List.mem_singleton.mp hr
    exact hbounded

/-- **The limit on the fields.** A variable whose value is one byte too long is written by the
client, and ends the setup without an answer. -/
theorem oneTooLong_env_refused :
    ∃ e rest, sessionSetup (fun _ => none) (ChannelMessage.stream
        [.request (.env ⟨"A", String.ofList (List.replicate (maxRemoteFieldSize + 1) 'a')⟩) true,
          .request .shell true]) = some ((.error e, []), rest) := by
  set r : EnvRequest := ⟨"A", String.ofList (List.replicate (maxRemoteFieldSize + 1) 'a')⟩ with hr
  have hlength : r.value.utf8.length = maxRemoteFieldSize + 1 :=
    SshString.length_utf8_replicate _
  have hencodable : Wire.Encodable r := by
    refine ⟨fun s hs => ?_, nofun⟩
    rcases List.mem_pair.mp hs with rfl | rfl
    · decide
    · rw [hlength]
      decide
  have hbounded : ¬ Wire.Bounded r := by
    rw [EnvRequest.bounded_iff, hlength]
    omega
  have hrefuses : (body {}).Refuses _ :=
    @body_refuses _ (.env r) (Or.inl trivial) hencodable hbounded true
  obtain ⟨e, rest, hturn⟩ := Loop.ofDecoder_refuses (s := (({} : Locals), [])) hrefuses
    (ChannelMessage.stream [.request .shell true])
  have hbytes : ChannelMessage.stream [.request (.env r) true, .request .shell true] =
      (ChannelMessage.request (.env r) true).head ++ (SessionRequest.env r).payload ++
        ChannelMessage.stream [.request .shell true] := by
    simp [ChannelMessage.body]
  refine ⟨e, rest, ?_⟩
  rw [hbytes, sessionSetup, Loop.run_stop hturn]
  rfl

end SetupDialogue

end Dssh
