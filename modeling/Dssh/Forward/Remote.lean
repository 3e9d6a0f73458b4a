import Dssh.Forward.Client
import Dssh.Forward.Settling

/-!
# Remote forwarding

The server listens where the client has asked it to by its `-R` rules, on TCP addresses and Unix
sockets, and opens a channel back for each connection to one of its listeners. The client goes
through its rules for the one that the channel belongs to, and connects to the target of that; a
rule may have none.

`Listener.tunnel` is a connection to a listener of the server, against the rules that the client
keeps.

## Who decides

With local forwarding, the side that opens the channel names the target, and the accepting side
obeys. Here the accepting side knows the targets, and the opening only says which listener it
was. So the statement is about all rules at once: given the rules that were requested and what
the server made of them, a connection to the listener of the `i`-th rule leads to the target of
the `i`-th rule. If that rule has no target, the channel is rejected with the reason and text of
the source, and no connection is made.

The hypothesis is that the rules are established under different keys, as in `Client`. TCP rules
and rules for Unix sockets may be mixed: their keys are of different kinds, `mappingKey` has
both, and a lookup for one kind passes over mappings of the other.

## How it is put together

`requestAll_serves` is an induction over the rules: one request spawns one listener behind the
others and leaves the others as they are, and what the client keeps of the rule says what the
listener will tell. `serveForwarded_accepts` then reads the opening of that listener with the
client's decoder. From there on, `Tunnel` and `Settling` have everything, for this opening and
this decoder. The two theorems at the end are theirs, with the hypotheses discharged.

That a decoder is used for a loop needs a word. The source's `accept_forwarded_channels` reads a
header, matches on the type, and reads a payload. `dispatchForwarded` has the match as a
function of the bytes, in the form in which the loop needs it, and `serveForwarded` has it as
one decoder, which can be fed byte by byte. `decided_serveForwarded` says that they decide
alike.

## Main definitions

* `Listener.channelOpen` — the channel that a listener opens for a connection
* `RemoteForward.serveForwarded` — what the client reads of a channel, and what it does about it
* `RemoteForward.decision` — where the connections to the listener of a rule go
* `Listener.tunnel` — a connection to a listener

## Main results

* `RemoteForward.requestAll_serves` — every rule has a listener, of whichever kind
* `RemoteForward.serveForwarded_accepts` — the channels of a listener are those of its rule
* `remoteForward_transparent`, `remoteForward_settles` — what a connection to a listener does
-/

namespace Dssh

/-! ## The server

The two kinds of listeners open channels of two kinds, which name the endpoint that was bound. -/

/-- The channel that a listener opens for a connection from `peer`. -/
def Listener.channelOpen : Listener → PeerAddr → ChannelOpen
  | tcp l, peer => .forwardedTcpip (l.channelOpen peer)
  | unix socketPath, _ => .forwardedStreamlocal ⟨socketPath⟩

/-! ## The client

The loop of the client and a single channel are two views of the same function: the loop takes
channels one by one, and a tunnel needs the decision on one of them, byte by byte. -/

/-- What the loop does about a channel is a decision about the channel. -/
def Forwarded.decision : Forwarded → Decision Endpoint
  | relayed connect => .connect connect
  | rejected reasonCode description => .reject reasonCode description
  | dropped => .drop

/-- The errors of the client up to its decision. -/
inductive ServeForwardedError where
  /-- `accept_channel` -/
  | accept (e : AcceptChannelError)
  /-- The `decode_payload` of the type. -/
  | payload (e : ForwardError)

/-- What the client reads of a channel, and what it does about it. -/
def serveForwarded (mappings : List RemoteForwardEstablished) :
    Decoder ServeForwardedError (Decision Endpoint) :=
  (acceptChannel.mapError .accept).bind fun incoming =>
    match incoming.channelType with
    | "forwarded-tcpip" => (ForwardedTcpip.decoder.mapError .payload).bind fun payload =>
      .done (relayOrReject (selectTcp mappings payload)).decision
    | "forwarded-streamlocal@openssh.com" =>
      (ForwardedStreamlocal.decoder.mapError .payload).bind fun payload =>
        .done (relayOrReject (selectUnix mappings payload)).decision
    | _ => (ForwardedTcpip.decoder.mapError .payload).bind fun _ =>
      .done (.reject (.ofNat 1) "unsupported channel type")

/-- What a side does that has decoded as far as it can. -/
def decided {ε δ : Type} : Except ε (Decision δ × List UInt8) → Decision δ
  | .ok (decision, _) => decision
  | .error _ => .drop

/-- A payload that decodes is decided on, and one that does not drops the channel. -/
theorem decided_payload {ε ε' α : Type} {d : Decoder ε α} {f : ε → ε'} {g : α → Decision Endpoint}
    (bs : List UInt8) :
    decided (((d.mapError f).bind fun a => .done (g a)).run bs) =
      ((d.run bs).toOption.elim .drop fun r => g r.1) := by
  rw [Decoder.run_bind, Decoder.run_mapError]
  cases d.run bs with
  | ok r => rfl
  | error e => rfl

/-- It is the loop of the client, looking at one channel. -/
theorem decided_serveForwarded (mappings : List RemoteForwardEstablished)
    (incoming : IncomingChannel) {xs bs : List UInt8} (h : acceptChannel.Accepts xs incoming) :
    decided ((serveForwarded mappings).run (xs ++ bs)) =
      (dispatchForwarded mappings incoming bs).decision := by
  have hrun := (Decoder.accepts_mapError (f := ServeForwardedError.accept)).mpr h
  rw [serveForwarded, hrun.run_bind]
  obtain ⟨channelType, maxMessageSize⟩ := incoming
  dsimp only
  split
  all_goals
    rw [decided_payload]
    simp only [dispatchForwarded]
    split
    · rename_i hpayload
      rw [hpayload]
      rfl
    · rename_i hpayload
      rw [hpayload]
      rfl

/-! ## One rule

What the client keeps of a rule and what the server has bound for it, for both kinds of rules. A
Unix socket is known under its path on both sides. -/

/-- A path that is too long is refused. -/
theorem StreamlocalForwardRequest.refuses {r : StreamlocalForwardRequest} (h : Wire.Encodable r)
    (hr : ¬ Wire.Bounded r) : decoder.Refuses (encode r) := by
  have hlong : maxRemoteFieldSize < r.socketPath.utf8.length := by
    rw [bounded_iff] at hr
    omega
  exact ((SshString.refuses hlong (h.1 _ (by simp [Wire.strings]))).mapError _).bind_left _ _

/-- A request that arrives is what was sent, and its path is within the limit. -/
theorem received_streamlocalForward {r : StreamlocalForwardRequest} {rq : ForwardRequest}
    (h : (ForwardRequest.streamlocalForward r).received = some rq) :
    rq = .streamlocalForward r ∧ r.socketPath.utf8.length ≤ maxRemoteFieldSize := by
  rw [ForwardRequest.received] at h
  by_cases hbounded : Wire.Bounded r
  · rw [Wire.overWire_of_bounded hbounded] at h
    exact ⟨(Option.some.inj h).symm, StreamlocalForwardRequest.bounded_iff.mp hbounded⟩
  · by_cases hencodable : Wire.Encodable r
    · rw [Wire.overWire_of_refuses (StreamlocalForwardRequest.refuses hencodable hbounded)] at h
      cases h
    · rw [Wire.overWire, if_neg hencodable] at h
      cases h

namespace RemoteForward

variable {os : Os} {responds : Bool} {f f' : Forwards} {rule : RemoteForward}
  {e : RemoteForwardEstablished} {l : Listener}

/-- What the client keeps of a rule of either kind, and what listens for it. -/
inductive Serves (rule : RemoteForward) (e : RemoteForwardEstablished) : Listener → Prop
  | tcp {l : TcpForwardListener} : Paired rule e l → Serves rule e (.tcp l)
  | unix {path : String} : rule.bind = .unix path → e = ⟨.unix path, rule.connect⟩ →
    (SshString.utf8 path).length ≤ maxRemoteFieldSize → Serves rule e (.unix path)

/-- A rule for a Unix socket that is established has its listener. -/
theorem request_unix {path : String} (hbind : rule.bind = .unix path)
    (h : rule.request os responds f = (f', .ok e)) :
    Serves rule e (.unix path) ∧ f'.forwardTasks = f.forwardTasks.spawn ⟨.unix path, false, 0⟩ := by
  rw [request, hbind] at h
  dsimp only at h
  cases hsend : sendGlobalRequest os responds f (.streamlocalForward ⟨path⟩) with
  | mk g response =>
    rw [hsend] at h
    cases response with
    | none => cases (Prod.mk.inj h).2
    | some response =>
      obtain ⟨rfl, hok⟩ := Prod.mk.inj h
      obtain rfl := Except.ok.inj hok
      rw [sendGlobalRequest] at hsend
      cases hreceived : (ForwardRequest.streamlocalForward ⟨path⟩).received with
      | none => rw [hreceived] at hsend; cases hsend
      | some rq =>
        rw [hreceived] at hsend
        obtain ⟨rfl, hlength⟩ := received_streamlocalForward hreceived
        dsimp only [dispatchGlobal, acceptUnixForward] at hsend
        refine ⟨.unix hbind rfl hlength, ?_⟩
        cases responds with
        | false => cases hsend
        | true =>
          cases hos : os.bindUnixSocket path with
          | true =>
            rw [hos] at hsend
            obtain ⟨rfl, -⟩ := Prod.mk.inj hsend
            rfl
          | false =>
            rw [hos] at hsend
            cases hsend

/-- **One rule.** Its listener is a task of the server. -/
theorem request_serves (h : rule.request os responds f = (f', .ok e)) :
    ∃ l, Serves rule e l ∧ f'.forwardTasks = f.forwardTasks.spawn ⟨l, false, 0⟩ := by
  cases hbind : rule.bind with
  | tcp host port =>
    obtain ⟨l, he, hhost, hlength, rfl⟩ := request_ok hbind h
    rw [← hhost] at he
    exact ⟨.tcp l, .tcp ⟨⟨host, port, hbind, hhost⟩, he, hlength⟩, rfl⟩
  | unix path =>
    obtain ⟨hserves, htasks⟩ := request_unix hbind h
    exact ⟨.unix path, hserves, htasks⟩

/-! ## Many rules

The tables of the server after all requests: the listeners are spawned in the order of the rules. -/

variable {rules : List (RemoteForward × Os × Bool)} {es : List RemoteForwardEstablished}

/-- **All rules.** The listeners are spawned one behind the other. -/
theorem requestAll_serves (h : requestAll f rules = some (f', es)) :
    f.forwardTasks <+: f'.forwardTasks ∧
      ∀ {k : ℕ} {rule : RemoteForward} {os : Os} {responds : Bool},
        rules[k]? = some (rule, os, responds) → ∃ e l, es[k]? = some e ∧ Serves rule e l ∧
          f'.forwardTasks[f.forwardTasks.length + k]? = some ⟨⟨l, false, 0⟩, .running⟩ := by
  induction rules generalizing f es with
  | nil =>
    obtain ⟨rfl, rfl⟩ := Prod.mk.inj (Option.some.inj h)
    exact ⟨List.prefix_rfl, nofun⟩
  | cons r rules ih =>
    obtain ⟨rule', os', responds'⟩ := r
    obtain ⟨g, e, es', hrequest, hrest, rfl⟩ := requestAll_cons h
    obtain ⟨l, hserves, htasks⟩ := request_serves hrequest
    obtain ⟨hstart, hall⟩ := ih hrest
    rw [htasks] at hstart hall
    refine ⟨(List.prefix_append _ _).trans hstart, fun {k rule os responds} hrule => ?_⟩
    cases k with
    | zero =>
      obtain ⟨rfl, -⟩ := Prod.mk.inj (Option.some.inj hrule)
      obtain ⟨ts, hts⟩ := hstart
      refine ⟨e, l, rfl, hserves, ?_⟩
      rw [← hts, JoinSet.spawn, List.append_assoc, List.getElem?_append_right (by omega)]
      simp
    | succ k =>
      obtain ⟨e', l', he', hserves', htask⟩ := hall hrule
      rw [JoinSet.spawn, List.length_append, List.length_singleton, Nat.add_assoc,
        Nat.add_comm 1 k] at htask
      exact ⟨e', l', he', hserves', htask⟩

/-! ## The channels of a listener

A connection to the listener of a rule opens a channel that is decided on as the rule says.
Mappings of the two kinds do not interfere, since a channel of one kind looks at mappings of this
kind only. -/

/-- What a mapping is found under. -/
def mappingKey : Endpoint → ForwardKey
  | .tcp host port => .inl (canonicalizeRemoteBindHost host, port)
  | .unix path => .inr path

/-- Where the connections to the listener of a rule go. -/
def decision (rule : RemoteForward) : Decision Endpoint :=
  match rule.connect with
  | some connect => .connect connect
  | none => .reject (.ofNat 2) "no matching forward"

/-- A mapping with the target of a rule is decided on as the rule is. -/
theorem decision_relayOrReject (h : e.connect = rule.connect) :
    (relayOrReject (some e)).decision = rule.decision := by
  rw [relayOrReject, decision, Option.bind_some, h]
  cases rule.connect with
  | some connect => rfl
  | none => rfl

/-- The mapping of a TCP listener, among mappings of either kind. -/
theorem selectTcp_serves {l : TcpForwardListener}
    (hdistinct : (es.map fun e => mappingKey e.bind).Nodup) (he : e ∈ es) (h : Paired rule e l)
    (peer : PeerAddr) : selectTcp es (l.channelOpen peer) = some e := by
  obtain ⟨host, port, -, hhost⟩ := h.bound
  have hkey : forwardedTcpipBindKey l.advertisedHost (asU16 (ofPort l.boundPort)) =
      (l.advertisedHost, l.boundPort) := by
    rw [forwardedTcpipBindKey, asU16_ofPort, hhost, canonicalize_idem]
  have hown : mappingKey e.bind = .inl (l.advertisedHost, l.boundPort) := by
    rw [h.established, mappingKey, hhost, canonicalize_idem]
  refine find?_of_nodup hdistinct he fun m hm => ?_
  rw [hown]
  simp only [TcpForwardListener.channelOpen, hkey]
  cases hbind : m.bind with
  | tcp host port => simp [remoteForwardBindKey, mappingKey]
  | unix path => simp [mappingKey]

/-- The mapping of a listener on a Unix socket. -/
theorem selectUnix_serves {path : String} (hdistinct : (es.map fun e => mappingKey e.bind).Nodup)
    (he : e ∈ es) (hbind : e.bind = .unix path) : selectUnix es ⟨path⟩ = some e := by
  refine find?_of_nodup hdistinct he fun m hm => ?_
  rw [hbind]
  cases hm : m.bind with
  | tcp host port => simp [mappingKey]
  | unix path' => simp [mappingKey]

/-- **The channels of a listener are those of its rule.** -/
theorem serveForwarded_accepts (hdistinct : (es.map fun e => mappingKey e.bind).Nodup) (he : e ∈ es)
    (h : Serves rule e l) (peer : PeerAddr) (maxMessageSize : VarInt) :
    (serveForwarded es).Accepts (openChannel (l.channelOpen peer) maxMessageSize)
      rule.decision := by
  rw [openChannel_eq]
  refine (Decoder.accepts_mapError.mpr (acceptChannel_accepts _ maxMessageSize)).bind ?_
  cases h with
  | @tcp l h =>
    have hpayload : (ForwardedTcpip.decoder.mapError ServeForwardedError.payload).Accepts
        (Wire.encode (l.channelOpen peer)) (l.channelOpen peer) :=
      Decoder.accepts_mapError.mpr
        (LawfulWire.inverts.accepts (bounded_channelOpen h.length_host peer))
    refine hpayload.bind_done ?_
    have hconnect : e.connect = rule.connect := by rw [h.established]
    rw [selectTcp_serves hdistinct he h, decision_relayOrReject hconnect]
  | @unix path hbind hestablished hlength =>
    have hbounded : Wire.Bounded (ForwardedStreamlocal.mk path) :=
      ForwardedStreamlocal.bounded_iff.mpr hlength
    have hpayload : (ForwardedStreamlocal.decoder.mapError ServeForwardedError.payload).Accepts
        (Wire.encode (ForwardedStreamlocal.mk path)) ⟨path⟩ :=
      Decoder.accepts_mapError.mpr (LawfulWire.inverts.accepts hbounded)
    refine hpayload.bind_done ?_
    have hconnect : e.connect = rule.connect := by rw [hestablished]
    rw [selectUnix_serves hdistinct he (by rw [hestablished]), decision_relayOrReject hconnect]

end RemoteForward

/-- A connection from `peer` to a listener, against the rules of the client. -/
def Listener.tunnel (l : Listener) (es : List RemoteForwardEstablished) (peer : PeerAddr)
    (up down : Windows) : Machine (Tunnel ServeForwardedError Endpoint) Tunnel.Action :=
  Tunnel.machine (openChannel (l.channelOpen peer) defaultMaxMessageSize)
    (serveForwarded es) up down

variable {os : Os} {responds : Bool} {f f' : Forwards} {rule : RemoteForward}
  {rules : List (RemoteForward × Os × Bool)} {es : List RemoteForwardEstablished} {k : ℕ}

namespace RemoteForward

/-- The text of a rejection can be read. -/
theorem length_description (rule : RemoteForward) (reasonCode : VarInt) (description : SshString)
    (h : rule.decision = .reject reasonCode description) :
    description.utf8.length ≤ maxRemoteFieldSize := by
  rw [decision] at h
  cases hconnect : rule.connect with
  | some connect =>
    rw [hconnect] at h
    cases h
  | none =>
    rw [hconnect] at h
    obtain ⟨-, rfl⟩ := Decision.reject.inj h
    decide

end RemoteForward

open RemoteForward

/-- **Remote forwarding is transparent.** When the rules of the client are accepted under different
keys, each has its listener at the server, and a connection to that is one to the target of the rule
in every run: bytes and their end arrive as they were sent, or there is no connection at all. -/
theorem remoteForward_transparent (h : requestAll f rules = some (f', es))
    (hdistinct : (es.map fun e => mappingKey e.bind).Nodup)
    (hrule : rules[k]? = some (rule, os, responds)) :
    ∃ l, f'.forwardTasks[f.forwardTasks.length + k]? = some ⟨⟨l, false, 0⟩, .running⟩ ∧
      ∀ peer up down t, (l.tunnel es peer up down).Reachable t → t.Transparent rule.decision := by
  obtain ⟨e, l, he, hserves, htask⟩ := (requestAll_serves h).2 hrule
  refine ⟨l, htask, fun peer up down t ht => ?_⟩
  have haccepts := serveForwarded_accepts hdistinct (List.mem_of_getElem? he) hserves peer
    defaultMaxMessageSize
  exact (Tunnel.inv haccepts ht).transparent haccepts

/-- A TCP rule, a rule for Unix sockets, and one that only listens. -/
def mixedRules : List (RemoteForward × Os × Bool) :=
  [(⟨.tcp "*" 0, some (.tcp "web" 80)⟩, choosingOs, true),
    (⟨.unix "/s", some (.unix "/t")⟩, choosingOs, true),
      (⟨.tcp "localhost" 0, none⟩, choosingOs, true)]

/-- What the client has when they are accepted. -/
def mixedEstablished : List RemoteForwardEstablished :=
  [⟨.tcp "" 40000, some (.tcp "web" 80)⟩, ⟨.unix "/s", some (.unix "/t")⟩,
    ⟨.tcp "localhost" 40000, none⟩]

/-- All three are, and the second listener is the one on the socket. -/
theorem mixedRules_established :
    (requestAll {} mixedRules).map (fun r => (r.1.forwardTasks[1]?, r.2)) =
      some (some ⟨⟨.unix "/s", false, 0⟩, .running⟩, mixedEstablished) := by
  decide

/-- A connection to the socket is one to the target of the second rule. -/
theorem mixedRules_transparent :
    ∃ f es, requestAll {} mixedRules = some (f, es) ∧ ∀ peer up down t,
      ((Listener.unix "/s").tunnel es peer up down).Reachable t →
        t.Transparent (.connect (.unix "/t")) := by
  obtain ⟨⟨f, es⟩, h, heq⟩ := Option.map_eq_some_iff.mp mixedRules_established
  obtain ⟨htask, rfl⟩ := Prod.mk.inj heq
  obtain ⟨l, hl, htransparent⟩ := remoteForward_transparent h (by decide) (k := 1) rfl
  have hsame : l = .unix "/s" := by
    have htasks := Option.some.inj (hl.symm.trans htask)
    simpa using htasks
  subst hsame
  exact ⟨f, _, h, htransparent⟩

/-- **Remote forwarding settles**, as local forwarding does. -/
theorem remoteForward_settles (h : requestAll f rules = some (f', es))
    (hdistinct : (es.map fun e => mappingKey e.bind).Nodup)
    (hrule : rules[k]? = some (rule, os, responds)) :
    ∃ l, f'.forwardTasks[f.forwardTasks.length + k]? = some ⟨⟨l, false, 0⟩, .running⟩ ∧
      ∀ peer up down t, (l.tunnel es peer up down).Reachable t → t.Healthy →
        ∀ as, (∀ a ∈ as, a.Automatic) → ∀ t', (l.tunnel es peer up down).exec t as = some t' →
          as.length ≤ t.backlog rule.decision ∧ (t'.Idle → t'.Settled rule.decision) := by
  obtain ⟨e, l, he, hserves, htask⟩ := (requestAll_serves h).2 hrule
  refine ⟨l, htask, fun peer up down t ht hhealthy as has t' hexec => ?_⟩
  have haccepts := serveForwarded_accepts hdistinct (List.mem_of_getElem? he) hserves peer
    defaultMaxMessageSize
  exact (Tunnel.inv haccepts ht).settles haccepts rule.length_description hhealthy has hexec

/-- A connection to the listener of the second rule. -/
def unixTunnel : Machine (Tunnel ServeForwardedError Endpoint) Tunnel.Action :=
  (Listener.unix "/s").tunnel mixedEstablished loopbackPeer Tunnel.smallWindows Tunnel.smallWindows

/-- It is opened and used, and comes to rest. -/
theorem mixedRules_settles :
    (∃ f, requestAll {} mixedRules = some (f, mixedEstablished)) ∧
      ∃ t t', unixTunnel.exec unixTunnel.init (Tunnel.answeredRun 43) = some t ∧
        unixTunnel.exec t Tunnel.restRun = some t' ∧ t'.Used = true ∧
        Tunnel.restRun.length ≤ t.backlog (.connect (.unix "/t")) ∧ t'.Idle ∧
        t'.Settled (.connect (.unix "/t")) := by
  obtain ⟨⟨f, es⟩, h, heq⟩ := Option.map_eq_some_iff.mp mixedRules_established
  obtain ⟨htask, rfl⟩ := Prod.mk.inj heq
  obtain ⟨l, hl, hsettles⟩ := remoteForward_settles h (by decide) (k := 1) rfl
  have hsame : l = .unix "/s" := by
    have htasks := Option.some.inj (hl.symm.trans htask)
    simpa using htasks
  subst hsame
  have hrun : (unixTunnel.exec unixTunnel.init (Tunnel.answeredRun 43)).any (fun t =>
      t.inOrder && (unixTunnel.exec t Tunnel.restRun).any Tunnel.Used) = true := by decide +kernel
  obtain ⟨t, hexec, htest⟩ := (Option.any_eq_true _ _).mp hrun
  obtain ⟨horder, hrest⟩ := Bool.and_eq_true_iff.mp htest
  obtain ⟨t', hexec', hused⟩ := (Option.any_eq_true _ _).mp hrest
  obtain ⟨hlength, hsettled⟩ := hsettles loopbackPeer Tunnel.smallWindows Tunnel.smallWindows t
    (Machine.reach_of_exec .init hexec) (Tunnel.healthy_of_inOrder horder) Tunnel.restRun
    (by simp [Tunnel.restRun, Tunnel.Action.Automatic]) t' hexec'
  have hidle := Tunnel.idle_of_used hused
  exact ⟨⟨f, h⟩, t, t', hexec, hexec', hused, hlength, hidle, hsettled hidle⟩

end Dssh
