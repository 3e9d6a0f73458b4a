import Dssh.Channel.Open
import Dssh.Forward.Spec
import Dssh.Session.Forwards

/-!
# Remote forwards, from both sides

The client asks for a listener; the server binds it and tells the port; for each connection the
server opens a channel back, saying where the connection came in, and the client looks up which
of its rules that is. Client and server compute the key of a rule separately: from the host as
it was typed, as it was sent, as it was bound and as it is told, and from a port that the server
may have chosen. `RemoteForward.request` sends a request over the wire to the server's
`dispatch_global`.

## Four spellings of one host

A rule says `*`, `localhost`, an address or a name. The request carries the canonical form. The
listener advertises the canonical form of what arrived, and stores its handle under it. The
channel carries what is advertised, and the client compares the canonical form of that with the
canonical form of what it has kept. They agree since the canonical form is a projection
(`canonicalize_idem`) and nothing else is ever applied to a host: in particular, the address a
connection came in on is *not* what the channel tells. If it were, a wildcard rule would never
be found.

The port has fewer spellings and a narrower type. The client keeps the low 16 bits of what the
reply says, and looks a channel up by the low 16 bits of what the opening says. For ports that
the server has bound, this loses nothing (`asU16_ofPort`). For what else a peer can send, see
`Narrowing`.

## What decides the lookup

`find` takes the first mapping with the key of the channel, and its target decides: with no
target, the channel is rejected, also if a later mapping had one. So the result needs the keys
of the rules to be different, and that is a hypothesis of `selects_established`. It cannot be
had from the server, which is free to give two rules the same port on different addresses, and
where a second `forward` for one key takes the place of the first.

Cancelling is part of the result because it goes the same way. The key is computed from the host
as the user typed it, or from the established form. Both give the same handle, and no other
rule's.

## What is modelled of the conversation

A request is a function here: the bytes of its payload are decoded on the other side, the tables
of the server change, and the reply comes back. Which tasks take part and in what order is the
subject of `Conversation`, and that replies find their requests has been shown there. The rules
are requested one after the other. The operating system may have changed between
two of them.

## Main definitions

* `RemoteForward.request`, `requestAll` — rules are requested, and the server answers
* `TcpForwardListener.channelOpen` — the channel for a connection
* `dispatchForwarded`, `acceptForwardedChannels` — what the client does about channels

## Main results

* `RemoteForward.request_ok` — what the client keeps and what the server stores have the same
  key
* `selects_established` — the channels of a listener are those of the rule it was requested for,
  and a cancellation takes away that listener only
-/

namespace Dssh

open Conversation (Answer)

/-! ## Requests

A request goes to the server and comes back in one step: it is encoded and decoded, answered by
the server's tables, and the response is encoded and decoded again. What is narrowed on the way
is narrowed here as well. -/

/-- What a successful `request` returns: the port may differ from that of the rule. -/
structure RemoteForwardEstablished where
  /-- The canonical host, and the port in the reply. -/
  bind : Endpoint
  /-- The target of the rule; a rule without one is not forwarded by this client. -/
  connect : Option Endpoint
  deriving DecidableEq

/-- The key of a mapping, from the host as it is kept. -/
def remoteForwardBindKey : Endpoint → Option (String × UInt16)
  | .tcp host port => some (canonicalizeRemoteBindHost host, port)
  | .unix _ => none

/-- The key of a channel, from the host as it is told. -/
def forwardedTcpipBindKey (host : String) (port : UInt16) : String × UInt16 :=
  (canonicalizeRemoteBindHost host, port)

/-- The errors of `request`; the message of a `RequestError` is not modelled. -/
inductive RequestRemoteForwardError where
  | tcpForwardRequest
  | streamlocalForwardRequest
  deriving DecidableEq, Repr

/-- A port as a `VarInt`. -/
def ofPort (port : UInt16) : VarInt := .ofNat port.toNat

/-- `as u16` -/
def asU16 (n : VarInt) : UInt16 := .ofNat n.val

namespace ForwardRequest

/-- What the server decodes of the payload of a request, if it does. -/
def received : ForwardRequest → Option ForwardRequest
  | tcpipForward r => (Wire.overWire r).map tcpipForward
  | cancelTcpipForward r => (Wire.overWire r).map cancelTcpipForward
  | streamlocalForward r => (Wire.overWire r).map streamlocalForward
  | cancelStreamlocalForward r => (Wire.overWire r).map cancelStreamlocalForward

end ForwardRequest

/-- A global request, over the wire: the server's tables behind it, and the response; `responds`
tells whether the server can write its answer. -/
def sendGlobalRequest (os : Os) (responds : Bool) (f : Forwards) (rq : ForwardRequest) :
    Forwards × Option (List UInt8) :=
  match rq.received with
  | none => (f, none)
  | some rq =>
    let (f, answer) := dispatchGlobal os responds f rq
    match responds, answer with
    | true, .success response => (f, some response)
    | _, _ => (f, none)

namespace RemoteForward

/-- The rule is requested, and what the server has bound is kept with the target of the rule. -/
def request (os : Os) (responds : Bool) (f : Forwards) (rule : RemoteForward) :
    Forwards × Except RequestRemoteForwardError RemoteForwardEstablished :=
  match rule.bind with
  | .tcp host port =>
    let canonicalHost := canonicalizeRemoteBindHost host
    let (f, response) :=
      sendGlobalRequest os responds f (.tcpipForward ⟨canonicalHost, ofPort port⟩)
    match response.bind fun bs => (TcpipForwardReply.decoder.run bs).toOption with
    | some (reply, _) => (f, .ok ⟨.tcp canonicalHost (asU16 reply.allocatedPort), rule.connect⟩)
    | none => (f, .error .tcpForwardRequest)
  | .unix path =>
    let (f, response) := sendGlobalRequest os responds f (.streamlocalForward ⟨path⟩)
    match response with
    | some _ => (f, .ok ⟨.unix path, rule.connect⟩)
    | none => (f, .error .streamlocalForwardRequest)

/-- The rules are requested one after the other, and none is refused. The operating system may
answer differently each time. -/
def requestAll (f : Forwards) :
    List (RemoteForward × Os × Bool) → Option (Forwards × List RemoteForwardEstablished)
  | [] => some (f, [])
  | (rule, os, responds) :: rules =>
    match rule.request os responds f with
    | (f, .ok e) => (requestAll f rules).map fun r => (r.1, e :: r.2)
    | (_, .error _) => none

end RemoteForward

/-! ## Channels

The loop of the client, on the bytes of the streams. For each channel it finds the first mapping
under the key of the channel, and relays to its target or rejects. -/

/-- Where a connection comes from. -/
structure PeerAddr where
  /-- As `IpAddr::to_string` writes it. -/
  ip : SshString
  port : UInt16
  /-- No IP address is written with more characters. -/
  length_ip : ip.utf8.length ≤ 45

/-- A connection from the machine itself. -/
def loopbackPeer : PeerAddr := ⟨"::1", 5000, by decide⟩

/-- The channel that `run_tcp_accept_loop` opens for a connection. -/
def TcpForwardListener.channelOpen (l : TcpForwardListener) (peer : PeerAddr) : ForwardedTcpip where
  connectedAddress := l.advertisedHost
  connectedPort := ofPort l.boundPort
  originatorAddress := peer.ip
  originatorPort := ofPort peer.port

/-- What the client does about an incoming channel. -/
inductive Forwarded where
  /-- `handle_forwarded_channel` is spawned. -/
  | relayed (connect : Endpoint)
  /-- `reject` with these. -/
  | rejected (reasonCode : VarInt) (description : SshString)
  /-- The payload does not decode, and the channel is dropped. -/
  | dropped
  deriving DecidableEq

/-- The mapping of a `forwarded-tcpip` channel. -/
def selectTcp (mappings : List RemoteForwardEstablished) (payload : ForwardedTcpip) :
    Option RemoteForwardEstablished :=
  let serverPort := asU16 payload.connectedPort
  let incomingKey := forwardedTcpipBindKey payload.connectedAddress serverPort
  mappings.find? fun m =>
    match m.bind with
    | .tcp _ _ => remoteForwardBindKey m.bind = some incomingKey
    | .unix _ => false

/-- The mapping of a `forwarded-streamlocal@openssh.com` channel. -/
def selectUnix (mappings : List RemoteForwardEstablished) (payload : ForwardedStreamlocal) :
    Option RemoteForwardEstablished :=
  mappings.find? fun m =>
    match m.bind with
    | .tcp _ _ => false
    | .unix path => path = payload.socketPath

/-- A mapping that was found, or not. -/
def relayOrReject (mapping : Option RemoteForwardEstablished) : Forwarded :=
  match mapping.bind RemoteForwardEstablished.connect with
  | some connect => .relayed connect
  | none => .rejected (.ofNat 2) "no matching forward"

/-- A turn of `accept_forwarded_channels` with a channel, and the bytes behind its header. -/
def dispatchForwarded (mappings : List RemoteForwardEstablished) (incoming : IncomingChannel)
    (bs : List UInt8) : Forwarded :=
  match incoming.channelType with
  | "forwarded-tcpip" =>
    match ForwardedTcpip.decoder.run bs with
    | .ok (payload, _) => relayOrReject (selectTcp mappings payload)
    | .error _ => .dropped
  | "forwarded-streamlocal@openssh.com" =>
    match ForwardedStreamlocal.decoder.run bs with
    | .ok (payload, _) => relayOrReject (selectUnix mappings payload)
    | .error _ => .dropped
  | _ =>
    match ForwardedTcpip.decoder.run bs with
    | .ok _ => .rejected (.ofNat 1) "unsupported channel type"
    | .error _ => .dropped

/-- `accept_forwarded_channels` on the streams that the session delivers, each given by its bytes:
what is done about the channels, and whether the loop goes on. -/
def acceptForwardedChannels (mappings : List RemoteForwardEstablished) :
    List (List UInt8) → List Forwarded × Bool
  | [] => ([], true)
  | stream :: streams =>
    match acceptChannel.outcome stream with
    | (.ok incoming, bs) =>
      (dispatchForwarded mappings incoming bs :: (acceptForwardedChannels mappings streams).1,
        (acceptForwardedChannels mappings streams).2)
    | (.error _, _) => ([], false)

/-! ## One key on both sides

The host is spelled by the user, in the request, in the tables of the server, in the opening and
in the mappings of the client. Each side brings it into the canonical form, and doing this twice
is doing it once. -/

variable {os : Os} {responds : Bool} {f f' : Forwards}

/-- A canonical host is its own canonical host. -/
theorem canonicalize_idem (host : String) :
    canonicalizeRemoteBindHost (canonicalizeRemoteBindHost host) =
      canonicalizeRemoteBindHost host := by
  by_cases hwildcard : host = "" ∨ host = "*"
  · simp [canonicalizeRemoteBindHost, hwildcard, canonicalRemoteWildcardHost]
  · by_cases hlocal : host = "localhost"
    · simp [canonicalizeRemoteBindHost, hlocal, canonicalRemoteLoopbackHost]
    · simp [canonicalizeRemoteBindHost, hwildcard, hlocal]

/-- The cast loses nothing of a port. -/
@[simp] theorem asU16_ofPort (port : UInt16) : asU16 (ofPort port) = port := by
  have hlt : port.toNat < 2 ^ 62 := lt_trans port.toNat_lt (by decide)
  rw [asU16, ofPort, VarInt.ofNat]
  change UInt16.ofNat (port.toNat % 2 ^ 62) = port
  rw [Nat.mod_eq_of_lt hlt, UInt16.ofNat_toNat]

/-- A port is one for the server, too. -/
@[simp] theorem u16TryFrom_ofPort (port : UInt16) : u16TryFrom (ofPort port) = some port := by
  have hlt : port.toNat < 2 ^ 62 := lt_trans port.toNat_lt (by decide)
  have hval : (ofPort port).val = port.toNat := Nat.mod_eq_of_lt hlt
  rw [u16TryFrom, hval, if_pos port.toNat_lt, UInt16.ofNat_toNat]

/-- A request that arrives is what was sent, and its host is within the limit. -/
theorem received_tcpipForward {r : TcpipForwardRequest} {rq : ForwardRequest}
    (h : (ForwardRequest.tcpipForward r).received = some rq) :
    rq = .tcpipForward r ∧ r.bindAddress.utf8.length ≤ maxRemoteFieldSize := by
  rw [ForwardRequest.received] at h
  by_cases hbounded : Wire.Bounded r
  · rw [Wire.overWire_of_bounded hbounded] at h
    exact ⟨(Option.some.inj h).symm, TcpipForwardRequest.bounded_iff.mp hbounded⟩
  · by_cases hencodable : Wire.Encodable r
    · rw [Wire.overWire_of_refuses (TcpipForwardRequest.refuses hencodable hbounded)] at h
      cases h
    · rw [Wire.overWire, if_neg hencodable] at h
      cases h

/-- A listener that can be answered for is advertised under the canonical host, and its port is in
the reply; without a listener there is a failure. -/
theorem acceptTcpForward_true (os : Os) (r : TcpipForwardRequest) :
    (∃ l, acceptTcpForward os true r = (.ok l, .success (TcpipForwardReply.encode
        ⟨ofPort l.boundPort⟩)) ∧ l.advertisedHost = canonicalizeRemoteBindHost r.bindAddress) ∨
      ∃ e, acceptTcpForward os true r = (.error e, .failure) := by
  rw [acceptTcpForward]
  split
  · exact Or.inr ⟨_, rfl⟩
  · split
    · exact Or.inr ⟨_, rfl⟩
    · rename_i l hbind
      exact Or.inl ⟨l, rfl, (bindTcpForwardGroup_ok hbind).1⟩

/-- **A successful request.** The reply tells the port of the listener, whose handle is stored under
the canonical host and that port. -/
theorem sendGlobalRequest_some {r : TcpipForwardRequest} {response : List UInt8}
    (h : sendGlobalRequest os responds f (.tcpipForward r) = (f', some response)) :
    ∃ l : TcpForwardListener,
      response = TcpipForwardReply.encode ⟨ofPort l.boundPort⟩ ∧
      l.advertisedHost = canonicalizeRemoteBindHost r.bindAddress ∧
      r.bindAddress.utf8.length ≤ maxRemoteFieldSize ∧
      f' = { f with
        tcpForwards := f.tcpForwards.insert
          (canonicalizeRemoteBindHost r.bindAddress, l.boundPort) f.forwardTasks.length
        forwardTasks := f.forwardTasks.spawn ⟨.tcp l, false, 0⟩ } := by
  rw [sendGlobalRequest] at h
  cases hreceived : (ForwardRequest.tcpipForward r).received with
  | none => rw [hreceived] at h; cases h
  | some rq =>
    rw [hreceived] at h
    obtain ⟨rfl, hlength⟩ := received_tcpipForward hreceived
    dsimp only [dispatchGlobal] at h
    cases responds with
    | false => cases h
    | true =>
      rcases acceptTcpForward_true os r with ⟨l, haccept, hhost⟩ | ⟨e, haccept⟩
      · rw [haccept] at h
        obtain ⟨rfl, hresponse⟩ := Prod.mk.inj h
        exact ⟨l, (Option.some.inj hresponse).symm, hhost, hlength, rfl⟩
      · rw [haccept] at h
        cases h

/-- The port in the reply is the bound port. -/
theorem run_encode_reply (port : UInt16) :
    TcpipForwardReply.decoder.run (TcpipForwardReply.encode ⟨ofPort port⟩) =
      .ok (⟨ofPort port⟩, []) := by
  have hbounded : Wire.Bounded (TcpipForwardReply.mk (ofPort port)) :=
    ⟨by simp [Wire.strings], by simp [Wire.byteStrings]⟩
  have haccepts : TcpipForwardReply.decoder.Accepts (TcpipForwardReply.encode ⟨ofPort port⟩) _ :=
    LawfulWire.inverts.accepts hbounded
  have hrun := haccepts.run []
  rwa [List.append_nil] at hrun

/-- **One rule.** What the client keeps and what the server stores have the same key. -/
theorem RemoteForward.request_ok {rule : RemoteForward} {host : String} {port : UInt16}
    (hbind : rule.bind = .tcp host port) {e : RemoteForwardEstablished}
    (h : rule.request os responds f = (f', .ok e)) :
    ∃ l : TcpForwardListener,
      e = ⟨.tcp (canonicalizeRemoteBindHost host) l.boundPort, rule.connect⟩ ∧
      l.advertisedHost = canonicalizeRemoteBindHost host ∧
      (SshString.utf8 l.advertisedHost).length ≤ maxRemoteFieldSize ∧
      f' = { f with
        tcpForwards :=
          f.tcpForwards.insert (l.advertisedHost, l.boundPort) f.forwardTasks.length
        forwardTasks := f.forwardTasks.spawn ⟨.tcp l, false, 0⟩ } := by
  rw [request, hbind] at h
  dsimp only at h
  obtain ⟨⟨g, response⟩, hsend⟩ : ∃ p, sendGlobalRequest os responds f
    (.tcpipForward ⟨canonicalizeRemoteBindHost host, ofPort port⟩) = p := ⟨_, rfl⟩
  rw [hsend] at h
  cases response with
  | none => cases (Prod.mk.inj h).2
  | some response =>
    obtain ⟨l, rfl, hhost, hlength, rfl⟩ := sendGlobalRequest_some hsend
    dsimp only at hhost hlength h
    rw [canonicalize_idem] at hhost
    rw [Option.bind_some, run_encode_reply] at h
    obtain ⟨rfl, hok⟩ := Prod.mk.inj h
    obtain rfl := Except.ok.inj hok
    refine ⟨l, by rw [asU16_ofPort], hhost, by rw [hhost]; exact hlength, ?_⟩
    rw [hhost, canonicalize_idem]

/-! ## Many rules

By induction on the rules. A rule that is requested leaves the entries under other keys alone, so
that at the end each rule has its own, if no two have the same key. -/

namespace RemoteForward

variable {rules : List (RemoteForward × Os × Bool)} {es : List RemoteForwardEstablished}

/-- What the client keeps of a rule, and what listens for it. -/
structure Paired (rule : RemoteForward) (e : RemoteForwardEstablished) (l : TcpForwardListener) :
    Prop where
  /-- The listener is advertised under the canonical host of the rule. -/
  bound : ∃ host port, rule.bind = .tcp host port ∧
    l.advertisedHost = canonicalizeRemoteBindHost host
  /-- The client keeps the host and the port of the listener, and the target of the rule. -/
  established : e = ⟨.tcp l.advertisedHost l.boundPort, rule.connect⟩
  /-- The host fits in a request. -/
  length_host : (SshString.utf8 l.advertisedHost).length ≤ maxRemoteFieldSize

/-- The key of what the client keeps is that of the listener. -/
theorem Paired.bindKey {rule : RemoteForward} {e : RemoteForwardEstablished}
    {l : TcpForwardListener} (h : Paired rule e l) :
    remoteForwardBindKey e.bind = some (l.advertisedHost, l.boundPort) := by
  obtain ⟨host, port, -, hhost⟩ := h.bound
  rw [h.established, remoteForwardBindKey, hhost, canonicalize_idem]

/-- The first rule, and the others. -/
theorem requestAll_cons {rule : RemoteForward}
    (h : requestAll f ((rule, os, responds) :: rules) = some (f', es)) :
    ∃ g e es', rule.request os responds f = (g, .ok e) ∧ requestAll g rules = some (f', es') ∧
      es = e :: es' := by
  rw [requestAll] at h
  split at h
  · rename_i g e hrequest
    obtain ⟨⟨f'', es'⟩, hrest, heq⟩ := Option.map_eq_some_iff.mp h
    obtain ⟨rfl, rfl⟩ := Prod.mk.inj heq
    exact ⟨g, e, es', hrequest, hrest, rfl⟩
  · cases h

/-- Requests for other keys leave a handle where it is, and the tasks that are there. -/
theorem requestAll_frame (htcp : ∀ r ∈ rules, ∃ host port, r.1.bind = .tcp host port)
    (h : requestAll f rules = some (f', es)) :
    f.forwardTasks <+: f'.forwardTasks ∧
      ∀ k, some k ∉ es.map (fun e => remoteForwardBindKey e.bind) →
        f'.tcpForwards.lookup k = f.tcpForwards.lookup k := by
  induction rules generalizing f es with
  | nil =>
    obtain ⟨rfl, rfl⟩ := Prod.mk.inj (Option.some.inj h)
    exact ⟨List.prefix_rfl, fun _ _ => rfl⟩
  | cons r rules ih =>
    obtain ⟨rule, os, responds⟩ := r
    obtain ⟨g, e, es', hrequest, hrest, rfl⟩ := requestAll_cons h
    obtain ⟨⟨host, port, hbind⟩, htcp⟩ := List.forall_mem_cons.mp htcp
    obtain ⟨l, rfl, hhost, -, rfl⟩ := request_ok hbind hrequest
    obtain ⟨hstart, hlookup⟩ := ih htcp hrest
    refine ⟨(List.prefix_append _ _).trans hstart, fun k hk => ?_⟩
    rw [List.map_cons, List.mem_cons, not_or] at hk
    obtain ⟨hne, hk⟩ := hk
    rw [hlookup k hk, Forwards.lookup_insert, if_neg]
    rintro rfl
    rw [remoteForwardBindKey, canonicalize_idem, hhost] at hne
    exact hne rfl

/-- **All rules.** Each has its listener, and, when the keys differ, its handle. -/
theorem requestAll_getElem (htcp : ∀ r ∈ rules, ∃ host port, r.1.bind = .tcp host port)
    (h : requestAll f rules = some (f', es)) {k : ℕ} {rule : RemoteForward}
    (hrule : rules[k]? = some (rule, os, responds)) :
    ∃ e l, es[k]? = some e ∧ Paired rule e l ∧
      f'.forwardTasks[f.forwardTasks.length + k]? = some ⟨⟨.tcp l, false, 0⟩, .running⟩ ∧
      ((es.map fun e => remoteForwardBindKey e.bind).Nodup →
        f'.tcpForwards.lookup (l.advertisedHost, l.boundPort) =
          some (f.forwardTasks.length + k)) := by
  induction rules generalizing f es k with
  | nil => cases hrule
  | cons r rules ih =>
    obtain ⟨rule', os', responds'⟩ := r
    obtain ⟨g, e, es', hrequest, hrest, rfl⟩ := requestAll_cons h
    obtain ⟨⟨host, port, hbind⟩, htcp⟩ := List.forall_mem_cons.mp htcp
    obtain ⟨l, he, hhost, hlength, rfl⟩ := request_ok hbind hrequest
    cases k with
    | zero =>
      obtain ⟨rfl, -⟩ := Prod.mk.inj (Option.some.inj hrule)
      rw [← hhost] at he
      have hpaired : Paired rule' e l := ⟨⟨host, port, hbind, hhost⟩, he, hlength⟩
      obtain ⟨hstart, hlookup⟩ := requestAll_frame htcp hrest
      refine ⟨e, l, rfl, hpaired, ?_, fun hnodup => ?_⟩
      · obtain ⟨ts, hts⟩ := hstart
        rw [← hts, JoinSet.spawn, List.append_assoc, List.getElem?_append_right (by omega)]
        simp
      · rw [hlookup _ (hpaired.bindKey ▸ (List.nodup_cons.mp hnodup).1), Forwards.lookup_insert,
          if_pos rfl]
        rfl
    | succ k =>
      obtain ⟨e', l', he', hpaired, htask, hlookup⟩ := ih htcp hrest hrule
      have hlength : (f.forwardTasks.spawn ⟨.tcp l, false, 0⟩).length + k =
          f.forwardTasks.length + (k + 1) := by
        rw [JoinSet.spawn, List.length_append, List.length_singleton]
        omega
      dsimp only at htask hlookup
      rw [hlength] at htask hlookup
      exact ⟨e', l', he', hpaired, htask, fun hnodup => hlookup (List.nodup_cons.mp hnodup).2⟩

/-- The first item with a key is the only one. -/
theorem find?_of_nodup {α β : Type} {key : α → β} {p : α → Bool} {a : α} {l : List α}
    (hnodup : (l.map key).Nodup) (ha : a ∈ l) (hp : ∀ m ∈ l, p m = true ↔ key m = key a) :
    l.find? p = some a := by
  obtain ⟨as, bs, rfl⟩ := List.append_of_mem ha
  refine List.find?_eq_some_iff_append.mpr ⟨(hp a ha).mpr rfl, as, bs, rfl, fun m hm => ?_⟩
  rw [List.map_append, List.map_cons] at hnodup
  have hne : key m ≠ key a := by
    intro heq
    exact List.disjoint_of_nodup_append hnodup (List.mem_map_of_mem hm) (heq ▸ List.mem_cons_self)
  cases hpm : p m with
  | false => rfl
  | true => exact absurd ((hp m (List.mem_append_left _ hm)).mp hpm) hne

/-- The channel of a listener is looked up under the key of its rule. -/
theorem selectTcp_eq {e : RemoteForwardEstablished} {rule : RemoteForward} {l : TcpForwardListener}
    (hnodup : (es.map fun e => remoteForwardBindKey e.bind).Nodup) (he : e ∈ es)
    (hpaired : Paired rule e l) (peer : PeerAddr) : selectTcp es (l.channelOpen peer) = some e := by
  obtain ⟨host, port, -, hhost⟩ := hpaired.bound
  have hkey : forwardedTcpipBindKey l.advertisedHost (asU16 (ofPort l.boundPort)) =
      (l.advertisedHost, l.boundPort) := by
    rw [forwardedTcpipBindKey, asU16_ofPort, hhost, canonicalize_idem]
  refine find?_of_nodup hnodup he fun m hm => ?_
  rw [hpaired.bindKey]
  change (match m.bind with
    | .tcp _ _ => decide (remoteForwardBindKey m.bind =
        some (forwardedTcpipBindKey l.advertisedHost (asU16 (ofPort l.boundPort))))
    | .unix _ => false) = true ↔ _
  rw [hkey]
  cases hbind : m.bind with
  | tcp host port => exact decide_eq_true_iff
  | unix path => exact iff_of_false Bool.false_ne_true nofun

/-- A channel tells no longer host than the request did, so the client can read it. -/
theorem bounded_channelOpen {l : TcpForwardListener}
    (h : (SshString.utf8 l.advertisedHost).length ≤ maxRemoteFieldSize) (peer : PeerAddr) :
    Wire.Bounded (l.channelOpen peer) :=
  ForwardedTcpip.bounded_iff.mpr ⟨h, peer.length_ip.trans (by decide)⟩

/-- What the client does about the channel of a connection. -/
theorem dispatchForwarded_channelOpen {l : TcpForwardListener}
    (h : (SshString.utf8 l.advertisedHost).length ≤ maxRemoteFieldSize) (peer : PeerAddr)
    (maxMessageSize : VarInt) (bs : List UInt8) (streams : List (List UInt8)) :
    (acceptForwardedChannels es
      ((openChannel (.forwardedTcpip (l.channelOpen peer)) maxMessageSize ++
      bs) :: streams)).1.head? = some (relayOrReject (selectTcp es (l.channelOpen peer))) := by
  have haccepts : ForwardedTcpip.decoder.Accepts (Wire.encode (l.channelOpen peer)) _ :=
    LawfulWire.inverts.accepts (bounded_channelOpen h peer)
  rw [acceptForwardedChannels, acceptChannel_openChannel]
  change some (match ForwardedTcpip.decoder.run (Wire.encode (l.channelOpen peer) ++ bs) with
    | .ok (payload, _) => relayOrReject (selectTcp es payload)
    | .error _ => .dropped) = _
  rw [haccepts.run]

/-- If the canonical form is within the limit, so is what was typed. -/
theorem length_typed_le {host : String}
    (h : (SshString.utf8 (canonicalizeRemoteBindHost host)).length ≤ maxRemoteFieldSize) :
    (SshString.utf8 host).length ≤ maxRemoteFieldSize := by
  rw [canonicalizeRemoteBindHost] at h
  split_ifs at h with hwildcard hlocal
  · rcases hwildcard with rfl | rfl
    · exact h
    · decide
  · rw [hlocal]
    exact h
  · exact h

/-- A cancellation takes away the listener under its key. -/
theorem cancel_eq {host canonicalHost : String} {port : UInt16} {i : ℕ}
    (hlength : (SshString.utf8 host).length ≤ maxRemoteFieldSize)
    (hhost : canonicalizeRemoteBindHost host = canonicalHost)
    (h : f.tcpForwards.lookup (canonicalHost, port) = some i) :
    (sendGlobalRequest os responds f (.cancelTcpipForward ⟨host, ofPort port⟩)).1 =
      { f with
        tcpForwards := f.tcpForwards.erase (canonicalHost, port)
        forwardTasks := f.forwardTasks.abort i } := by
  subst hhost
  have hreceived : (ForwardRequest.cancelTcpipForward ⟨host, ofPort port⟩).received =
      some (.cancelTcpipForward ⟨host, ofPort port⟩) := by
    rw [ForwardRequest.received, Wire.overWire_of_bounded
      (CancelTcpipForwardRequest.bounded_iff.mpr hlength)]
    rfl
  rw [sendGlobalRequest, hreceived]
  dsimp only [dispatchGlobal]
  rw [u16TryFrom_ofPort]
  dsimp only
  rw [h]
  cases responds <;> rfl

/-- **One key on both sides.** When the rules are accepted under different keys, the channel of
every connection to the listener of a rule is that of the rule, and cancelling the rule, under its
host as it was typed or as it was sent, takes away that listener and no other. -/
theorem selects_established (htcp : ∀ r ∈ rules, ∃ host port, r.1.bind = .tcp host port)
    (h : requestAll f rules = some (f', es))
    (hdistinct : (es.map fun e => remoteForwardBindKey e.bind).Nodup) {k : ℕ}
    {rule : RemoteForward} (hrule : rules[k]? = some (rule, os, responds)) :
    ∃ host port e l, rule.bind = .tcp host port ∧ es[k]? = some e ∧
      f'.forwardTasks[f.forwardTasks.length + k]? = some ⟨⟨.tcp l, false, 0⟩, .running⟩ ∧
      e.bind = .tcp (canonicalizeRemoteBindHost host) l.boundPort ∧
      (∀ peer, selectTcp es (l.channelOpen peer) = some e ∧ ∀ maxMessageSize bs streams,
        (acceptForwardedChannels es ((openChannel (.forwardedTcpip (l.channelOpen peer))
          maxMessageSize ++ bs) :: streams)).1.head? = some (relayOrReject (some e))) ∧
      f'.tcpForwards.lookup (canonicalizeRemoteBindHost host, l.boundPort) =
        some (f.forwardTasks.length + k) ∧
      ∀ host', host' = host ∨ host' = canonicalizeRemoteBindHost host → ∀ os responds,
        (sendGlobalRequest os responds f' (.cancelTcpipForward ⟨host', ofPort l.boundPort⟩)).1 =
          { f' with
            tcpForwards := f'.tcpForwards.erase (canonicalizeRemoteBindHost host, l.boundPort)
            forwardTasks := f'.forwardTasks.abort (f.forwardTasks.length + k) } := by
  obtain ⟨e, l, he, hpaired, htask, hlookup⟩ := requestAll_getElem htcp h hrule
  obtain ⟨host, port, hbind, hhost⟩ := hpaired.bound
  have hlength := hpaired.length_host
  have hselect := selectTcp_eq hdistinct (List.mem_of_getElem? he) hpaired
  have hstored := hlookup hdistinct
  refine ⟨host, port, e, l, hbind, he, htask, ?_, fun peer => ⟨hselect peer, ?_⟩, ?_, ?_⟩
  · rw [hpaired.established, hhost]
  · intro maxMessageSize bs streams
    rw [dispatchForwarded_channelOpen hlength, hselect]
  · rwa [hhost] at hstored
  · rw [hhost] at hlength hstored
    rintro host' (rfl | rfl) os responds
    · exact cancel_eq (length_typed_le hlength) rfl hstored
    · exact cancel_eq hlength (canonicalize_idem host) hstored

/-- An operating system that chooses port 40000, and binds everything else where it is asked. -/
def choosingOs : Os where
  lookupHost _ := none
  bindTcpSocket addr :=
    .bound (some (match addr with
      | .v4 _ port => if port = 0 then 40000 else port
      | .v6 _ port _ _ => if port = 0 then 40000 else port))
  bindUnixSocket _ := true

/-- A wildcard and a loopback rule, both with a port of the server's choice. -/
def twoRules : List (RemoteForward × Os × Bool) :=
  [(⟨.tcp "*" 0, some (.tcp "web" 80)⟩, choosingOs, true),
    (⟨.tcp "localhost" 0, none⟩, choosingOs, true)]

/-- The server has given both the same port. -/
theorem twoRules_established : (requestAll {} twoRules).map Prod.snd =
    some [⟨.tcp "" 40000, some (.tcp "web" 80)⟩, ⟨.tcp "localhost" 40000, none⟩] := by
  decide

/-- A connection to the first is the first rule's. -/
theorem twoRules_selected :
    ∃ f es, requestAll {} twoRules = some (f, es) ∧ ∃ e l, es[0]? = some e ∧
      e.bind = .tcp "" 40000 ∧ f.forwardTasks[0]? = some ⟨⟨.tcp l, false, 0⟩, .running⟩ ∧
      ∀ peer, selectTcp es (l.channelOpen peer) = some e := by
  obtain ⟨⟨f, es⟩, h, hes⟩ := Option.map_eq_some_iff.mp twoRules_established
  obtain rfl : es = _ := hes
  have htcp : ∀ r ∈ twoRules, ∃ host port, r.1.bind = .tcp host port := by
    intro r hr
    simp only [twoRules, List.mem_cons, List.not_mem_nil, or_false] at hr
    rcases hr with rfl | rfl <;> exact ⟨_, _, rfl⟩
  obtain ⟨host, port, e, l, -, he, htask, -, hselect, -⟩ :=
    selects_established htcp h (by decide) (k := 0) rfl
  obtain rfl := Option.some.inj he
  exact ⟨f, _, h, _, l, rfl, rfl, htask, fun peer => (hselect peer).1⟩

end RemoteForward

end Dssh
