import Dssh.Forward.Client
import Dssh.Session.ClientOutput

/-!
# The numbers that the client narrows

The wire has one kind of number, below `2 ^ 62`. The client keeps an exit status in 32 bits and
a port in 16, and it gets there with `as`: the exit status of an `exit-status` notice, the
allocated port of a reply to `tcpip-forward`, and the connected port of a `forwarded-tcpip`
channel lose their high bits. The server narrows the same fields with `u16::try_from` and
refuses what does not fit.

What is lost matters where the number is used: the exit status `2 ^ 32` is returned as success,
and the narrowed port selects the rule that a channel is relayed for.

## Three places, three conditions

The question is the same at each place: is the number that is used the number that was sent, or
else is the message refused? The answers differ, since what happens with the number does.

The status is returned, and nothing is refused. So the condition is that *every* status on the
stream that is read fits, in 32 bits. All of them count, not only the last one, since each is
recorded when it is read.

The port of a reply is kept in the established rule, so the condition is that it fits in 16
bits.

The port of a channel is looked up. If no rule takes the low 16 bits, the channel is refused, as
it should be, also if the port is too large. The condition is that the port fits, *or* that the
first rule found under the narrowed key has no target. A condition that leaves out the second
half would be sufficient and not necessary.

## How a stream is looked at

The exit loop of the client is a `Loop` over the messages of a channel. `exitStatuses` are the
statuses in the messages that its turns start at, so a notice counts if the loop gets there.
That a returned status is the narrowed one of the last such notice is an induction over the
turns (`status_of_run`).

For the reply and the channel, nothing runs: both are functions of a message, and their parts
have been related to the server in `Client`.

## Main definitions

* `exitStatuses` — the statuses that are read
* `ClientOutput.StatusesAsSent`, `RemoteForward.PortAsSent`, `RoutedAsSent` — what is used is
  what was sent

## Main results

* `narrowed_iff` — at each of the three places, the number that is used is the number on the
  wire, or the message is refused, exactly when the number fits (or when no rule takes the
  narrowed port)
* `ClientOutput.status_of_relayOutput` — a returned status is the narrowed one of the last
  notice
* `wide_numbers_used` — numbers that do not fit
-/

namespace Dssh

/-! ## Exit statuses

A turn of the loop that reads a status keeps its low 32 bits. On a stream, the turns that read
one are found by the places at which the turns start. -/

namespace ClientOutput

/-- The exit status in the message at the front of a stream, if there is one to be read. -/
def exitStatusAt (bs : List UInt8) : Option VarInt :=
  match SshChannelReader.nextEvent.outcome bs with
  | (.ok (.notice "exit-status"), rest) =>
    match ExitStatusRequest.decoder.outcome rest with
    | (.ok req, _) => some req.exitStatus
    | (.error _, _) => none
  | _ => none

/-- The exit statuses on the wire that the client reads. -/
def exitStatuses (bs : List UInt8) : List VarInt := (Loop.starts turn {} bs).filterMap exitStatusAt

/-- A turn that reads an exit status goes on, with the low 32 bits. -/
theorem turn_of_exitStatusAt {bs : List UInt8} {v : VarInt} (h : exitStatusAt bs = some v)
    (s : ClientOutput) :
    ∃ rest, turn s bs = .again { s with exitResult := some (.status (.ofNat v.val)) } rest := by
  rw [exitStatusAt] at h
  split at h
  · rename_i rest hevent
    split at h
    · rename_i req rest' hreq
      obtain rfl := Option.some.inj h
      refine ⟨rest', ?_⟩
      rw [turn, hevent]
      simp only [onEvent, hreq]
    · cases h
  · cases h

/-- Any other turn that goes on leaves the exit result, or reads an exit signal. -/
theorem exitResult_of_again {s s' : ClientOutput} {bs rest : List UInt8}
    (hat : exitStatusAt bs = none) (h : turn s bs = .again s' rest) :
    s'.exitResult = s.exitResult ∨ ∃ name dumped, s'.exitResult = some (.signal name dumped) := by
  rw [turn] at h
  split at h
  · rename_i event rest' hevent
    rw [onEvent.eq_def] at h
    split at h
    case h_3 =>
      -- an exit status would have been seen
      rw [exitStatusAt, hevent] at hat
      split at h
      · rename_i hreq
        simp only [hreq, reduceCtorEq] at hat
      · cases h
    case h_4 =>
      split at h
      · obtain ⟨rfl, -⟩ := Turn.again.inj h
        exact Or.inr ⟨_, _, rfl⟩
      · cases h
    case h_5 | h_7 => cases h
    all_goals
      obtain ⟨rfl, -⟩ := Turn.again.inj h
      exact Or.inl rfl
  · cases h
  · split at h <;> cases h

/-- A turn that returns, returns the exit result. -/
theorem exitResult_of_stop {s out : ClientOutput} {bs rest : List UInt8} {r : Option ExitResult}
    (h : turn s bs = .stop (.ok r, out) rest) : r = s.exitResult := by
  rw [turn] at h
  split at h
  · rw [onEvent.eq_def] at h
    split at h
    case h_3 | h_4 => split at h <;> cases h
    case h_5 | h_7 => cases h; rfl
    all_goals cases h
  · cases h
    rfl
  · split at h <;> cases h
    rfl

/-- A turn that returns reads no status. -/
theorem exitStatusAt_of_stop {s : ClientOutput} {bs rest : List UInt8}
    {r : Except RunError (Option ExitResult) × ClientOutput} (h : turn s bs = .stop r rest) :
    exitStatusAt bs = none := by
  cases hat : exitStatusAt bs with
  | none => rfl
  | some v =>
    obtain ⟨rest', hturn⟩ := turn_of_exitStatusAt hat s
    rw [h] at hturn
    cases hturn

/-- The loop returns the status it has read last, or the one it has started with. -/
theorem status_of_run {s out : ClientOutput} {bs rest : List UInt8} {n : UInt32}
    (h : Loop.run turn s bs = some ((.ok (some (.status n)), out), rest)) :
    (∃ v, ((Loop.starts turn s bs).filterMap exitStatusAt).getLast? = some v ∧
        n = .ofNat v.val) ∨
      (Loop.starts turn s bs).filterMap exitStatusAt = [] ∧ s.exitResult = some (.status n) := by
  induction hlength : bs.length using Nat.strongRecOn generalizing s bs with
  | _ k ih =>
    cases hturn : turn s bs with
    | stop r rest' =>
      rw [Loop.run_stop hturn] at h
      obtain ⟨rfl, rfl⟩ := Prod.mk.inj (Option.some.inj h)
      rw [Loop.starts_stop hturn, List.filterMap_cons, exitStatusAt_of_stop hturn]
      exact Or.inr ⟨rfl, (exitResult_of_stop hturn).symm⟩
    | again s' rest' =>
      rw [Loop.run_again consumes_turn hturn] at h
      have hlt : rest'.length < k := hlength ▸ consumes_turn _ _ _ _ hturn
      rw [Loop.starts_again consumes_turn hturn, List.filterMap_cons]
      cases hat : exitStatusAt bs with
      | none =>
        rcases ih _ hlt h rfl with hlast | ⟨hnil, hresult⟩
        · exact Or.inl hlast
        · rcases exitResult_of_again hat hturn with hkept | ⟨name, dumped, hsignal⟩
          · exact Or.inr ⟨hnil, hkept.symm.trans hresult⟩
          · rw [hsignal] at hresult
            cases hresult
      | some v =>
        left
        rcases ih _ hlt h rfl with ⟨w, hlast, hw⟩ | ⟨hnil, hresult⟩
        · exact ⟨w, by rw [List.getLast?_cons, hlast, Option.getD_some], hw⟩
        · obtain ⟨rest'', hread⟩ := turn_of_exitStatusAt hat s
          obtain ⟨rfl, -⟩ := Turn.again.inj (hturn.symm.trans hread)
          refine ⟨v, by rw [hnil]; rfl, ?_⟩
          exact (ExitResult.status.inj (Option.some.inj hresult)).symm

/-- **A returned status** is the narrowed one of the last notice. -/
theorem status_of_relayOutput {bs rest : List UInt8} {n : UInt32} {out : ClientOutput}
    (h : relayOutput bs = some ((.ok (some (.status n)), out), rest)) :
    ∃ v, (exitStatuses bs).getLast? = some v ∧ n = .ofNat v.val := by
  rcases status_of_run h with hlast | ⟨-, hresult⟩
  · exact hlast
  · cases hresult

/-- The status that a turn records is the one it reads. -/
def RecordsAsSent (bs : List UInt8) (v : VarInt) : Prop :=
  ∀ s s' rest, turn s bs = .again s' rest →
    ∃ n : UInt32, s'.exitResult = some (.status n) ∧ n.toNat = v.val

/-- The cast to 32 bits keeps what fits. -/
theorem toNat_ofNat_eq_iff (v : ℕ) : (UInt32.ofNat v).toNat = v ↔ v < 2 ^ 32 := by
  rw [UInt32.toNat_ofNat']
  exact ⟨fun h => h ▸ Nat.mod_lt _ (by decide), Nat.mod_eq_of_lt⟩

/-- **The notice.** -/
theorem recordsAsSent_iff {bs : List UInt8} {v : VarInt} (hat : exitStatusAt bs = some v) :
    RecordsAsSent bs v ↔ v.val < 2 ^ 32 := by
  constructor
  · intro h
    obtain ⟨rest, hturn⟩ := turn_of_exitStatusAt hat {}
    obtain ⟨n, hn, hval⟩ := h _ _ _ hturn
    obtain rfl := ExitResult.status.inj (Option.some.inj hn)
    exact (toNat_ofNat_eq_iff v.val).mp hval
  · intro hlt s s' rest h
    obtain ⟨rest', hturn⟩ := turn_of_exitStatusAt hat s
    obtain ⟨rfl, -⟩ := Turn.again.inj (h.symm.trans hturn)
    exact ⟨_, rfl, (toNat_ofNat_eq_iff v.val).mpr hlt⟩

/-- Every status that is recorded is the one in the notice, and the one that is returned is the one
in the last notice. -/
def StatusesAsSent (bs : List UInt8) : Prop :=
  (∀ x ∈ Loop.starts turn {} bs, ∀ v, exitStatusAt x = some v → RecordsAsSent x v) ∧
    ∀ n out rest, relayOutput bs = some ((.ok (some (.status n)), out), rest) →
      ∃ v, (exitStatuses bs).getLast? = some v ∧ n.toNat = v.val

/-- **The stream.** -/
theorem statusesAsSent_iff (bs : List UInt8) :
    StatusesAsSent bs ↔ ∀ v ∈ exitStatuses bs, v.val < 2 ^ 32 := by
  constructor
  · rintro ⟨hrecords, -⟩ v hv
    obtain ⟨x, hx, hat⟩ := List.mem_filterMap.mp hv
    exact (recordsAsSent_iff hat).mp (hrecords x hx v hat)
  · intro h
    refine ⟨fun x hx v hat => ?_, fun n out rest hrun => ?_⟩
    · exact (recordsAsSent_iff hat).mpr (h v (List.mem_filterMap.mpr ⟨x, hx, hat⟩))
    · obtain ⟨v, hlast, rfl⟩ := status_of_relayOutput hrun
      exact ⟨v, hlast, (toNat_ofNat_eq_iff v.val).mpr (h v (List.mem_of_getLast? hlast))⟩

end ClientOutput

/-! ## Ports

The client keeps the low 16 bits of the port in the reply, as a part of the endpoint that it
gives to its caller. -/

/-- The cast to 16 bits keeps what fits. -/
theorem toNat_asU16_eq_iff (v : VarInt) : (asU16 v).toNat = v.val ↔ v.val < 2 ^ 16 := by
  rw [asU16, UInt16.toNat_ofNat']
  exact ⟨fun h => h ▸ Nat.mod_lt _ (by decide), Nat.mod_eq_of_lt⟩

namespace RemoteForward

/-- What `request` makes of the response to its request. -/
def onResponse (rule : RemoteForward) (response : Option (List UInt8)) :
    Except RequestRemoteForwardError RemoteForwardEstablished :=
  match rule.bind with
  | .tcp host _ =>
    match response.bind fun bs => (TcpipForwardReply.decoder.run bs).toOption with
    | some (reply, _) =>
      .ok ⟨.tcp (canonicalizeRemoteBindHost host) (asU16 reply.allocatedPort), rule.connect⟩
    | none => .error .tcpForwardRequest
  | .unix path =>
    match response with
    | some _ => .ok ⟨.unix path, rule.connect⟩
    | none => .error .streamlocalForwardRequest

/-- The global request of a rule. -/
def globalRequest (rule : RemoteForward) : ForwardRequest :=
  match rule.bind with
  | .tcp host port => .tcpipForward ⟨canonicalizeRemoteBindHost host, ofPort port⟩
  | .unix path => .streamlocalForward ⟨path⟩

/-- A request to the server is the handling of its response. -/
theorem request_eq (os : Os) (responds : Bool) (f : Forwards) (rule : RemoteForward) :
    rule.request os responds f =
      ((sendGlobalRequest os responds f rule.globalRequest).1,
        rule.onResponse (sendGlobalRequest os responds f rule.globalRequest).2) := by
  rw [request, globalRequest, onResponse]
  cases rule.bind with
  | tcp host port =>
    dsimp only
    generalize sendGlobalRequest os responds f _ = sent
    cases sent.2.bind fun bs => (TcpipForwardReply.decoder.run bs).toOption with
    | some r => rfl
    | none => rfl
  | unix path =>
    dsimp only
    generalize sendGlobalRequest os responds f _ = sent
    cases sent.2 with
    | some response => rfl
    | none => rfl

/-- The port of the established forward is the one in the reply. -/
def PortAsSent (rule : RemoteForward) (response : List UInt8) (reply : TcpipForwardReply) : Prop :=
  ∀ e, rule.onResponse (some response) = .ok e →
    ∃ host port, e.bind = .tcp host port ∧ port.toNat = reply.allocatedPort.val

/-- **The reply.** -/
theorem portAsSent_iff {rule : RemoteForward} {host : String} {port : UInt16}
    (hbind : rule.bind = .tcp host port) {response rest : List UInt8} {reply : TcpipForwardReply}
    (hreply : TcpipForwardReply.decoder.run response = .ok (reply, rest)) :
    PortAsSent rule response reply ↔ reply.allocatedPort.val < 2 ^ 16 := by
  have hok : rule.onResponse (some response) = .ok
      ⟨.tcp (canonicalizeRemoteBindHost host) (asU16 reply.allocatedPort), rule.connect⟩ := by
    simp only [onResponse, hbind, Option.bind_some, hreply, Except.toOption]
  constructor
  · intro h
    obtain ⟨host', port', hbind', hport⟩ := h _ hok
    obtain ⟨-, rfl⟩ := Endpoint.tcp.inj hbind'
    exact (toNat_asU16_eq_iff _).mp hport
  · intro hlt e he
    obtain rfl := Except.ok.inj (hok.symm.trans he)
    exact ⟨_, _, rfl, (toNat_asU16_eq_iff _).mpr hlt⟩

end RemoteForward

/-! ## Channels

The port of a channel is narrowed before it is looked up. If the first mapping under the narrowed
key has a target, a channel for another port is relayed there; if it has none, or there is no
mapping, the channel is refused anyway. -/

/-- The mapping of a `forwarded-tcpip` channel to `host` that came in on `port`: the first one under
this key. -/
def mappingAt (mappings : List RemoteForwardEstablished) (host : String) (port : UInt16) :
    Option RemoteForwardEstablished :=
  mappings.find? fun m => remoteForwardBindKey m.bind = some (forwardedTcpipBindKey host port)

/-- The mapping of a channel is that under its host and the low bits of its port. -/
theorem selectTcp_eq_mappingAt (mappings : List RemoteForwardEstablished)
    (payload : ForwardedTcpip) :
    selectTcp mappings payload =
      mappingAt mappings payload.connectedAddress (asU16 payload.connectedPort) := by
  rw [selectTcp, mappingAt]
  congr 1
  funext m
  cases hbind : m.bind with
  | tcp host port => rfl
  | unix path => simp [remoteForwardBindKey]

/-- A channel is relayed to the target of a mapping that is bound on the port on the wire, or it is
refused. -/
def RoutedAsSent (mappings : List RemoteForwardEstablished) (payload : ForwardedTcpip)
    (out : Forwarded) : Prop :=
  ∀ connect, out = .relayed connect → ∃ m ∈ mappings, m.connect = some connect ∧
    ∃ host port, m.bind = .tcp host port ∧
      canonicalizeRemoteBindHost host = canonicalizeRemoteBindHost payload.connectedAddress ∧
      port.toNat = payload.connectedPort.val

/-- What is found is bound under the key. -/
theorem of_mappingAt {mappings : List RemoteForwardEstablished} {host : String} {port : UInt16}
    {m : RemoteForwardEstablished} (h : mappingAt mappings host port = some m) :
    m ∈ mappings ∧ ∃ host', m.bind = .tcp host' port ∧
      canonicalizeRemoteBindHost host' = canonicalizeRemoteBindHost host := by
  rw [mappingAt] at h
  have hkey : remoteForwardBindKey m.bind = some (forwardedTcpipBindKey host port) := by
    simpa using List.find?_some h
  refine ⟨List.mem_of_find?_eq_some h, ?_⟩
  cases hbind : m.bind with
  | tcp host' port' =>
    rw [hbind] at hkey
    obtain ⟨hhost, rfl⟩ := Prod.mk.inj (Option.some.inj hkey)
    exact ⟨host', rfl, hhost⟩
  | unix path =>
    rw [hbind] at hkey
    cases hkey

/-- What is done about a channel is relaying it to the target of its mapping. -/
theorem relayOrReject_eq_relayed {mapping : Option RemoteForwardEstablished} {connect : Endpoint} :
    relayOrReject mapping = .relayed connect ↔
      mapping.bind RemoteForwardEstablished.connect = some connect := by
  rw [relayOrReject]
  cases mapping.bind RemoteForwardEstablished.connect with
  | none => simp
  | some connect' => simp

/-- **The channel.** -/
theorem routedAsSent_iff (mappings : List RemoteForwardEstablished) (payload : ForwardedTcpip) :
    RoutedAsSent mappings payload (relayOrReject (selectTcp mappings payload)) ↔
      payload.connectedPort.val < 2 ^ 16 ∨
        (mappingAt mappings payload.connectedAddress (asU16 payload.connectedPort)).bind
          RemoteForwardEstablished.connect = none := by
  rw [selectTcp_eq_mappingAt]
  constructor
  · intro h
    rw [or_iff_not_imp_right]
    intro htarget
    obtain ⟨connect, htarget⟩ := Option.ne_none_iff_exists'.mp htarget
    obtain ⟨m, -, -, host, port, -, -, hport⟩ := h connect (relayOrReject_eq_relayed.mpr htarget)
    exact hport ▸ port.toNat_lt
  · intro h connect hrelayed
    have htarget := relayOrReject_eq_relayed.mp hrelayed
    rcases h with hlt | hnone
    · obtain ⟨m, hm, hconnect⟩ := Option.bind_eq_some_iff.mp htarget
      obtain ⟨hmem, host, hbind, hhost⟩ := of_mappingAt hm
      exact ⟨m, hmem, hconnect, host, _, hbind, hhost, (toNat_asU16_eq_iff _).mpr hlt⟩
    · rw [hnone] at htarget
      cases htarget

/-- **What is used is what was sent**, or it is refused: of the exit statuses on a stream exactly
when they fit into 32 bits, of the port in a reply exactly when it fits into 16, and of the port of
a channel exactly when it does or no rule with a target takes its low 16 bits. -/
theorem narrowed_iff (stream : List UInt8) (rule : RemoteForward)
    (mappings : List RemoteForwardEstablished) (incoming : IncomingChannel) :
    (ClientOutput.StatusesAsSent stream ↔
      ∀ v ∈ ClientOutput.exitStatuses stream, v.val < 2 ^ 32) ∧
    (∀ host port response reply rest, rule.bind = .tcp host port →
      TcpipForwardReply.decoder.run response = .ok (reply, rest) →
        (rule.PortAsSent response reply ↔ reply.allocatedPort.val < 2 ^ 16)) ∧
    ∀ bs payload rest,
      incoming.channelType = "forwarded-tcpip" →
        ForwardedTcpip.decoder.run bs = .ok (payload, rest) →
        (RoutedAsSent mappings payload (dispatchForwarded mappings incoming bs) ↔
          payload.connectedPort.val < 2 ^ 16 ∨
            (mappingAt mappings payload.connectedAddress (asU16 payload.connectedPort)).bind
              RemoteForwardEstablished.connect = none) := by
  refine ⟨ClientOutput.statusesAsSent_iff stream, ?_, ?_⟩
  · intro host port response reply rest hbind hreply
    exact RemoteForward.portAsSent_iff hbind hreply
  · intro bs payload rest htype hpayload
    have hdispatch : dispatchForwarded mappings incoming bs =
        relayOrReject (selectTcp mappings payload) := by
      simp only [dispatchForwarded, htype, hpayload]
    rw [hdispatch]
    exact routedAsSent_iff mappings payload

/-- A rule that listens on port 8080 and has a target. -/
def proxyRule : RemoteForward := ⟨.tcp "" 8080, some (.tcp "web" 80)⟩

/-- A channel for port `2 ^ 16 + 8080`. -/
def wideChannel : ForwardedTcpip := ⟨"", .ofNat 73616, "peer", .ofNat 1⟩

/-- Output, the largest exit status, and the end of the channel. -/
def largeStatus : List UInt8 :=
  ChannelMessage.stream
    [.data [104, 105], .request (.exitStatus ⟨.ofNat (2 ^ 32 - 1)⟩) false, .eof, .close]

/-- A stream with the largest status, a port that fits, and a channel for one that does not, where
the only rule has no target. -/
theorem proxyRule_narrowed_iff :
    (ClientOutput.exitStatuses largeStatus = [.ofNat (2 ^ 32 - 1)] ∧
      ClientOutput.StatusesAsSent largeStatus) ∧
    proxyRule.PortAsSent (TcpipForwardReply.encode ⟨ofPort 8080⟩) ⟨ofPort 8080⟩ ∧
    RoutedAsSent [⟨.tcp "" 8080, none⟩] wideChannel
      (dispatchForwarded [⟨.tcp "" 8080, none⟩] ⟨"forwarded-tcpip", .ofNat 0⟩
        (Wire.encode wideChannel)) := by
  obtain ⟨hstatuses, hreply, hchannel⟩ := narrowed_iff largeStatus proxyRule [⟨.tcp "" 8080, none⟩]
    ⟨"forwarded-tcpip", .ofNat 0⟩
  refine ⟨⟨by decide, hstatuses.mpr (by decide)⟩, ?_, ?_⟩
  · exact (hreply "" 8080 _ _ [] rfl (run_encode_reply 8080)).mpr (by decide)
  · exact (hchannel _ wideChannel [] rfl (by decide)).mpr (by decide)

/-- A notice of the exit status `2 ^ 32`, and the end of the channel. -/
def wideStatus : List UInt8 :=
  ChannelMessage.stream [.request (.exitStatus ⟨.ofNat (2 ^ 32)⟩) false, .close]

/-- **Numbers that do not fit.** The status `2 ^ 32` is success, the allocated port `2 ^ 16 + 8080`
is 8080, and a channel for that port goes to the rule that listens on 8080. -/
theorem wide_numbers_used :
    (ClientOutput.relayOutput wideStatus =
        some ((.ok (some (.status 0)), { exitResult := some (.status 0) }), []) ∧
      ¬ ClientOutput.StatusesAsSent wideStatus) ∧
    (proxyRule.onResponse (some (TcpipForwardReply.encode ⟨.ofNat 73616⟩)) =
        .ok ⟨.tcp "" 8080, some (.tcp "web" 80)⟩ ∧
      ¬ proxyRule.PortAsSent (TcpipForwardReply.encode ⟨.ofNat 73616⟩) ⟨.ofNat 73616⟩) ∧
    dispatchForwarded [⟨.tcp "" 8080, some (.tcp "web" 80)⟩] ⟨"forwarded-tcpip", .ofNat 0⟩
        (Wire.encode wideChannel) = .relayed (.tcp "web" 80) ∧
      ¬ RoutedAsSent [⟨.tcp "" 8080, some (.tcp "web" 80)⟩] wideChannel
        (.relayed (.tcp "web" 80)) := by
  refine ⟨⟨by decide, fun h => ?_⟩, ⟨by decide, fun h => ?_⟩, by decide, fun h => ?_⟩
  · exact absurd ((ClientOutput.statusesAsSent_iff _).mp h) (by decide)
  · have hreply : TcpipForwardReply.decoder.run (TcpipForwardReply.encode ⟨.ofNat 73616⟩) =
        .ok (⟨.ofNat 73616⟩, []) := by decide
    exact absurd ((RemoteForward.portAsSent_iff rfl hreply).mp h) (by decide)
  · obtain ⟨-, -, -, host, port, -, -, hport⟩ := h _ rfl
    exact absurd (hport ▸ port.toNat_lt) (by decide)

end Dssh
