import Dssh.Forward.Client
import Dssh.Forward.Display
import Dssh.Forward.Settling

/-!
# Local forwarding

The client listens where a `-L` rule says, and opens a channel for each connection: the payload
names the target, and where the connection comes from. The server reads the payload, field by
field, and connects. `LocalForward.tunnel` is one such connection, from the opening that
`open_channel_and_relay` writes to the handlers that the server's `run_session` chooses by the
type.

## The target

The two sides name it in different ways. A rule has a host and a port; the opening has a string
and a `VarInt`; the server puts `host:port` together and gives the text to `TcpStream::connect`.
What arrives at the operating system is therefore a function of the rule alone
(`Endpoint.target`). That the originator, which is in the same payload behind the target, has no
part in it is one of the statements of `localForward_transparent`, as is that nothing else is
ever connected to.

The server is given a port of up to 62 bits and refuses what is none; from a rule, every port is
one.

The server reads the opening with one decoder per stage: the header, then the payload that the
type calls for, each of them field by field. The whole is `serveChannel`, and
`serveChannel_accepts` says that it takes the opening to the byte. One byte more or less, and
the first data of the connection would be read as part of the payload, or the other way round.

## What carries over

Everything else is general. `Tunnel` is a forwarded connection whatever its opening is, with two
relays, two sockets and two streams of bounded size, and the results about it are for any
opening that the accepting side's decoder takes. This module gives it the opening and the
decoder of local forwarding. `serveChannel_accepts` is the one hypothesis to be discharged, and
`Endpoint.Fits` is what it costs: a host or path of more than a megabyte is not accepted by the
peer's decoder.

## Main definitions

* `LocalForward.channelOpen` — what a connection through a rule opens
* `serveChannel` — what the server reads of a channel, and what it does about it
* `Endpoint.target` — where a rule leads
* `LocalForward.tunnel` — a connection through a rule

## Main results

* `serveChannel_accepts` — the server reads the opening to the byte, and goes to the target of
  the rule
* `localForward_transparent` — what a connection through a rule does, in every run
* `localForward_settles` — it delivers everything, if the target answers and nothing fails
-/

namespace Dssh

/-! ## The client

The accept loops for TCP and for Unix sockets differ in what they know of the connection. The
endpoint of the rule determines which of the two channels is opened. -/

/-- Where a connection is said to come from. -/
structure DirectOriginator where
  /-- The address, as text. -/
  host : SshString
  port : UInt16

namespace DirectOriginator

/-- That of a TCP connection is its peer. -/
def fromSocketAddr (addr : PeerAddr) : DirectOriginator := ⟨addr.ip, addr.port⟩

/-- That of a connection to a Unix socket. -/
def placeholder : DirectOriginator := ⟨"127.0.0.1", 65535⟩

end DirectOriginator

/-- The channel that `open_channel_and_relay` opens. -/
def openChannelAndRelay (connect : Endpoint) (originator : DirectOriginator) : ChannelOpen :=
  match connect with
  | .tcp host port =>
    .directTcpip ⟨host, ofPort port, originator.host, ofPort originator.port⟩
  | .unix path => .directStreamlocal ⟨path⟩

/-- What the accept loop of a rule opens for a connection from `peer`. -/
def LocalForward.channelOpen (v : LocalForward) (peer : PeerAddr) : ChannelOpen :=
  match v.bind with
  | .tcp _ _ => openChannelAndRelay v.connect (.fromSocketAddr peer)
  | .unix _ => openChannelAndRelay v.connect .placeholder

/-! ## The server

What the handler does once the fields are read: it connects to the target, whose address it makes
of the host and the port, and answers by the outcome. -/

/-- What the server connects to: an address as `TcpStream::connect` takes it, or a path. -/
inductive DirectTarget where
  | tcp (addr : String)
  | unix (path : String)
  deriving DecidableEq

/-- What `handle_direct_tcpip` does when it has read the fields. -/
def DirectTcpip.decision (v : DirectTcpip) : Decision DirectTarget :=
  match u16TryFrom v.destPort with
  | some port => .connect (.tcp (v.destHost ++ ":" ++ printPort port))
  | none => .reject (.ofNat 1) "invalid destination port"

/-- The errors of the server up to its decision. -/
inductive ServeChannelError where
  /-- `accept_channel` -/
  | accept (e : AcceptChannelError)
  /-- `handle_direct_tcpip` and `handle_direct_streamlocal` -/
  | direct (e : DirectForwardError)
  /-- The types with other handlers. -/
  | session
  | socks5

/-- What the server reads of a channel, and what it does about it. -/
def serveChannel : Decoder ServeChannelError (Decision DirectTarget) :=
  (acceptChannel.mapError .accept).bind fun incoming =>
    match incoming.channelType with
    | "session" => .fail .session
    | "direct-tcpip" => (handleDirectTcpip.mapError .direct).bind fun v => .done v.decision
    | "direct-streamlocal@openssh.com" =>
      (handleDirectStreamlocal.mapError .direct).bind fun v => .done (.connect (.unix v.socketPath))
    | "socks5" => .fail .socks5
    | _ => .done (.reject (.ofNat 3) "unsupported channel type")

/-! ## Together

The opening that the client writes is what the handler decodes, and its target is the target of
the rule. With this, a rule gives a tunnel, and everything that is known of tunnels is known of
connections through the rule. -/

/-- The host or the path is not longer than what a peer accepts. -/
def Endpoint.Fits : Endpoint → Prop
  | .tcp host _ => (SshString.utf8 host).length ≤ maxRemoteFieldSize
  | .unix path => (SshString.utf8 path).length ≤ maxRemoteFieldSize

instance : DecidablePred Endpoint.Fits := fun e => by
  cases e <;> exact inferInstanceAs (Decidable (_ ≤ _))

/-- Where a connection to an endpoint leads, as the server has it. -/
def Endpoint.target : Endpoint → DirectTarget
  | .tcp host port => .tcp (host ++ ":" ++ printPort port)
  | .unix path => .unix path

/-- **The server reads the opening**, and not a byte more, … -/
theorem serveChannel_directTcpip {v : DirectTcpip} (hv : Wire.Bounded v) (maxMessageSize : VarInt) :
    serveChannel.Accepts (openChannel (.directTcpip v) maxMessageSize) v.decision := by
  rw [openChannel_eq]
  refine (Decoder.accepts_mapError.mpr (acceptChannel_accepts _ maxMessageSize)).bind ?_
  exact ((handleDirectTcpip_inverts.mapError ServeChannelError.direct).accepts hv).bind_done rfl

/-- The same for a path, … -/
theorem serveChannel_directStreamlocal {v : DirectStreamlocal} (hv : Wire.Bounded v)
    (maxMessageSize : VarInt) :
    serveChannel.Accepts (openChannel (.directStreamlocal v) maxMessageSize)
      (.connect (.unix v.socketPath)) := by
  rw [openChannel_eq]
  refine (Decoder.accepts_mapError.mpr (acceptChannel_accepts _ maxMessageSize)).bind ?_
  exact
    ((handleDirectStreamlocal_inverts.mapError ServeChannelError.direct).accepts hv).bind_done rfl

/-- … and goes to the target that the client has named, whatever the originator. -/
theorem serveChannel_accepts {connect : Endpoint} {originator : DirectOriginator}
    (hconnect : connect.Fits) (horiginator : originator.host.utf8.length ≤ maxRemoteFieldSize)
    (maxMessageSize : VarInt) :
    serveChannel.Accepts (openChannel (openChannelAndRelay connect originator) maxMessageSize)
      (.connect connect.target) := by
  cases connect with
  | tcp host port =>
    have hdecision : DirectTcpip.decision
        ⟨host, ofPort port, originator.host, ofPort originator.port⟩ =
          .connect (.tcp (host ++ ":" ++ printPort port)) := by
      rw [DirectTcpip.decision, u16TryFrom_ofPort]
    have hbounded : Wire.Bounded
        (DirectTcpip.mk host (ofPort port) originator.host (ofPort originator.port)) :=
      DirectTcpip.bounded_iff.mpr ⟨hconnect, horiginator⟩
    have haccepts := serveChannel_directTcpip hbounded maxMessageSize
    rwa [hdecision] at haccepts
  | unix path =>
    exact serveChannel_directStreamlocal (DirectStreamlocal.bounded_iff.mpr hconnect) maxMessageSize

namespace LocalForward

/-- A connection from `peer` through a rule, with sockets and streams of these sizes. -/
def tunnel (v : LocalForward) (peer : PeerAddr) (up down : Windows) :
    Machine (Tunnel ServeChannelError DirectTarget) Tunnel.Action :=
  Tunnel.machine (openChannel (v.channelOpen peer) defaultMaxMessageSize) serveChannel up down

/-- The server decides for the target of the rule. -/
theorem tunnel_accepts {v : LocalForward} (hconnect : v.connect.Fits) (peer : PeerAddr) :
    serveChannel.Accepts (openChannel (v.channelOpen peer) defaultMaxMessageSize)
      (.connect v.connect.target) := by
  rw [channelOpen]
  split
  · exact serveChannel_accepts hconnect (peer.length_ip.trans (by decide)) _
  · exact serveChannel_accepts hconnect (by decide) _

end LocalForward

open LocalForward

variable {v : LocalForward} {peer : PeerAddr} {up down : Windows}
  {t t' : Tunnel ServeChannelError DirectTarget}

/-- **Local forwarding is transparent.** In every run of a connection through a rule, both ends
receive a beginning of what the other has sent, and its end only behind all of it; the server
connects to the target of the rule, once and to nothing else, and nothing is delivered without that.
-/
theorem localForward_transparent (hconnect : v.connect.Fits)
    (ht : (v.tunnel peer up down).Reachable t) :
    t.Transparent (.connect v.connect.target) :=
  (Tunnel.inv (tunnel_accepts hconnect peer) ht).transparent (tunnel_accepts hconnect peer)

/-- A rule, a connection from the loopback address, and what happens until two bytes are there. -/
def webRule : LocalForward := ⟨.tcp "127.0.0.1" 8080, .tcp "web" 80⟩

/-- The channel is opened, two bytes are sent through it, and one has been received. -/
def sentRun : List Tunnel.Action :=
  Tunnel.openedRun 30 ++ [.up (.send [104, 105]), .up (.take 3 2), .up (.take 2 2), .up (.take 1 1),
    .up (.take 0 1), .up (.receive 1)]

/-- What has been received is the beginning of what was sent, and the target of the rule has been
connected to. -/
theorem sentRun_transparent :
    ∃ t, (webRule.tunnel loopbackPeer Tunnel.smallWindows Tunnel.smallWindows).exec
        (webRule.tunnel loopbackPeer Tunnel.smallWindows Tunnel.smallWindows).init
          sentRun = some t ∧
      (t.up.received = [104] ∧ t.connects = [.tcp "web:80"]) ∧
      t.Transparent (.connect (.tcp "web:80")) := by
  have hrun : ((webRule.tunnel loopbackPeer Tunnel.smallWindows Tunnel.smallWindows).exec
      (webRule.tunnel loopbackPeer Tunnel.smallWindows Tunnel.smallWindows).init sentRun).any
      (fun t => t.up.received = [104] ∧ t.connects = [.tcp "web:80"]) = true := by decide +kernel
  obtain ⟨t, hexec, hreceived⟩ := (Option.any_eq_true _ _).mp hrun
  exact ⟨t, hexec, of_decide_eq_true hreceived,
    localForward_transparent (by decide) (Machine.reach_of_exec .init hexec)⟩

/-- **Local forwarding settles.** From any state in which nothing has failed, what goes on by itself
is bounded, and where nothing does, everything has been delivered, unless the target has not
answered or cannot be connected to. -/
theorem localForward_settles (hconnect : v.connect.Fits) (ht : (v.tunnel peer up down).Reachable t)
    (hhealthy : t.Healthy) {as : List Tunnel.Action} (has : ∀ a ∈ as, a.Automatic)
    (hexec : (v.tunnel peer up down).exec t as = some t') :
    as.length ≤ t.backlog (.connect v.connect.target) ∧
      (t'.Idle → t'.Settled (.connect v.connect.target)) :=
  (Tunnel.inv (tunnel_accepts hconnect peer) ht).settles
    (tunnel_accepts hconnect peer) nofun hhealthy
    has hexec

/-- A run from the answered channel to where nothing goes on by itself: everything has been
delivered. -/
theorem sentRun_settles :
    ∃ t t', (webRule.tunnel loopbackPeer Tunnel.smallWindows Tunnel.smallWindows).exec
        (webRule.tunnel loopbackPeer Tunnel.smallWindows Tunnel.smallWindows).init
          (Tunnel.answeredRun 30) = some t ∧
      (webRule.tunnel loopbackPeer Tunnel.smallWindows Tunnel.smallWindows).exec t
        Tunnel.restRun = some t' ∧
      t'.Used = true ∧ Tunnel.restRun.length ≤ t.backlog (.connect (.tcp "web:80")) ∧ t'.Idle ∧
      t'.Settled (.connect (.tcp "web:80")) := by
  have hrun : ((webRule.tunnel loopbackPeer Tunnel.smallWindows Tunnel.smallWindows).exec
      (webRule.tunnel loopbackPeer Tunnel.smallWindows Tunnel.smallWindows).init
        (Tunnel.answeredRun 30)).any (fun t =>
        t.inOrder && ((webRule.tunnel loopbackPeer Tunnel.smallWindows Tunnel.smallWindows).exec t
          Tunnel.restRun).any
          Tunnel.Used) = true := by decide +kernel
  obtain ⟨t, hexec, htest⟩ := (Option.any_eq_true _ _).mp hrun
  obtain ⟨horder, hrest⟩ := Bool.and_eq_true_iff.mp htest
  obtain ⟨t', hexec', hused⟩ := (Option.any_eq_true _ _).mp hrest
  obtain ⟨hlength, hsettled⟩ := localForward_settles (v := webRule) (by decide)
    (Machine.reach_of_exec .init hexec) (Tunnel.healthy_of_inOrder horder)
    (by simp [Tunnel.restRun, Tunnel.Action.Automatic]) hexec'
  have hidle := Tunnel.idle_of_used hused
  exact ⟨t, t', hexec, hexec', hused, hlength, hidle, hsettled hidle⟩

end Dssh
