import Dssh.Forward.Payload
import Mathlib.Data.List.Sort

/-!
# Binding the listeners of a remote forward

One `tcpip-forward` request may be answered with several sockets, one for each address its host
stands for, all on the same port. The port is settled by the first of them: when the request
asks for port 0, the operating system chooses, and the others are bound to what it has chosen. A
socket after the first that cannot be bound is left out.

What the operating system answers is `Os`: the addresses a name resolves to, and which binds
succeed.

## Three kinds of hosts

A wildcard and `localhost` mean both address families, an address means itself, and everything
else is resolved. `canonicalizeRemoteBindHost` makes one name of the two spellings of the
wildcard, and client and server use it wherever a host is compared. The list of candidates
starts with the IPv6 address in either case: by the order it is written in, or because the
resolved addresses are sorted that way. The sort is stable and looks at the family alone, and
duplicates are only removed where they are neighbours, which is what `destutter` does.

## The first candidate decides

If it cannot be bound, `bind_tcp_forward_group` returns the error at once, and no other
candidate is tried. On a machine without IPv6, `localhost` therefore has no listener, although
its IPv4 address could be bound (`ipv4Only_not_bound`). This is an explicit arm of the match and
not a slip: "some of the addresses" is acceptable once there is a port to share, and before that
a failure is reported.

`bindTcpForwardGroup_bound` says exactly which sockets there are. It needs `Os.TellsPorts`: a
bound socket has a port, which is the one it was bound to unless that was 0. Without it, a
listener "on port 0" would be possible.

## What is left out

Sockets are named by the address they were bound to, and the options that `bind_tcp_socket` sets
(`SO_REUSEADDR`, `IPV6_V6ONLY`) are in what `Os` answers. The latter is the reason why both
families can have the same port. That a socket is closed when its group fails is the drop of a
local variable, and is not a step here.

## Main definitions

* `Os` — what the operating system answers
* `resolveBindCandidates`, `bindTcpForwardGroup` — the source's functions
* `bindAttempts` — the addresses that are tried

## Main results

* `bindTcpForwardGroup_ok` — a group is advertised under the host it was bound for, and has a
  listener
* `bindTcpForwardGroup_bound` — a group is bound exactly if its first candidate can be, and then
  has all of the candidates that can, on the port of the first
* `ipv4Only_not_bound` — a candidate behind one that cannot be bound is not tried
-/

namespace Dssh

/-! ## Hosts and addresses

The two names under which hosts are canonical are constants of the source. Addresses that depend
on the resolver come from a parameter, and only the ones of `localhost` and the wildcard are
written out. -/

/-- The wildcard, as it is sent. -/
def canonicalRemoteWildcardHost : String := ""

/-- The loopback host, as it is sent. -/
def canonicalRemoteLoopbackHost : String := "localhost"

/-- The name under which client and server know a host. -/
def canonicalizeRemoteBindHost (host : String) : String :=
  if host = "" ∨ host = "*" then canonicalRemoteWildcardHost
  else if host = "localhost" then canonicalRemoteLoopbackHost
  else host

/-- A socket address. -/
inductive SocketAddr where
  | v4 (ip : BitVec 32) (port : UInt16)
  | v6 (ip : BitVec 128) (port : UInt16) (flowinfo scopeId : UInt32)
  deriving DecidableEq

namespace SocketAddr

/-- The address with another port. -/
def setPort (port : UInt16) : SocketAddr → SocketAddr
  | v4 ip _ => v4 ip port
  | v6 ip _ flowinfo scopeId => v6 ip port flowinfo scopeId

/-- IPv6 addresses come first. -/
def sortKey : SocketAddr → ℕ
  | v6 .. => 0
  | v4 .. => 1

/-- The port of an address. -/
def port : SocketAddr → UInt16
  | v4 _ port => port
  | v6 _ port _ _ => port

/-- The port is the one that was set. -/
@[simp] theorem port_setPort (a : SocketAddr) (port : UInt16) : (a.setPort port).port = port := by
  cases a <;> rfl

/-- `127.0.0.1`, on no port yet. -/
def ipv4Localhost : SocketAddr := v4 0x7f000001 0

/-- `0.0.0.0`, on no port yet. -/
def ipv4Unspecified : SocketAddr := v4 0 0

/-- `::1`, on no port yet. -/
def ipv6Localhost : SocketAddr := v6 1 0 0 0

/-- `::`, on no port yet. -/
def ipv6Unspecified : SocketAddr := v6 0 0 0 0

end SocketAddr

/-! ## The group

The operating system is two functions: the addresses of a name, and what becomes of a bind. The
loop over the candidates has the listeners and the port as its accumulator; the port is settled
by the first bind that succeeds. -/

/-- What binding and listening on a TCP socket leads to. -/
inductive TcpBind where
  /-- No socket: creating, binding or listening has failed. -/
  | failed
  /-- Listening; `local_addr` says on which port, or fails. -/
  | bound (localPort : Option UInt16)
  deriving DecidableEq

/-- What the operating system answers. -/
structure Os where
  /-- `tokio::net::lookup_host`, or its failure. -/
  lookupHost : String → Option (List SocketAddr)
  /-- `bind_tcp_socket` -/
  bindTcpSocket : SocketAddr → TcpBind
  /-- `UnixListener::bind` -/
  bindUnixSocket : String → Bool

/-- The errors of `accept_tcp_forward`. -/
inductive AcceptTcpForwardError where
  | portOverflow
  | resolveBindAddress (host : String)
  | tcpBind
  | localAddr
  | respond
  deriving DecidableEq, Repr

/-- The errors of `accept_unix_forward`. -/
inductive AcceptUnixForwardError where
  | unixBind
  | respond
  deriving DecidableEq, Repr

/-- The hosts whose addresses are known without asking: both families for `localhost` and the
wildcard. -/
def bindCandidates (host : String) : List SocketAddr :=
  if host = "localhost" then [.ipv6Localhost, .ipv4Localhost]
  else if host = "" then [.ipv6Unspecified, .ipv4Unspecified]
  else if host = "0.0.0.0" then [.ipv4Unspecified]
  else if host = "::" then [.ipv6Unspecified]
  else if host = "127.0.0.1" then [.ipv4Localhost]
  else if host = "::1" then [.ipv6Localhost]
  else []

/-- The addresses of a host, IPv6 first, without repetitions of neighbours. -/
def resolveBindCandidates (os : Os) (host : String) :
    Except AcceptTcpForwardError (List SocketAddr) :=
  let semantic := bindCandidates host
  if semantic.isEmpty then
    match os.lookupHost host with
    | some addrs =>
      .ok ((addrs.insertionSort fun a b => a.sortKey ≤ b.sortKey).destutter (· ≠ ·))
    | none => .error (.resolveBindAddress host)
  else .ok semantic

/-- Bound TCP sockets; a socket is given by the address it was bound to. -/
structure TcpForwardListener where
  /-- The canonical host, as the request had it. -/
  advertisedHost : String
  /-- The port of all sockets of the group. -/
  boundPort : UInt16
  /-- At least one, in the order of the candidates. -/
  listeners : List SocketAddr
  deriving DecidableEq

/-- The loop of `bind_tcp_forward_group`, with the listeners and the logical port so far. -/
def bindEach (os : Os) (bindPort : UInt16) :
    List SocketAddr → List SocketAddr → Option UInt16 →
      Except AcceptTcpForwardError (List SocketAddr × Option UInt16)
  | [], listeners, logicalPort => .ok (listeners, logicalPort)
  | candidate :: candidates, listeners, logicalPort =>
    let addr := candidate.setPort (logicalPort.getD bindPort)
    match os.bindTcpSocket addr with
    | .bound localPort =>
      match logicalPort, localPort with
      | some port, _ => bindEach os bindPort candidates (listeners ++ [addr]) (some port)
      | none, some port => bindEach os bindPort candidates (listeners ++ [addr]) (some port)
      | none, none => .error .localAddr
    | .failed =>
      match logicalPort with
      | some port => bindEach os bindPort candidates listeners (some port)
      | none => .error .tcpBind

/-- All candidates that can be bound, on the port of the first; without a first there is no group.
-/
def bindTcpForwardGroup (os : Os) (host : String) (bindPort : UInt16) :
    Except AcceptTcpForwardError TcpForwardListener := do
  let candidates ← resolveBindCandidates os host
  match ← bindEach os bindPort candidates [] none with
  | (listeners, some port) => .ok ⟨host, port, listeners⟩
  | (_, none) => .error .tcpBind

variable {os : Os} {bindPort : UInt16}

/-- The loop keeps the listeners it has, and has one when it has a port. -/
theorem bindEach_ok {candidates listeners listeners' : List SocketAddr}
    {logicalPort logicalPort' : Option UInt16}
    (h : bindEach os bindPort candidates listeners logicalPort = .ok (listeners', logicalPort'))
    (hport : logicalPort.isSome → listeners ≠ []) : logicalPort'.isSome → listeners' ≠ [] := by
  induction candidates generalizing listeners logicalPort with
  | nil =>
    obtain ⟨rfl, rfl⟩ := Prod.mk.inj (Except.ok.inj h)
    exact hport
  | cons candidate candidates ih =>
    cases hbind : os.bindTcpSocket (candidate.setPort (logicalPort.getD bindPort)) with
    | bound localPort =>
      simp only [bindEach, hbind] at h
      split at h
      · exact ih h fun _ => List.concat_ne_nil _ _
      · exact ih h fun _ => List.concat_ne_nil _ _
      · cases h
    | failed =>
      simp only [bindEach, hbind] at h
      split at h
      · exact ih h hport
      · cases h

/-- **A bound group.** -/
theorem bindTcpForwardGroup_ok {host : String} {listener : TcpForwardListener}
    (h : bindTcpForwardGroup os host bindPort = .ok listener) :
    listener.advertisedHost = host ∧ listener.listeners ≠ [] := by
  rw [bindTcpForwardGroup] at h
  cases hresolve : resolveBindCandidates os host with
  | error e => rw [hresolve] at h; cases h
  | ok candidates =>
    rw [hresolve] at h
    change (bindEach os bindPort candidates [] none).bind _ = _ at h
    cases hbind : bindEach os bindPort candidates [] none with
    | error e => rw [hbind] at h; cases h
    | ok p =>
      obtain ⟨listeners, logicalPort⟩ := p
      rw [hbind] at h
      cases logicalPort with
      | none => cases h
      | some port =>
        obtain rfl := Except.ok.inj h
        exact ⟨rfl, bindEach_ok hbind nofun rfl⟩

/-! ## Which candidates are bound

A failure before the port is settled ends the loop with an error, and one behind it is passed
over. So the first candidate decides whether there is a group, and for each of the others the
outcome of its own bind decides whether it belongs to it. -/

/-- The socket can be bound. -/
def Os.canBind (os : Os) (addr : SocketAddr) : Bool := os.bindTcpSocket addr ≠ .failed

/-- The addresses that the loop of `bind_tcp_forward_group` tries, in order. -/
def bindAttempts (os : Os) (bindPort : UInt16) : List SocketAddr → Option UInt16 → List SocketAddr
  | [], _ => []
  | candidate :: candidates, logicalPort =>
    let addr := candidate.setPort (logicalPort.getD bindPort)
    addr :: match os.bindTcpSocket addr, logicalPort with
      | _, some port => bindAttempts os bindPort candidates (some port)
      | .bound (some port), none => bindAttempts os bindPort candidates (some port)
      | .bound none, none => []
      | .failed, none => []

/-- A socket that is bound has a port, which is the one it was bound to unless that was 0. -/
def Os.TellsPorts (os : Os) : Prop :=
  ∀ addr localPort, os.bindTcpSocket addr = .bound localPort →
    ∃ port, localPort = some port ∧ port ≠ 0 ∧ (addr.port ≠ 0 → port = addr.port)

/-- A bind that succeeds. -/
theorem Os.canBind_of_bound {addr : SocketAddr} {localPort : Option UInt16}
    (h : os.bindTcpSocket addr = .bound localPort) : os.canBind addr = true := by
  simp [Os.canBind, h]

/-- A bind that fails. -/
theorem Os.canBind_of_failed {addr : SocketAddr} (h : os.bindTcpSocket addr = .failed) :
    os.canBind addr = false := by
  simp [Os.canBind, h]

/-- On a settled port, a socket that can be bound has that port. -/
theorem Os.TellsPorts.bindTcpSocket_eq (hos : os.TellsPorts)
    {candidate : SocketAddr} {port : UInt16}
    (hport : port ≠ 0) (hcan : os.canBind (candidate.setPort port) = true) :
    os.bindTcpSocket (candidate.setPort port) = .bound (some port) := by
  cases hbind : os.bindTcpSocket (candidate.setPort port) with
  | failed => exact absurd (hcan.symm.trans (Os.canBind_of_failed hbind)) (by decide)
  | bound localPort =>
    obtain ⟨port', rfl, -, hlocal⟩ := hos _ _ hbind
    rw [SocketAddr.port_setPort] at hlocal
    rw [hlocal hport]

/-- Once the port is settled, every other candidate is tried on it. -/
theorem bindEach_some (candidates listeners : List SocketAddr) (port : UInt16) :
    bindEach os bindPort candidates listeners (some port) =
      .ok (listeners ++ (candidates.map (·.setPort port)).filter os.canBind, some port) := by
  induction candidates generalizing listeners with
  | nil => rw [bindEach, List.map_nil, List.filter_nil, List.append_nil]
  | cons candidate candidates ih =>
    rw [List.map_cons, List.filter_cons]
    cases hbind : os.bindTcpSocket (candidate.setPort port) with
    | bound localPort =>
      have hcan : os.canBind (candidate.setPort port) = true := Os.canBind_of_bound hbind
      simp only [bindEach, Option.getD_some, hbind, ih, hcan, if_true, List.append_assoc,
        List.singleton_append]
    | failed =>
      have hcan : os.canBind (candidate.setPort port) = false := Os.canBind_of_failed hbind
      simp only [bindEach, Option.getD_some, hbind, ih, hcan, Bool.false_eq_true, if_false]

/-- On a settled port, every candidate is tried on it. -/
theorem bindAttempts_some (candidates : List SocketAddr) (port : UInt16) :
    bindAttempts os bindPort candidates (some port) = candidates.map (·.setPort port) := by
  induction candidates with
  | nil => rfl
  | cons candidate candidates ih => simp only [bindAttempts, Option.getD_some, ih, List.map_cons]

/-- The first candidate is bound. -/
theorem bindTcpForwardGroup_of_bound {host : String} {candidate : SocketAddr}
    {candidates : List SocketAddr} {port : UInt16}
    (hcandidates : resolveBindCandidates os host = .ok (candidate :: candidates))
    (hbind : os.bindTcpSocket (candidate.setPort bindPort) = .bound (some port)) :
    bindTcpForwardGroup os host bindPort = .ok ⟨host, port, candidate.setPort bindPort ::
        (candidates.map (·.setPort port)).filter os.canBind⟩ ∧
      bindAttempts os bindPort (candidate :: candidates) none =
        candidate.setPort bindPort :: candidates.map (·.setPort port) := by
  constructor
  · rw [bindTcpForwardGroup, hcandidates]
    change (bindEach os bindPort (candidate :: candidates) [] none).bind _ = _
    simp only [bindEach, Option.getD_none, hbind, bindEach_some, List.nil_append,
      List.singleton_append]
    rfl
  · simp only [bindAttempts, Option.getD_none, hbind, bindAttempts_some]

/-- The first candidate is not bound, and no other is tried. -/
theorem bindTcpForwardGroup_of_failed {host : String} {candidate : SocketAddr}
    {candidates : List SocketAddr}
    (hcandidates : resolveBindCandidates os host = .ok (candidate :: candidates))
    (hbind : os.bindTcpSocket (candidate.setPort bindPort) = .failed) :
    bindTcpForwardGroup os host bindPort = .error .tcpBind ∧
      bindAttempts os bindPort (candidate :: candidates) none = [candidate.setPort bindPort] := by
  constructor
  · rw [bindTcpForwardGroup, hcandidates]
    change (bindEach os bindPort (candidate :: candidates) [] none).bind _ = _
    simp only [bindEach, Option.getD_none, hbind]
    rfl
  · simp only [bindAttempts, Option.getD_none, hbind]

/-- A name without addresses has no group. -/
theorem bindTcpForwardGroup_nil {host : String} (h : resolveBindCandidates os host = .ok []) :
    bindTcpForwardGroup os host bindPort = .error .tcpBind := by
  rw [bindTcpForwardGroup, h]
  rfl

/-- **The group.** It is bound exactly if there is a first candidate and it can be bound. Its
listeners are then all candidates that can, the others on the port that the first has got; and
otherwise nothing has been bound. -/
theorem bindTcpForwardGroup_bound {host : String} {candidates : List SocketAddr}
    (hos : os.TellsPorts) (hcandidates : resolveBindCandidates os host = .ok candidates) :
    ((∃ l, bindTcpForwardGroup os host bindPort = .ok l) ↔
      ∃ candidate, candidates.head? = some candidate ∧
        os.canBind (candidate.setPort bindPort) = true) ∧
    (∀ l, bindTcpForwardGroup os host bindPort = .ok l →
      l.listeners = (bindAttempts os bindPort candidates none).filter os.canBind ∧
      bindAttempts os bindPort candidates none =
        (candidates.take 1).map (·.setPort bindPort) ++
          (candidates.drop 1).map (·.setPort l.boundPort) ∧
      (∀ addr ∈ l.listeners, os.bindTcpSocket addr = .bound (some l.boundPort)) ∧
      (bindPort ≠ 0 → l.boundPort = bindPort)) ∧
    ∀ e, bindTcpForwardGroup os host bindPort = .error e →
      ∀ addr ∈ bindAttempts os bindPort candidates none, os.canBind addr = false := by
  cases candidates with
  | nil =>
    rw [bindTcpForwardGroup_nil hcandidates]
    refine ⟨iff_of_false ?_ ?_, ?_, ?_⟩
    · rintro ⟨l, hl⟩
      cases hl
    · rintro ⟨candidate, hcandidate, -⟩
      cases hcandidate
    · intro l hl
      cases hl
    · intro e _ addr haddr
      cases haddr
  | cons candidate candidates =>
    cases hbind : os.bindTcpSocket (candidate.setPort bindPort) with
    | failed =>
      obtain ⟨herror, hattempts⟩ := bindTcpForwardGroup_of_failed hcandidates hbind
      have hcan : os.canBind (candidate.setPort bindPort) = false := Os.canBind_of_failed hbind
      rw [herror, hattempts]
      refine ⟨iff_of_false ?_ ?_, ?_, ?_⟩
      · rintro ⟨l, hl⟩
        cases hl
      · rintro ⟨_, hhead, hcan'⟩
        obtain rfl := Option.some.inj hhead
        exact Bool.false_ne_true (hcan.symm.trans hcan')
      · intro l hl
        cases hl
      · intro e _
        exact List.forall_mem_singleton.mpr hcan
    | bound localPort =>
      obtain ⟨port, rfl, hport, hlocal⟩ := hos _ _ hbind
      obtain ⟨hok, hattempts⟩ := bindTcpForwardGroup_of_bound hcandidates hbind
      have hcan : os.canBind (candidate.setPort bindPort) = true := Os.canBind_of_bound hbind
      rw [hok, hattempts]
      refine ⟨iff_of_true ⟨_, rfl⟩ ⟨candidate, rfl, hcan⟩, ?_, ?_⟩
      · intro l hl
        obtain rfl := Except.ok.inj hl
        refine ⟨?_, rfl, ?_, fun hne => ?_⟩
        · rw [List.filter_cons, if_pos hcan]
        · refine List.forall_mem_cons.mpr ⟨hbind, fun addr haddr => ?_⟩
          obtain ⟨hmem, hcan'⟩ := List.mem_filter.mp haddr
          obtain ⟨other, -, rfl⟩ := List.mem_map.mp hmem
          exact hos.bindTcpSocket_eq hport hcan'
        · rw [SocketAddr.port_setPort] at hlocal
          exact hlocal hne
      · intro e he
        cases he

/-- A system on which the IPv4 loopback address has no port left. -/
def noLoopbackPort : Os where
  lookupHost _ := some [.v4 0x7f000001 0, .v4 0x0a000001 0, .v6 5 0 0 0]
  bindTcpSocket addr :=
    if addr.setPort 0 = .ipv4Localhost then .failed
    else .bound (some (if addr.port = 0 then 40000 else addr.port))
  bindUnixSocket _ := true

/-- It tells the port it has bound. -/
theorem tellsPorts_noLoopbackPort : noLoopbackPort.TellsPorts := by
  intro addr localPort h
  dsimp only [noLoopbackPort] at h
  split_ifs at h with hloopback hport
  · obtain rfl := TcpBind.bound.inj h
    exact ⟨40000, rfl, by decide, fun hne => absurd hport hne⟩
  · obtain rfl := TcpBind.bound.inj h
    exact ⟨addr.port, rfl, hport, fun _ => rfl⟩

/-- On port 0, `localhost` has its first address and not its second one. A name with three addresses
has the first, on the port that the system chooses, not the second, and on this port the third. -/
theorem noLoopbackPort_bound :
    (∃ l, bindTcpForwardGroup noLoopbackPort "localhost" 0 = .ok l ∧ l.boundPort = 40000 ∧
      bindAttempts noLoopbackPort 0 [.ipv6Localhost, .ipv4Localhost] none =
        [.ipv6Localhost, SocketAddr.ipv4Localhost.setPort l.boundPort] ∧
      l.listeners = [.ipv6Localhost]) ∧
    ∃ l, bindTcpForwardGroup noLoopbackPort "gateway" 0 = .ok l ∧
      l.listeners = [.v6 5 0 0 0, .v4 0x0a000001 40000] ∧
      ∀ addr ∈ l.listeners, noLoopbackPort.bindTcpSocket addr = .bound (some l.boundPort) := by
  constructor
  · obtain ⟨hiff, hok, -⟩ := @bindTcpForwardGroup_bound noLoopbackPort 0 "localhost" _
      tellsPorts_noLoopbackPort rfl
    obtain ⟨l, hl⟩ := hiff.mpr ⟨.ipv6Localhost, rfl, rfl⟩
    obtain ⟨hlisteners, hattempts, -, -⟩ := hok l hl
    obtain rfl : TcpForwardListener.mk "localhost" 40000 [.ipv6Localhost] = l :=
      Except.ok.inj (Eq.trans (by decide) hl)
    exact ⟨_, hl, rfl, hattempts, hlisteners⟩
  · obtain ⟨hiff, hok, -⟩ := @bindTcpForwardGroup_bound noLoopbackPort 0 "gateway"
      [.v6 5 0 0 0, .v4 0x7f000001 0, .v4 0x0a000001 0] tellsPorts_noLoopbackPort (by decide)
    obtain ⟨l, hl⟩ := hiff.mpr ⟨.v6 5 0 0 0, rfl, rfl⟩
    obtain ⟨-, -, hports, -⟩ := hok l hl
    obtain rfl : TcpForwardListener.mk "gateway" 40000 [.v6 5 0 0 0, .v4 0x0a000001 40000] = l :=
      Except.ok.inj (Eq.trans (by decide) hl)
    exact ⟨_, hl, rfl, hports⟩

/-- A system without IPv6. -/
def ipv4Only : Os where
  lookupHost _ := none
  bindTcpSocket addr :=
    match addr with
    | .v4 _ port => .bound (some (if port = 0 then 40000 else port))
    | .v6 .. => .failed
  bindUnixSocket _ := true

/-- **The first candidate decides.** The IPv4 address of `localhost` could be bound, but the group
is not. -/
theorem ipv4Only_not_bound :
    resolveBindCandidates ipv4Only "localhost" = .ok [.ipv6Localhost, .ipv4Localhost] ∧
      ipv4Only.canBind (SocketAddr.ipv4Localhost.setPort 8080) = true ∧
      bindTcpForwardGroup ipv4Only "localhost" 8080 = .error .tcpBind := by
  decide

end Dssh
