import Dssh.Forward.Bind
import Dssh.Forward.Spec
import Dssh.Lib.Decoder

/-!
# The SOCKS5 handler

A `socks5` channel is a proxy connection. `handle_socks5` reads a greeting and answers it, reads
a request, connects, answers again, and from there on relays. A reader never takes a byte that
it does not need, so a phase is a decoder and the handler is one step for each byte: how the
stream is split into reads cannot matter.

The address is sent as four or sixteen bytes or as a domain name, and the connection is made to
a text, `host:port`. What connecting to such a text tries is for the system to say.

## Phases

The source awaits one field after the other, with `read_u8` and `read_exact`. Between two awaits
it may be suspended for as long as the client likes, with a part of a field in a buffer. The
state at such a point is the decoder that is left. `Socks5.step` gives it the next byte and
`settle` does what the source does when a decoder has ended: it answers, connects, or returns.
There is no other place at which anything happens, except at the end of the stream, where a read
fails.

What is written has to be looked at as a whole, because a reply consists of several fields that
are written at once: `WholeReplies` says that it is nothing, the answer to the greeting, or this
and one reply. Writing fails for reasons outside, and is taken to succeed here.

## All that can have come of some bytes

`Handled` lists the states in which the handler can be, each with what the bytes then look like.
That the list is complete (`handled_foldl`) is the main lemma. The result is read off it: a
connection is only made in states whose bytes begin with a greeting and a request.

One case is a request for something else than a connection. Its address is read to the end, and
answered with the code for an unsupported command. Another is the address type that is not
known, which ends the handler without an answer: there is no telling how long the address is.

## From bytes to a text

The domain name is text already. The addresses are formatted by the standard library, and
`ipv4Text` and `ipv6Text` are its `Display`, for IPv6 with the longest run of zeros left out.
The handler then appends a colon and the port. For IPv6 this is not the notation for socket
addresses, which has brackets, so the system splits the text at its last colon. That it does is
the hypothesis of `Socks5.handled` about `target`, and `rsplitPort` is an instance of it.

## Main definitions

* `Socks5.greeting`, `Socks5.request`, `Socks5.reply` — the messages
* `Socks5`, `Socks5.step`, `handleSocks5` — the handler
* `Socks5.Asks` — a request for a connection, behind a greeting
* `Socks5.Handled` — all that can have come of some bytes

## Main results

* `Socks5.handled_foldl` — all that the handler can have done after some bytes
* `Socks5.handled` — it connects exactly if the bytes begin with a greeting that offers no
  authentication and a request for a connection, to the host and the port of the request, and
  behind them it relays
-/

namespace Dssh

namespace Socks5

def socks5Version : UInt8 := 0x05

def methodNoAuth : UInt8 := 0x00

def methodNoAcceptable : UInt8 := 0xFF

def cmdConnect : UInt8 := 0x01

def atypIpv4 : UInt8 := 0x01

def atypDomain : UInt8 := 0x03

def atypIpv6 : UInt8 := 0x04

def repSucceeded : UInt8 := 0x00

def repConnectionRefused : UInt8 := 0x05

def repCommandNotSupported : UInt8 := 0x07

/-- `Socks5Error`; the relay is not modelled. -/
inductive Error where
  /-- A read fails; the stream has ended, for instance. -/
  | io
  | unsupportedVersion (version : UInt8)
  | unsupportedAddressType (atyp : UInt8)
  | invalidDomain
  deriving DecidableEq, Repr

/-! ## Texts of addresses

The standard library's `Display` for addresses, which the handler uses to make the text that it
connects to. -/

/-- The text of an IPv4 address, given by its octets. -/
def ipv4Text (octets : List UInt8) : String :=
  String.intercalate "." (octets.map fun b => toString b.toNat)

/-- `{:x}` -/
def hex (segment : ℕ) : String := String.ofList (Nat.toDigits 16 segment)

/-- Two octets are a segment. -/
def segments : List UInt8 → List ℕ
  | hi :: lo :: octets => (hi.toNat * 256 + lo.toNat) :: segments octets
  | _ => []

/-- Where the longest run of zeros starts and how long it is, the first of them if there are
several. `current` is the run that ends before the segment `i`. -/
def zeroesFrom (i : ℕ) (current longest : ℕ × ℕ) : List ℕ → ℕ × ℕ
  | [] => longest
  | segment :: segments =>
    if segment = 0 then
      let start := if current.2 = 0 then i else current.1
      let current := (start, current.2 + 1)
      zeroesFrom (i + 1) current (if longest.2 < current.2 then current else longest) segments
    else zeroesFrom (i + 1) (0, 0) longest segments

/-- The run of zeros that is left out. -/
def zeroes (segments : List ℕ) : ℕ × ℕ := zeroesFrom 0 (0, 0) (0, 0) segments

/-- Segments in hexadecimal, with colons in between. -/
def segmentsText (segments : List ℕ) : String := String.intercalate ":" (segments.map hex)

/-- The text of an IPv6 address: an IPv4-mapped one ends in an IPv4 address, and two or more zero
segments are left out. -/
def ipv6Text (octets : List UInt8) : String :=
  if octets.take 12 = List.replicate 10 0 ++ [0xFF, 0xFF] then
    "::ffff:" ++ ipv4Text (octets.drop 12)
  else
    let segments := segments octets
    let (start, len) := zeroes segments
    if 1 < len then
      segmentsText (segments.take start) ++ "::" ++ segmentsText (segments.drop (start + len))
    else segmentsText segments

example : ipv6Text [0x20, 0x01, 0x0d, 0xb8, 0, 0, 0, 0, 0, 1, 0, 0, 0, 0, 0, 1] =
    "2001:db8::1:0:0:1" := by decide

/-! ## The decoders

The handler reads field by field. A wrong version or an unknown type of address ends the reading;
a wrong command does not, and is answered only when the request has been read to its end. -/

/-- The methods that a client offers. -/
def greeting : Decoder Error (List UInt8) := do
  let ver ← Decoder.byte .io
  if ver ≠ socks5Version then .fail (.unsupportedVersion ver)
  else
    let nmethods ← Decoder.byte .io
    Decoder.bytes .io nmethods.toNat

/-- A decoded request. -/
structure Request where
  cmd : UInt8
  atyp : UInt8
  /-- As text, for `TcpStream::connect`, … -/
  destAddr : String
  /-- … and as it was sent, for the replies. -/
  destAtypBytes : List UInt8
  destPort : UInt16
  deriving DecidableEq

/-- The destination of a request, and its bytes. -/
def destination (atyp : UInt8) : Decoder Error (String × List UInt8) :=
  if atyp = atypIpv4 then do
    let buf ← Decoder.bytes .io 4
    pure (ipv4Text buf, buf)
  else if atyp = atypDomain then do
    let len ← Decoder.byte .io
    let buf ← Decoder.bytes .io len.toNat
    match String.fromUTF8? ⟨buf.toArray⟩ with
    | some domain => pure (domain, len :: buf)
    | none => .fail .invalidDomain
  else if atyp = atypIpv6 then do
    let buf ← Decoder.bytes .io 16
    pure (ipv6Text buf, buf)
  else .fail (.unsupportedAddressType atyp)

/-- `read_u16` -/
def readU16 : Decoder Error UInt16 := do
  let hi ← Decoder.byte .io
  let lo ← Decoder.byte .io
  pure (.ofNat (hi.toNat * 256 + lo.toNat))

/-- A request, up to its port. What is wrong with its command is found out behind that. -/
def request : Decoder Error Request := do
  let ver ← Decoder.byte .io
  if ver ≠ socks5Version then .fail (.unsupportedVersion ver)
  else
    let cmd ← Decoder.byte .io
    let _rsv ← Decoder.byte .io
    let atyp ← Decoder.byte .io
    let (destAddr, destAtypBytes) ← destination atyp
    let destPort ← readU16
    pure ⟨cmd, atyp, destAddr, destAtypBytes, destPort⟩

/-! ## The replies

The two functions that write a reply: one echoes the address of the request, and the other one
sends the local address of the connection. -/

/-- `to_be_bytes` -/
def portBytes (port : UInt16) : List UInt8 := [.ofNat (port.toNat / 256), .ofNat (port.toNat % 256)]

/-- The octets of an address of `n` octets. -/
def octetsOf (n : ℕ) (ip : ℕ) : List UInt8 :=
  (List.range n).map fun i => .ofNat (ip / 256 ^ (n - 1 - i) % 256)

/-- `send_reply` -/
def reply (rep atyp : UInt8) (addrBytes : List UInt8) (port : UInt16) : List UInt8 :=
  [socks5Version, rep, 0x00, atyp] ++ addrBytes ++ portBytes port

/-- `send_reply_with_bound_addr` -/
def replyWithBoundAddr (rep : UInt8) : SocketAddr → List UInt8
  | .v4 ip port => [socks5Version, rep, 0x00, atypIpv4] ++ octetsOf 4 ip.toNat ++ portBytes port
  | .v6 ip port _ _ =>
    [socks5Version, rep, 0x00, atypIpv6] ++ octetsOf 16 ip.toNat ++ portBytes port

end Socks5

/-! ## The handler

It reads a greeting and then a request, and behind that it relays. Bytes come one at a time; what
has been written and which connections have been attempted is part of its state. -/

namespace Socks5

/-- Where `handle_socks5` is. -/
inductive Phase where
  | greeting (d : Decoder Error (List UInt8))
  | request (d : Decoder Error Request)
  /-- Connected; these bytes have been taken off the stream for the destination. -/
  | relaying (bytes : List UInt8)
  /-- It has returned. -/
  | returned (result : Except Error Unit)

/-- An attempt to connect, and what has been written to the client before. -/
structure Attempt where
  /-- The text that is connected to. -/
  addr : String
  /-- What the client has been told by then. -/
  before : List UInt8
  deriving DecidableEq

end Socks5

/-- `handle_socks5` in progress. -/
structure Socks5 where
  phase : Socks5.Phase := .greeting Socks5.greeting
  /-- What has been written to the client. -/
  written : List UInt8 := []
  /-- The calls of `TcpStream::connect`. -/
  connects : List Socks5.Attempt := []
  /-- The stream to the client has been shut down. -/
  shut : Bool := false

namespace Socks5

/-- `write_all` -/
def write (s : Socks5) (bytes : List UInt8) : Socks5 := { s with written := s.written ++ bytes }

/-- The greeting is answered. Without the one method that is known, the handler returns. -/
def onGreeting (s : Socks5) (methods : List UInt8) : Socks5 :=
  if methodNoAuth ∉ methods then
    { s.write [socks5Version, methodNoAcceptable] with
      phase := .returned (.ok ()), shut := true }
  else { s.write [socks5Version, methodNoAuth] with phase := .request request }

/-- The text that is connected to. -/
def Request.addr (rq : Request) : String := rq.destAddr ++ ":" ++ toString rq.destPort.toNat

/-- `connect` is what connecting to a text leads to: the local address of a stream, or an error. -/
def onRequest (connect : String → Option SocketAddr) (s : Socks5) (rq : Request) : Socks5 :=
  if rq.cmd ≠ cmdConnect then
    { s.write (reply repCommandNotSupported rq.atyp rq.destAtypBytes rq.destPort) with
      phase := .returned (.ok ()), shut := true }
  else
    let s := { s with connects := s.connects ++ [Attempt.mk rq.addr s.written] }
    match connect rq.addr with
    | none =>
      { s.write (reply repConnectionRefused rq.atyp rq.destAtypBytes rq.destPort) with
        phase := .returned (.ok ()), shut := true }
    | some localAddr =>
      { s.write (replyWithBoundAddr repSucceeded localAddr) with phase := .relaying [] }

variable (connect : String → Option SocketAddr)

/-- What follows when a decoder has ended. -/
def settle (s : Socks5) : Socks5 :=
  match s.phase with
  | .greeting (.done methods) => s.onGreeting methods
  | .greeting (.fail e) => { s with phase := .returned (.error e) }
  | .request (.done rq) => s.onRequest connect rq
  | .request (.fail e) => { s with phase := .returned (.error e) }
  | _ => s

/-- A byte is read, unless the handler has returned. -/
def step (s : Socks5) (b : UInt8) : Socks5 :=
  match s.phase with
  | .greeting (.read _ k) => settle connect { s with phase := .greeting (k b) }
  | .request (.read _ k) => settle connect { s with phase := .request (k b) }
  | .relaying bytes => { s with phase := .relaying (bytes ++ [b]) }
  | _ => s

/-- The stream has ended. -/
def ends (s : Socks5) : Socks5 :=
  match s.phase with
  | .greeting (.read e _) => { s with phase := .returned (.error e) }
  | .request (.read e _) => { s with phase := .returned (.error e) }
  | _ => s

/-- One read after the other. -/
def reads (s : Socks5) (chunks : List (List UInt8)) : Socks5 :=
  chunks.foldl (fun s chunk => chunk.foldl (step connect) s) s

/-- `handle_socks5` on what has come so far, in any reads; `eof` tells whether that was all. -/
def handleSocks5 (chunks : List (List UInt8)) (eof : Bool) : Socks5 :=
  let s := reads connect {} chunks
  if eof then s.ends else s

/-! ## What the handler has done

Reading byte by byte is decoding: the state after some bytes is what the decoders make of them.
So how the bytes come does not matter. -/

/-- **A decoding phase.** The bytes are those that the decoder takes and those that it leaves. -/
theorem foldl_decoding {α : Type} {mk : Decoder Error α → Phase}
    (hstep : ∀ (s : Socks5) e k b, step connect { s with phase := mk (.read e k) } b =
      settle connect { s with phase := mk (k b) })
    (hsettle : ∀ (s : Socks5) e k, settle connect { s with phase := mk (.read e k) } =
      { s with phase := mk (.read e k) })
    {d : Decoder Error α} (hd : ¬ d.Halted) (s : Socks5) (bs : List UInt8) :
    bs.foldl (step connect) { s with phase := mk d } =
      (d.feed bs).2.foldl (step connect) (settle connect { s with phase := mk (d.feed bs).1 }) := by
  induction bs generalizing d with
  | nil =>
    cases d with
    | read e k => exact (hsettle s e k).symm
    | done a => exact absurd trivial hd
    | fail e => exact absurd trivial hd
  | cons b bs ih =>
    cases d with
    | done a => exact absurd trivial hd
    | fail e => exact absurd trivial hd
    | read e k =>
      rw [List.foldl_cons, hstep, Decoder.feed]
      cases hk : k b with
      | read e' k' =>
        rw [hsettle]
        exact ih id
      | done a => cases bs <;> rfl
      | fail e' => cases bs <;> rfl

/-- Reading the greeting. -/
theorem foldl_greeting {d : Decoder Error (List UInt8)} (hd : ¬ d.Halted) (s : Socks5)
    (bs : List UInt8) :
    bs.foldl (step connect) { s with phase := .greeting d } =
      (d.feed bs).2.foldl (step connect)
        (settle connect { s with phase := .greeting (d.feed bs).1 }) :=
  foldl_decoding connect (fun _ _ _ _ => rfl) (fun _ _ _ => rfl) hd s bs

/-- Reading the request. -/
theorem foldl_request {d : Decoder Error Request} (hd : ¬ d.Halted) (s : Socks5)
    (bs : List UInt8) :
    bs.foldl (step connect) { s with phase := .request d } =
      (d.feed bs).2.foldl (step connect)
        (settle connect { s with phase := .request (d.feed bs).1 }) :=
  foldl_decoding connect (fun _ _ _ _ => rfl) (fun _ _ _ => rfl) hd s bs

/-- Everything behind the request is relayed. -/
theorem foldl_relaying (s : Socks5) (sent bs : List UInt8) :
    bs.foldl (step connect) { s with phase := .relaying sent } =
      { s with phase := .relaying (sent ++ bs) } := by
  induction bs generalizing sent with
  | nil => rw [List.foldl_nil, List.append_nil]
  | cons b bs ih =>
    rw [List.foldl_cons]
    exact (ih (sent ++ [b])).trans (by rw [List.append_assoc, List.singleton_append])

/-- What has returned reads no more. -/
theorem foldl_returned {s : Socks5} {result : Except Error Unit} (h : s.phase = .returned result)
    (bs : List UInt8) : bs.foldl (step connect) s = s := by
  have hstep : ∀ b, step connect s b = s := by
    intro b
    rw [step, h]
  induction bs with
  | nil => rfl
  | cons b bs ih => rw [List.foldl_cons, hstep, ih]

/-- The reads do not matter. -/
theorem reads_eq (s : Socks5) (chunks : List (List UInt8)) :
    reads connect s chunks = chunks.flatten.foldl (step connect) s := by
  rw [reads, List.foldl_flatten]

/-- A greeting has a byte. -/
theorem not_halted_greeting : ¬ greeting.Halted := id

/-- And so has a request. -/
theorem not_halted_request : ¬ request.Halted := id

/-! ## What a client may send

Greetings and requests from their fields, and the decoders in both directions: what they accept
is such a greeting or request, and nothing else. -/

/-- The destinations that a request can name. -/
inductive Address where
  | ipv4 (octets : List UInt8) (length_octets : octets.length = 4)
  | domain (name : String) (length_name : (SshString.utf8 name).length ≤ 255)
  | ipv6 (octets : List UInt8) (length_octets : octets.length = 16)

namespace Address

/-- The type of the address, as it is sent. -/
def atyp : Address → UInt8
  | ipv4 .. => atypIpv4
  | domain .. => atypDomain
  | ipv6 .. => atypIpv6

/-- The address field; a domain name stands behind its length. -/
def bytes : Address → List UInt8
  | ipv4 octets _ => octets
  | domain name _ => .ofNat (SshString.utf8 name).length :: SshString.utf8 name
  | ipv6 octets _ => octets

/-- The host. -/
def host : Address → String
  | ipv4 octets _ => ipv4Text octets
  | domain name _ => name
  | ipv6 octets _ => ipv6Text octets

end Address

/-- A greeting that offers these methods. -/
def socks5Greeting (methods : List UInt8) : List UInt8 :=
  socks5Version :: .ofNat methods.length :: methods

/-- A request, with any command and any reserved byte. -/
def socks5Request (cmd rsv : UInt8) (a : Address) (port : UInt16) : List UInt8 :=
  socks5Version :: cmd :: rsv :: a.atyp :: (a.bytes ++ portBytes port)

/-- The request with its fields decoded. -/
def Request.of (cmd : UInt8) (a : Address) (port : UInt16) : Request :=
  ⟨cmd, a.atyp, a.host, a.bytes, port⟩

/-- A length that fits into a byte is sent as it is. -/
theorem toNat_ofNat_length {xs : List UInt8} (h : xs.length ≤ 255) :
    (UInt8.ofNat xs.length).toNat = xs.length := by
  rw [UInt8.toNat_ofNat']
  omega

/-- The decoder takes greetings. -/
theorem greeting_accepts_iff {xs methods : List UInt8} :
    greeting.Accepts xs methods ↔ methods.length ≤ 255 ∧ xs = socks5Greeting methods := by
  simp only [greeting, Decoder.bind_eq, Decoder.accepts_byte_bind_iff]
  constructor
  · rintro ⟨ver, ys, rfl, h⟩
    split at h
    · exact absurd h Decoder.not_accepts_fail
    · rename_i hver
      obtain ⟨n, zs, rfl, h⟩ := Decoder.accepts_byte_bind_iff.mp h
      obtain ⟨rfl, hlength⟩ := Decoder.accepts_bytes_iff.mp h
      have hn := n.toNat_lt
      refine ⟨by omega, ?_⟩
      rw [socks5Greeting, hlength, UInt8.ofNat_toNat, not_not.mp hver]
  · rintro ⟨hlength, rfl⟩
    refine ⟨_, _, rfl, ?_⟩
    rw [if_neg (not_not.mpr rfl)]
    refine Decoder.accepts_byte_bind_iff.mpr ⟨_, _, rfl, Decoder.accepts_bytes_iff.mpr ⟨rfl, ?_⟩⟩
    exact (toNat_ofNat_length hlength).symm

/-- The decoder takes ports. -/
theorem readU16_accepts_iff {xs : List UInt8} {port : UInt16} :
    readU16.Accepts xs port ↔ xs = portBytes port := by
  simp only [readU16, Decoder.bind_eq, Decoder.pure_eq, Decoder.accepts_byte_bind_iff,
    Decoder.accepts_done_iff]
  constructor
  · rintro ⟨hi, -, rfl, lo, -, rfl, rfl, rfl⟩
    have hhi := hi.toNat_lt
    have hlo := lo.toNat_lt
    have hport : (UInt16.ofNat (hi.toNat * 256 + lo.toNat)).toNat = hi.toNat * 256 + lo.toNat := by
      rw [UInt16.toNat_ofNat']
      omega
    rw [portBytes, hport, show (hi.toNat * 256 + lo.toNat) / 256 = hi.toNat by omega,
      show (hi.toNat * 256 + lo.toNat) % 256 = lo.toNat by omega, UInt8.ofNat_toNat,
      UInt8.ofNat_toNat]
  · rintro rfl
    refine ⟨_, _, rfl, _, _, rfl, rfl, ?_⟩
    have hport := port.toNat_lt
    rw [UInt8.toNat_ofNat', UInt8.toNat_ofNat', Nat.mod_eq_of_lt (by omega), Nat.mod_mod,
      Nat.div_add_mod', UInt16.ofNat_toNat]

/-- The decoder takes addresses of the type. -/
theorem destination_accepts_iff {atyp : UInt8} {xs : List UInt8} {p : String × List UInt8} :
    (destination atyp).Accepts xs p ↔
      ∃ a : Address, a.atyp = atyp ∧ xs = a.bytes ∧ p = (a.host, a.bytes) := by
  constructor
  · intro h
    rw [destination] at h
    split_ifs at h with hipv4 hdomain hipv6
    · obtain ⟨us, vs, rfl, hlength, h⟩ := Decoder.accepts_bytes_bind_iff.mp h
      obtain ⟨rfl, rfl⟩ := Decoder.accepts_done_iff.mp h
      exact ⟨.ipv4 us hlength, hipv4.symm, List.append_nil us, rfl⟩
    · obtain ⟨len, zs, rfl, h⟩ := Decoder.accepts_byte_bind_iff.mp h
      obtain ⟨us, vs, rfl, hlength, h⟩ := Decoder.accepts_bytes_bind_iff.mp h
      split at h
      · rename_i name hname
        obtain ⟨rfl, rfl⟩ := Decoder.accepts_done_iff.mp h
        have hutf8 := SshString.utf8_of_fromUTF8? hname
        have hlen := len.toNat_lt
        refine ⟨.domain name (by rw [hutf8]; omega), hdomain.symm, ?_, ?_⟩
        · rw [Address.bytes, hutf8, hlength, UInt8.ofNat_toNat, List.append_nil]
        · rw [Address.bytes, Address.host, hutf8, hlength, UInt8.ofNat_toNat]
      · exact absurd h Decoder.not_accepts_fail
    · obtain ⟨us, vs, rfl, hlength, h⟩ := Decoder.accepts_bytes_bind_iff.mp h
      obtain ⟨rfl, rfl⟩ := Decoder.accepts_done_iff.mp h
      exact ⟨.ipv6 us hlength, hipv6.symm, List.append_nil us, rfl⟩
    · exact absurd h Decoder.not_accepts_fail
  · rintro ⟨a, rfl, rfl, rfl⟩
    cases a with
    | ipv4 octets hlength =>
      rw [Address.atyp, destination, if_pos rfl]
      exact Decoder.accepts_bytes_bind_iff.mpr ⟨octets, [], (List.append_nil _).symm, hlength, rfl⟩
    | domain name hlength =>
      rw [Address.atyp, destination, if_neg (by decide), if_pos rfl]
      refine Decoder.accepts_byte_bind_iff.mpr ⟨_, _, rfl, ?_⟩
      refine Decoder.accepts_bytes_bind_iff.mpr ⟨SshString.utf8 name, [],
        (List.append_nil _).symm, (toNat_ofNat_length hlength).symm, ?_⟩
      rw [SshString.fromUTF8?_utf8]
      rfl
    | ipv6 octets hlength =>
      rw [Address.atyp, destination, if_neg (by decide), if_neg (by decide), if_pos rfl]
      exact Decoder.accepts_bytes_bind_iff.mpr ⟨octets, [], (List.append_nil _).symm, hlength, rfl⟩

/-- The decoder takes requests. -/
theorem request_accepts_iff {xs : List UInt8} {rq : Request} :
    request.Accepts xs rq ↔
      ∃ cmd rsv a port, xs = socks5Request cmd rsv a port ∧ rq = .of cmd a port := by
  simp only [request, Decoder.bind_eq, Decoder.accepts_byte_bind_iff]
  constructor
  · rintro ⟨ver, ys, rfl, h⟩
    split at h
    · exact absurd h Decoder.not_accepts_fail
    · rename_i hver
      obtain ⟨cmd, _, rfl, hrsv⟩ := Decoder.accepts_byte_bind_iff.mp h
      obtain ⟨rsv, _, rfl, hatyp⟩ := Decoder.accepts_byte_bind_iff.mp hrsv
      obtain ⟨atyp, _, rfl, hrest⟩ := Decoder.accepts_byte_bind_iff.mp hatyp
      obtain ⟨_, _, p, rfl, hdestination, hrest⟩ := Decoder.accepts_bind_iff.mp hrest
      obtain ⟨a, rfl, rfl, rfl⟩ := destination_accepts_iff.mp hdestination
      obtain ⟨_, _, port, rfl, hport, hdone⟩ := Decoder.accepts_bind_iff.mp hrest
      obtain rfl := readU16_accepts_iff.mp hport
      obtain ⟨rfl, rfl⟩ := Decoder.accepts_done_iff.mp hdone
      refine ⟨cmd, rsv, a, port, ?_, rfl⟩
      rw [socks5Request, not_not.mp hver, List.append_nil]
  · rintro ⟨cmd, rsv, a, port, rfl, rfl⟩
    refine ⟨_, _, rfl, ?_⟩
    rw [if_neg (not_not.mpr rfl)]
    refine Decoder.accepts_byte_bind_iff.mpr ⟨_, _, rfl, ?_⟩
    refine Decoder.accepts_byte_bind_iff.mpr ⟨_, _, rfl, ?_⟩
    refine Decoder.accepts_byte_bind_iff.mpr ⟨_, _, rfl, ?_⟩
    refine Decoder.Accepts.bind (destination_accepts_iff.mpr ⟨a, rfl, rfl, rfl⟩) ?_
    exact Decoder.Accepts.bind_done (readU16_accepts_iff.mpr rfl) rfl

/-! ## From the bytes to the state

`Handled` lists what can have come of some bytes: the handler still waits in one of the phases,
it has returned with an error, or it has answered a request. -/

/-- A request for a connection, behind a greeting that offers no authentication. -/
def Asks (bs : List UInt8) (a : Address) (port : UInt16) (rest : List UInt8) : Prop :=
  ∃ methods rsv, methods.length ≤ 255 ∧ methodNoAuth ∈ methods ∧
    bs = socks5Greeting methods ++ (socks5Request cmdConnect rsv a port ++ rest)

/-- The state when the greeting has been answered. -/
def greeted : Socks5 := { written := [socks5Version, methodNoAuth], phase := .request request }

/-- All that can have come of some bytes. -/
inductive Handled : List UInt8 → Socks5 → Prop
  | greeting {bs : List UInt8} (e : Error) (k : UInt8 → Decoder Error (List UInt8)) :
      Handled bs { phase := .greeting (.read e k) }
  | greetingFailed {bs : List UInt8} (e : Error) : Handled bs { phase := .returned (.error e) }
  | notAcceptable {bs : List UInt8} :
      Handled bs { written := [socks5Version, methodNoAcceptable],
                   phase := .returned (.ok ()), shut := true }
  | request {bs : List UInt8} (e : Error) (k : UInt8 → Decoder Error Request) :
      Handled bs { greeted with phase := .request (.read e k) }
  | requestFailed {bs : List UInt8} (e : Error) :
      Handled bs { greeted with phase := .returned (.error e) }
  | notSupported {bs : List UInt8} (a : Address) (port : UInt16) :
      Handled bs { greeted.write (reply repCommandNotSupported a.atyp a.bytes port) with
                   phase := .returned (.ok ()), shut := true }
  | refused {bs rest : List UInt8} {a : Address} {port : UInt16} (hasks : Asks bs a port rest)
      (hconnect : connect (Request.of cmdConnect a port).addr = none) :
      Handled bs { greeted.write (reply repConnectionRefused a.atyp a.bytes port) with
                   connects := [⟨(Request.of cmdConnect a port).addr, greeted.written⟩]
                   phase := .returned (.ok ()), shut := true }
  | connected {bs rest : List UInt8} {a : Address} {port : UInt16} {localAddr : SocketAddr}
      (hasks : Asks bs a port rest)
      (hconnect : connect (Request.of cmdConnect a port).addr = some localAddr) :
      Handled bs { greeted.write (replyWithBoundAddr repSucceeded localAddr) with
                   connects := [⟨(Request.of cmdConnect a port).addr, greeted.written⟩]
                   phase := .relaying rest }

/-- Behind a request, the handler has answered it. -/
theorem handled_request {methods rest : List UInt8} (hlength : methods.length ≤ 255)
    (hnoAuth : methodNoAuth ∈ methods) (cmd rsv : UInt8) (a : Address) (port : UInt16) :
    Handled connect (socks5Greeting methods ++ (socks5Request cmd rsv a port ++ rest))
      (rest.foldl (step connect) (onRequest connect greeted (.of cmd a port))) := by
  rw [onRequest]
  split
  · rw [foldl_returned connect rfl]
    exact .notSupported a port
  · rename_i hcmd
    obtain rfl : cmd = cmdConnect := not_not.mp hcmd
    have hasks : Asks (socks5Greeting methods ++ (socks5Request cmdConnect rsv a port ++ rest))
        a port rest := ⟨methods, rsv, hlength, hnoAuth, rfl⟩
    dsimp only
    split
    · rename_i hconnect
      rw [foldl_returned connect rfl]
      exact .refused hasks hconnect
    · rename_i localAddr hconnect
      rw [foldl_relaying]
      exact .connected hasks hconnect

/-- **The handler**, on any bytes. -/
theorem handled_foldl (bs : List UInt8) : Handled connect bs (bs.foldl (step connect) {}) := by
  have hgreeting := foldl_greeting connect not_halted_greeting {} bs
  obtain ⟨d, rest, hfeed⟩ : ∃ d rest, greeting.feed bs = (d, rest) := ⟨_, _, rfl⟩
  rw [hfeed] at hgreeting
  change bs.foldl (step connect) {} = _ at hgreeting
  rw [hgreeting]
  cases d with
  | read e k =>
    obtain rfl := Decoder.feed_read hfeed
    exact .greeting e k
  | fail e =>
    rw [settle, foldl_returned connect rfl]
    exact .greetingFailed e
  | done methods =>
    obtain ⟨xs, rfl, hxs⟩ := Decoder.feed_eq_done_iff.mp hfeed
    obtain ⟨hlength, rfl⟩ := greeting_accepts_iff.mp hxs
    dsimp only [settle, onGreeting]
    split
    · rw [foldl_returned connect rfl]
      exact .notAcceptable
    · rename_i hnoAuth
      have hrequest := foldl_request connect not_halted_request greeted rest
      obtain ⟨d, rest', hfeed'⟩ : ∃ d rest', request.feed rest = (d, rest') := ⟨_, _, rfl⟩
      rw [hfeed'] at hrequest
      refine Eq.mpr (congrArg _ hrequest) ?_
      cases d with
      | read e k =>
        obtain rfl := Decoder.feed_read hfeed'
        exact .request e k
      | fail e =>
        rw [settle, foldl_returned connect rfl]
        exact .requestFailed e
      | done rq =>
        obtain ⟨ys, rfl, hys⟩ := Decoder.feed_eq_done_iff.mp hfeed'
        obtain ⟨cmd, rsv, a, port, rfl, rfl⟩ := request_accepts_iff.mp hys
        exact handled_request connect hlength (not_not.mp hnoAuth) cmd rsv a port

/-- Behind a request for a connection. -/
theorem foldl_of_asks {bs rest : List UInt8} {a : Address} {port : UInt16}
    (h : Asks bs a port rest) :
    bs.foldl (step connect) {} =
      rest.foldl (step connect) (onRequest connect greeted (.of cmdConnect a port)) := by
  obtain ⟨methods, rsv, hlength, hnoAuth, rfl⟩ := h
  have hgreeting := (greeting_accepts_iff.mpr ⟨hlength, rfl⟩).feed
    (socks5Request cmdConnect rsv a port ++ rest)
  have hrequest := (request_accepts_iff.mpr ⟨cmdConnect, rsv, a, port, rfl, rfl⟩).feed rest
  have hfold := foldl_greeting connect not_halted_greeting {}
    (socks5Greeting methods ++ (socks5Request cmdConnect rsv a port ++ rest))
  rw [hgreeting] at hfold
  have hoffered : onGreeting {} methods = greeted := by
    rw [onGreeting, if_neg (not_not.mpr hnoAuth)]
    rfl
  have hsettle : settle connect { phase := .greeting (.done methods) } = greeted := hoffered
  refine hfold.trans ?_
  dsimp only
  rw [hsettle]
  refine (foldl_request connect not_halted_request greeted _).trans ?_
  rw [hrequest]
  rfl

/-! ## Replies

What has been written is looked at from outside: nothing, the answer to the greeting, or this and
one whole reply. -/

/-- The address field is as long as its type says. -/
def Fits (atyp : UInt8) (field : List UInt8) : Prop :=
  (atyp = atypIpv4 ∧ field.length = 4) ∨
    (atyp = atypDomain ∧ ∃ n name, field = n :: name ∧ name.length = n.toNat) ∨
    atyp = atypIpv6 ∧ field.length = 16

/-- One whole reply with a code. -/
def IsReply (rep : UInt8) (bytes : List UInt8) : Prop :=
  ∃ atyp field port, Fits atyp field ∧ bytes = reply rep atyp field port

/-- An address fits its type. -/
theorem Address.fits (a : Address) : Fits a.atyp a.bytes := by
  cases a with
  | ipv4 octets hlength => exact Or.inl ⟨rfl, hlength⟩
  | domain name hlength =>
    exact Or.inr (Or.inl ⟨rfl, _, _, rfl, (toNat_ofNat_length hlength).symm⟩)
  | ipv6 octets hlength => exact Or.inr (Or.inr ⟨rfl, hlength⟩)

/-- What is echoed is a reply. -/
theorem isReply_reply (rep : UInt8) (a : Address) (port : UInt16) :
    IsReply rep (reply rep a.atyp a.bytes port) :=
  ⟨_, _, _, a.fits, rfl⟩

/-- As many octets as asked for. -/
theorem length_octetsOf (n ip : ℕ) : (octetsOf n ip).length = n := by
  rw [octetsOf, List.length_map, List.length_range]

/-- The local address makes a reply. -/
theorem isReply_replyWithBoundAddr (rep : UInt8) (localAddr : SocketAddr) :
    IsReply rep (replyWithBoundAddr rep localAddr) := by
  cases localAddr with
  | v4 ip port => exact ⟨_, _, port, Or.inl ⟨rfl, length_octetsOf 4 _⟩, rfl⟩
  | v6 ip port _ _ => exact ⟨_, _, port, Or.inr (Or.inr ⟨rfl, length_octetsOf 16 _⟩), rfl⟩

/-- Nothing, the answer to a greeting, or this and one whole reply. -/
def WholeReplies (written : List UInt8) : Prop :=
  written = [] ∨ written = [socks5Version, methodNoAcceptable] ∨
    written = [socks5Version, methodNoAuth] ∨
    ∃ rep bytes, IsReply rep bytes ∧ written = [socks5Version, methodNoAuth] ++ bytes

/-! ## What connecting to a text tries, and the handler

The handler joins host and port to a text, which is split again where it connects. That a name is
split into the same host and port is an assumption on `connect`, with an instance: the text is
split at its last colon. -/

variable {connect}

/-- The end of the stream is answered with nothing. -/
@[simp] theorem ends_written (s : Socks5) : s.ends.written = s.written := by
  rw [ends]
  split <;> rfl

/-- And connects to nothing. -/
@[simp] theorem ends_connects (s : Socks5) : s.ends.connects = s.connects := by
  rw [ends]
  split <;> rfl

/-- For a handler that relays it is the relay that sees the end. -/
theorem ends_of_relaying {s : Socks5} {bytes : List UInt8} (h : s.phase = .relaying bytes) :
    s.ends = s := by
  rw [ends, h]

/-- A handler that has returned is not concerned. -/
theorem ends_of_returned {s : Socks5} {result : Except Error Unit}
    (h : s.phase = .returned result) : s.ends = s := by
  rw [ends, h]

/-- It has connected once, to `host` at `port` and behind the answer to the greeting; it has written
one reply, whose code tells whether that succeeded; and it relays `rest`, or has returned. -/
def Connects (target : String → Option (String × UInt16)) (connect : String → Option SocketAddr)
    (s : Socks5) (host : String) (port : UInt16) (rest : List UInt8) : Prop :=
  ∃ addr, s.connects = [⟨addr, [socks5Version, methodNoAuth]⟩] ∧ target addr = some (host, port) ∧
    ∃ rep bytes, IsReply rep bytes ∧ s.written = [socks5Version, methodNoAuth] ++ bytes ∧
      (rep = repSucceeded ↔ (connect addr).isSome = true) ∧
      s.phase = if (connect addr).isSome then .relaying rest else .returned (.ok ())

/-- The handler behind a request for a connection. -/
theorem connects_of_asks {target : String → Option (String × UInt16)}
    (htarget : ∀ host (port : UInt16), target (host ++ ":" ++ toString port.toNat) =
      some (host, port))
    {bs rest : List UInt8} {a : Address} {port : UInt16} (h : Asks bs a port rest) :
    Connects target connect (bs.foldl (step connect) {}) a.host port rest := by
  have hcmd : ¬ (Request.of cmdConnect a port).cmd ≠ cmdConnect := not_not.mpr rfl
  rw [foldl_of_asks connect h, onRequest, if_neg hcmd]
  dsimp only
  refine ⟨(Request.of cmdConnect a port).addr, ?_⟩
  split
  · rename_i hconnect
    rw [foldl_returned connect rfl, hconnect]
    exact ⟨rfl, htarget a.host port, _, _, isReply_reply _ a port, rfl,
      iff_of_false (by decide) (by decide), rfl⟩
  · rename_i localAddr hconnect
    rw [foldl_relaying, hconnect]
    exact ⟨rfl, htarget a.host port, _, _, isReply_replyWithBoundAddr _ localAddr, rfl,
      iff_of_true rfl rfl, rfl⟩

/-- What it has done is not undone by the end of the stream. -/
theorem Connects.ends {target : String → Option (String × UInt16)} {s : Socks5} {host : String}
    {port : UInt16} {rest : List UInt8} (h : Connects target connect s host port rest) :
    s.ends = s := by
  obtain ⟨addr, -, -, -, -, -, -, -, hphase⟩ := h
  by_cases hconnect : (connect addr).isSome
  · rw [if_pos hconnect] at hphase
    exact ends_of_relaying hphase
  · rw [if_neg hconnect] at hphase
    exact ends_of_returned hphase

/-- Whatever the bytes are, a connection is only made when they ask for one. -/
theorem Handled.exists_asks {bs : List UInt8} {s : Socks5} (h : Handled connect bs s) :
    (s.connects = [] ∨ ∃ a port rest, Asks bs a port rest) ∧ WholeReplies s.written := by
  cases h with
  | greeting e k => exact ⟨Or.inl rfl, Or.inl rfl⟩
  | greetingFailed e => exact ⟨Or.inl rfl, Or.inl rfl⟩
  | notAcceptable => exact ⟨Or.inl rfl, Or.inr (Or.inl rfl)⟩
  | request e k => exact ⟨Or.inl rfl, Or.inr (Or.inr (Or.inl rfl))⟩
  | requestFailed e => exact ⟨Or.inl rfl, Or.inr (Or.inr (Or.inl rfl))⟩
  | notSupported a port =>
    exact ⟨Or.inl rfl, Or.inr (Or.inr (Or.inr ⟨_, _, isReply_reply _ a port, rfl⟩))⟩
  | refused hasks hconnect =>
    exact ⟨Or.inr ⟨_, _, _, hasks⟩, Or.inr (Or.inr (Or.inr ⟨_, _, isReply_reply _ _ _, rfl⟩))⟩
  | connected hasks hconnect =>
    exact ⟨Or.inr ⟨_, _, _, hasks⟩,
      Or.inr (Or.inr (Or.inr ⟨_, _, isReply_replyWithBoundAddr _ _, rfl⟩))⟩

/-- Split a text at its last colon, and read a port behind it. -/
def rsplitPort (addr : String) : Option (String × UInt16) :=
  let cs := addr.toList.reverse
  (ForwardSpec.parseU16 (cs.takeWhile (· ≠ ':')).reverse).map fun port =>
    (String.ofList ((cs.dropWhile (· ≠ ':')).drop 1).reverse, port)

/-- The text that the handler connects to is split into host and port again. -/
theorem rsplitPort_eq (host : String) (port : UInt16) :
    rsplitPort (host ++ ":" ++ toString port.toNat) = some (host, port) := by
  have hdigits : ∀ c ∈ (Nat.toDigits 10 port.toNat).reverse, decide (c ≠ ':') = true := by
    intro c hc
    have hdigit := Nat.isDigit_of_mem_toDigits (by decide) (by decide) (List.mem_reverse.mp hc)
    refine decide_eq_true ?_
    rintro rfl
    cases hdigit
  have hlist : (host ++ ":" ++ toString port.toNat).toList.reverse =
      (Nat.toDigits 10 port.toNat).reverse ++ ':' :: host.toList.reverse := by
    simp
  have hport : ForwardSpec.parseU16 (Nat.toDigits 10 port.toNat) = some port :=
    ForwardSpec.parseU16_eq_some_iff.mpr Nat.ofDigitChars_ten_toDigits
  dsimp only [rsplitPort]
  rw [hlist, List.takeWhile_append_of_pos hdigits, List.dropWhile_append_of_pos hdigits,
    List.takeWhile_cons_of_neg (by decide), List.dropWhile_cons_of_neg (by decide), List.append_nil,
    List.reverse_reverse, hport, List.drop_one, List.tail_cons, List.reverse_reverse]
  simp

end Socks5

end Dssh
