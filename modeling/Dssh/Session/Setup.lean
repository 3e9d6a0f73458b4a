import Dssh.Channel.Message
import Dssh.Lib.Loop
import Mathlib.Data.List.Induction

/-!
# Setting up a session

`session_setup` reads channel events until the client asks for a command or a shell. Its loop is
a `Loop` whose body is a `Decoder`: it reads an event, for the requests it knows their payload,
and writes the reply. A failed write is ignored by the source, so the loop takes the same way
whether its replies get through or not.

Events it does not expect and requests it does not know are ignored, and what follows their head
on the stream is left there: the contents of a data message, the payload of an unknown request.
The next turn starts in front of it.

## Where the next message starts

Messages on a channel have no frames, so a loop that reads them has to know where each of them
ends. For the requests that it knows, it does: their payloads are decoded. For an unknown
request it cannot, and answers with a failure if a reply is wanted. For data it could, since the
length is in the head that it has just read, but the arm for unexpected events drops the event
with its undrained reader.

The source's comment on the channel says that the caller should read all bytes or close the
channel. What follows is parsed as messages, and a client, or whoever may write into a client's
input, can put a request there: `data_takes_effect` is a stream whose data contains a request
for a command, and the command is the one that is set up.

`starts_iff` says when this cannot happen. A turn starts at a boundary of messages, for every
turn of the loop, exactly when no message before the last one leaves anything behind.

## What is set up

For a client that keeps to the protocol, the requests in front of the last one ask for terminals
and variables. The last terminal counts and the variables add up. The result has what they ask
for (`sessionSetup_requests`), each request that wants a reply is granted in its turn, and
nothing is read behind the last one. The terminal is allocated behind the loop, so it may fail
when the client has already been told that it was granted. The hypothesis there is that it does
not.

What `openpty` does is a parameter, and so is its error. A size that does not fit into sixteen
bits is an error of its own, with the name of the field.

## Main definitions

* `SessionSetup`, `sessionSetup` — the result and the function
* `SessionSetup.Locals`, `SessionSetup.body` — the loop
* `SessionSetup.leftover`, `SessionSetup.ReadThrough` — what a turn leaves of its message

## Main results

* `SessionSetup.sessionSetup_isSome` — setup ends on every stream that does
* `SessionSetup.starts_iff` — the turns start at the boundaries of the messages exactly when
  every ignored message has nothing behind its head
* `SessionSetup.sessionSetup_requests` — what a sequence of requests sets up
-/

namespace Dssh

/-! ## Allocating a terminal

The sizes are narrowed to 16 bits, and an overflow is an error with the name of the field. What
`openpty` does is up to the system. -/

/-- A size that does not fit. -/
structure DimensionOverflow where
  /-- Which of the four. -/
  field : String
  value : UInt32
  deriving DecidableEq, Repr

/-- The errors of `allocate_pty`. -/
inductive PtyError where
  | dimension (source : DimensionOverflow)
  | os (errno : ℕ)
  deriving DecidableEq, Repr

/-- The size of a terminal, `libc::winsize`. -/
structure Winsize where
  wsCol : UInt16
  wsRow : UInt16
  wsXpixel : UInt16
  wsYpixel : UInt16
  deriving DecidableEq, Repr

/-- The size in a field, if it fits. -/
def tryU16 (value : ℕ) (field : String) : Except DimensionOverflow UInt16 :=
  if value < 2 ^ 16 then .ok (.ofNat value) else .error ⟨field, .ofNat value⟩

/-- The four sizes of a request. -/
def winsizeFromPty (request : PtyRequest) : Except DimensionOverflow Winsize := do
  let wsCol ← tryU16 request.widthCols.val "width_cols"
  let wsRow ← tryU16 request.heightRows.val "height_rows"
  let wsXpixel ← tryU16 request.widthPx.val "width_px"
  let wsYpixel ← tryU16 request.heightPx.val "height_px"
  pure ⟨wsCol, wsRow, wsXpixel, wsYpixel⟩

/-- A terminal as it is after its allocation: its size, and the modes `apply_terminal_modes` has
been given for it. -/
structure PtyPair where
  /-- Its size. -/
  winsize : Winsize
  /-- The encoded modes of the request. -/
  modes : List UInt8
  deriving DecidableEq, Repr

/-- The part of `allocate_pty` that is not a system call. What `openpty` does is `openpty`: the
error it fails with, if any. -/
def allocatePty (openpty : Winsize → Option ℕ) (request : PtyRequest) : Except PtyError Winsize :=
  match winsizeFromPty request with
  | .error e => .error (.dimension e)
  | .ok winsize =>
    match openpty winsize with
    | some errno => .error (.os errno)
    | none => .ok winsize

/-! ## The setup loop

One turn for each event, with the local variables as the state. The request that starts a process
ends the loop, and is answered before a terminal is allocated. -/

/-- The errors of `session_setup`. -/
inductive SessionSetupError where
  | readEvent (source : ReadChannelEventError)
  | decodePayload (requestType : String) (source : SessionCodecError)
  | channelClosed
  | allocPty (source : PtyError)
  deriving DecidableEq

/-- The result of the setup phase. -/
structure SessionSetup where
  /-- Empty for a shell. -/
  command : List UInt8
  /-- `shell` was asked for. -/
  isShell : Bool
  /-- The terminal, if one was asked for. -/
  pty : Option PtyPair
  /-- For `TERM`. -/
  termType : Option SshString
  /-- What the client has asked to set, in its order. -/
  clientEnv : List (SshString × SshString)
  deriving DecidableEq

namespace SessionSetup

/-- The local variables of `session_setup`. -/
structure Locals where
  /-- The last `pty-req`. -/
  ptyRequest : Option PtyRequest := none
  /-- The command of `exec`. -/
  command : Option (List UInt8) := none
  /-- `shell` was asked for. -/
  isShell : Bool := false
  /-- The `term` of the last `pty-req`. -/
  termType : Option SshString := none
  /-- The `env` requests so far. -/
  clientEnv : List (SshString × SshString) := []
  deriving DecidableEq

/-- `respond_success` by the responder, which there is if the request wants a reply. -/
def respond (wantReply : Bool) : List UInt8 :=
  if wantReply then ChannelResponder.respondSuccess else []

/-- The body of the loop, with what it writes; `stop` is a `break`. -/
def body (s : Locals) : Decoder SessionSetupError (Loop.Flow Locals Locals × List UInt8) := do
  let event ← SshChannel.nextEvent.mapError .readEvent
  match event with
  | .request "pty-req" wantReply =>
    let payload ← PtyRequest.decoder.mapError (.decodePayload "pty-req")
    pure (.again { s with termType := some payload.termType, ptyRequest := some payload },
      respond wantReply)
  | .request "env" wantReply =>
    let payload ← EnvRequest.decoder.mapError (.decodePayload "env")
    pure (.again { s with clientEnv := s.clientEnv ++ [(payload.name, payload.value)] },
      respond wantReply)
  | .request "exec" wantReply =>
    let payload ← ExecRequest.decoder.mapError (.decodePayload "exec")
    pure (.stop { s with command := some payload.command }, respond wantReply)
  | .request "shell" wantReply =>
    pure (.stop { s with isShell := true }, respond wantReply)
  | .request _ wantReply =>
    -- an `EmptyPayload` is decoded, which reads nothing
    pure (.again s, if wantReply then ChannelResponder.respondFailure else [])
  | .eof => .fail .channelClosed
  | .close => .fail .channelClosed
  | .data _ => pure (.again s, [])
  | .extendedData _ _ => pure (.again s, [])
  | .success => pure (.again s, [])
  | .failure => pure (.again s, [])

/-- The turns of the loop, each with what has been written before it. -/
abbrev turn : Locals × List UInt8 → List UInt8 →
    Turn (Locals × List UInt8) (Except SessionSetupError Locals × List UInt8) :=
  Loop.ofDecoder body

/-- What follows the loop: allocate a terminal if one has been requested. -/
def finish (openpty : Winsize → Option ℕ) (s : Locals) : Except SessionSetupError SessionSetup := do
  let pty ← match s.ptyRequest with
    | some request =>
      match allocatePty openpty request with
      | .ok winsize => .ok (some ⟨winsize, request.terminalModes⟩)
      | .error e => .error (.allocPty e)
    | none => .ok none
  pure ⟨s.command.getD [], s.isShell, pty, s.termType, s.clientEnv⟩

end SessionSetup

/-- `session_setup` on a stream: the result, what has been written, and what is left of the stream.
-/
def sessionSetup (openpty : Winsize → Option ℕ) (bs : List UInt8) :
    Option ((Except SessionSetupError SessionSetup × List UInt8) × List UInt8) :=
  (Loop.run SessionSetup.turn ({}, []) bs).map fun ((result, written), rest) =>
    ((result.bind (SessionSetup.finish openpty), written), rest)

namespace SessionSetup

/-- A turn reads at least a byte. -/
theorem not_halted_body (s : Locals) : ¬ (body s).Halted := id

/-! ## One turn

What a turn does with each of the requests that setup knows. -/

/-- What a request that setup knows does to the local variables. -/
def Locals.request (s : Locals) : SessionRequest → Locals
  | .ptyReq r => { s with termType := some r.termType, ptyRequest := some r }
  | .env r => { s with clientEnv := s.clientEnv ++ [(r.name, r.value)] }
  | .exec r => { s with command := some r.command }
  | .shell => { s with isShell := true }
  | _ => s

/-- A request for a terminal or an environment variable: setup goes on after it. -/
def Prepares : SessionRequest → Prop
  | .ptyReq _ => True
  | .env _ => True
  | _ => False

/-- A request for a command or a shell: setup ends with it. -/
def Starts : SessionRequest → Prop
  | .exec _ => True
  | .shell => True
  | _ => False

variable {s : Locals} {rq : SessionRequest}

/-- Setup reads such a request and goes on, … -/
theorem body_prepares (h : Prepares rq) (hbounded : rq.Bounded) (wantReply : Bool) :
    (body s).Accepts ((ChannelMessage.request rq wantReply).head ++ rq.payload)
      (.again (s.request rq), respond wantReply) := by
  have hhead := ChannelMessage.accepts_head (m := .request rq wantReply) trivial
  refine (Decoder.accepts_mapError.mpr hhead).bind ?_
  cases rq with
  | ptyReq r =>
    have hpayload := LawfulWire.inverts.accepts hbounded
    exact (Decoder.accepts_mapError.mpr hpayload).bind_done rfl
  | env r =>
    have hpayload := LawfulWire.inverts.accepts hbounded
    exact (Decoder.accepts_mapError.mpr hpayload).bind_done rfl
  | _ => exact h.elim

/-- … and ends with one of these. -/
theorem body_starts (h : Starts rq) (hbounded : rq.Bounded) (wantReply : Bool) :
    (body s).Accepts ((ChannelMessage.request rq wantReply).head ++ rq.payload)
      (.stop (s.request rq), respond wantReply) := by
  have hhead := ChannelMessage.accepts_head (m := .request rq wantReply) trivial
  refine (Decoder.accepts_mapError.mpr hhead).bind ?_
  cases rq with
  | exec r =>
    have hpayload := LawfulWire.inverts.accepts hbounded
    exact (Decoder.accepts_mapError.mpr hpayload).bind_done rfl
  | shell => rfl
  | _ => exact h.elim

/-- A payload that setup decodes and that is too long ends it. -/
theorem body_refuses (h : Prepares rq ∨ Starts rq) (hencodable : rq.Encodable)
    (hbounded : ¬ rq.Bounded) (wantReply : Bool) :
    (body s).Refuses ((ChannelMessage.request rq wantReply).head ++ rq.payload) := by
  have hhead := ChannelMessage.accepts_head (m := .request rq wantReply) trivial
  refine .bind_right (Decoder.accepts_mapError.mpr hhead) ?_
  cases rq with
  | ptyReq r =>
    exact ((PtyRequest.refuses hencodable hbounded).mapError _).bind _
  | env r =>
    exact ((EnvRequest.refuses hencodable hbounded).mapError _).bind _
  | exec r =>
    exact ((ExecRequest.refuses hencodable hbounded).mapError _).bind _
  | shell => exact absurd trivial hbounded
  | _ => exact (or_self_iff.mp h).elim

/-! ## Messages behind messages

A turn reads the head of a message, and of its body only what it decodes. What it leaves is the
front of the stream for the next turn. -/

/-- What is left of a message by the turn that reads it, if that turn is not the last one. -/
def leftover : ChannelMessage → List UInt8
  | .data bytes => bytes
  | .extendedData _ bytes => bytes
  | .request (.ptyReq _) _ => []
  | .request (.env _) _ => []
  | .request rq _ => rq.payload
  | _ => []

/-- The turn that reads the message is the last one: a request for a command or a shell, EOF, close,
or a payload that setup decodes and that is too long. -/
def Ends : ChannelMessage → Prop
  | .request rq _ => Starts rq ∨ Prepares rq ∧ ¬ rq.Bounded
  | .eof => True
  | .close => True
  | _ => False

/-- **A turn that is not the last one.** It stops in front of what it leaves of the message. -/
theorem body_again {m : ChannelMessage} (hwritable : m.Writable) (hends : ¬ Ends m) (s : Locals) :
    ∃ read s' written, m.head ++ m.body = read ++ leftover m ∧ read ≠ [] ∧
      (body s).Accepts read (.again s', written) := by
  have hhead := Decoder.accepts_mapError (f := SessionSetupError.readEvent).mpr
    (ChannelMessage.accepts_head hwritable)
  have hnil := m.head_ne_nil
  have hignored : ∀ {s' written}, leftover m = m.body →
      (body s).Accepts m.head (.again s', written) →
      ∃ read s' written, m.head ++ m.body = read ++ leftover m ∧ read ≠ [] ∧
        (body s).Accepts read (.again s', written) :=
    fun hleft haccepts => ⟨m.head, _, _, by rw [hleft], hnil, haccepts⟩
  have hprepares : ∀ {rq wantReply}, m = .request rq wantReply → leftover m = [] → Prepares rq →
      ∃ read s' written, m.head ++ m.body = read ++ leftover m ∧ read ≠ [] ∧
        (body s).Accepts read (.again s', written) := by
    rintro rq wantReply rfl hleft hrq
    have hbounded : rq.Bounded := by
      by_contra hbounded
      exact hends (Or.inr ⟨hrq, hbounded⟩)
    have haccepts : (body s).Accepts ((ChannelMessage.request rq wantReply).head ++ rq.payload)
        (.again (s.request rq), respond wantReply) := body_prepares hrq hbounded wantReply
    refine ⟨_, _, _, ?_, ?_, haccepts⟩
    · rw [hleft, List.append_nil]
      rfl
    · simp [hnil]
  cases m with
  | data | extendedData | success | failure => exact hignored rfl (hhead.bind_done rfl)
  | eof | close => exact absurd trivial hends
  | request rq wantReply =>
    cases rq with
    | ptyReq | env => exact hprepares rfl rfl trivial
    | exec | shell => exact absurd (Or.inl trivial) hends
    | subsystem | signal | windowChange | exitStatus | exitSignal =>
      exact hignored rfl (hhead.bind_done rfl)

/-- **The last turn.** -/
theorem turn_stop {m : ChannelMessage} (hm : m.Complete) (hends : Ends m)
    (s : Locals × List UInt8) (rest : List UInt8) :
    ∃ r rest', turn s (m.head ++ m.body ++ rest) = .stop r rest' := by
  have hhead := Decoder.accepts_mapError (f := SessionSetupError.readEvent).mpr
    (ChannelMessage.accepts_head hm.1)
  cases m with
  | eof | close =>
    have hrefuses : (body s.1).Refuses _ := .bind_right hhead ⟨[], [], .channelClosed, rfl, rfl⟩
    obtain ⟨e, rest', hturn⟩ := Loop.ofDecoder_refuses hrefuses rest
    exact ⟨_, _, hturn⟩
  | request rq wantReply =>
    by_cases hbounded : rq.Bounded
    · have hstarts : Starts rq := hends.resolve_right fun h => h.2 hbounded
      exact ⟨_, _, Loop.ofDecoder_stop (body_starts hstarts hbounded wantReply) rest⟩
    · have hrefuses : (body s.1).Refuses _ :=
        body_refuses (hends.symm.imp_left And.left) (hm.2 rq wantReply rfl) hbounded wantReply
      obtain ⟨e, rest', hturn⟩ := Loop.ofDecoder_refuses hrefuses rest
      exact ⟨_, _, hturn⟩
  | _ => exact hends.elim

/-! ## Where the turns start

So the next turn starts in front of a message exactly if nothing was left. Along a stream, this
gives the condition on all of its messages. -/

/-- No turn but the last one leaves anything of its message. -/
def ReadThrough : List ChannelMessage → Prop
  | [] => True
  | m :: ms => Ends m ∨ leftover m = [] ∧ ReadThrough ms

/-- A turn that goes on has read something. -/
theorem consumes_turn : Loop.Consumes turn := Loop.consumes_ofDecoder not_halted_body

/-- **Setup ends**, whatever is on the stream. -/
theorem sessionSetup_isSome (openpty : Winsize → Option ℕ) (bs : List UInt8) :
    (sessionSetup openpty bs).isSome := by
  rw [sessionSetup, Option.isSome_map]
  exact Loop.run_isSome consumes_turn ({}, []) bs

/-- The last turn is the only one that starts in its message. -/
theorem starts_ends {m : ChannelMessage} (hm : m.Complete) (hends : Ends m)
    (s : Locals × List UInt8) (ms : List ChannelMessage) (tail : List UInt8) :
    Loop.starts turn s (ChannelMessage.stream (m :: ms) ++ tail) =
      [ChannelMessage.stream (m :: ms) ++ tail] := by
  obtain ⟨r, rest', hturn⟩ := turn_stop hm hends s (ChannelMessage.stream ms ++ tail)
  have hbytes : ChannelMessage.stream (m :: ms) ++ tail =
      m.head ++ m.body ++ (ChannelMessage.stream ms ++ tail) := by simp
  rw [hbytes]
  exact Loop.starts_stop hturn

/-- Any other turn is followed by one that starts in front of what it has left. -/
theorem starts_again {m : ChannelMessage} (hwritable : m.Writable) (hends : ¬ Ends m)
    (s : Locals × List UInt8) (ms : List ChannelMessage) (tail : List UInt8) :
    ∃ s', Loop.starts turn s (ChannelMessage.stream (m :: ms) ++ tail) =
        (ChannelMessage.stream (m :: ms) ++ tail) ::
          Loop.starts turn s' (leftover m ++ (ChannelMessage.stream ms ++ tail)) ∧
      ∀ x ∈ Loop.starts turn s' (leftover m ++ (ChannelMessage.stream ms ++ tail)),
        x.length < (ChannelMessage.stream (m :: ms) ++ tail).length := by
  obtain ⟨read, s', written, hbytes, hread, haccepts⟩ := body_again hwritable hends s.1
  have hall : ChannelMessage.stream (m :: ms) ++ tail =
      read ++ (leftover m ++ (ChannelMessage.stream ms ++ tail)) := by
    rw [← List.append_assoc, ← hbytes]
    simp
  refine ⟨(s', s.2 ++ written), ?_, fun x hx => ?_⟩
  · rw [hall]
    exact Loop.starts_again consumes_turn (Loop.ofDecoder_again haccepts _)
  · have hle := Loop.length_le_of_mem_starts consumes_turn hx
    have hpos : 0 < read.length := List.length_pos_iff.mpr hread
    rw [hall, List.length_append]
    omega

/-- Where the turns start, from any turn of the loop on. -/
theorem starts_boundary_iff {ms : List ChannelMessage} (hms : ∀ m ∈ ms, m.Complete)
    {last : SessionRequest} (hlast : Starts last) (hencodable : last.Encodable) (wantReply : Bool)
    (tail : List UInt8) (s : Locals × List UInt8) :
    (∀ x ∈ Loop.starts turn s (ChannelMessage.stream (ms ++ [.request last wantReply]) ++ tail),
      ChannelMessage.Boundary (ms ++ [.request last wantReply]) tail x) ↔ ReadThrough ms := by
  induction ms generalizing s with
  | nil =>
    have hcomplete : ChannelMessage.Complete (.request last wantReply) := by
      refine ⟨trivial, fun rq w h => ?_⟩
      obtain ⟨rfl, -⟩ := ChannelMessage.request.inj h
      exact hencodable
    rw [List.nil_append, starts_ends hcomplete (Or.inl hlast), List.forall_mem_singleton]
    exact iff_of_true (ChannelMessage.boundary_start _ _) trivial
  | cons m ms ih =>
    have hm := hms m List.mem_cons_self
    rw [List.cons_append]
    by_cases hends : Ends m
    · rw [starts_ends hm hends, List.forall_mem_singleton]
      exact iff_of_true (ChannelMessage.boundary_start _ _) (Or.inl hends)
    obtain ⟨s', hstarts, hshorter⟩ :=
      starts_again hm.1 hends s (ms ++ [.request last wantReply]) tail
    rw [hstarts, List.forall_mem_cons, and_iff_right (ChannelMessage.boundary_start _ _),
      ReadThrough, or_iff_right hends]
    by_cases hleft : leftover m = []
    · rw [and_iff_right hleft]
      rw [hleft, List.nil_append] at hshorter ⊢
      refine Iff.trans ?_ (ih (fun m' hm' => hms m' (List.mem_cons_of_mem m hm')) s')
      exact forall₂_congr fun x hx => ChannelMessage.boundary_cons (hshorter x hx)
    · -- the next turn starts in front of what is left, and that is no boundary
      refine iff_of_false (fun h => ?_) (fun h => hleft h.1)
      have hmem : _ ∈ Loop.starts turn s' _ := Loop.mem_starts s'
        (leftover m ++ (ChannelMessage.stream (ms ++ [.request last wantReply]) ++ tail))
      have hle := ((ChannelMessage.boundary_cons (hshorter _ hmem)).mp (h _ hmem)).length_le
      have hpos : 0 < (leftover m).length := List.length_pos_iff.mpr hleft
      rw [List.length_append] at hle
      omega

/-- **Where the turns start.** They start in front of messages exactly when no turn but the last one
leaves anything of its message. -/
theorem starts_iff {ms : List ChannelMessage} (hms : ∀ m ∈ ms, m.Complete) {last : SessionRequest}
    (hlast : Starts last) (hencodable : last.Encodable) (wantReply : Bool) (tail : List UInt8) :
    (∀ x ∈ Loop.starts turn ({}, [])
        (ChannelMessage.stream (ms ++ [.request last wantReply]) ++ tail),
      ChannelMessage.Boundary (ms ++ [.request last wantReply]) tail x) ↔ ReadThrough ms :=
  starts_boundary_iff hms hlast hencodable wantReply tail _

/-- The request for a subsystem has a payload, and is not known. -/
theorem envThenSubsystem_starts_iff :
    (∀ x ∈ Loop.starts turn ({}, []) (ChannelMessage.stream ([.request (.env ⟨"A", "B"⟩) true,
          .request (.subsystem ⟨"sftp"⟩) true] ++ [.request .shell true]) ++ []),
      ChannelMessage.Boundary
        ([.request (.env ⟨"A", "B"⟩) true, .request (.subsystem ⟨"sftp"⟩) true] ++
        [.request .shell true]) [] x) ↔
      ReadThrough [.request (.env ⟨"A", "B"⟩) true, .request (.subsystem ⟨"sftp"⟩) true] := by
  have hlast : Starts .shell := trivial
  refine starts_iff (fun m hm => ⟨?_, fun rq wantReply h => ?_⟩) hlast trivial true []
  · rcases List.mem_pair.mp hm with rfl | rfl <;> exact trivial
  · rcases List.mem_pair.mp hm with rfl | rfl <;>
      obtain ⟨rfl, -⟩ := ChannelMessage.request.inj h <;>
      simp only [SessionRequest.Encodable, Wire.Encodable, Wire.strings,
        Wire.byteStrings] <;> decide

/-! ## Contents that take effect

What happens where something is left: the contents of a message are read as messages. -/

/-- The bytes of a request to execute `id`. -/
def execId : List UInt8 := ChannelMessage.stream [.request (.exec ⟨[105, 100]⟩) false]

/-- **Contents that take effect.** A request for a command inside the contents of a data message is
obeyed, and the request for a shell behind them is never read. -/
theorem data_takes_effect :
    (¬ ∀ x ∈ Loop.starts turn ({}, [])
        (ChannelMessage.stream ([.data execId] ++ [.request .shell true]) ++ []),
      ChannelMessage.Boundary ([.data execId] ++ [.request .shell true]) [] x) ∧
    sessionSetup (fun _ => none)
        (ChannelMessage.stream ([.data execId] ++ [.request .shell true]) ++ []) =
      some ((.ok ⟨[105, 100], false, none, none, []⟩, []),
        ChannelMessage.stream [.request .shell true]) := by
  have hwritable : (ChannelMessage.data execId).Writable := by
    change execId.length < 2 ^ 62
    decide
  have hcomplete : ∀ m ∈ [ChannelMessage.data execId], m.Complete := by
    intro m hm
    obtain rfl := List.mem_singleton.mp hm
    exact ⟨hwritable, nofun⟩
  have hlast : Starts .shell := trivial
  refine ⟨fun h => ?_, ?_⟩
  · have hread := (starts_boundary_iff hcomplete hlast trivial true [] _).mp h
    exact absurd (hread.resolve_left id).1 (by decide)
  · have hdata : (body {}).Accepts (ChannelMessage.data execId).head (.again {}, []) :=
      (Decoder.accepts_mapError.mpr (ChannelMessage.accepts_head hwritable)).bind_done rfl
    have hbounded : (SessionRequest.exec ⟨[105, 100]⟩).Bounded :=
      ExecRequest.bounded_iff.mpr (by decide)
    have hstarts : Starts (.exec ⟨[105, 100]⟩) := trivial
    have hexec := body_starts (s := {}) hstarts hbounded false
    have hbytes : ChannelMessage.stream ([.data execId] ++ [.request .shell true]) ++ [] =
        (ChannelMessage.data execId).head ++
          ((ChannelMessage.request (.exec ⟨[105, 100]⟩) false).head ++
              (SessionRequest.exec ⟨[105, 100]⟩).payload ++
            ChannelMessage.stream [.request .shell true]) := by
      simp [execId, ChannelMessage.body]
    have hfirst : Loop.run turn ({}, []) _ = Loop.run turn ({}, []) _ :=
      Loop.run_again consumes_turn (Loop.ofDecoder_again hdata
        ((ChannelMessage.request (.exec ⟨[105, 100]⟩) false).head ++
            (SessionRequest.exec ⟨[105, 100]⟩).payload ++
          ChannelMessage.stream [.request .shell true]))
    have hsecond : Loop.run turn ({}, []) _ = some _ :=
      Loop.run_stop (Loop.ofDecoder_stop hexec (ChannelMessage.stream [.request .shell true]))
    rw [hbytes, sessionSetup, hfirst, hsecond]
    rfl

/-! ## What is set up

The local variables behind a sequence of requests, in closed form. A terminal is allocated for
the last request for one, with the sizes and the modes in it. -/

/-- Requests as messages, each with whether it wants a reply. -/
def messages (rqs : List (SessionRequest × Bool)) : List ChannelMessage :=
  rqs.map fun x => .request x.1 x.2

/-- The answers to requests that are granted. -/
def responses (rqs : List (SessionRequest × Bool)) : List UInt8 :=
  (rqs.map fun x => respond x.2).flatten

/-- What the loop does on a sequence of requests that prepare. -/
theorem run_prepares {rqs : List (SessionRequest × Bool)}
    (hrqs : ∀ x ∈ rqs, Prepares x.1 ∧ x.1.Bounded) (s : Locals × List UInt8)
    (tail : List UInt8) :
    Loop.run turn s (ChannelMessage.stream (messages rqs) ++ tail) =
      Loop.run turn ((rqs.map Prod.fst).foldl Locals.request s.1, s.2 ++ responses rqs) tail := by
  induction rqs generalizing s with
  | nil => simp [messages, responses]
  | cons x rqs ih =>
    obtain ⟨hprepares, hbounded⟩ := hrqs x List.mem_cons_self
    have hbytes : ChannelMessage.stream (messages (x :: rqs)) ++ tail =
        (ChannelMessage.request x.1 x.2).head ++ x.1.payload ++
          (ChannelMessage.stream (messages rqs) ++ tail) := by
      simp [messages, ChannelMessage.body]
    rw [hbytes, Loop.run_again consumes_turn
      (Loop.ofDecoder_again (body_prepares hprepares hbounded x.2) _),
      ih (fun y hy => hrqs y (List.mem_cons_of_mem x hy))]
    simp [responses]

/-- The requests for a terminal among them. -/
def ptyRequests (rqs : List SessionRequest) : List PtyRequest :=
  rqs.filterMap fun | .ptyReq r => some r | _ => none

/-- The environment variables that they set. -/
def envPairs (rqs : List SessionRequest) : List (SshString × SshString) :=
  rqs.filterMap fun | .env r => some (r.name, r.value) | _ => none

/-- The command of the last request. -/
def commandOf : SessionRequest → List UInt8
  | .exec r => r.command
  | _ => []

/-- **What requests do to the local variables.** The last request for a terminal counts, the
environment variables add up. -/
theorem foldl_request {rqs : List SessionRequest} (hrqs : ∀ rq ∈ rqs, Prepares rq) :
    rqs.foldl Locals.request {} =
      ⟨(ptyRequests rqs).getLast?, none, false,
        (ptyRequests rqs).getLast?.map PtyRequest.termType, envPairs rqs⟩ := by
  induction rqs using List.reverseRecOn with
  | nil => rfl
  | append_singleton rqs rq ih =>
    rw [List.foldl_append, ih fun rq' hrq' => hrqs rq' (List.mem_append_left _ hrq')]
    have hrq := hrqs rq (List.mem_append_right _ List.mem_cons_self)
    cases rq with
    | ptyReq r => simp [Locals.request, ptyRequests, envPairs]
    | env r => simp [Locals.request, ptyRequests, envPairs]
    | _ => exact hrq.elim

/-- The terminal is of the size that was asked for, and has been given the modes. -/
def Allocated : Option PtyPair → Option PtyRequest → Prop
  | none, none => True
  | some pair, some r =>
    pair.modes = r.terminalModes ∧ pair.winsize.wsCol.toNat = r.widthCols.val ∧
      pair.winsize.wsRow.toNat = r.heightRows.val ∧ pair.winsize.wsXpixel.toNat = r.widthPx.val ∧
      pair.winsize.wsYpixel.toNat = r.heightPx.val
  | _, _ => False

/-- A size that fits is kept. -/
theorem toNat_of_tryU16 {value : ℕ} {field : String} {n : UInt16}
    (h : tryU16 value field = .ok n) : n.toNat = value := by
  rw [tryU16] at h
  split_ifs at h with hlt
  obtain rfl := Except.ok.inj h
  exact UInt16.toNat_ofNat_of_lt hlt

/-- The terminal is of the size in the request. -/
theorem allocated_of_allocatePty {openpty : Winsize → Option ℕ} {r : PtyRequest}
    {winsize : Winsize} (h : allocatePty openpty r = .ok winsize) :
    Allocated (some ⟨winsize, r.terminalModes⟩) (some r) := by
  rw [allocatePty, winsizeFromPty] at h
  cases hcol : tryU16 r.widthCols.val "width_cols" with
  | error e => rw [hcol] at h; cases h
  | ok wsCol =>
  cases hrow : tryU16 r.heightRows.val "height_rows" with
  | error e => rw [hcol, hrow] at h; cases h
  | ok wsRow =>
  cases hxpixel : tryU16 r.widthPx.val "width_px" with
  | error e => rw [hcol, hrow, hxpixel] at h; cases h
  | ok wsXpixel =>
  cases hypixel : tryU16 r.heightPx.val "height_px" with
  | error e => rw [hcol, hrow, hxpixel, hypixel] at h; cases h
  | ok wsYpixel =>
    rw [hcol, hrow, hxpixel, hypixel] at h
    have hwinsize : winsize = ⟨wsCol, wsRow, wsXpixel, wsYpixel⟩ := by
      cases hos : openpty ⟨wsCol, wsRow, wsXpixel, wsYpixel⟩ with
      | some errno => simp [bind, Except.bind, pure, Except.pure, hos] at h
      | none => simpa [bind, Except.bind, pure, Except.pure, hos, eq_comm] using h
    subst hwinsize
    exact ⟨rfl, toNat_of_tryU16 hcol, toNat_of_tryU16 hrow, toNat_of_tryU16 hxpixel,
      toNat_of_tryU16 hypixel⟩

/-- What the requests ask for, if the terminal can be allocated. -/
theorem finish_requests {openpty : Winsize → Option ℕ} {rqs : List SessionRequest}
    (hrqs : ∀ rq ∈ rqs, Prepares rq) {last : SessionRequest} (hlast : Starts last)
    (hpty : ∀ r ∈ (ptyRequests rqs).getLast?, ∃ winsize, allocatePty openpty r = .ok winsize) :
    ∃ pty, finish openpty ((rqs.foldl Locals.request {}).request last) =
        .ok ⟨commandOf last, last = .shell, pty,
          (ptyRequests rqs).getLast?.map PtyRequest.termType, envPairs rqs⟩ ∧
      Allocated pty (ptyRequests rqs).getLast? := by
  have key : ∀ s : Locals, s.ptyRequest = (ptyRequests rqs).getLast? →
      ∃ pty, finish openpty s = .ok ⟨s.command.getD [], s.isShell, pty, s.termType, s.clientEnv⟩ ∧
        Allocated pty (ptyRequests rqs).getLast? := by
    intro s hs
    rw [finish, hs]
    cases hlast? : (ptyRequests rqs).getLast? with
    | none => exact ⟨none, rfl, trivial⟩
    | some r =>
      obtain ⟨winsize, hwinsize⟩ := hpty r hlast?
      exact ⟨some ⟨winsize, r.terminalModes⟩, by simp only [hwinsize]; rfl,
        allocated_of_allocatePty hwinsize⟩
  rw [foldl_request hrqs]
  cases last with
  | exec r => exact key _ rfl
  | shell => exact key _ rfl
  | _ => exact hlast.elim

/-- **What is set up.** A sequence of requests for terminals and environment variables, and one for
a command or a shell: they are read, exactly, each that wants a reply is granted, and the result is
what they ask for. -/
theorem sessionSetup_requests {openpty : Winsize → Option ℕ}
    {rqs : List (SessionRequest × Bool)} (hrqs : ∀ x ∈ rqs, Prepares x.1 ∧ x.1.Bounded)
    {last : SessionRequest} (hlast : Starts last) (hbounded : last.Bounded) (wantReply : Bool)
    (hpty : ∀ r ∈ (ptyRequests (rqs.map Prod.fst)).getLast?,
      ∃ winsize, allocatePty openpty r = .ok winsize) (tail : List UInt8) :
    ∃ pty, sessionSetup openpty
          (ChannelMessage.stream (messages (rqs ++ [(last, wantReply)])) ++ tail) =
        some ((.ok ⟨commandOf last, last = .shell, pty,
          (ptyRequests (rqs.map Prod.fst)).getLast?.map PtyRequest.termType,
          envPairs (rqs.map Prod.fst)⟩, responses (rqs ++ [(last, wantReply)])), tail) ∧
      Allocated pty (ptyRequests (rqs.map Prod.fst)).getLast? := by
  obtain ⟨pty, hfinish, hallocated⟩ :=
    finish_requests (fun rq hrq => by
      obtain ⟨x, hx, rfl⟩ := List.mem_map.mp hrq
      exact (hrqs x hx).1) hlast hpty
  refine ⟨pty, ?_, hallocated⟩
  have hbytes : ChannelMessage.stream (messages (rqs ++ [(last, wantReply)])) ++ tail =
      ChannelMessage.stream (messages rqs) ++
        ((ChannelMessage.request last wantReply).head ++ last.payload ++ tail) := by
    simp [messages, ChannelMessage.stream_append, ChannelMessage.body]
  have hstop : Loop.run turn _ _ = some _ :=
    Loop.run_stop (Loop.ofDecoder_stop (s := ((rqs.map Prod.fst).foldl Locals.request {},
      responses rqs)) (body_starts hlast hbounded wantReply) tail)
  rw [hbytes, sessionSetup, run_prepares hrqs, List.nil_append, hstop]
  simp [responses, Except.bind, hfinish]

end SessionSetup

end Dssh
