import Dssh.Session.ClientOutput

/-!
# Output that is cut short

What `relay_output` makes of a channel stream that ends in the middle of a message. It takes the
end of the stream for the end of the output where it reads the type of a message, and that is
also what it finds when the stream ends inside the type, or when `io::copy` has come to the end
of the stream inside a payload. Only the rest of a message's head is missed.

## Where the end is a good end

A server may close the stream without a close message, and the client accepts this between two
messages. It recognises the case by the error: `UnexpectedEof` while the type of a message is
read. That is a weaker condition. A type of several bytes may be cut in the middle, with the
same error.

And a payload may be cut. The data of a message is a reader that is limited to the length
announced, and it reports the end of the stream as its own. `io::copy` is content with that and
returns the number of bytes it has copied, which nobody compares. The loop goes on to read the
next type, and finds the end of the stream there: the good case (`cutPayload_succeeds`). Output
is missing, and the client reports no error.

The writer's side of this library compares the two numbers (`data_from`).

## The condition

The stream consists of whole messages and a part of one more. The client returns an error
exactly if the type of that message has arrived completely and the rest of its head has not.
This is a condition on the cut alone. The messages are those that carry output; after a notice
of the exit, errors of the transport are expected, and are no errors.

## Main definitions

* `ClientOutput.IsOutput` — the messages that carry output
* `ChannelMessage.messageType`, `ChannelMessage.fields` — the two parts of a head

## Main results

* `ClientOutput.cut_fails_iff` — a stream that is cut inside a message is an error exactly if
  the cut is behind the type of the message and before its payload
* `ClientOutput.cutPayload_succeeds` — one that is cut in a payload
-/

namespace Dssh

namespace ChannelMessage

/-! ## Heads in two parts

The type of a message is read with an error of its own: a stream that ends there is taken for a
channel that has been closed. The fields behind it are read with other errors. -/

/-- The messages that carry output. -/
inductive IsOutput : ChannelMessage → Prop
  | data {bytes : List UInt8} (h : bytes.length < 2 ^ 62) : IsOutput (.data bytes)
  | extendedData {dataType : VarInt} {bytes : List UInt8} (h : bytes.length < 2 ^ 62) :
      IsOutput (.extendedData dataType bytes)
  | eof : IsOutput .eof

/-- Such a message can be written. -/
theorem IsOutput.writable {m : ChannelMessage} (h : IsOutput m) : m.Writable := by
  cases h with
  | data h => exact h
  | extendedData h => exact h
  | eof => trivial

/-- The number that a message starts with. -/
def messageType : ChannelMessage → VarInt
  | data _ => sshMsgChannelData
  | extendedData _ _ => sshMsgChannelExtendedData
  | request _ _ => sshMsgChannelRequest
  | success => sshMsgChannelSuccess
  | failure => sshMsgChannelFailure
  | eof => sshMsgChannelEof
  | close => sshMsgChannelClose

/-- What follows the type in the head of a message. -/
def fields : ChannelMessage → List UInt8
  | data bytes => (VarInt.ofNat bytes.length).encode
  | extendedData dataType bytes => dataType.encode ++ (VarInt.ofNat bytes.length).encode
  | request rq wantReply => rq.requestType.encode ++ SshBool.encode wantReply
  | _ => []

/-- A head is the type and the fields. -/
theorem head_eq (m : ChannelMessage) : m.head = m.messageType.encode ++ m.fields := by
  cases m <;> simp [head, messageType, fields]

/-- How the fields are read. -/
def readFields : ChannelMessage → Decoder ReadChannelEventError ReaderEvent
  | data _ => (VarInt.decoder .decodeData).bind fun len => .done (.data len.val)
  | extendedData _ _ =>
    (VarInt.decoder .decodeExtendedDataType).bind fun dataType =>
      (VarInt.decoder .decodeExtendedData).bind fun len => .done (.extendedData dataType len.val)
  | _ => .done .eof

/-- Behind the type, the fields are read. -/
theorem after_messageType {m : ChannelMessage} (h : IsOutput m) :
    SshChannelReader.nextEvent.after m.messageType.encode = some m.readFields := by
  have htype : ∀ v, (VarInt.decoder ReadChannelEventError.decodeMessageType).Accepts
      (VarInt.encode v) v := VarInt.accepts_encode _
  cases h with
  | data h => exact Decoder.after_bind (htype sshMsgChannelData) _
  | extendedData h => exact Decoder.after_bind (htype sshMsgChannelExtendedData) _
  | eof => exact Decoder.after_bind (htype sshMsgChannelEof) _

/-- The end of the stream inside the fields is not taken for the end of the output. -/
theorem readFields_reports {m : ChannelMessage} (h : IsOutput m) :
    m.readFields.Reports (· ≠ .decodeMessageType) := by
  cases h with
  | data h => exact (VarInt.reports (by simp)).bind fun _ => trivial
  | extendedData h =>
    exact (VarInt.reports (by simp)).bind fun _ => (VarInt.reports (by simp)).bind fun _ => trivial
  | eof => trivial

/-- It is announced by an event. -/
theorem IsOutput.exists_event {m : ChannelMessage} (h : IsOutput m) :
    ∃ event, m.event.toReader = .done event := by
  cases h with
  | data h => exact ⟨_, rfl⟩
  | extendedData h => exact ⟨_, rfl⟩
  | eof => exact ⟨_, rfl⟩

/-- The fields are read to their end. -/
theorem readFields_accepts {m : ChannelMessage} (h : IsOutput m) :
    ∃ event, m.readFields.Accepts m.fields event := by
  obtain ⟨event, hevent⟩ := h.exists_event
  have haccepts := accepts_head_reader h.writable hevent
  rw [head_eq, Decoder.Accepts, Decoder.after_append, after_messageType h,
    Option.bind_some] at haccepts
  exact ⟨event, haccepts⟩

end ChannelMessage

namespace ClientOutput

open ChannelMessage (IsOutput)

variable {m : ChannelMessage} {xs ys : List UInt8}

/-! ## A turn on a message that is cut

Three places for a cut, with three outcomes. -/

/-- Inside the type: the end of the output, for the client. -/
theorem turn_cut_type (h : m.messageType.encode = xs ++ ys) (hys : ys ≠ []) (s : ClientOutput) :
    turn s xs = .stop (.ok s.exitResult, s) [] := by
  have haccepts : (VarInt.decoder ReadChannelEventError.decodeMessageType).Accepts (xs ++ ys)
      m.messageType := h ▸ VarInt.accepts_encode _ m.messageType
  obtain ⟨e, rfl, hout⟩ := haccepts.outcome_cut (VarInt.reports rfl) hys
  have hevent : SshChannelReader.nextEvent.outcome xs = (.error .decodeMessageType, []) :=
    Decoder.outcome_bind_error hout _
  rw [turn, hevent]

/-- Behind the type. -/
theorem turn_cut_fields (hm : IsOutput m) (h : m.fields = xs ++ ys) (hys : ys ≠ [])
    {s : ClientOutput} (hs : s.exitResult = none) :
    ∃ e, turn s (m.messageType.encode ++ xs) = .stop (.error (.readEvent e), s) [] := by
  obtain ⟨event, haccepts⟩ := ChannelMessage.readFields_accepts hm
  rw [h] at haccepts
  obtain ⟨e, he, hout⟩ := haccepts.outcome_cut (ChannelMessage.readFields_reports hm) hys
  have hevent :
      SshChannelReader.nextEvent.outcome (m.messageType.encode ++ xs) = (.error e, []) := by
    rw [Decoder.outcome_of_after (ChannelMessage.after_messageType hm), hout]
  refine ⟨e, ?_⟩
  rw [turn, hevent]
  split
  · rename_i heq
    cases heq
  · rename_i heq
    cases heq
    exact absurd rfl he
  · rename_i heq
    cases heq
    rw [hs]
    rfl

/-- Inside the payload: `io::copy` copies what there is, and finds nothing wrong. -/
theorem turn_cut_body (hm : IsOutput m) (h : m.body = xs ++ ys) (s : ClientOutput) :
    ∃ s', turn s (m.head ++ xs) = .again s' [] ∧ s'.exitResult = s.exitResult := by
  obtain ⟨event, hevent⟩ := hm.exists_event
  have hturn := turn_eq (ChannelMessage.accepts_head_reader hm.writable hevent) s xs
  rw [hturn]
  cases hm with
  | @data bytes _ =>
    cases hevent
    refine ⟨_, congrArg _ (List.drop_eq_nil_of_le ?_), rfl⟩
    have hbody : bytes = xs ++ ys := h
    rw [hbody, List.length_append]
    exact Nat.le_add_right _ _
  | @extendedData dataType bytes _ =>
    cases hevent
    refine ⟨_, congrArg _ (List.drop_eq_nil_of_le ?_), rfl⟩
    have hbody : bytes = xs ++ ys := h
    rw [hbody, List.length_append]
    exact Nat.le_add_right _ _
  | eof =>
    cases hevent
    obtain ⟨rfl, -⟩ := List.append_eq_nil_iff.mp (Eq.symm h)
    exact ⟨s, rfl, rfl⟩

/-- The end of the stream between two messages. -/
theorem turn_nil (s : ClientOutput) : turn s [] = .stop (.ok s.exitResult, s) [] := rfl

/-- A whole message. -/
theorem turn_output (hm : IsOutput m) (s : ClientOutput) (rest : List UInt8) :
    turn s (m.head ++ m.body ++ rest) = .again (next s m) rest := by
  obtain ⟨event, hevent⟩ := hm.exists_event
  rw [List.append_assoc, turn_eq (ChannelMessage.accepts_head_reader hm.writable hevent)]
  cases hm with
  | data h =>
    cases hevent
    rw [onEvent, ChannelMessage.body, List.take_left, List.drop_left]
    rfl
  | extendedData h =>
    cases hevent
    rw [onEvent, ChannelMessage.body, List.take_left, List.drop_left]
    rfl
  | eof =>
    cases hevent
    rfl

/-- Output says nothing about the exit. -/
theorem exitResult_foldl_next {ms : List ChannelMessage} (hms : ∀ m ∈ ms, IsOutput m)
    (s : ClientOutput) : (ms.foldl next s).exitResult = s.exitResult := by
  induction ms generalizing s with
  | nil => rfl
  | cons m ms ih =>
    obtain ⟨hm, hms⟩ := List.forall_mem_cons.mp hms
    rw [List.foldl_cons, ih hms]
    cases hm <;> rfl

/-! ## Streams that are cut

Whole messages are read as they are; the cut is in the message behind them. -/

/-- What is cut in two consists of two parts: inside the first, or not. -/
theorem cut_append {us vs : List UInt8} (h : xs ++ ys = us ++ vs) :
    (∃ zs, us = xs ++ zs ∧ zs ≠ []) ∨ ∃ zs, xs = us ++ zs ∧ vs = zs ++ ys := by
  rcases List.append_eq_append_iff.mp h with ⟨zs, hus, hys⟩ | hvs
  · by_cases hnil : zs = []
    · refine Or.inr ⟨[], ?_, ?_⟩
      · rw [hus, hnil, List.append_nil, List.append_nil]
      · rw [hys, hnil, List.nil_append, List.nil_append]
    · exact Or.inl ⟨zs, hus, hnil⟩
  · exact Or.inr hvs

/-- What the client returns is not an error. -/
theorem not_fails {bs rest : List UInt8} {s : ClientOutput} {r : Option ExitResult}
    (h : Loop.run turn s bs = some ((.ok r, s), rest)) :
    ¬∃ e s' rest', Loop.run turn s bs = some ((.error e, s'), rest') := by
  rintro ⟨e, s', rest', h'⟩
  rw [h] at h'
  cases h'

/-- One message that is cut, in any state of the client before the exit. -/
theorem run_cut_iff (hm : IsOutput m) (h : xs ++ ys = m.head ++ m.body) {s : ClientOutput}
    (hs : s.exitResult = none) :
    (∃ e s' rest, Loop.run turn s xs = some ((.error e, s'), rest)) ↔
      m.messageType.encode.length ≤ xs.length ∧ xs.length < m.head.length := by
  have hhead : m.head.length = m.messageType.encode.length + m.fields.length := by
    rw [ChannelMessage.head_eq, List.length_append]
  rcases cut_append h with ⟨zs, hxs, hzs⟩ | ⟨us, rfl, hbody⟩
  · have hzs' := List.length_pos_iff.mpr hzs
    have hlength := congrArg List.length hxs
    rw [List.length_append] at hlength
    rw [ChannelMessage.head_eq] at hxs
    rcases cut_append hxs.symm with ⟨us, htype, hus⟩ | ⟨us, rfl, hfields⟩
    · -- inside the type
      have hrun := Loop.run_stop (turn_cut_type htype hus s)
      have hus' := List.length_pos_iff.mpr hus
      have htype' := congrArg List.length htype
      rw [List.length_append] at htype'
      refine iff_of_false (not_fails hrun) ?_
      omega
    · -- behind the type
      obtain ⟨e, hturn⟩ := turn_cut_fields hm hfields hzs hs
      refine iff_of_true ⟨_, _, _, Loop.run_stop hturn⟩ ⟨?_, ?_⟩
      · rw [List.length_append]
        exact Nat.le_add_right _ _
      · omega
  · -- behind the head
    obtain ⟨s', hturn, hs'⟩ := turn_cut_body hm hbody s
    rw [Loop.run_again consumes_turn hturn]
    refine iff_of_false (not_fails (Loop.run_stop (turn_nil s'))) ?_
    rw [List.length_append]
    omega

/-- **A stream that is cut short.** Behind whole messages, the stream ends inside one more. The
client returns an error exactly if the type of that message has arrived and the rest of its head has
not. -/
theorem cut_fails_iff {ms : List ChannelMessage} (hms : ∀ m ∈ ms, IsOutput m) (hm : IsOutput m)
    (h : xs ++ ys = m.head ++ m.body) :
    (∃ e s rest, relayOutput (ChannelMessage.stream ms ++ xs) = some ((.error e, s), rest)) ↔
      m.messageType.encode.length ≤ xs.length ∧ xs.length < m.head.length := by
  have hrun := Loop.run_messages consumes_turn
    (fun m hm s tail => turn_output (hms m hm) s tail) {} xs
  have hrun' : relayOutput (ChannelMessage.stream ms ++ xs) = Loop.run turn (ms.foldl next {}) xs :=
    hrun
  rw [hrun']
  exact run_cut_iff hm h (exitResult_foldl_next hms {})

/-- The type of the second message arrives, and its length does not. -/
theorem cutLength_fails : ∃ e s rest, relayOutput
    (ChannelMessage.stream [.data [104, 105]] ++ sshMsgChannelData.encode) =
      some ((.error e, s), rest) := by
  have hms : ∀ m ∈ [ChannelMessage.data [104, 105]], IsOutput m :=
    List.forall_mem_singleton.mpr (.data (by decide))
  have hm : IsOutput (.data [10]) := .data (by decide)
  have hcut : sshMsgChannelData.encode ++ [1, 10] =
      (ChannelMessage.data [10]).head ++ (ChannelMessage.data [10]).body := by decide
  exact (cut_fails_iff hms hm hcut).mpr (by decide)

/-- **Truncated output.** Five bytes are announced, one arrives, and the client returns as if all
had. -/
theorem cutPayload_succeeds : ¬∀ m xs ys, IsOutput m → xs ++ ys = m.head ++ m.body → xs ≠ [] →
    ys ≠ [] → ∃ e s rest, relayOutput xs = some ((.error e, s), rest) := by
  intro h
  have hrun : relayOutput [64, 94, 5, 104] = some ((.ok none, { stdout := [104] }), []) := by decide
  obtain ⟨e, s, rest, hfails⟩ := h (.data [104, 101, 108, 108, 111]) [64, 94, 5, 104]
    [101, 108, 108, 111] (.data (by decide)) (by decide) (by decide) (by decide)
  rw [hrun] at hfails
  cases hfails

end ClientOutput

end Dssh
