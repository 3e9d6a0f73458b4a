import Dssh.Forward.Tunnel
import Dssh.Lib.Backlog

/-!
# A forwarded connection comes to rest

As long as the programs at the ends read, and the target that is connected to answers, a tunnel
has something to do until everything has been delivered: the buffers, which are smaller than the
messages, do not block it, and neither do bytes of the connection that arrive before the answer
has been read. What it does on its own accord comes to an end.

## Safety is not enough

`Transparent` is true of a tunnel that never delivers anything. What is missing is that bytes
which have been sent come out, and for that nobody has to be fair: it is enough to know that a
state in which nothing goes on is one with everything delivered, and that going on is bounded.
Any scheduler then gets there.

`Action.Automatic` says what goes on by itself. The relay tasks do, and the two sides that open
the channel, and the programs that receive. Sending more does not, nor does closing, failing or
giving up, and neither does the answer of the target: it may take as long as it likes.

## Where it could block

Each buffer is bounded, and the opening may be longer than all of them. So the handler has to
read while the opener writes, and the other way round for the answer. Behind the answer there
may be bytes of the connection already, since the handler goes on as soon as it has written:
they wait in the stream until the opener has read the answer, and must not keep it from doing
so. `Place.still_reads` and `Place.awaits` are the two sides of this: while something of a
message is in the stream, the one it is for wants to read.

Three ways of coming to rest are no delivery. The target has not answered, or it cannot be
connected to, and the opener has been told so. Or the rules say that there is no target.
`Settled` has them as cases of their own, with what is known in each.

## The bound

A byte that is still to be written has to be put into the stream, taken, put, and so on: it
counts four steps, and one in the stream what its station says (`Stations.backlog`, from the
library). Every automatic action makes the sum smaller (`backlog_step`), and the answer that a
handler might still give is paid for in advance, by `answerLength`.

## Main definitions

* `Action.Automatic`, `Idle` — what goes on by itself, and a tunnel in which nothing does
* `Settled` — how a tunnel may come to rest
* `backlog`, `Healthy` — the measure, and the tunnels it is for

## Main results

* `Tunnel.Inv.settled` — where nothing goes on, everything has been delivered
* `Tunnel.Inv.settles` — something goes on for a bounded number of steps only
-/

namespace Dssh

namespace Tunnel

open Stations

variable {ε δ : Type} {coming : List UInt8} {writes reads connected : Bool} {p p' : Pipeline UInt8}
  {op : Pipeline.Op UInt8} {opening : List UInt8} {handler : Decoder ε (Decision δ)}
  {decision : Decision δ} {asked asking answered answering : List UInt8} {t t' : Tunnel ε δ}

/-! ## At rest

An action is automatic if it needs no new input: the tasks of both sides go on, and the programs
at the ends read. A tunnel is idle if no such action is possible. What it looks like then is
found from the invariant, place by place. -/

/-- What goes on by itself, with programs at the ends that read. -/
def Action.Automatic : Action → Prop
  | up (.take _ _) => True
  | up (.learn _) => True
  | up (.receive _) => True
  | up _ => False
  | down (.take _ _) => True
  | down (.learn _) => True
  | down (.receive _) => True
  | down _ => False
  | openerFails _ _ => False
  | handlerFails _ _ => False
  | .connected _ => False
  | _ => True

/-- Nothing goes on by itself. -/
structure Idle (t : Tunnel ε δ) : Prop where
  /-- No action that goes on by itself is possible. -/
  automatic : ∀ a : Action, a.Automatic → t.step a = none
  /-- The end has been told to the endpoint, or cannot be yet. -/
  upEof : t.up.eof = true ∨ t.step (.up .receiveEof) = none
  /-- The same for the way back. -/
  downEof : t.down.eof = true ∨ t.step (.down .receiveEof) = none

/-- What two relays do that can do nothing. -/
theorem flowStep_eq_none (h : p.step op = none) : flowStep writes reads connected p op = none := by
  rw [flowStep]
  split
  · split_ifs <;> first | exact h | rfl
  · split_ifs <;> first | exact h | rfl
  · split_ifs <;> first | exact h | rfl
  · exact h
  · rfl

/-- Where both sides relay and nothing is under way, nothing goes on. -/
theorem idle_of_still (hopener : t.opener = .relaying) (hhandler : t.handler = .relaying)
    (hup : t.up.Still) (hdown : t.down.Still) : t.Idle where
  automatic a ha := by
    cases a with
    | up op | down op =>
      refine Option.map_eq_none_iff.mpr (flowStep_eq_none ?_)
      cases op with
      | take i n => first | exact hup.take_eq_none i n | exact hdown.take_eq_none i n
      | learn i => first | exact hup.learn_eq_none i | exact hdown.learn_eq_none i
      | receive n => first | exact hup.receive_eq_none n | exact hdown.receive_eq_none n
      | _ => exact absurd ha id
    | openerFails | handlerFails | connected => exact absurd ha id
    | openerWrites | openerFlushes | openerReads => simp only [Tunnel.step, hopener]
    | handlerReads | handlerWrites | handlerFlushes => simp only [Tunnel.step, hhandler]
  upEof := hup.receiveEof.imp_right fun hnone =>
    Option.map_eq_none_iff.mpr (flowStep_eq_none hnone)
  downEof := hdown.receiveEof.imp_right fun hnone =>
    Option.map_eq_none_iff.mpr (flowStep_eq_none hnone)

/-- Everything that has been sent has arrived, and so has the end. -/
def Delivered (p : Pipeline UInt8) : Prop :=
  p.received = p.sent ∧ (Closed p.stations → p.eof = true)

/-- How a tunnel may come to rest. -/
inductive Settled (t : Tunnel ε δ) (decision : Decision δ) : Prop
  | delivered : t.opener = .relaying → t.handler = .relaying → Delivered t.up → Delivered t.down →
    Settled t decision
  /-- The target has not answered. -/
  | connecting (endpoint : δ) : t.handler = .connecting endpoint → Settled t decision
  /-- The opener has read a failure, or something that is none, and the handler has written one. -/
  | refused (e : AwaitOpenError) (rest : List UInt8) : t.opener = .awaiting (.fail e) →
    t.handler = .answering false rest → Settled t decision
  /-- The handler gives up without an answer. -/
  | dropped : decision = .drop → t.handler = .reading (.done .drop) → Settled t decision

/-- A message is in front of everything, so a byte of it fits if the stream has room. -/
theorem Line.putAt_ne_none (h : Line [] false reads p) (hw : Whole p.stations) (b : UInt8) :
    p.putAt 2 [b] ≠ none := by
  obtain ⟨flow, rfl, -, hlength, hcapacity, hunwritten, -⟩ := h
  have hlt : 2 < flow.stations.length := by omega
  have ha : flow.stations[2]? = some flow.stations[2] := List.getElem?_eq_getElem hlt
  have hmem : flow.stations[2] ∈ flow.stations := List.getElem_mem hlt
  obtain ⟨hheld, hopen⟩ := hunwritten rfl _ ha
  have hw' : Whole flow.stations := whole_precede.mp hw
  exact Pipeline.putAt_preceded_ne_none ha
    ⟨hw' _ hmem, hopen hw', by rw [hheld]; exact Nat.zero_le _⟩ (hcapacity _ hmem) hheld rfl

/-- A byte of a message that is in the stream can be taken. -/
theorem Line.pullAt_ne_none {b : UInt8} (h : Line (b :: coming) writes reads p) :
    p.pullAt 2 ≠ none := by
  obtain ⟨flow, rfl, -, hlength, -⟩ := h
  exact Pipeline.pullAt_preceded_ne_none (by omega)

/-- Between relay tasks on both sides the pipeline is on its own. -/
theorem flowStep_relaying (h : worker op ≠ none) : flowStep true true true p op = p.step op := by
  rw [flowStep]
  split
  all_goals first | rfl | exact absurd ‹_› h

/-- A direction in which nothing goes on has delivered everything. -/
theorem Line.delivered (h : Line [] writes reads p) (hw : Whole p.stations)
    (htake : ∀ i, Tunnel.flowStep true true true p (.take i 1) = none)
    (hlearn : ∀ i, Tunnel.flowStep true true true p (.learn i) = none)
    (hreceive : Tunnel.flowStep true true true p (.receive 1) = none)
    (heof : p.eof = true ∨ Tunnel.flowStep true true true p .receiveEof = none) : Delivered p := by
  obtain ⟨flow, heq, hinv, -, hcapacity, -⟩ := h
  obtain rfl : p = flow := heq.trans (Pipeline.preceded_nil 2 flow)
  refine hinv.delivered_of_idle hw hcapacity (fun i => ?_) (fun i => ?_) hreceive heof
  · rw [← htake i, flowStep_relaying (by simp [worker])]
  · rw [← hlearn i, flowStep_relaying (by simp [worker])]

/-- While something of the opening is in the stream, the handler reads. -/
theorem Place.still_reads (h : Place opening handler asked asking answered answering t)
    (haccepts : handler.Accepts opening decision) (hne : asking ≠ [])
    (hended : t.handler ≠ .ended) :
    ∃ io k, t.handler = .reading (.read io k) := by
  have hquestion := h.question
  have key : ∀ decision', ¬ handler.Accepts asked decision' := fun decision' hasked =>
    hne (h.of_accepts haccepts hasked).2.2.1
  match hside : t.handler with
  | .reading (.read io k) => exact ⟨io, k, rfl⟩
  | .reading (.done decision') =>
    rw [hside] at hquestion
    exact absurd hquestion (key decision')
  | .reading (.fail e) =>
    rw [hside] at hquestion
    obtain ⟨rest, hopening, -⟩ := h.opening
    obtain ⟨-, heq⟩ := Decoder.after_halted_unique hquestion (Decoder.halted_fail e) haccepts
      (Decoder.halted_done _) (hopening.symm.trans (List.append_nil _).symm)
    cases heq
  | .connecting endpoint =>
    rw [hside] at hquestion
    exact absurd hquestion (key _)
  | .answering _ _ =>
    rw [hside] at hquestion
    exact absurd hquestion.choose_spec (key _)
  | .relaying =>
    rw [hside] at hquestion
    exact absurd hquestion.choose_spec (key _)
  | .ended => exact absurd hside hended

/-- What is in the stream to the handler gets read. -/
theorem Place.asking_nil (h : Place opening handler asked asking answered answering t)
    (haccepts : handler.Accepts opening decision) (hended : t.handler ≠ .ended)
    (hidle : t.step .handlerReads = none) : asking = [] := by
  cases hasking : asking with
  | nil => rfl
  | cons b asking' =>
    subst hasking
    obtain ⟨io, k, hhandler⟩ := h.still_reads haccepts (List.cons_ne_nil b asking') hended
    simp only [Tunnel.step, hhandler] at hidle
    exact absurd (Option.map_eq_none_iff.mp hidle) h.up.pullAt_ne_none

/-- What an opener that waits waits for. -/
theorem Place.awaits {d : Decoder AwaitOpenError Unit}
    (h : Place opening handler asked asking answered answering t) (hopener : t.opener = .awaiting d)
    (hidle : t.step .openerReads = none) :
    (∃ e, d = .fail e) ∨ answering = [] ∧ ∃ io k, d = .read io k := by
  cases d with
  | done =>
    simp [Tunnel.step, hopener] at hidle
  | fail e => exact .inl ⟨e, rfl⟩
  | read io k =>
    refine .inr ⟨?_, io, k, rfl⟩
    cases answering with
    | nil => rfl
    | cons b answering =>
      simp only [Tunnel.step, hopener] at hidle
      exact absurd (Option.map_eq_none_iff.mp hidle) h.down.pullAt_ne_none

/-- A failure is read to its end, unless its description is too long. -/
theorem Refusal.after (hrefusal : Refusal handler asked answered)
    (hbounded : ∀ reasonCode description, handler.Accepts asked (.reject reasonCode description) →
      description.utf8.length ≤ maxRemoteFieldSize) :
    ∃ e, readChannelOpenResponse.after answered = some (.fail e) := by
  have key : ∀ (reasonCode : VarInt) {description : SshString},
      description.utf8.length ≤ maxRemoteFieldSize →
      readChannelOpenResponse.after (PendingChannel.reject reasonCode description) =
        some (.fail (.rejected ⟨reasonCode, description⟩)) := by
    intro reasonCode description hlength
    refine Decoder.Accepts.after_bind (VarInt.accepts_encode _ _) ?_
    rw [if_neg (by decide), if_pos rfl]
    refine Decoder.Accepts.after_bind (VarInt.accepts_encode _ _) ?_
    exact Decoder.Accepts.after_bind
      (Decoder.accepts_mapError.mpr (SshString.accepts_encode hlength)) rfl
  cases hrefusal with
  | connectFailed => exact ⟨_, key (.ofNat 2) (by decide)⟩
  | rejected hasked => exact ⟨_, key _ (hbounded _ _ hasked)⟩

/-- The opener does not fail on a confirmation. -/
theorem not_fails_confirmation {e : AwaitOpenError} {xs ys : List UInt8}
    (h : xs ++ ys = confirmation) : readChannelOpenResponse.after xs ≠ some (.fail e) := by
  intro hafter
  obtain ⟨-, heq⟩ := Decoder.after_halted_unique hafter (Decoder.halted_fail e) accepts_confirmation
    (Decoder.halted_done ()) (h.trans (List.append_nil _).symm)
  cases heq

/-- An opener in a tunnel at rest: it relays, has failed, or has nothing to read. -/
theorem Place.opener_idle (h : Place opening handler asked asking answered answering t)
    (haccepts : handler.Accepts opening decision) (hw : Whole t.up.stations)
    (hopener : ∀ e, t.opener ≠ .refused e) (hended : t.handler ≠ .ended) (hidle : t.Idle) :
    t.opener = .relaying ∨ (∃ e, t.opener = .awaiting (.fail e)) ∨
      answering = [] ∧ ∃ io k, t.opener = .awaiting (.read io k) := by
  have hasking := h.asking_nil haccepts hended (hidle.automatic .handlerReads trivial)
  match hside : t.opener with
  | .opening [] =>
    have hflush := hidle.automatic .openerFlushes trivial
    simp [Tunnel.step, hside] at hflush
  | .opening (b :: rest) =>
    have hup := h.up
    rw [hside, hasking] at hup
    have hwrite := hidle.automatic (.openerWrites 1) trivial
    simp only [Tunnel.step, hside] at hwrite
    rw [if_pos ⟨Nat.one_pos, Nat.succ_le_succ (Nat.zero_le _)⟩] at hwrite
    exact absurd (Option.map_eq_none_iff.mp hwrite) (hup.putAt_ne_none hw b)
  | .awaiting d =>
    rcases h.awaits hside (hidle.automatic .openerReads trivial) with ⟨e, rfl⟩ | ⟨hnil, io, k, rfl⟩
    · exact .inr (.inl ⟨e, rfl⟩)
    · exact .inr (.inr ⟨hnil, io, k, rfl⟩)
  | .relaying => exact .inl rfl
  | .refused e => exact absurd hside (hopener e)

/-- **Coming to rest.** If nothing has failed, no side has given up and nothing goes on by itself,
then everything has been delivered, the target has not answered, or the connection has been refused.
-/
theorem Inv.settled (haccepts : handler.Accepts opening decision)
    (hbounded : ∀ reasonCode description, decision = .reject reasonCode description →
      description.utf8.length ≤ maxRemoteFieldSize)
    (hI : Inv opening handler t) (hup : Whole t.up.stations) (hdown : Whole t.down.stations)
    (hopener : ∀ e, t.opener ≠ .refused e) (hended : t.handler ≠ .ended) (hidle : t.Idle) :
    t.Settled decision := by
  obtain ⟨asked, asking, answered, answering, h⟩ := hI
  have hasking := h.asking_nil haccepts hended (hidle.automatic .handlerReads trivial)
  have hside := h.opener_idle haccepts hup hopener hended hidle
  have hquestion := h.question
  have hanswer := h.answer
  have hheard := h.heard
  match hhandler : t.handler with
  | .reading d =>
    rw [hhandler] at hquestion
    -- the opening has been written and read, so the decision is there
    obtain ⟨rest, hopening, hrest⟩ := h.opening
    obtain rfl : rest = [] := by
      rcases hside with hside | ⟨e, hside⟩ | ⟨-, io, k, hside⟩
      all_goals
        rw [hside] at hrest
        exact hrest
    rw [hasking, List.append_nil, List.append_nil] at hopening
    rw [← hopening] at hquestion
    obtain rfl : Decoder.done decision = d := Option.some.inj (haccepts.symm.trans hquestion)
    have hreads := hidle.automatic .handlerReads trivial
    cases decision with
    | connect endpoint => simp [Tunnel.step, hhandler] at hreads
    | reject reasonCode description => simp [Tunnel.step, hhandler] at hreads
    | drop => exact .dropped rfl hhandler
  | .connecting endpoint => exact .connecting endpoint hhandler
  | .answering ok rest =>
    rw [hhandler] at hquestion hanswer
    -- a handler that cannot write on is behind an answer that the opener does not read
    have hfull : rest ≠ [] → answering ≠ [] := by
      rintro hne rfl
      obtain ⟨b, rest, rfl⟩ := List.exists_cons_of_ne_nil hne
      have hline := h.down
      rw [hhandler] at hline
      have hwrite := hidle.automatic (.handlerWrites 1) trivial
      simp only [Tunnel.step, hhandler] at hwrite
      rw [if_pos ⟨Nat.one_pos, Nat.succ_le_succ (Nat.zero_le _)⟩] at hwrite
      exact absurd (Option.map_eq_none_iff.mp hwrite) (hline.putAt_ne_none hdown b)
    have hflush : ¬ (ok = true ∧ rest = []) := by
      rintro ⟨rfl, rfl⟩
      have hflush := hidle.automatic .handlerFlushes trivial
      simp [Tunnel.step, hhandler] at hflush
    rcases hside with hside | ⟨e, hside⟩ | ⟨hnil, io, k, hside⟩
    · rw [hside] at hheard
      obtain ⟨-, -, heq | heq | ⟨heq, -⟩⟩ := hanswer.confirmed hheard
      · obtain ⟨rfl, rfl⟩ := Handler.answering.inj heq
        exact absurd ⟨rfl, rfl⟩ hflush
      · cases heq
      · cases heq
    · cases ok with
      | true =>
        rw [hside] at hheard
        have hmessage : answered ++ answering ++ rest = confirmation := hanswer
        rw [List.append_assoc] at hmessage
        exact absurd hheard (not_fails_confirmation hmessage)
      | false => exact .refused e rest hside hhandler
    · have hrest : rest = [] := by
        by_contra hne
        exact hfull hne hnil
      cases ok with
      | true => exact absurd ⟨rfl, hrest⟩ hflush
      | false =>
        -- the whole failure has been read
        subst hrest
        subst hnil
        rw [hside] at hheard
        rw [Handler.HasWritten, List.append_nil, List.append_nil] at hanswer
        obtain ⟨e, hfail⟩ := hanswer.after fun reasonCode description hasked =>
          hbounded reasonCode description (h.of_accepts haccepts hasked).1.symm
        cases hheard.symm.trans hfail
  | .relaying =>
    rw [hhandler] at hquestion hanswer
    have hmessage : answered ++ answering = confirmation := hanswer
    rcases hside with hside | ⟨e, hside⟩ | ⟨rfl, io, k, hside⟩
    · have hanswering := h.answering_eq (by rw [hside]; rfl)
      have hupline := h.up
      have hdownline := h.down
      rw [hasking] at hupline
      rw [hanswering] at hdownline
      have hidleUp : ∀ op : Pipeline.Op UInt8, (Action.up op).Automatic →
          flowStep true true true t.up op = none := by
        intro op hop
        have hnone := hidle.automatic (.up op) hop
        simp only [Tunnel.step, hside, hhandler] at hnone
        exact Option.map_eq_none_iff.mp hnone
      have hidleDown : ∀ op : Pipeline.Op UInt8, (Action.down op).Automatic →
          flowStep true true true t.down op = none := by
        intro op hop
        have hnone := hidle.automatic (.down op) hop
        simp only [Tunnel.step, hside, hhandler] at hnone
        exact Option.map_eq_none_iff.mp hnone
      refine .delivered hside hhandler
        (hupline.delivered hup (fun i => hidleUp _ trivial) (fun i => hidleUp _ trivial)
          (hidleUp _ trivial) (hidle.upEof.imp id fun hnone => ?_))
        (hdownline.delivered hdown (fun i => hidleDown _ trivial) (fun i => hidleDown _ trivial)
          (hidleDown _ trivial) (hidle.downEof.imp id fun hnone => ?_))
      · simp only [Tunnel.step, hside, hhandler] at hnone
        exact Option.map_eq_none_iff.mp hnone
      · simp only [Tunnel.step, hside, hhandler] at hnone
        exact Option.map_eq_none_iff.mp hnone
    · rw [hside] at hheard
      exact absurd hheard (not_fails_confirmation hmessage)
    · rw [hside] at hheard
      rw [List.append_nil] at hmessage
      rw [hmessage] at hheard
      cases accepts_confirmation.symm.trans hheard
  | .ended => exact absurd hhandler hended

/-! ## It comes to an end

Each automatic action lowers a number. It counts the bytes under way by the stations they have
still to pass, what the two sides have still to write, and the answer that may come. -/

/-- The length of the answer that a handler may give without connecting. -/
def answerLength : Decision δ → ℕ
  | .reject reasonCode description => (PendingChannel.reject reasonCode description).length
  | _ => 0

/-- What the opener may still do. -/
def Opener.backlog : Opener → ℕ
  | .opening rest => 4 * rest.length + 3
  | .awaiting _ => 2
  | _ => 0

/-- What the handler may still do, with an answer of up to `n` bytes. -/
def Handler.backlog (n : ℕ) : Handler ε δ → ℕ
  | .reading _ => 4 * n + 3
  | .connecting _ => 1
  | .answering _ rest => 4 * rest.length + 1
  | _ => 0

/-- How much a tunnel can do on its own accord, where the handler decides so. A byte that is still
to be written counts for more than one in the stream. -/
def backlog (decision : Decision δ) (t : Tunnel ε δ) : ℕ :=
  t.opener.backlog + t.handler.backlog (answerLength decision) + Stations.backlog t.up.stations +
    Stations.backlog t.down.stations

/-- What goes on by itself in one direction is work of its stations. -/
theorem backlog_flowStep (hop : op.Moves) (h : flowStep writes reads connected p op = some p') :
    Stations.backlog p'.stations < Stations.backlog p.stations :=
  Pipeline.backlog_step hop (flowStep_eq_some h).1

/-- An automatic action is paid for. -/
theorem backlog_step {a : Action} (haccepts : handler.Accepts opening decision)
    (hI : Inv opening handler t) (ha : a.Automatic) (hstep : t.step a = some t') :
    t'.backlog decision < t.backlog decision := by
  cases a with
  | up op =>
    obtain ⟨up, hup, rfl⟩ := Option.map_eq_some_iff.mp hstep
    have hop : op.Moves := by cases op <;> exact ha
    exact Nat.add_lt_add_right (Nat.add_lt_add_left (backlog_flowStep hop hup) _) _
  | down op =>
    obtain ⟨down, hdown, rfl⟩ := Option.map_eq_some_iff.mp hstep
    have hop : op.Moves := by cases op <;> exact ha
    exact Nat.add_lt_add_left (backlog_flowStep hop hdown) _
  | openerWrites n =>
    simp only [Tunnel.step] at hstep
    split at hstep
    case h_1 rest hopener =>
      obtain ⟨⟨hpos, hle⟩, hstep⟩ := Option.ite_none_right_eq_some.mp hstep
      obtain ⟨up, hup, rfl⟩ := Option.map_eq_some_iff.mp hstep
      have hlength := Pipeline.backlog_putAt hup
      simp only [backlog, hopener, Opener.backlog, List.length_drop, List.length_take] at hlength ⊢
      omega
    case h_2 => cases hstep
  | openerFlushes =>
    simp only [Tunnel.step] at hstep
    split at hstep
    case h_1 hopener =>
      obtain rfl := Option.some.inj hstep
      simp only [backlog, hopener, Opener.backlog]
      omega
    case h_2 => cases hstep
  | openerReads =>
    simp only [Tunnel.step] at hstep
    split at hstep
    case h_1 io k hopener =>
      obtain ⟨⟨b, down⟩, hpull, rfl⟩ := Option.map_eq_some_iff.mp hstep
      have hlength := Pipeline.backlog_pullAt hpull
      simp only [backlog, hopener, Opener.backlog]
      omega
    case h_2 hopener =>
      obtain rfl := Option.some.inj hstep
      simp only [backlog, hopener, Opener.backlog]
      omega
    case h_3 => cases hstep
  | handlerReads =>
    simp only [Tunnel.step] at hstep
    split at hstep
    case h_1 io k hhandler =>
      obtain ⟨⟨b, up⟩, hpull, rfl⟩ := Option.map_eq_some_iff.mp hstep
      have hlength := Pipeline.backlog_pullAt hpull
      simp only [backlog, hhandler, Handler.backlog]
      omega
    case h_2 endpoint hhandler =>
      obtain rfl := Option.some.inj hstep
      simp only [backlog, hhandler, Handler.backlog]
      omega
    case h_3 reasonCode description hhandler =>
      obtain rfl := Option.some.inj hstep
      -- the decision is the one that the opening leads to
      obtain ⟨asked, asking, answered, answering, h⟩ := hI
      have hquestion := h.question
      rw [hhandler] at hquestion
      obtain rfl := (h.of_accepts haccepts hquestion).1
      simp only [backlog, hhandler, Handler.backlog, answerLength]
      omega
    case h_4 => cases hstep
  | handlerWrites n =>
    simp only [Tunnel.step] at hstep
    split at hstep
    case h_1 ok rest hhandler =>
      obtain ⟨⟨hpos, hle⟩, hstep⟩ := Option.ite_none_right_eq_some.mp hstep
      obtain ⟨down, hdown, rfl⟩ := Option.map_eq_some_iff.mp hstep
      have hlength := Pipeline.backlog_putAt hdown
      simp only [backlog, hhandler, Handler.backlog, List.length_drop, List.length_take]
        at hlength ⊢
      omega
    case h_2 => cases hstep
  | handlerFlushes =>
    simp only [Tunnel.step] at hstep
    split at hstep
    case h_1 hhandler =>
      obtain rfl := Option.some.inj hstep
      simp only [backlog, hhandler, Handler.backlog]
      omega
    case h_2 => cases hstep
  | openerFails | handlerFails | connected => exact ha.elim

/-- Nothing has failed, and no side has given up. -/
structure Healthy (t : Tunnel ε δ) : Prop where
  /-- No station on the way has failed … -/
  up : Whole t.up.stations
  /-- … nor on the way back. -/
  down : Whole t.down.stations
  /-- The channel has not been refused. -/
  opener : ∀ e, t.opener ≠ .refused e
  /-- The handler has not given the channel up. -/
  handler : t.handler ≠ .ended

/-- Nothing fails by itself. -/
theorem Healthy.step {a : Action} (h : t.Healthy) (ha : a.Automatic) (hstep : t.step a = some t') :
    t'.Healthy := by
  cases a with
  | up op =>
    obtain ⟨up, hup, rfl⟩ := Option.map_eq_some_iff.mp hstep
    have hop : op.Moves := by cases op <;> exact ha
    exact { h with up := Pipeline.whole_moves hop h.up (flowStep_eq_some hup).1 }
  | down op =>
    obtain ⟨down, hdown, rfl⟩ := Option.map_eq_some_iff.mp hstep
    have hop : op.Moves := by cases op <;> exact ha
    exact { h with down := Pipeline.whole_moves hop h.down (flowStep_eq_some hdown).1 }
  | openerWrites n =>
    simp only [Tunnel.step] at hstep
    split at hstep
    case h_1 =>
      obtain ⟨-, hstep⟩ := Option.ite_none_right_eq_some.mp hstep
      obtain ⟨up, hup, rfl⟩ := Option.map_eq_some_iff.mp hstep
      exact { h with up := (Pipeline.whole_putAt hup).mpr h.up, opener := by simp }
    case h_2 => cases hstep
  | openerFlushes =>
    simp only [Tunnel.step] at hstep
    split at hstep
    case h_1 =>
      obtain rfl := Option.some.inj hstep
      exact { h with opener := by simp }
    case h_2 => cases hstep
  | openerReads =>
    simp only [Tunnel.step] at hstep
    split at hstep
    case h_1 =>
      obtain ⟨⟨b, down⟩, hpull, rfl⟩ := Option.map_eq_some_iff.mp hstep
      exact { h with down := (Pipeline.whole_pullAt hpull).mpr h.down, opener := by simp }
    case h_2 =>
      obtain rfl := Option.some.inj hstep
      exact { h with opener := by simp }
    case h_3 => cases hstep
  | handlerReads =>
    simp only [Tunnel.step] at hstep
    split at hstep
    case h_1 =>
      obtain ⟨⟨b, up⟩, hpull, rfl⟩ := Option.map_eq_some_iff.mp hstep
      exact { h with up := (Pipeline.whole_pullAt hpull).mpr h.up, handler := by simp }
    case h_2 | h_3 =>
      obtain rfl := Option.some.inj hstep
      exact { h with handler := by simp }
    case h_4 => cases hstep
  | handlerWrites n =>
    simp only [Tunnel.step] at hstep
    split at hstep
    case h_1 =>
      obtain ⟨-, hstep⟩ := Option.ite_none_right_eq_some.mp hstep
      obtain ⟨down, hdown, rfl⟩ := Option.map_eq_some_iff.mp hstep
      exact { h with down := (Pipeline.whole_putAt hdown).mpr h.down, handler := by simp }
    case h_2 => cases hstep
  | handlerFlushes =>
    simp only [Tunnel.step] at hstep
    split at hstep
    case h_1 =>
      obtain rfl := Option.some.inj hstep
      exact { h with handler := by simp }
    case h_2 => cases hstep
  | openerFails | handlerFails | connected => exact ha.elim

/-- **What a tunnel does on its own accord is bounded**, and ends with everything delivered, the
target silent or the connection refused. -/
theorem Inv.settles {up down : Windows} (haccepts : handler.Accepts opening decision)
    (hbounded : ∀ reasonCode description, decision = .reject reasonCode description →
      description.utf8.length ≤ maxRemoteFieldSize)
    (hI : Inv opening handler t) (ht : t.Healthy) {as : List Action}
    (has : ∀ a ∈ as, a.Automatic) (hexec : (machine opening handler up down).exec t as = some t') :
    as.length ≤ t.backlog decision ∧ (t'.Idle → t'.Settled decision) := by
  obtain ⟨⟨hI', ht'⟩, hlength⟩ := Machine.exec_bounded_of
    (I := fun t => Inv opening handler t ∧ t.Healthy) (μ := backlog decision)
    (fun hs ha hstep => ⟨⟨hs.1.step haccepts hstep, hs.2.step ha hstep⟩,
      backlog_step haccepts hs.1 ha hstep⟩) has ⟨hI, ht⟩ hexec
  exact ⟨by omega, fun hidle =>
    hI'.settled haccepts hbounded ht'.up ht'.down ht'.opener ht'.handler hidle⟩

/-! ## A tunnel that is used

A run with bytes in both directions and an end, for the two kinds of rules, so that what is
proved about tunnels at rest can be seen on one. -/

/-- Sockets of four bytes, and a stream of 64. -/
def smallWindows : Windows := ⟨4, 64, 4, by decide, by decide, by decide⟩

/-- The opening of `n` bytes is read, and answered. -/
def openedRun (n : ℕ) : List Action :=
  [.openerWrites n, .openerFlushes] ++ List.replicate (n + 1) .handlerReads ++
    [.connected true, .handlerWrites 6, .handlerFlushes] ++ List.replicate 7 .openerReads

/-- Two bytes and the end get through one way, and two bytes are sent the other. -/
def answeredRun (n : ℕ) : List Action :=
  openedRun n ++ [.up (.send [104, 105]), .up (.take 3 2), .up (.take 2 2), .up (.take 1 2),
    .up (.take 0 2), .up (.receive 2), .up .close, .up (.learn 3), .up (.learn 2), .up (.learn 1),
    .up (.learn 0), .up .receiveEof, .down (.send [111, 107])]

/-- What goes on then. -/
def restRun : List Action :=
  [.down (.take 3 2), .down (.take 2 2), .down (.take 1 2), .down (.take 0 2), .down (.receive 2)]

/-- Both directions have been used, and nothing of the opening is left. -/
def Used (t : Tunnel ε δ) : Bool :=
  t.opener.relays && t.handler.relays && decide (t.up.Still ∧ t.down.Still) &&
    decide (t.up.received = [104, 105] ∧ t.up.eof = true ∧ t.down.received = [111, 107])

/-- Whether a tunnel is in order, and both sides relay. -/
def inOrder (t : Tunnel ε δ) : Bool :=
  t.opener.relays && t.handler.relays && t.up.stations.all (!·.failed) &&
    t.down.stations.all (!·.failed)

/-- The test for it, in a run. -/
theorem healthy_of_inOrder (h : t.inOrder = true) : t.Healthy := by
  simp only [inOrder, Bool.and_eq_true, List.all_eq_true, Bool.not_eq_true'] at h
  obtain ⟨⟨⟨hopener, hhandler⟩, hup⟩, hdown⟩ := h
  exact ⟨hup,
    hdown, by rw [Opener.relays_eq hopener]; nofun, by rw [Handler.relays_eq hhandler]; nofun⟩

/-- Where everything that was sent has arrived, nothing is left to do. -/
theorem idle_of_used (h : t.Used = true) : t.Idle := by
  simp only [Used, Bool.and_eq_true, decide_eq_true_eq] at h
  obtain ⟨⟨⟨hopener, hhandler⟩, hup, hdown⟩, -⟩ := h
  exact idle_of_still (Opener.relays_eq hopener) (Handler.relays_eq hhandler) hup hdown

end Tunnel

end Dssh
