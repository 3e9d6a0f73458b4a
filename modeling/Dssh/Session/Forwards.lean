import Dssh.Conversation.State
import Dssh.Forward.Bind
import Dssh.Lib.JoinSet
import Dssh.Lib.Machine
import Mathlib.Data.List.AList

/-!
# The listeners of a session

A client asks for listeners, and takes its requests back, by global requests. The server keeps a
table of abort handles for either kind of listener: for TCP by the canonical host and the port
that was bound, for Unix sockets by the path. The tasks themselves are in a task set; a handle
is the place of a task there.

Whether a listener can be bound is for the operating system to say, and it may say yes although
the table still has a listener under the same key: a socket file can be unlinked, a name can
resolve differently. The new handle then takes the place of the old one, and dropping a handle
does not abort its task.

## Tables and tasks

There are two books about listeners, and they have to agree. A table says which requests can be
taken back. The set says which tasks there are. A listener that is in the set, alive, and in no
table, cannot be stopped by its client: the request to cancel it is answered with a failure, or
stops another one. It goes on accepting connections until the session ends, and then the session
waits for it.

`AllStored` is the agreement in this direction and `Keyed` in the other, that a handle is the
one of a task which listens under its key. The second one holds always. The first one has an
exception.

## The exception

`insert` replaces, and returns the handle that was there. The source ignores it. That the key of
a live listener is bound again seems impossible, since its socket is still bound. But the key is
a path or a host name and a port, and the socket is an inode or an address. `relinked` is the
simplest way: the file of the socket is unlinked by somebody else, and the path is free.

`Supersedes` says of a step that it does this. It mentions the tables and what the operating
system answers, and nothing that the step does. Along runs, the agreement holds in every state
exactly as long as no step supersedes the handle of a live listener.

## What a request does

`dispatchGlobal` is the source's function, one arm for each kind of request, with the answers as
values. For the proofs, it is summed up in two lemmas. A request that binds spawns a task and
stores its handle (`dispatch_of_boundKey`). Any other request changes nothing, or takes a handle
and aborts its task (`dispatch_of_not_bound`).

## Main definitions

* `Forwards`, `dispatchGlobal` — the tables and the tasks, and what a request does to them
* `Forwards.Live`, `Forwards.AllStored`, `Forwards.Keyed` — the agreement of the two
* `Forwards.Supersedes` — the exception

## Main results

* `Forwards.allStored_iff` — every live listener has a handle in a table, along a run, exactly
  when no forward is bound under the key of a live listener
* `Forwards.relinked_not_stored` — a run where one is
-/

namespace Dssh

open Conversation (Answer)

/-- `u16::try_from` on a number of a `VarInt`. -/
def u16TryFrom (n : VarInt) : Option UInt16 :=
  if n.val < 2 ^ 16 then some (UInt16.ofNat n.val) else none

/-! ## Requests, listeners and tables

The four requests, decoded. A listener has a key, under which its handle is stored: the canonical
host with the bound port, or the path. -/

/-- The global requests that `dispatch_global` knows. -/
inductive ForwardRequest where
  | tcpipForward (r : TcpipForwardRequest)
  | cancelTcpipForward (r : CancelTcpipForwardRequest)
  | streamlocalForward (r : StreamlocalForwardRequest)
  | cancelStreamlocalForward (r : CancelStreamlocalForwardRequest)
  deriving DecidableEq

/-- What a listener task listens on. -/
inductive Listener where
  | tcp (listener : TcpForwardListener)
  | unix (socketPath : String)
  deriving DecidableEq

/-- A canonical host and a port, or a path. -/
abbrev ForwardKey := (String × UInt16) ⊕ String

/-- What its handle is stored under. -/
def Listener.key : Listener → ForwardKey
  | tcp l => .inl (l.advertisedHost, l.boundPort)
  | unix socketPath => .inr socketPath

/-- A listener task: whether it has been polled, and how many accept loops it runs. -/
structure ForwardTask where
  /-- What it accepts from. -/
  listener : Listener
  /-- Polled at least once. -/
  started : Bool := false
  /-- Of its sockets. -/
  loops : ℕ := 0
  deriving DecidableEq

/-- `tcp_forwards`, `unix_forwards` and `forward_tasks`. -/
structure Forwards where
  /-- The handle of the task for a host and a port. -/
  tcpForwards : AList (fun _ : String × UInt16 => ℕ) := ∅
  /-- The handle of the task for a path. -/
  unixForwards : AList (fun _ : String => ℕ) := ∅
  /-- The tasks, those without a handle included. -/
  forwardTasks : JoinSet ForwardTask Unit := []
  deriving DecidableEq

/-! ## The handlers

What `dispatch_global` does with each request. A listener that has been bound is handed over only
if its answer could be written, and then a task is spawned for it and its handle inserted. -/

/-- `accept_tcp_forward`, and the answer it gives; `responds` tells whether a success response can
be written. -/
def acceptTcpForward (os : Os) (responds : Bool) (r : TcpipForwardRequest) :
    Except AcceptTcpForwardError TcpForwardListener × Answer :=
  let bindHost := canonicalizeRemoteBindHost r.bindAddress
  match u16TryFrom r.bindPort with
  | none => (.error .portOverflow, .failure)
  | some bindPort =>
    match bindTcpForwardGroup os bindHost bindPort with
    | .error e => (.error e, .failure)
    | .ok listener =>
      (if responds then .ok listener else .error .respond,
        .success (TcpipForwardReply.encode ⟨.ofNat listener.boundPort.toNat⟩))

/-- `accept_unix_forward`, and the answer it gives. -/
def acceptUnixForward (os : Os) (responds : Bool) (r : StreamlocalForwardRequest) :
    Except AcceptUnixForwardError String × Answer :=
  if os.bindUnixSocket r.socketPath then
    (if responds then .ok r.socketPath else .error .respond, .success [])
  else (.error .unixBind, .failure)

/-- `dispatch_global`, and the answer it gives. -/
def dispatchGlobal (os : Os) (responds : Bool) (f : Forwards) :
    ForwardRequest → Forwards × Answer
  | .tcpipForward r =>
    let bindAddr := canonicalizeRemoteBindHost r.bindAddress
    match acceptTcpForward os responds r with
    | (.ok listener, answer) =>
      ({ f with
          tcpForwards := f.tcpForwards.insert (bindAddr, listener.boundPort) f.forwardTasks.length
          forwardTasks := f.forwardTasks.spawn ⟨.tcp listener, false, 0⟩ }, answer)
    | (.error _, answer) => (f, answer)
  | .cancelTcpipForward r =>
    let bindAddr := canonicalizeRemoteBindHost r.bindAddress
    match u16TryFrom r.bindPort with
    | none => (f, .failure)
    | some bindPort =>
      match f.tcpForwards.lookup (bindAddr, bindPort) with
      | some abort =>
        ({ f with
            tcpForwards := f.tcpForwards.erase (bindAddr, bindPort)
            forwardTasks := f.forwardTasks.abort abort }, .success [])
      | none => (f, .failure)
  | .streamlocalForward r =>
    match acceptUnixForward os responds r with
    | (.ok socketPath, answer) =>
      ({ f with
          unixForwards := f.unixForwards.insert socketPath f.forwardTasks.length
          forwardTasks := f.forwardTasks.spawn ⟨.unix socketPath, false, 0⟩ }, answer)
    | (.error _, answer) => (f, answer)
  | .cancelStreamlocalForward r =>
    match f.unixForwards.lookup r.socketPath with
    | some abort =>
      ({ f with
          unixForwards := f.unixForwards.erase r.socketPath
          forwardTasks := f.forwardTasks.abort abort }, .success [])
    | none => (f, .failure)

namespace Forwards

/-- The handle under a key. -/
def handle (f : Forwards) : ForwardKey → Option ℕ
  | .inl k => f.tcpForwards.lookup k
  | .inr socketPath => f.unixForwards.lookup socketPath

/-- The drain at the end of a session: every listener in a table is aborted. -/
def drain (f : Forwards) : Forwards where
  forwardTasks :=
    (f.tcpForwards.entries.map Sigma.snd ++ f.unixForwards.entries.map Sigma.snd).foldl
      JoinSet.abort f.forwardTasks

/-! ## What a request does

For the tables there are two kinds of requests: those that bind a listener under some key, and
all others, which at most take a handle away. -/

/-- The key a request binds a listener under, if it does. -/
def boundKey (os : Os) (responds : Bool) : ForwardRequest → Option ForwardKey
  | .tcpipForward r =>
    match (acceptTcpForward os responds r).1 with
    | .ok listener => some (.inl (canonicalizeRemoteBindHost r.bindAddress, listener.boundPort))
    | .error _ => none
  | .streamlocalForward r =>
    match (acceptUnixForward os responds r).1 with
    | .ok socketPath => some (.inr socketPath)
    | .error _ => none
  | _ => none

variable {os : Os} {responds : Bool} {f f' : Forwards} {r : ForwardRequest}

theorem lookup_insert {α : Type} [DecidableEq α] (table : AList fun _ : α => ℕ) (k k' : α)
    (i : ℕ) : (table.insert k i).lookup k' = if k' = k then some i else table.lookup k' := by
  by_cases hk : k' = k
  · rw [hk, if_pos rfl]
    exact AList.lookup_insert _
  · rw [if_neg hk]
    exact AList.lookup_insert_ne hk

/-- The entry of one key is gone. -/
theorem lookup_erase {α : Type} [DecidableEq α] (table : AList fun _ : α => ℕ) (k k' : α) :
    (table.erase k).lookup k' = if k' = k then none else table.lookup k' := by
  by_cases hk : k' = k
  · rw [hk, if_pos rfl]
    exact AList.lookup_erase _ _
  · rw [if_neg hk]
    exact AList.lookup_erase_ne hk

/-- Storing and taking handles changes one key. -/
theorem handle_insert_tcp (k : String × UInt16) (i : ℕ) (ts : JoinSet ForwardTask Unit)
    (k' : ForwardKey) :
    handle { f with tcpForwards := f.tcpForwards.insert k i, forwardTasks := ts } k' =
      if k' = .inl k then some i else f.handle k' := by
  cases k' <;> simp [handle, lookup_insert]

/-- The same for paths. -/
theorem handle_insert_unix (p : String) (i : ℕ) (ts : JoinSet ForwardTask Unit)
    (k' : ForwardKey) :
    handle { f with unixForwards := f.unixForwards.insert p i, forwardTasks := ts } k' =
      if k' = .inr p then some i else f.handle k' := by
  cases k' <;> simp [handle, lookup_insert]

/-- Taking a handle. -/
theorem handle_erase_tcp (k : String × UInt16) (ts : JoinSet ForwardTask Unit) (k' : ForwardKey) :
    handle { f with tcpForwards := f.tcpForwards.erase k, forwardTasks := ts } k' =
      if k' = .inl k then none else f.handle k' := by
  cases k' <;> simp [handle, lookup_erase]

/-- Taking that of a path. -/
theorem handle_erase_unix (p : String) (ts : JoinSet ForwardTask Unit) (k' : ForwardKey) :
    handle { f with unixForwards := f.unixForwards.erase p, forwardTasks := ts } k' =
      if k' = .inr p then none else f.handle k' := by
  cases k' <;> simp [handle, lookup_erase]

/-- A listener is advertised under the canonical host of its request. -/
theorem advertisedHost_of_accept {r : TcpipForwardRequest} {listener : TcpForwardListener}
    (h : (acceptTcpForward os responds r).1 = .ok listener) :
    listener.advertisedHost = canonicalizeRemoteBindHost r.bindAddress := by
  rw [acceptTcpForward] at h
  split at h
  · cases h
  · split at h
    · cases h
    · rename_i hbind
      cases responds with
      | false => cases h
      | true =>
        obtain rfl := Except.ok.inj h
        exact (bindTcpForwardGroup_ok hbind).1

/-- **A request that binds.** A task is spawned, and its handle is stored under its key. -/
theorem dispatch_of_boundKey {k : ForwardKey} (h : boundKey os responds r = some k) :
    ∃ d : ForwardTask, d.listener.key = k ∧
      (dispatchGlobal os responds f r).1.forwardTasks = f.forwardTasks.spawn d ∧
      ∀ k', (dispatchGlobal os responds f r).1.handle k' =
        if k' = k then some f.forwardTasks.length else f.handle k' := by
  cases r with
  | cancelTcpipForward r => cases h
  | cancelStreamlocalForward r => cases h
  | tcpipForward r =>
    obtain ⟨⟨result, answer⟩, haccept⟩ : ∃ p, acceptTcpForward os responds r = p := ⟨_, rfl⟩
    rw [boundKey, haccept] at h
    cases result with
    | error e => cases h
    | ok listener =>
      obtain rfl := Option.some.inj h
      have hhost := advertisedHost_of_accept (congrArg Prod.fst haccept)
      simp only [dispatchGlobal, haccept]
      exact ⟨_, by rw [← hhost]; rfl, rfl, handle_insert_tcp _ _ _⟩
  | streamlocalForward r =>
    obtain ⟨⟨result, answer⟩, haccept⟩ : ∃ p, acceptUnixForward os responds r = p := ⟨_, rfl⟩
    rw [boundKey, haccept] at h
    cases result with
    | error e => cases h
    | ok socketPath =>
      obtain rfl := Option.some.inj h
      simp only [dispatchGlobal, haccept]
      exact ⟨_, rfl, rfl, handle_insert_unix _ _ _⟩

/-- **A request that binds nothing.** Nothing changes, or a handle is taken from a table and its
task aborted. -/
theorem dispatch_of_not_bound (h : boundKey os responds r = none) :
    (dispatchGlobal os responds f r).1 = f ∨
      ∃ k i, f.handle k = some i ∧
        (dispatchGlobal os responds f r).1.forwardTasks = f.forwardTasks.abort i ∧
        ∀ k', (dispatchGlobal os responds f r).1.handle k' =
          if k' = k then none else f.handle k' := by
  cases r with
  | tcpipForward r =>
    obtain ⟨⟨result, answer⟩, haccept⟩ : ∃ p, acceptTcpForward os responds r = p := ⟨_, rfl⟩
    rw [boundKey, haccept] at h
    cases result with
    | ok listener => cases h
    | error e => exact Or.inl (by simp only [dispatchGlobal, haccept])
  | streamlocalForward r =>
    obtain ⟨⟨result, answer⟩, haccept⟩ : ∃ p, acceptUnixForward os responds r = p := ⟨_, rfl⟩
    rw [boundKey, haccept] at h
    cases result with
    | ok socketPath => cases h
    | error e => exact Or.inl (by simp only [dispatchGlobal, haccept])
  | cancelTcpipForward r =>
    simp only [dispatchGlobal]
    split
    · exact Or.inl rfl
    · rename_i bindPort hport
      split
      · rename_i i hlookup
        exact Or.inr ⟨.inl (_, bindPort), i, hlookup, rfl, handle_erase_tcp _ _⟩
      · exact Or.inl rfl
  | cancelStreamlocalForward r =>
    simp only [dispatchGlobal]
    split
    · rename_i i hlookup
      exact Or.inr ⟨.inr r.socketPath, i, hlookup, rfl, handle_erase_unix _ _⟩
    · exact Or.inl rfl

/-! ## Live listeners and their handles

A handle that is replaced in a table is dropped, and its task goes on. So every live listener is
stored as long as no handle of a live listener is replaced, and no longer. -/

/-- A listener that was spawned and has neither finished nor been aborted. -/
def Live (f : Forwards) (i : ℕ) : Prop := ∃ t, f.forwardTasks[i]? = some t ∧ t.state = .running

instance (f : Forwards) (i : ℕ) : Decidable (f.Live i) :=
  decidable_of_iff (f.forwardTasks[i]?.any (·.state = .running) = true) <| by
    simp only [Live, Option.any_eq_true, decide_eq_true_eq]

/-- Every live listener can be stopped: its handle is in a table. -/
def AllStored (f : Forwards) : Prop := ∀ i, f.Live i → ∃ k, f.handle k = some i

/-- Every handle in a table is that of a task that listens under its key. -/
def Keyed (f : Forwards) : Prop :=
  ∀ k i, f.handle k = some i → ∃ t, f.forwardTasks[i]? = some t ∧ t.data.listener.key = k

/-- What happens to the listeners. -/
inductive Action where
  /-- A global request is dispatched. -/
  | dispatch (r : ForwardRequest) (os : Os) (responds : Bool)
  /-- A listener task comes to its end. -/
  | ends (i : ℕ) (result : Except JoinError Unit)

/-- The future of a listener task returns, or is dropped. -/
def endTask (result : Except JoinError Unit) (t : Spawned ForwardTask Unit) :
    Option (Spawned ForwardTask Unit) :=
  if t.state.alive then some { t with state := .ended result } else none

/-- One step; requests can always be dispatched. -/
def step (f : Forwards) : Action → Option Forwards
  | .dispatch r os responds => some (dispatchGlobal os responds f r).1
  | .ends i result =>
    (f.forwardTasks.update i (endTask result)).map fun ts => { f with forwardTasks := ts }

/-- Any global requests, any answers of the operating system. -/
def machine : Machine Forwards Action := ⟨{}, step⟩

/-- A listener is bound under a key whose handle is that of a live listener. -/
def Supersedes (f : Forwards) : Action → Prop
  | .dispatch r os responds =>
    ∃ k i, boundKey os responds r = some k ∧ f.handle k = some i ∧ f.Live i
  | .ends _ _ => False

instance (f : Forwards) : (a : Action) → Decidable (Supersedes f a)
  | .dispatch r os responds =>
    decidable_of_iff
      ((boundKey os responds r).any fun k => (f.handle k).any fun i => f.Live i) <| by
      simp only [Supersedes, Option.any_eq_true, decide_eq_true_eq, exists_and_left]
  | .ends _ _ => .isFalse id

/-- The listener tasks at a later time. -/
abbrev Later (f f' : Forwards) : Prop :=
  JoinSet.Continues ForwardTask.listener f.forwardTasks f'.forwardTasks

/-- A task that is live now was live before. -/
theorem Live.of_later {i : ℕ} (hlater : Later f f') (h : f'.Live i) : f.Live i := by
  obtain ⟨t', hget', hrunning⟩ := h
  obtain ⟨t, hget, hsame⟩ := JoinSet.Continues.exists_before hlater hget'
  exact ⟨t, hget, hsame.running hrunning⟩

/-- A task keeps its place and its listener. -/
theorem Keyed.later (hf : f.Keyed) (hhandle : ∀ k i, f'.handle k = some i → f.handle k = some i)
    (hlater : Later f f') : f'.Keyed := by
  intro k i hi
  obtain ⟨t, hget, hkey⟩ := hf k i (hhandle k i hi)
  obtain ⟨t', hget', hsame⟩ := JoinSet.Continues.exists_after hlater hget
  exact ⟨t', hget', (congrArg Listener.key hsame.key).trans hkey⟩

/-- With the same handles, live tasks stay stored. -/
theorem AllStored.later (hf : f.AllStored) (hhandle : ∀ k, f'.handle k = f.handle k)
    (hlater : Later f f') : f'.AllStored := by
  intro i hlive
  obtain ⟨k, hk⟩ := hf i (hlive.of_later hlater)
  exact ⟨k, (hhandle k).trans hk⟩

/-- A task that ends stays the same listener. -/
theorem same_of_endTask {result : Except JoinError Unit} {t t' : Spawned ForwardTask Unit}
    (h : endTask result t = some t') : JoinSet.Same ForwardTask.listener t t' := by
  rw [endTask] at h
  split_ifs at h
  obtain rfl := Option.some.inj h
  refine ⟨rfl, fun hrunning => ?_⟩
  cases hrunning

/-- The tasks have no say in what the tables contain. -/
@[simp] theorem handle_forwardTasks (ts : JoinSet ForwardTask Unit) (k : ForwardKey) :
    handle { f with forwardTasks := ts } k = f.handle k := by
  cases k <;> rfl

/-- A new listener is the last task. -/
theorem live_spawn {d : ForwardTask} {i : ℕ} (hts : f'.forwardTasks = f.forwardTasks.spawn d)
    (h : f'.Live i) : f.Live i ∨ i = f.forwardTasks.length := by
  obtain ⟨t, hget, hrunning⟩ := h
  rw [hts, JoinSet.spawn, List.getElem?_append] at hget
  split_ifs at hget with hlt
  · exact Or.inl ⟨t, hget, hrunning⟩
  · have hbound := (List.getElem?_eq_some_iff.mp hget).1
    rw [List.length_singleton] at hbound
    exact Or.inr (by omega)

/-- Every step keeps handles and keys together. -/
theorem Keyed.step {a : Action} (hf : f.Keyed) (h : step f a = some f') : f'.Keyed := by
  cases a with
  | dispatch r os responds =>
    obtain rfl := Option.some.inj h
    cases hbound : boundKey os responds r with
    | some k =>
      obtain ⟨d, hd, hts, hhandle⟩ := dispatch_of_boundKey hbound (f := f)
      intro k' i hi
      rw [hhandle] at hi
      rw [hts, JoinSet.spawn]
      split_ifs at hi with hk
      · obtain rfl := Option.some.inj hi
        exact ⟨_, List.getElem?_concat_length, by rw [hk]; exact hd⟩
      · obtain ⟨t, hget, hkey⟩ := hf k' i hi
        obtain ⟨hlt, -⟩ := List.getElem?_eq_some_iff.mp hget
        exact ⟨t, (List.getElem?_append_left hlt).trans hget, hkey⟩
    | none =>
      rcases dispatch_of_not_bound hbound (f := f) with heq | ⟨k, i, -, hts, hhandle⟩
      · rwa [heq]
      · refine hf.later (fun k' j hj => ?_) ?_
        · rw [hhandle] at hj
          split_ifs at hj
          exact hj
        · rw [Later, hts]
          exact JoinSet.continues_abort _ _
  | ends i result =>
    obtain ⟨ts, hts, rfl⟩ := Option.map_eq_some_iff.mp h
    refine hf.later (fun k j hj => ?_) (JoinSet.continues_update hts fun _ _ => same_of_endTask)
    rwa [handle_forwardTasks] at hj

/-- **One step.** Live listeners stay stored unless the handle of one is superseded. -/
theorem allStored_step {a : Action} (hkeyed : f.Keyed) (hf : f.AllStored)
    (h : step f a = some f') : f'.AllStored ↔ ¬ Supersedes f a := by
  cases a with
  | dispatch r os responds =>
    obtain rfl := Option.some.inj h
    cases hbound : boundKey os responds r with
    | some k =>
      obtain ⟨d, -, hts, hhandle⟩ := dispatch_of_boundKey hbound (f := f)
      constructor
      · rintro hstored ⟨k', i, hk', hi, t, hget, hrunning⟩
        obtain rfl : k = k' := Option.some.inj (hbound.symm.trans hk')
        obtain ⟨hlt, -⟩ := List.getElem?_eq_some_iff.mp hget
        have hlive : (dispatchGlobal os responds f r).1.Live i :=
          ⟨t, by rw [hts]; exact (List.getElem?_append_left hlt).trans hget, hrunning⟩
        obtain ⟨k', hk'⟩ := hstored i hlive
        rw [hhandle] at hk'
        split_ifs at hk' with heq
        · -- the new handle is that of another task
          have hi := Option.some.inj hk'
          omega
        · -- a task has one key only
          obtain ⟨u, hu, hkey⟩ := hkeyed k i hi
          obtain ⟨u', hu', hkey'⟩ := hkeyed k' i hk'
          obtain rfl := Option.some.inj (hu.symm.trans hu')
          exact heq (hkey'.symm.trans hkey)
      · intro hnot i hlive
        rcases live_spawn hts hlive with hlive | rfl
        · obtain ⟨k', hk'⟩ := hf i hlive
          refine ⟨k', ?_⟩
          rw [hhandle, if_neg]
          · exact hk'
          · rintro rfl
            exact hnot ⟨k', i, hbound, hk', hlive⟩
        · exact ⟨k, by rw [hhandle, if_pos rfl]⟩
    | none =>
      refine iff_of_true ?_ ?_
      · rcases dispatch_of_not_bound hbound (f := f) with heq | ⟨k, i, hi, hts, hhandle⟩
        · rwa [heq]
        · rintro j ⟨t, hget, hrunning⟩
          rw [hts] at hget
          obtain ⟨hij, hget⟩ := JoinSet.running_of_abort hget hrunning
          obtain ⟨k', hk'⟩ := hf j ⟨t, hget, hrunning⟩
          refine ⟨k', ?_⟩
          rw [hhandle, if_neg]
          · exact hk'
          · rintro rfl
            exact hij (Option.some.inj (hi.symm.trans hk'))
      · rintro ⟨k, i, hk, -⟩
        rw [hbound] at hk
        cases hk
  | ends i result =>
    obtain ⟨ts, hts, rfl⟩ := Option.map_eq_some_iff.mp h
    refine iff_of_true ?_ id
    exact hf.later (handle_forwardTasks ts)
      (JoinSet.continues_update hts fun _ _ => same_of_endTask)

/-- In every state of a run. -/
theorem keyed_of_reach {ok : Forwards → Action → Prop} (h : machine.Reach ok f) : f.Keyed := by
  refine h.invariant (I := Keyed) ?_ fun _ hf _ hstep => hf.step hstep
  rintro (k | p) i hi <;> cases hi

/-- **Live listeners have handles.** Along a run, every live listener is stored in a table in every
state exactly when no step supersedes the handle of a live listener. -/
theorem allStored_iff {l : List (Forwards × Action)} (h : machine.Path l f) :
    ((∀ x ∈ l, x.1.AllStored) ∧ f.AllStored) ↔ ∀ x ∈ l, ¬ Supersedes x.1 x.2 := by
  have hinit : machine.init.AllStored := by
    rintro i ⟨t, hget, -⟩
    cases hget
  have hstep : ∀ {f a f'}, machine.Reach (fun f a => ¬ Supersedes f a) f → f.AllStored →
      machine.step f a = some f' → (f'.AllStored ↔ ¬ Supersedes f a) := fun hreach hf hstep =>
    allStored_step (keyed_of_reach hreach) hf hstep
  exact h.forall_iff hinit hstep

/-! ## A socket file that is unlinked

How a key can be bound twice, although a bind of the same path fails as long as its file is
there. -/

/-- An operating system that lets everything be bound. -/
def openOs : Os where
  lookupHost _ := none
  bindTcpSocket addr := .bound (some (match addr with | .v4 _ p => p | .v6 _ p _ _ => p))
  bindUnixSocket _ := true

/-- A socket is forwarded; its file is unlinked by somebody else, and it is forwarded again. -/
def relinked : List Action :=
  [.dispatch (.streamlocalForward ⟨"/s"⟩) openOs true,
    .dispatch (.streamlocalForward ⟨"/s"⟩) openOs true]

/-- The first listener is live, and no request of the client reaches it. -/
theorem relinked_not_stored :
    ∃ f, machine.exec machine.init relinked = some f ∧ f.Live 0 ∧ ¬ f.AllStored ∧
      ∃ f', step f (.dispatch (.cancelStreamlocalForward ⟨"/s"⟩) openOs true) = some f' ∧
        f'.Live 0 ∧ f'.unixForwards.keys = [] ∧ f'.tcpForwards.keys = [] := by
  refine ⟨_, rfl, ⟨_, rfl, rfl⟩, fun hstored => ?_, _, rfl, ⟨_, rfl, rfl⟩, rfl, rfl⟩
  obtain ⟨k | p, hk⟩ := hstored 0 ⟨_, rfl, rfl⟩
  · cases hk
  · by_cases hp : p = "/s"
    · subst hp
      cases hk
    · -- the table has no other key
      have htable (t : AList fun _ : String => ℕ) (i j : ℕ) :
          ((t.insert "/s" i).insert "/s" j).lookup p = t.lookup p := by
        rw [AList.lookup_insert_ne hp, AList.lookup_insert_ne hp]
      cases (htable ∅ 0 1).symm.trans hk

/-- Two listeners; one of them is cancelled, and comes to its end, and its path is forwarded again.
-/
def cancelled : List Action :=
  [.dispatch (.streamlocalForward ⟨"/s"⟩) openOs true,
    .dispatch (.tcpipForward ⟨"127.0.0.1", .ofNat 8080⟩) openOs true,
    .dispatch (.cancelStreamlocalForward ⟨"/s"⟩) openOs true,
    .ends 0 (.error .cancelled),
    .dispatch (.streamlocalForward ⟨"/s"⟩) openOs true]

/-- The path has its second listener now, and all live listeners have handles. -/
theorem forwarded_allStored_iff :
    ∃ f, machine.exec machine.init cancelled = some f ∧
      (f.Live 1 ∧ f.Live 2 ∧ f.handle (.inr "/s") = some 2) ∧
      (∀ x ∈ machine.trace machine.init cancelled, x.1.AllStored) ∧ f.AllStored := by
  have hruns : (machine.exec machine.init cancelled).any (fun f =>
      decide (f.Live 1 ∧ f.Live 2 ∧ f.handle (.inr "/s") = some 2)) = true := by
    decide +kernel
  obtain ⟨f, hexec, hlive⟩ := (Option.any_eq_true _ _).mp hruns
  have hsteps : ∀ x ∈ machine.trace machine.init cancelled, ¬Supersedes x.1 x.2 := by decide +kernel
  exact ⟨f, hexec, of_decide_eq_true hlive, (allStored_iff (.of_exec hexec)).mpr hsteps⟩

end Forwards

end Dssh
