import Muradin.Net.Connection.Masks

/-!
# Acceptor — `net/acceptor.cpp` and the connections that wait

A listening socket, its channel and the loop that polls it.  The kernel reports `EPOLLIN` as long as a
connection waits, and `EPOLLHUP` for a socket that does not listen yet; each dispatch of the channel
accepts one connection.  `start()` and `stop()` are called on the thread of the loop, where
`update_channel` and `del_channel` take effect at once.

* `accepted_of_run` — every connection is accepted at most once, in the order of arrival;
* `drained_of_run` — rounds of the loop accept all that wait;
* `stopped_of_run` — behind `stop()` nothing is accepted any more, but for a report that was already
  taken.
-/

namespace Muradin
namespace Net

open Lib Cpp Events

/-- `acceptor` on the thread of its loop, with the socket's queue of connections. -/
structure Acceptor (Conn : Type) where
  /-- `m_channel`, and the poller at its descriptor -/
  channel : JoinedChannel
  /-- `::listen(fd, 256)` was called -/
  listening : Bool
  /-- the connections that the kernel has established and nobody has accepted -/
  backlog : List Conn
  /-- the channel is in `active_channels` and was not processed yet -/
  active : Bool
  /-- all connections that were established -/
  arrived : List Conn
  /-- the connections that were passed to `m_accept_cb` -/
  accepted : List Conn
  deriving DecidableEq

namespace Acceptor

variable {Conn : Type}

/-- The backlog that `start()` asks for. -/
def listenBacklog : Nat := 256

/-- The constructor: the channel joins the service with no interest; `ok` is false where the kernel
has no memory for it. -/
def construct (ok : Bool) : Acceptor Conn :=
  { channel :=
      { channle := EvtChannel.construct
        poller := EpPoller.addChannel { inChannelMap := false, registered := none }
          EvtChannel.construct.lastEvtStatus ok }
    listening := false
    backlog := []
    active := false
    arrived := []
    accepted := [] }

/-! ## The kernel -/

/-- What the socket is ready for. -/
def ready (s : Acceptor Conn) : Events :=
  if s.listening then
    if s.backlog.isEmpty then 0 else epollIn
  else
    epollOut ||| epollHup

/-- What `epoll_wait` can report for it: the interest, and what is always reported. -/
def report (s : Acceptor Conn) : Events :=
  match s.channel.poller.registered with
  | some mask => s.ready &&& (mask ||| epollErr ||| epollHup)
  | none => 0

/-! ## The functions -/

def start (s : Acceptor Conn) : Acceptor Conn :=
  { s with listening := true, channel := s.channel.enableRead true }

def stop (s : Acceptor Conn) : Acceptor Conn :=
  let channel := s.channel.enableRead false
  { s with channel := { channel with poller := channel.poller.delChannel } }

/-- `on_read`; without `accepts` the call of `accept4` fails, which is logged. -/
def onRead (s : Acceptor Conn) (accepts : Bool) : Acceptor Conn :=
  match s.backlog, accepts with
  | conn :: rest, true => { s with backlog := rest, accepted := s.accepted ++ [conn] }
  | _, _ => s

/-- The test of `do_process_work` for the read callback. -/
def testIn (s : Acceptor Conn) (accepts : Bool) : Acceptor Conn :=
  if meets s.channel.channle.lastEvtStatus (epollIn ||| epollPri ||| epollRdhup) then
    s.onRead accepts
  else
    s

/-- The test for the write callback, which is not set. -/
def testOut (s : Acceptor Conn) : Acceptor Conn :=
  if meets s.channel.channle.lastEvtStatus epollOut then
    { s with
      channel := { s.channel with channle := { s.channel.channle with progressInWrite := false } } }
  else
    s

/-- `m_channel.process_work()`: the channel is not tied, and has no close and no error callback. -/
def processWork (s : Acceptor Conn) (accepts : Bool) : Acceptor Conn :=
  (s.testIn accepts).testOut

/-! ## Steps -/

inductive Act (Conn : Type)
  /-- a client connects -/
  | connect (conn : Conn)
  | start
  | stop
  /-- `epoll_wait` returns, with a report for the channel or without -/
  | poll (reported : Bool)
  | processWork (accepts : Bool)

def Enabled (s : Acceptor Conn) : Act Conn → Prop
  | .connect _ => s.listening = true ∧ s.backlog.length ≤ listenBacklog
  | .start => True
  | .stop => True
  | .poll reported => s.active = false ∧ (reported = true → s.report ≠ 0)
  | .processWork _ => s.active = true

def next (s : Acceptor Conn) : Act Conn → Acceptor Conn
  | .connect conn => { s with backlog := s.backlog ++ [conn], arrived := s.arrived ++ [conn] }
  | .start => s.start
  | .stop => s.stop
  | .poll reported =>
      if reported then
        { s with
          channel := { s.channel with channle := s.channel.channle.saveEvtStatus s.report }
          active := true }
      else
        s
  | .processWork accepts => { s.processWork accepts with active := false }

instance (s : Acceptor Conn) : (a : Act Conn) → Decidable (s.Enabled a)
  | .connect _ => inferInstanceAs (Decidable (_ ∧ _))
  | .start | .stop => inferInstanceAs (Decidable True)
  | .poll _ => inferInstanceAs (Decidable (_ ∧ (_ → _)))
  | .processWork _ => inferInstanceAs (Decidable (_ = _))

def step (s : Acceptor Conn) (a : Act Conn) : Option (Acceptor Conn) :=
  if s.Enabled a then some (s.next a) else none

variable {s s' t : Acceptor Conn} {a : Act Conn} {ok : Bool}

theorem step_eq_some : s.step a = some s' ↔ s.Enabled a ∧ s.next a = s' := by
  simp [step]

/-! ## What a dispatch does -/

/-- The channel is as it was, up to `m_progress_in_write`, and so is all but the queue. -/
structure Dispatched (s s' : Acceptor Conn) : Prop where
  poller : s'.channel.poller = s.channel.poller
  listening : s'.listening = s.listening
  arrived : s'.arrived = s.arrived
  queue : s'.accepted ++ s'.backlog = s.accepted ++ s.backlog
  grows : s.accepted <+: s'.accepted
  length_le : s'.accepted.length ≤ s.accepted.length + 1

theorem dispatched_self (s : Acceptor Conn) : Dispatched s s :=
  { poller := rfl
    listening := rfl
    arrived := rfl
    queue := rfl
    grows := List.prefix_rfl
    length_le := Nat.le_succ _ }

theorem dispatched_onRead (s : Acceptor Conn) (accepts : Bool) : Dispatched s (s.onRead accepts) := by
  unfold onRead
  split
  · next conn rest hbacklog =>
      exact
        { poller := rfl
          listening := rfl
          arrived := rfl
          queue := by
            rw [hbacklog]
            exact List.append_assoc _ [conn] rest
          grows := List.prefix_append _ _
          length_le := Nat.le_of_eq List.length_append }
  · exact dispatched_self s

theorem Dispatched.testOut (h : Dispatched s s') : Dispatched s s'.testOut := by
  unfold Acceptor.testOut
  split
  · exact { h with }
  · exact h

/-- A dispatch accepts the connection that waits longest, or none. -/
theorem dispatched_processWork (s : Acceptor Conn) (accepts : Bool) :
    Dispatched s (s.processWork accepts) := by
  refine Dispatched.testOut ?_
  unfold testIn
  split
  · exact dispatched_onRead s accepts
  · exact dispatched_self s

/-! ## The interest -/

theorem meets_readInterest (ch : EvtChannel) : meets (ch.readInterest true) epollIn = true := by
  have hread : readMask = epollHup ||| epollPri ||| epollIn := by decide
  have hinterest : ch.readInterest true = ch.lastEvtStatus ||| readMask := rfl
  rw [hinterest, hread, ← BitVec.or_assoc]
  exact meets_or_right _ _ (by decide)

/-- What holds in every state of a run. -/
structure Inv (s : Acceptor Conn) : Prop where
  balance : s.accepted ++ s.backlog = s.arrived
  started : s.listening = false → s.arrived = []
  interest : s.listening = true → ∀ mask ∈ s.channel.poller.registered, meets mask epollIn = true

theorem inv_construct (ok : Bool) : (construct ok : Acceptor Conn).Inv :=
  { balance := rfl
    started := fun _ => rfl
    interest := nofun }

theorem Inv.start (h : s.Inv) : s.start.Inv where
  balance := h.balance
  started := nofun
  interest := by
    intro _ mask hmask
    have hmask : (s.channel.poller.updateEvtCode
        (s.channel.channle.readInterest true)).registered = some mask := hmask
    unfold EpPoller.updateEvtCode at hmask
    split at hmask
    · cases hmask
      exact meets_readInterest _
    · next hnone =>
        rw [hmask] at hnone
        exact absurd rfl hnone

theorem registered_stop (s : Acceptor Conn) : s.stop.channel.poller.registered = none := by
  show (s.channel.poller.updateEvtCode _).delChannel.registered = none
  unfold EpPoller.delChannel
  split
  · rfl
  · next hnone => simpa using hnone

theorem Inv.stop (h : s.Inv) : s.stop.Inv where
  balance := h.balance
  started := h.started
  interest := by
    intro _ mask hmask
    rw [registered_stop] at hmask
    cases hmask

theorem Inv.dispatched (h : s.Inv) (hs : Dispatched s s') : s'.Inv where
  balance := by rw [hs.queue, hs.arrived, h.balance]
  started := by
    rw [hs.listening, hs.arrived]
    exact h.started
  interest := by
    rw [hs.listening, hs.poller]
    exact h.interest

/-- The step lemma. -/
theorem Inv.step (h : s.Inv) (hs : s.step a = some s') : s'.Inv := by
  rcases step_eq_some.mp hs with ⟨hen, rfl⟩
  cases a with
  | connect conn =>
      refine { h with balance := ?_, started := ?_ }
      · show s.accepted ++ (s.backlog ++ [conn]) = s.arrived ++ [conn]
        rw [← List.append_assoc, h.balance]
      · intro hnot
        exact absurd (hen.1.symm.trans hnot) (by decide)
  | start => exact h.start
  | stop => exact h.stop
  | poll reported =>
      rw [next]
      split
      · exact { h with }
      · exact h
  | processWork accepts => exact { h.dispatched (dispatched_processWork s accepts) with }

theorem inv_run {as : List (Act Conn)} (hrun : run step (construct ok) as = some s) : s.Inv :=
  invariant_run (fun _ _ _ h hs => Inv.step h hs) (inv_construct ok) hrun

/-! ## Acceptance -/

/-- A channel that has started and not stopped, and is not being processed. -/
structure Accepting (s : Acceptor Conn) : Prop where
  idle : s.active = false
  listening : s.listening = true
  registered : s.channel.Registered

/-- The kernel reports a waiting connection to it, .. -/
theorem Inv.report_eq (h : s.Inv) (hs : s.Accepting) (hbacklog : s.backlog ≠ []) :
    ∃ mask, s.report = epollIn &&& mask ∧ meets mask epollIn = true := by
  rcases hs.registered with ⟨mask, hmask⟩
  have hready : s.ready = epollIn := by
    rw [ready, if_pos hs.listening, if_neg]
    simpa using hbacklog
  refine ⟨mask ||| epollErr ||| epollHup, ?_, ?_⟩
  · rw [report, hmask, hready]
  · exact meets_or_left (meets_or_left (h.interest hs.listening mask hmask))

/-- .. so that its read callback is called. -/
theorem meets_epollIn_and {mask : Events} (h : meets mask epollIn = true) (k : Events) :
    epollIn &&& mask ≠ 0 ∧ meets (epollIn &&& mask) (epollIn ||| k) = true := by
  have hne : epollIn &&& mask ≠ 0 := by
    rw [BitVec.and_comm]
    simpa [meets] using h
  have hin : epollIn &&& mask &&& (epollIn ||| k) = epollIn &&& mask := by
    ext i hi
    simp only [BitVec.getElem_and, BitVec.getElem_or]
    cases epollIn[i] <;> simp
  refine ⟨hne, ?_⟩
  rw [meets, hin]
  simpa using hne

theorem onRead_cons {conn : Conn} {rest : List Conn} (h : s.backlog = conn :: rest) :
    s.onRead true = { s with backlog := rest, accepted := s.accepted ++ [conn] } := by
  simp only [onRead, h]

/-- One round of the loop: the report, and the dispatch, in which `accept4` succeeds. -/
def acceptRound : List (Act Conn) :=
  [.poll true, .processWork true]

/-- A round accepts the connection that waits longest. -/
theorem run_acceptRound (h : s.Inv) (hs : s.Accepting) {conn : Conn} {rest : List Conn}
    (hbacklog : s.backlog = conn :: rest) :
    ∃ s', run step s acceptRound = some s' ∧ s'.Accepting ∧ s'.backlog = rest ∧
      s'.arrived = s.arrived := by
  have hne : s.backlog ≠ [] := by simp [hbacklog]
  rcases h.report_eq hs hne with ⟨mask, hreport, hmask⟩
  obtain ⟨hreported, hmeets⟩ := meets_epollIn_and hmask (epollPri ||| epollRdhup)
  let u : Acceptor Conn :=
    { s with
      channel := { s.channel with channle := s.channel.channle.saveEvtStatus s.report }
      active := true }
  have hpoll : s.step (.poll true) = some u :=
    step_eq_some.mpr ⟨⟨hs.idle, fun _ => hreport ▸ hreported⟩, rfl⟩
  have hwork : u.step (.processWork true) = some { u.processWork true with active := false } :=
    step_eq_some.mpr ⟨rfl, rfl⟩
  have hread : u.testIn true = { u with backlog := rest, accepted := u.accepted ++ [conn] } := by
    have hstatus : meets u.channel.channle.lastEvtStatus
        (epollIn ||| epollPri ||| epollRdhup) = true := by
      show meets s.report _ = true
      rw [hreport, BitVec.or_assoc]
      exact hmeets
    have hqueue : u.backlog = conn :: rest := hbacklog
    rw [testIn, if_pos hstatus, onRead_cons hqueue]
  have hdone := dispatched_processWork u true
  refine ⟨_, run_concat.mpr ⟨u, run_cons_of hpoll [], hwork⟩, ?_, ?_, hdone.arrived⟩
  · exact
      { idle := rfl
        listening := hdone.listening.trans hs.listening
        registered := by
          rcases hs.registered with ⟨mask, hmask⟩
          exact ⟨mask, (congrArg (·.registered) hdone.poller).trans hmask⟩ }
  · show ((u.testIn true).testOut).backlog = rest
    rw [hread, testOut]
    split <;> rfl

/-- In every run the connections that were passed to the callback, followed by those that wait, are
those that have arrived, in order, and without `start()` there are none. -/
theorem accepted_of_run {as : List (Act Conn)} (hrun : run step (construct ok) as = some s) :
    s.accepted ++ s.backlog = s.arrived ∧ (s.listening = false → s.arrived = []) :=
  ⟨(inv_run hrun).balance, (inv_run hrun).started⟩

/-- Two clients connect, and one is accepted; `accept4` fails for the other, and a third connects. -/
def threeClients : List (Act Nat) :=
  [.start, .connect 1, .connect 2, .poll true, .processWork true, .poll true, .processWork false,
    .connect 3]

theorem accepted_of_run_threeClients :
    ∃ s, run step (construct true) threeClients = some s ∧ s.accepted = [1] ∧
      s.accepted ++ s.backlog = s.arrived := by
  have hany : (run step (construct true) threeClients).any
      (fun s => decide (s.accepted = [1])) = true := by
    decide +kernel
  rcases exists_run_of_any hany with ⟨s, hrun, haccepted⟩
  exact ⟨s, hrun, haccepted, (accepted_of_run hrun).1⟩

/-- Once the acceptor has started, and as long as it has not stopped, as many rounds as connections
wait accept all of them: no one is left behind, whatever has happened before. -/
theorem drained_of_run {as : List (Act Conn)} (hrun : run step (construct ok) as = some s)
    (hs : s.Accepting) :
    ∃ t, run step s (List.replicate s.backlog.length acceptRound).flatten = some t ∧
      t.backlog = [] ∧ t.accepted = s.arrived := by
  have h := inv_run hrun
  clear hrun
  -- On the connections that wait.
  generalize hbacklog : s.backlog = waiting
  induction waiting generalizing s with
  | nil =>
      refine ⟨s, rfl, hbacklog, ?_⟩
      rw [← h.balance, hbacklog, List.append_nil]
  | cons conn rest ih =>
      rcases run_acceptRound h hs hbacklog with ⟨u, hround, hu, hrest, harrived⟩
      have hinv : u.Inv := invariant_run (fun _ _ _ h hs => Inv.step h hs) h hround
      rcases ih hu hinv hrest with ⟨t, ht, hempty, haccepted⟩
      refine ⟨t, ?_, hempty, haccepted.trans harrived⟩
      rw [List.length_cons, List.replicate_succ, List.flatten_cons]
      exact run_append_eq_some.mpr ⟨u, hround, ht⟩

theorem drained_of_run_threeClients :
    ∃ s t, run step (construct true) threeClients = some s ∧ s.backlog = [2, 3] ∧
      run step s (List.replicate s.backlog.length acceptRound).flatten = some t ∧
      t.backlog = [] ∧ t.accepted = s.arrived := by
  have hany : (run step (construct true) threeClients).any (fun s => decide (s.backlog = [2, 3] ∧
      s.active = false ∧ s.listening = true ∧ s.channel.poller.registered.isSome)) = true := by
    decide +kernel
  rcases exists_run_of_any hany with ⟨s, hrun, hbacklog, hidle, hlistening, hregistered⟩
  have hs : s.Accepting :=
    { idle := hidle
      listening := hlistening
      registered := Option.isSome_iff_exists.mp hregistered }
  rcases drained_of_run hrun hs with ⟨t, ht, hdrained⟩
  exact ⟨s, t, hrun, hbacklog, ht, hdrained⟩

/-! ## Behind `stop()` -/

/-- A step of a channel that is not registered leaves it so, and at most processes a report that was
taken before. -/
theorem step_unregistered (hnone : s.channel.poller.registered = none)
    (hs : s.step a = some s') :
    s'.channel.poller.registered = none ∧ s.accepted <+: s'.accepted ∧
      s'.accepted.length + s'.active.toNat ≤ s.accepted.length + s.active.toNat := by
  rcases step_eq_some.mp hs with ⟨hen, rfl⟩
  cases a with
  | connect conn => exact ⟨hnone, List.prefix_rfl, Nat.le_refl _⟩
  | start =>
      refine ⟨?_, List.prefix_rfl, Nat.le_refl _⟩
      -- `epoll_ctl` has nothing to modify.
      show (s.channel.poller.updateEvtCode _).registered = none
      simp [EpPoller.updateEvtCode, hnone]
  | stop => exact ⟨registered_stop s, List.prefix_rfl, Nat.le_refl _⟩
  | poll reported =>
      have hquiet : s.report = 0 := by rw [report, hnone]
      cases reported with
      | true => exact absurd hquiet (hen.2 rfl)
      | false => exact ⟨hnone, List.prefix_rfl, Nat.le_refl _⟩
  | processWork accepts =>
      have hwork := dispatched_processWork s accepts
      have hactive : s.active = true := hen
      refine ⟨(congrArg (·.registered) hwork.poller).trans hnone, hwork.grows, ?_⟩
      show (s.processWork accepts).accepted.length + 0 ≤ _
      rw [hactive]
      exact hwork.length_le

/-- Behind `stop()` no connection is accepted any more, even if `start()` is called again, except for
one where the channel was in `active_channels` when it was stopped. -/
theorem stopped_of_run {as bs : List (Act Conn)} {u : Acceptor Conn}
    (hstop : run step (construct ok) (as ++ [.stop]) = some u) (hrun : run step u bs = some s) :
    u.accepted <+: s.accepted ∧ s.accepted.length ≤ u.accepted.length + u.active.toNat := by
  have hnone : u.channel.poller.registered = none := by
    rcases run_concat.mp hstop with ⟨v, -, hv⟩
    rcases step_eq_some.mp hv with ⟨-, rfl⟩
    exact registered_stop v
  have hrel := rel_run (I := fun s : Acceptor Conn => s.channel.poller.registered = none)
    (R := fun s t : Acceptor Conn => s.accepted <+: t.accepted ∧
      t.accepted.length + t.active.toNat ≤ s.accepted.length + s.active.toNat)
    (fun _ => ⟨List.prefix_rfl, Nat.le_refl _⟩)
    (fun _ _ _ hst htu => ⟨hst.1.trans htu.1, Nat.le_trans htu.2 hst.2⟩)
    (fun _ _ _ hnone hs => step_unregistered hnone hs) hnone hrun
  exact ⟨hrel.1, by omega⟩

/-- The acceptor is stopped with its channel in `active_channels`, and started again. -/
theorem stopped_of_run_active :
    ∃ u s : Acceptor Nat,
      run step (construct true) ([.start, .connect 1, .connect 2, .poll true] ++ [.stop]) = some u ∧
      run step u [.processWork true, .start, .connect 3, .poll false] = some s ∧
      u.accepted = [] ∧ s.accepted = [1] ∧ s.accepted.length ≤ u.accepted.length + u.active.toNat := by
  have hstop : (run step (construct true : Acceptor Nat)
      ([.start, .connect 1, .connect 2, .poll true] ++ [.stop])).any (fun u =>
        decide (u.accepted = [] ∧
          (run step u [.processWork true, .start, .connect 3, .poll false]).any
            (fun s => decide (s.accepted = [1])) = true)) = true := by
    decide +kernel
  rcases exists_run_of_any hstop with ⟨u, hu, hnone, hany⟩
  rcases exists_run_of_any hany with ⟨s, hs, hone⟩
  exact ⟨u, s, hu, hs, hnone, hone, (stopped_of_run hu hs).2⟩

end Acceptor

end Net
end Muradin
