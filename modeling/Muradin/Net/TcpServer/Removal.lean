import Muradin.Net.Connection.Closing
import Muradin.Net.TcpServer.Lifetime

/-!
# Removal — how often the close callback of a connection is made

The channel of a connection is added to the poller once, and an event comes only while it is
registered there; behind `handle_close` it is registered until the close callback has returned
(`RemovalInv`).  So the calls of a connection among threads go through the phases of
`ClosePhase`, as they do on the loop thread alone, but for one thing: `start()` makes the channel
readable on the acceptor's thread, also in the middle of a dispatch, and then a `handle_read` may
come behind `handle_close` (`EndsOpen`).
-/

namespace Muradin
namespace Net

open Lib Cpp Events

/-- `start()` has not called `join_to_service` yet. -/
def StartPc.beforeJoin : StartPc → Bool
  | .insertConn | .tie | .joinToService => true
  | _ => false

namespace System

variable {Tid : Type}

/-- How often `add_channel_in_loop` is still to be called. -/
def joins (s : System Tid) : Nat :=
  s.loop.stack.count .addChannel + s.io.waiting.countP (·.2 = .addChannel) +
    s.startPc.beforeJoin.toNat

/-- Before `add_channel_in_loop` nothing happens to the connection that could end it. -/
structure Unjoined (s : System Tid) : Prop where
  unregistered : s.loop.conn.poller.registered = none
  opened : s.loop.conn.closed = false
  path : s.loop.path = []
  inactive : s.active = false
  notes : s.loop.conn.notes.count .close = 0

structure RemovalInv (s : System Tid) : Prop where
  /-- the loop thread has calls to make inside `process_work` and the tasks only -/
  outside : s.io.loopPc.inCode = false → s.loop.stack = []
  active : s.active = true →
    (∃ b, s.io.loopPc = .processWork b) ∧ s.loop.path = [] ∧ s.loop.conn.closed = false
  registered : s.loop.fault = none → s.loop.conn.poller.registered.isSome = true →
    s.loop.conn.closed = true → .closeCb ∈ s.loop.stack
  joins : s.joins ≤ 1
  unjoined : 0 < s.joins → s.Unjoined
  inConnMap : s.loop.conn.inConnMap = true ↔
    s.startPc ≠ .insertConn ∧ s.loop.conn.notes.count .close = 0

/-- A `handle_read` that finds the end of the input belongs to an open connection. -/
def EndsOpen (s : System Tid) : Act Tid → Prop
  | .call env =>
      s.loop.stack.head? = some .handleRead → env.received = some [] → s.loop.conn.closed = false
  | _ => True

instance (s : System Tid) : (a : Act Tid) → Decidable (s.EndsOpen a)
  | .call _ => inferInstanceAs (Decidable (_ → _ → _))
  | .io _ | .start | .poll _ _ | .processWork | .workDone | .runNext | .user _ | .copy _ | .give _ _
  | .release _ | .write _ _ _ | .shutdownMark _ | .shutdownQueue _ | .poke _ _ =>
      inferInstanceAs (Decidable True)

theorem removalInv_of_accepted {s : System Tid} (h : s.Accepted) : s.RemovalInv := by
  have hloop : s.loop = { conn := Connection.newConnection, stack := [], fault := none } := by
    rw [h.new]
    rfl
  have hactive : s.active = false := by
    rw [h.new]
    rfl
  have hpc : s.startPc = .insertConn := by
    rw [h.new]
    rfl
  have hwaiting : s.io.waiting.countP (·.2 = .addChannel) = 0 := by
    rw [List.countP_eq_zero]
    intro x hx
    simp [h.unrelated x (IoService.mem_held_of_waiting hx)]
  have hjoins : s.joins = 1 := by
    rw [joins, hloop, hpc, hwaiting]
    rfl
  refine { outside := ?_, active := ?_, registered := ?_, joins := Nat.le_of_eq hjoins,
           unjoined := ?_, inConnMap := ?_ }
  · intro _
    rw [hloop]
  · rw [hactive]
    exact Bool.noConfusion
  · rw [hloop]
    exact fun _ => (nomatch ·)
  · intro _
    refine { unregistered := ?_, opened := ?_, path := ?_, inactive := hactive, notes := ?_ }
    · rw [hloop]
      rfl
    · rw [hloop]
      rfl
    · rw [Loop.path, hloop]
      rfl
    · rw [hloop]
      rfl
  · rw [hloop, hpc]
    simp [Connection.newConnection]

theorem closePhase_of_accepted {s : System Tid} (h : s.Accepted) :
    ClosePhase s.loop.path s.loop.conn := by
  have hloop : s.loop = { conn := Connection.newConnection, stack := [], fault := none } := by
    rw [h.new]
    rfl
  rw [Loop.path, hloop]
  exact .opened List.nil_suffix rfl rfl

variable [DecidableEq Tid] {S : Setup} {s s' : System Tid} {a : Act Tid} {env : Env} {c : Call}
  {rest : List Call}

/-! ## `add_channel` is called once -/

/-- No other step than that of `join_to_service` queues `add_channel`. -/
theorem countP_waiting_next (hen : s.Enabled a)
    (hjoin : ∀ t, s.ioAct a ≠ some (.runTask t .addChannel)) :
    (s.next S a).io.waiting.countP (·.2 = .addChannel) ≤
      s.io.waiting.countP (·.2 = .addChannel) := by
  rw [io_next]
  cases hb : s.ioAct a with
  | none => exact Nat.le_refl _
  | some b =>
      show (s.io.next b).waiting.countP _ ≤ _
      by_cases hrun : ∃ t task, b = .runTask t task
      · rcases hrun with ⟨t, task, rfl⟩
        -- Another task is queued.
        have htask : task ≠ .addChannel := by
          rintro rfl
          exact hjoin t hb
        show (s.io.runTask t task).waiting.countP _ ≤ _
        by_cases ht : t = s.io.ownerTid
        · subst ht
          rw [IoService.waiting_runTask_of_owner]
        · rw [(IoService.waiting_runTask_of_other ht task).countP_eq,
            List.countP_cons_of_neg (by simp [htask])]
      · refine (IoService.waiting_next_sublist (ioAct_enabled hen hb) ?_).countP_le
        intro t task heq
        exact hrun ⟨t, task, heq⟩

omit [DecidableEq Tid] in
theorem count_user (op : UserOp) :
    (s.loop.user S op).stack.count .addChannel ≤ s.loop.stack.count .addChannel := by
  rcases Loop.user_stack (S := S) (s := s.loop) op with ⟨data, hstack⟩ | hstack | hstack | hstack
  · rw [hstack, List.count_cons_of_ne (by simp)]
  · rw [hstack, List.count_cons_of_ne (by simp)]
  · rw [hstack]
  · rw [hstack]
    exact (List.tail_sublist _).count_le _

/-- A step that queues no `add_channel` adds no join where neither the stack nor `start()` does. -/
theorem joins_next_of_not_join (hen : s.Enabled a)
    (hjoin : ∀ t, s.ioAct a ≠ some (.runTask t .addChannel))
    (hstack : (s.next S a).loop.stack.count .addChannel ≤ s.loop.stack.count .addChannel)
    (hpc : (s.next S a).startPc.beforeJoin.toNat ≤ s.startPc.beforeJoin.toNat) :
    (s.next S a).joins ≤ s.joins := by
  have hwaiting : _ ≤ _ := countP_waiting_next (S := S) hen hjoin
  unfold joins
  omega

/-- `join_to_service` queues the one `add_channel` that is still to come. -/
theorem joins_start (hen : s.Enabled .start) : (s.next S .start).joins ≤ s.joins := by
  by_cases hpc : s.startPc = .joinToService
  · have hne : s.acceptorTid ≠ s.io.ownerTid := hen.2.2.1
    have hnext : s.next S .start =
        { s.queue s.acceptorTid .addChannel with startPc := .enableRead } := by
      rw [next, startNext, hpc]
    have hwaiting : (s.io.runTask s.acceptorTid .addChannel).waiting.countP
        (·.2 = .addChannel) = s.io.waiting.countP (·.2 = .addChannel) + 1 := by
      rw [(IoService.waiting_runTask_of_other hne _).countP_eq,
        List.countP_cons_of_pos (by simp)]
    rw [joins, joins, hnext, hpc]
    show s.loop.stack.count .addChannel +
      (s.io.runTask s.acceptorTid .addChannel).waiting.countP (·.2 = .addChannel) + 0 ≤ _
    rw [hwaiting]
    exact Nat.le_refl _
  · -- The other steps of `start()` queue something else, or nothing.
    refine joins_next_of_not_join hen ?_ ?_ ?_
    · intro t hb
      rw [ioAct] at hb
      cases hpc' : s.startPc <;> rw [hpc'] at hb <;> cases hb
      exact hpc hpc'
    · rw [next, startNext]
      cases s.startPc <;> exact Nat.le_refl _
    · rw [next, startNext]
      cases hpc' : s.startPc with
      | joinToService => exact absurd hpc' hpc
      | done =>
          show s.startPc.beforeJoin.toNat ≤ _
          rw [hpc']
      | _ => exact Nat.le_refl _

/-- No step adds a join. -/
theorem joins_next (hen : s.Enabled a) : (s.next S a).joins ≤ s.joins := by
  have hqueue := @joins_next_of_not_join Tid _ S s a hen
  cases a with
  | io b =>
      refine hqueue ?_ (Nat.le_refl _) (Nat.le_refl _)
      intro t hb
      cases other_of_io hen (Option.some.inj hb)
  | start => exact joins_start hen
  | poll selfReady events =>
      refine hqueue (by simp [ioAct]) ?_ ?_
      · cases events <;> exact Nat.le_refl _
      · cases events <;> exact Nat.le_refl _
  | processWork =>
      refine hqueue (by simp [ioAct]) ?_ ?_
      · rw [next]
        split
        · exact Nat.le_refl _
        · exact Nat.zero_le _
      · rw [next]
        split <;> exact Nat.le_refl _
  | runNext =>
      -- The task moves from the queue to the stack.
      rcases IoService.waiting_runNext hen.2 with ⟨x, hx, hperm⟩
      have hold : s.io.waiting.countP (·.2 = .addChannel) =
          (s.io.next .runNext).waiting.countP (·.2 = .addChannel) +
            s.nextTask.calls.count .addChannel := by
        have htask : s.nextTask = x.2 := by simp [nextTask, hx]
        rw [hperm.countP_eq, List.countP_cons, htask]
        cases x.2 <;> rfl
      show s.nextTask.calls.count .addChannel +
        (s.io.next .runNext).waiting.countP (·.2 = .addChannel) + s.startPc.beforeJoin.toNat ≤ _
      rw [joins]
      omega
  | call env =>
      rcases hen.2.1.exists_cons with ⟨c, rest, hstack, -⟩
      refine hqueue (by simp [ioAct]) ?_ ?_
      · rw [next]
        split
        · exact Nat.le_refl _
        · show (s.loop.call S s.mem env).stack.count _ ≤ _
          rw [Loop.count_addChannel_call S s.mem env hstack, hstack]
          exact List.count_le_count_cons
      · rw [next]
        split <;> exact Nat.le_refl _
  | user op => exact hqueue (by simp [ioAct]) (count_user op) (Nat.le_refl _)
  | write t ptr len => exact hqueue (by simp [ioAct]) (Nat.le_refl _) (Nat.le_refl _)
  | shutdownQueue t => exact hqueue (by simp [ioAct]) (Nat.le_refl _) (Nat.le_refl _)
  | _ => exact hqueue (by simp [ioAct]) (Nat.le_refl _) (Nat.le_refl _)

/-! ## One step -/

omit [DecidableEq Tid] in
/-- The channel and the status of the connection do not matter. -/
theorem RemovalInv.congr (h : s.RemovalInv) {ch : EvtChannel} {st : ConnStat}
    (hloop : s'.loop =
      { s.loop with conn := { s.loop.conn with channle := ch, connStatus := st } })
    (hpc : s'.io.loopPc = s.io.loopPc) (hactive : s'.active = s.active)
    (hstart : s'.startPc = .insertConn ↔ s.startPc = .insertConn) (hjoins : s'.joins ≤ s.joins) :
    s'.RemovalInv := by
  refine { outside := ?_, active := ?_, registered := ?_, joins := Nat.le_trans hjoins h.joins,
           unjoined := ?_, inConnMap := ?_ }
  · rw [hpc, hloop]
    exact h.outside
  · rw [hactive, hpc, Loop.path, hloop]
    exact h.active
  · rw [hloop]
    exact h.registered
  · intro hpos
    have hun := h.unjoined (Nat.lt_of_lt_of_le hpos hjoins)
    refine { unregistered := ?_, opened := ?_, path := ?_, inactive := hactive.trans hun.inactive,
             notes := ?_ }
    · rw [hloop]
      exact hun.unregistered
    · rw [hloop]
      exact hun.opened
    · rw [Loop.path, hloop]
      exact hun.path
    · rw [hloop]
      exact hun.notes
  · rw [hloop, Ne, hstart]
    exact h.inConnMap

omit [DecidableEq Tid] in
theorem RemovalInv.dangling (h : s.RemovalInv) : s.dangling.RemovalInv :=
  { outside := h.outside
    active := h.active
    registered := (nomatch ·)
    joins := h.joins
    unjoined := fun hpos =>
      have hun := h.unjoined hpos
      { unregistered := hun.unregistered
        opened := hun.opened
        path := hun.path
        inactive := hun.inactive
        notes := hun.notes }
    inConnMap := h.inConnMap }

omit [DecidableEq Tid] in
/-- The loop thread is in its callbacks and tasks while it has calls to make. -/
theorem RemovalInv.inCode (h : s.RemovalInv) (hstack : s.loop.stack ≠ []) :
    s.io.loopPc.inCode = true := by
  cases hcode : s.io.loopPc.inCode with
  | true => rfl
  | false => exact absurd (h.outside hcode) hstack

omit [DecidableEq Tid] in
/-- At rest a registered connection is open. -/
theorem RemovalInv.open_of_registered (h : s.RemovalInv) (hfault : s.loop.fault = none)
    (hidle : s.loop.stack = []) (hregistered : s.loop.conn.poller.registered.isSome = true) :
    s.loop.conn.closed = false :=
  Loop.open_of_registered (h.registered hfault) hidle hregistered

/-- A step of the `io_service` alone. -/
theorem RemovalInv.io (h : s.RemovalInv) {b : IoService.Act Tid Task} (hen : s.Enabled (.io b)) :
    (s.next S (.io b)).RemovalInv := by
  have hun : 0 < (s.next S (.io b)).joins → s.Unjoined := fun hpos =>
    h.unjoined (Nat.lt_of_lt_of_le hpos (joins_next hen))
  refine { outside := ?_, active := ?_, registered := h.registered,
           joins := Nat.le_trans (joins_next hen) h.joins, unjoined := ?_,
           inConnMap := h.inConnMap }
  · show (s.io.next b).loopPc.inCode = false → s.loop.stack = []
    cases b with
    | runTask t task =>
        rw [IoService.next, (IoService.runTask_loop s.io t task).1]
        exact h.outside
    | setQuit t => exact h.outside
    | wakeMeUp t => exact h.outside
    | testQuit =>
        have hpc : s.io.loopPc = .testQuit := hen.2.2
        exact fun _ => h.outside (by rw [hpc]; rfl)
    | pollReturns selfReady => exact absurd hen.2.1 id
    | onRead => exact fun _ => hen.2.1
    | dispatched => exact fun _ => hen.2.1.1
    | swapPending =>
        have hpc : s.io.loopPc = .swapPending := hen.2.2
        exact fun _ => h.outside (by rw [hpc]; rfl)
    | runNext => exact absurd hen.2.1 id
    | taskReturns => exact fun _ => hen.2.1
    | batchDone =>
        have hpc : s.io.loopPc = .nextTask := hen.2.2.1
        exact fun _ => h.outside (by rw [hpc]; rfl)
  · intro hactive
    rcases h.active hactive with ⟨⟨selfActive, hpc⟩, hrest⟩
    refine ⟨?_, hrest⟩
    show ∃ b', (s.io.next b).loopPc = .processWork b'
    -- The loop thread does not leave the `process_work` calls.
    cases b with
    | runTask t task =>
        rw [IoService.next, (IoService.runTask_loop s.io t task).1]
        exact ⟨_, hpc⟩
    | setQuit t => exact ⟨_, hpc⟩
    | wakeMeUp t => exact ⟨_, hpc⟩
    | onRead => exact ⟨_, rfl⟩
    | dispatched =>
        have hnone : s.active = false := hen.2.1.2.1
        exact absurd (hnone.symm.trans hactive) (by simp)
    | pollReturns selfReady => exact absurd hen.2.1 id
    | runNext => exact absurd hen.2.1 id
    | testQuit => exact absurd (hpc.symm.trans hen.2.2) (by simp)
    | swapPending => exact absurd (hpc.symm.trans hen.2.2) (by simp)
    | taskReturns => exact absurd (hpc.symm.trans hen.2.2.1) (by simp)
    | batchDone => exact absurd (hpc.symm.trans hen.2.2.1) (by simp)
  · intro hpos
    exact { hun hpos with }

/-- Behind `m_conn_map[fd] = new_conn`, `on_new_conn` changes the channel and the status only. -/
theorem next_start (S : Setup) (hpc : s.startPc ≠ .insertConn) :
    ∃ ch st, (s.next S .start).loop =
        { s.loop with conn := { s.loop.conn with channle := ch, connStatus := st } } ∧
      (s.next S .start).io.loopPc = s.io.loopPc ∧ (s.next S .start).active = s.active ∧
      (s.next S .start).startPc ≠ .insertConn := by
  have hqueue : ∀ task, (s.io.runTask s.acceptorTid task).loopPc = s.io.loopPc := fun task =>
    (IoService.runTask_loop s.io s.acceptorTid task).1
  rw [next, startNext]
  cases hpc' : s.startPc with
  | insertConn => exact absurd hpc' hpc
  | tie => exact ⟨_, _, rfl, rfl, rfl, by simp⟩
  | joinToService => exact ⟨_, _, rfl, hqueue _, rfl, by simp⟩
  | enableRead => exact ⟨_, _, rfl, rfl, rfl, by simp⟩
  | updateChannel => exact ⟨_, _, rfl, hqueue _, rfl, by simp⟩
  | setConnected => exact ⟨_, _, rfl, rfl, rfl, by simp⟩
  | runConnCb => exact ⟨_, _, rfl, hqueue _, rfl, by simp⟩
  | leave => exact ⟨_, _, rfl, rfl, rfl, by simp⟩
  | done => exact ⟨_, _, rfl, rfl, rfl, by simp [hpc']⟩

omit [DecidableEq Tid] in
/-- Before the entry of `m_conn_map` is made nothing has happened to the connection. -/
theorem RemovalInv.unjoined_of_insertConn (h : s.RemovalInv) (hpc : s.startPc = .insertConn) :
    s.Unjoined := by
  apply h.unjoined
  rw [System.joins, hpc]
  exact Nat.lt_of_lt_of_le Nat.zero_lt_one (Nat.le_add_left _ _)

theorem RemovalInv.start (h : s.RemovalInv) (hen : s.Enabled .start) :
    (s.next S .start).RemovalInv := by
  have hjoins : (s.next S .start).joins ≤ s.joins := joins_next hen
  by_cases hpc : s.startPc = .insertConn
  · have hun := h.unjoined_of_insertConn hpc
    have hnext : s.next S .start =
        { s with
          startPc := .tie
          loop := { s.loop with conn := { s.loop.conn with inConnMap := true } } } := by
      rw [next, startNext, hpc]
    rw [hnext] at hjoins ⊢
    refine { outside := h.outside, active := h.active, registered := h.registered,
             joins := Nat.le_trans hjoins h.joins, unjoined := fun _ => { hun with },
             inConnMap := ?_ }
    exact iff_of_true rfl ⟨by simp, hun.notes⟩
  · rcases next_start S hpc with ⟨ch, st, hloop, hloopPc, hactive, hpc'⟩
    exact h.congr hloop hloopPc hactive (iff_of_false hpc' hpc) hjoins

theorem RemovalInv.poll (h : s.RemovalInv) {selfReady : Bool} {events : Option Events}
    (hen : s.Enabled (.poll selfReady events)) :
    (s.next S (.poll selfReady events)).RemovalInv := by
  have hpc : s.io.loopPc = .waitChannel := hen.2.1.1
  have hidle : s.loop.stack = [] := h.outside (by rw [hpc]; rfl)
  have hpath : s.loop.path = [] := by rw [Loop.path, hidle, List.filter_nil]
  have hjoins : (s.next S (.poll selfReady events)).joins ≤ s.joins := joins_next hen
  cases events with
  | none =>
      refine { outside := fun _ => hidle, active := Bool.noConfusion, registered := h.registered,
               joins := Nat.le_trans hjoins h.joins, unjoined := ?_, inConnMap := h.inConnMap }
      intro hpos
      exact { h.unjoined (Nat.lt_of_lt_of_le hpos hjoins) with inactive := rfl }
  | some events =>
      have hregistered : s.loop.conn.poller.registered.isSome = true := hen.2.2 rfl
      have hopen := h.open_of_registered hen.1 hidle hregistered
      refine { outside := fun _ => hidle, active := fun _ => ⟨⟨selfReady, rfl⟩, hpath, hopen⟩,
               registered := h.registered, joins := Nat.le_trans hjoins h.joins, unjoined := ?_,
               inConnMap := h.inConnMap }
      intro hpos
      -- Before `add_channel` the descriptor is not registered, and not reported.
      have hnone := (h.unjoined (Nat.lt_of_lt_of_le hpos hjoins)).unregistered
      rw [hnone] at hregistered
      cases hregistered

theorem RemovalInv.processWork (h : s.RemovalInv) (hen : s.Enabled .processWork) :
    (s.next S .processWork).RemovalInv := by
  cases hdestroyed : s.destroyed with
  | true =>
      rw [next_processWork_of_destroyed S hdestroyed]
      exact h.dangling
  | false =>
      have hjoins : (s.next S .processWork).joins ≤ s.joins := joins_next hen
      rcases h.active hen.2.1 with ⟨⟨selfActive, hpc⟩, -, hopen⟩
      rw [next_processWork_of_alive S hdestroyed] at hjoins ⊢
      refine { outside := ?_, active := Bool.noConfusion, registered := ?_,
               joins := Nat.le_trans hjoins h.joins, unjoined := ?_, inConnMap := h.inConnMap }
      · intro hcode
        have hcode : s.io.loopPc.inCode = false := hcode
        rw [hpc] at hcode
        cases hcode
      · intro _ _ hclosed
        exact absurd (hopen.symm.trans hclosed) (by simp)
      · intro hpos
        have hnone := (h.unjoined (Nat.lt_of_lt_of_le hpos hjoins)).inactive
        exact absurd (hnone.symm.trans hen.2.1) (by simp)

omit [DecidableEq Tid] in
/-- No task is on the path to the close callback. -/
theorem path_task (task : Task) : task.calls.filter Call.Leads = [] := by
  cases task <;> rfl

theorem RemovalInv.runNext (h : s.RemovalInv) (hen : s.Enabled .runNext) :
    (s.next S .runNext).RemovalInv := by
  have hpc : s.io.loopPc = .nextTask := hen.2.1
  have hidle : s.loop.stack = [] := h.outside (by rw [hpc]; rfl)
  have hjoins : (s.next S .runNext).joins ≤ s.joins := joins_next hen
  refine { outside := Bool.noConfusion, active := ?_, registered := ?_,
           joins := Nat.le_trans hjoins h.joins, unjoined := ?_, inConnMap := h.inConnMap }
  · intro hactive
    rcases (h.active hactive).1 with ⟨selfActive, hpc'⟩
    rw [hpc] at hpc'
    cases hpc'
  · intro _ hregistered hclosed
    exact absurd ((h.open_of_registered hen.1 hidle hregistered).symm.trans hclosed) (by simp)
  · intro hpos
    exact { h.unjoined (Nat.lt_of_lt_of_le hpos hjoins) with path := path_task s.nextTask }

omit [DecidableEq Tid] in
/-- What a callback of the user does, also one that was called for another connection. -/
theorem RemovalInv.user (h : s.RemovalInv) (op : UserOp) (hfault : s.loop.fault = none)
    (hcode : s.io.loopPc.inCode = true) (huser : ∀ c ∈ s.loop.stack.head?, c = .user) :
    { s with loop := s.loop.user S op }.RemovalInv := by
  have hpath : (s.loop.user S op).path = s.loop.path := by
    apply Loop.user_path
    intro c hc
    rw [huser c hc]
    rfl
  have hclosed : (s.loop.user S op).conn.closed = s.loop.conn.closed :=
    Loop.user_closed S _ op
  have hnotes : (s.loop.user S op).conn.notes = s.loop.conn.notes :=
    Loop.user_notes S _ op
  have hpoller : (s.loop.user S op).conn.poller = s.loop.conn.poller :=
    Loop.user_poller S _ op
  have hmap : (s.loop.user S op).conn.inConnMap = s.loop.conn.inConnMap :=
    Loop.user_inConnMap S _ op
  have hjoins : System.joins { s with loop := s.loop.user S op } ≤ s.joins :=
    Nat.add_le_add_right (Nat.add_le_add_right (count_user op) _) _
  refine { outside := ?_, active := ?_, registered := ?_, joins := Nat.le_trans hjoins h.joins,
           unjoined := ?_, inConnMap := ?_ }
  · intro hnot
    exact absurd (hcode.symm.trans hnot) (by simp)
  · show s.active = true → _ ∧ (s.loop.user S op).path = [] ∧ (s.loop.user S op).conn.closed = false
    rw [hpath, hclosed]
    exact h.active
  · intro _
    show (s.loop.user S op).conn.poller.registered.isSome = true →
      (s.loop.user S op).conn.closed = true → .closeCb ∈ (s.loop.user S op).stack
    rw [hpoller, hclosed]
    intro hregistered hdone
    -- A close callback that was to come is still to come.
    have hmem : .closeCb ∈ (s.loop.user S op).path := by
      rw [hpath]
      exact List.mem_filter.mpr ⟨h.registered hfault hregistered hdone, rfl⟩
    exact List.mem_of_mem_filter hmem
  · intro hpos
    have hun := h.unjoined (Nat.lt_of_lt_of_le hpos hjoins)
    exact { unregistered := hpoller ▸ hun.unregistered
            opened := hclosed.trans hun.opened
            path := hpath.trans hun.path
            inactive := hun.inactive
            notes := hnotes ▸ hun.notes }
  · show (s.loop.user S op).conn.inConnMap = true ↔
      _ ∧ (s.loop.user S op).conn.notes.count .close = 0
    rw [hmap, hnotes]
    exact h.inConnMap

omit [DecidableEq Tid] in
/-- Before `add_channel` the calls do not lead to the close callback. -/
theorem Unjoined.call (h : s.Unjoined) (hstack : s.loop.stack = c :: rest)
    (hadd : c ≠ .addChannel) :
    Unjoined { s with loop := s.loop.call S s.mem env, handed := s.handed ++ s.handing } := by
  rcases Loop.call_of_path_nil S s.mem env hstack h.path with ⟨hleads, hpath, hclosed⟩
  have hcb : c ≠ .closeCb := by
    rintro rfl
    cases hleads
  refine { unregistered := ?_, opened := hclosed.trans h.opened, path := hpath,
           inactive := h.inactive, notes := ?_ }
  · have hsame : Relates Connection.SameRegistered
        (Connection.exec S.build S.cbs env s.mem c) :=
      Connection.exec_sameRegistered hadd hcb
    have hsame := hsame s.loop.conn
    rw [← Option.not_isSome_iff_eq_none]
    show ¬ (s.loop.call S s.mem env).conn.poller.registered.isSome = true
    rw [Loop.call_cons hstack, Loop.conn_ofResult]
    intro hsome
    have hold := hsame.symm.trans hsome
    rw [h.unregistered] at hold
    cases hold
  · exact (Loop.count_close_call S s.mem env hstack hcb).trans h.notes

/-- A call that is made on the loop thread. -/
theorem RemovalInv.call (h : s.RemovalInv) (hen : s.Enabled (.call env)) :
    (s.next S (.call env)).RemovalInv := by
  rcases hen.2.1.exists_cons with ⟨c, rest, hstack, -⟩
  have hcode : s.io.loopPc.inCode = true := h.inCode (by simp [hstack])
  cases hdestroyed : s.destroyed with
  | true =>
      rw [next_call_of_destroyed S env hdestroyed]
      exact h.dangling
  | false =>
      have hjoins : (s.next S (.call env)).joins ≤ s.joins := joins_next hen
      rw [next_call_of_alive S env hdestroyed] at hjoins ⊢
      refine { outside := ?_, active := ?_, registered := ?_,
               joins := Nat.le_trans hjoins h.joins, unjoined := ?_, inConnMap := ?_ }
      · intro hnot
        exact absurd (hcode.symm.trans hnot) (by simp)
      · intro hactive
        rcases h.active hactive with ⟨hpc, hpath, hopen⟩
        -- Behind a report the calls do not lead to the close callback.
        rcases Loop.call_of_path_nil S s.mem env hstack hpath with ⟨-, hpath', hclosed⟩
        exact ⟨hpc, hpath', hclosed.trans hopen⟩
      · refine Loop.registered_call S s.mem env (h.registered hen.1) hstack ?_
        rintro rfl
        refine (h.unjoined ?_).opened
        rw [System.joins, hstack, List.count_cons_self]
        omega
      · intro hpos
        have hpos : 0 < (s.loop.call S s.mem env).stack.count .addChannel +
            s.io.waiting.countP (·.2 = .addChannel) + s.startPc.beforeJoin.toNat := hpos
        rw [Loop.count_addChannel_call S s.mem env hstack] at hpos
        have hne : c ≠ .addChannel := by
          rintro rfl
          -- Then the channel would be added twice.
          have htwice := h.joins
          rw [System.joins, hstack, List.count_cons_self] at htwice
          omega
        have hun : s.Unjoined := by
          apply h.unjoined
          rw [System.joins, hstack, List.count_cons_of_ne hne]
          exact hpos
        exact hun.call hstack hne
      · show (s.loop.call S s.mem env).conn.inConnMap = true ↔
          s.startPc ≠ .insertConn ∧ (s.loop.call S s.mem env).conn.notes.count .close = 0
        by_cases hcb : c = .closeCb
        · subst hcb
          rcases Loop.inConnMap_closeCb S s.mem env hstack with ⟨hmap, hnotes⟩
          rw [hmap, hnotes]
          simp
        · have hmap : (s.loop.call S s.mem env).conn.inConnMap = s.loop.conn.inConnMap :=
            Loop.call_keeps hstack (Connection.exec_keeps_inConnMap hcb)
          rw [hmap, Loop.count_close_call S s.mem env hstack hcb]
          exact h.inConnMap

theorem RemovalInv.next (h : s.RemovalInv) (hen : s.Enabled a) : (s.next S a).RemovalInv := by
  have hjoins : (s.next S a).joins ≤ s.joins := joins_next hen
  cases a with
  | io b => exact h.io hen
  | start => exact h.start hen
  | poll selfReady events => exact h.poll hen
  | processWork => exact h.processWork hen
  | runNext => exact h.runNext hen
  | call env => exact h.call hen
  | user op =>
      have htop : s.loop.stack.head? = some .user := hen.2.1
      refine h.user op hen.1 (h.inCode ?_) ?_
      · intro hnil
        rw [hnil] at htop
        cases htop
      · rw [htop]
        rintro c ⟨rfl⟩
        rfl
  | write t ptr len =>
      exact h.congr rfl (IoService.runTask_loop s.io t _).1 rfl Iff.rfl hjoins
  | shutdownQueue t =>
      exact h.congr rfl (IoService.runTask_loop s.io t _).1 rfl Iff.rfl hjoins
  | _ => exact h.congr rfl rfl rfl Iff.rfl hjoins

omit [DecidableEq Tid] in
theorem RemovalInv.settle (h : s.RemovalInv) : s.settle.RemovalInv := by
  unfold System.settle
  split
  · exact { outside := h.outside
            active := h.active
            registered := fun _ => (nomatch ·)
            joins := h.joins
            unjoined := fun hpos => { h.unjoined hpos with unregistered := rfl }
            inConnMap := h.inConnMap }
  · exact h

theorem RemovalInv.step (h : s.RemovalInv) (hs : s.step S a = some s') : s'.RemovalInv := by
  rcases step_eq_some.mp hs with ⟨hen, rfl⟩
  exact (h.next hen).settle

/-! ## The phases -/

/-- A step leads from phase to phase, unless it ends the input of a closed connection. -/
theorem closePhase_next (h : s.RemovalInv) (hphase : ClosePhase s.loop.path s.loop.conn)
    (hen : s.Enabled a) (hok : s.EndsOpen a) :
    ClosePhase (s.next S a).loop.path (s.next S a).loop.conn := by
  cases a with
  | start =>
      by_cases hpc : s.startPc = .insertConn
      · rw [next, startNext, hpc]
        exact hphase.congr rfl rfl
      · rcases next_start S hpc with ⟨ch, st, hloop, -⟩
        rw [Loop.path, hloop]
        exact hphase.congr rfl rfl
  | poll selfReady events => cases events <;> exact hphase.congr rfl rfl
  | processWork =>
      cases hdestroyed : s.destroyed with
      | true =>
          rw [next_processWork_of_destroyed S hdestroyed]
          exact hphase
      | false =>
          rcases h.active hen.2.1 with ⟨-, hpath, hopen⟩
          rw [next_processWork_of_alive S hdestroyed]
          rw [hpath] at hphase
          -- The report was of an open connection, off the path.
          exact hphase.of_nil hopen
  | runNext =>
      have hpc : s.io.loopPc = .nextTask := hen.2.1
      rw [Loop.path, h.outside (by rw [hpc]; rfl)] at hphase
      show ClosePhase (s.nextTask.calls.filter Call.Leads) s.loop.conn
      rw [path_task]
      exact hphase
  | call env =>
      rcases hen.2.1.exists_cons with ⟨c, rest, hstack, -⟩
      cases hdestroyed : s.destroyed with
      | true =>
          rw [next_call_of_destroyed S env hdestroyed]
          exact hphase
      | false =>
          rw [next_call_of_alive S env hdestroyed]
          refine Loop.closePhase_call S s.mem env hphase hstack ?_
          -- This is the step that the condition excludes.
          rintro rfl hempty
          exact hok (by rw [hstack]; rfl) hempty
  | user op =>
      have htop : s.loop.stack.head? = some .user := hen.2.1
      refine Loop.closePhase_user S hphase op ?_
      rw [htop]
      rintro c ⟨rfl⟩
      rfl
  | shutdownMark t => exact hphase.congr rfl rfl
  | _ => exact hphase

omit [DecidableEq Tid] in
theorem closePhase_settle (h : ClosePhase s.loop.path s.loop.conn) :
    ClosePhase s.settle.loop.path s.settle.loop.conn := by
  unfold System.settle
  split
  · exact h.congr rfl rfl
  · exact h

theorem closePhase_step (h : s.RemovalInv) (hphase : ClosePhase s.loop.path s.loop.conn)
    (hok : s.EndsOpen a) (hs : s.step S a = some s') : ClosePhase s'.loop.path s'.loop.conn := by
  rcases step_eq_some.mp hs with ⟨hen, rfl⟩
  exact closePhase_settle (closePhase_next h hphase hen hok)

/-! ## The entry of `m_conn_map` -/

/-- The step is `m_conn_map[fd] = new_conn`. -/
def Inserts (s : System Tid) : Act Tid → Bool
  | .start => s.startPc == .insertConn
  | _ => false

/-- The step calls `on_remove_conn`. -/
def Removes (s : System Tid) : Act Tid → Bool
  | .call _ => s.loop.stack.head? == some .closeCb && !s.destroyed
  | _ => false

/-- The other steps leave the entry alone, and the close callbacks that were noted. -/
theorem inConnMap_next (S : Setup) (hen : s.Enabled a) (hinserts : s.Inserts a = false)
    (hremoves : s.Removes a = false) :
    (s.next S a).loop.conn.inConnMap = s.loop.conn.inConnMap ∧
      (s.next S a).loop.conn.notes.count .close = s.loop.conn.notes.count .close := by
  cases a with
  | start =>
      have hpc : s.startPc ≠ .insertConn := by simpa [Inserts] using hinserts
      rcases next_start S hpc with ⟨ch, st, hloop, -⟩
      rw [hloop]
      exact ⟨rfl, rfl⟩
  | poll selfReady events => cases events <;> exact ⟨rfl, rfl⟩
  | processWork =>
      rw [next]
      split <;> exact ⟨rfl, rfl⟩
  | call env =>
      rcases hen.2.1.exists_cons with ⟨c, rest, hstack, -⟩
      cases hdestroyed : s.destroyed with
      | true =>
          rw [next_call_of_destroyed S env hdestroyed]
          exact ⟨rfl, rfl⟩
      | false =>
          have hcb : c ≠ .closeCb := by
            rintro rfl
            simp [Removes, hstack, hdestroyed] at hremoves
          rw [next_call_of_alive S env hdestroyed]
          exact ⟨Loop.call_keeps hstack (Connection.exec_keeps_inConnMap hcb),
            Loop.count_close_call S s.mem env hstack hcb⟩
  | user op =>
      have hnotes : (s.loop.user S op).conn.notes = s.loop.conn.notes :=
        Loop.user_notes S _ op
      refine ⟨Loop.user_inConnMap S _ op, ?_⟩
      show (s.loop.user S op).conn.notes.count .close = _
      rw [hnotes]
  | _ => exact ⟨rfl, rfl⟩

theorem inConnMap_next_of_inserts (S : Setup) (h : s.Inserts a = true) :
    (s.next S a).loop.conn.inConnMap = true ∧
      (s.next S a).loop.conn.notes = s.loop.conn.notes := by
  cases a with
  | start =>
      have hpc : s.startPc = .insertConn := by simpa [Inserts] using h
      rw [next, startNext, hpc]
      exact ⟨rfl, rfl⟩
  | _ => cases h

theorem inConnMap_next_of_removes (S : Setup) (h : s.Removes a = true) :
    (s.next S a).loop.conn.inConnMap = false ∧
      (s.next S a).loop.conn.notes.count .close = s.loop.conn.notes.count .close + 1 := by
  cases a with
  | call env =>
      rcases (Bool.and_eq_true_iff.mp h) with ⟨htop, halive⟩
      rcases List.head?_eq_some_iff.mp (beq_iff_eq.mp htop) with ⟨rest, hstack⟩
      rw [next_call_of_alive S env (by simpa using halive)]
      exact Loop.inConnMap_closeCb S s.mem env hstack
  | _ => cases h

end System

end Net
end Muradin
