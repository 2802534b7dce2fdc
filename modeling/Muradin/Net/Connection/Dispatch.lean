import Muradin.Net.Connection.Flush
import Muradin.Net.Connection.Masks
import Muradin.Net.Connection.Updates

/-!
# Dispatch — which callbacks of the channel one `process_work` invokes

`do_process_work` tests `m_last_evt_status` four times, and the callbacks that it invokes in between
change it: `write` may add `EPOLLOUT` (`exec_addsOut`), `handle_close` clears it.

* The close, error and read callbacks are invoked only for the events that were reported.
* The write callback is invoked only for a reported `EPOLLOUT` exactly if no callback before the
  last test has set the write interest (`follows_iff`).
-/

namespace Muradin
namespace Net

open Lib Cpp Events

namespace Events

theorem meets_zero (mask : Events) : meets 0 mask = false := by
  simp [meets]

/-- `EPOLLOUT` does not change the tests for other events. -/
theorem meets_or_out {st mask : Events} (h : mask &&& epollOut = 0) :
    meets (st ||| epollOut) mask = meets st mask := by
  have hsame : (st ||| epollOut) &&& mask = st &&& mask := by
    calc (st ||| epollOut) &&& mask
        = (st &&& mask) ||| (mask &&& epollOut) := by
          ext i hi
          simp only [BitVec.getElem_and, BitVec.getElem_or]
          cases st[i] <;> cases mask[i] <;> simp
      _ = st &&& mask := by
          rw [h]
          simp
  rw [meets, meets, hsame]

end Events

namespace Call

/-- The callback of the channel behind each test of `do_process_work`. -/
def handler : Call → Option Call
  | .testHup => some .handleClose
  | .testErr => some .handleError
  | .testIn => some .handleRead
  | .testOut => some .handleWrite
  | _ => none

def IsTest (c : Call) : Bool :=
  c.handler.isSome

/-- The calls that may set the write interest. -/
def SetsOut : Call → Bool
  | .handleWrite | .cacheOutput _ _ => true
  | _ => false

/-- The condition on the events under which a callback of the channel is to be invoked. -/
def due (events : Events) : Call → Bool
  | .handleClose => meets events epollHup && !meets events epollIn
  | .handleError => meets events epollErr
  | .handleRead => meets events (epollIn ||| epollPri ||| epollRdhup)
  | .handleWrite => meets events epollOut
  | _ => false

theorem due_zero (c : Call) : c.due 0 = false := by
  cases c with
  | handleClose => rw [due, meets_zero, Bool.false_and]
  | handleError => rw [due, meets_zero]
  | handleRead => rw [due, meets_zero]
  | handleWrite => rw [due, meets_zero]
  | _ => rfl

/-- A set write interest makes the write callback due, and nothing else. -/
theorem due_or_out {c : Call} (hc : c ≠ .handleWrite) (events : Events) :
    c.due (events ||| epollOut) = c.due events := by
  cases c with
  | handleClose => rw [due, due, meets_or_out (by decide), meets_or_out (by decide)]
  | handleError => rw [due, due, meets_or_out (by decide)]
  | handleRead => rw [due, due, meets_or_out (by decide)]
  | handleWrite => contradiction
  | _ => rfl

theorem due_or_out_of_due {c : Call} {events : Events} (h : c.due events = true) :
    c.due (events ||| epollOut) = true := by
  by_cases hc : c = .handleWrite
  · subst hc
    exact meets_or_right events epollOut (by decide)
  · rwa [due_or_out hc]

/-- Whatever is due for some events is behind one of the tests. -/
theorem exists_test_of_due {c : Call} {events : Events} (h : c.due events = true) :
    ∃ t : Call, t.handler = some c := by
  cases c with
  | handleClose => exact ⟨.testHup, rfl⟩
  | handleError => exact ⟨.testErr, rfl⟩
  | handleRead => exact ⟨.testIn, rfl⟩
  | handleWrite => exact ⟨.testOut, rfl⟩
  | _ => cases h

theorem isTest_of_handler {t c : Call} (h : t.handler = some c) : t.IsTest = true := by
  rw [IsTest, h]
  rfl

/-- No call makes a test. -/
theorem MayMake.isTest_eq_false {c c' : Call} (h : c.MayMake c') : c'.IsTest = false := by
  cases c with
  | handleRead => rcases h with rfl | rfl | ⟨err, rfl⟩ <;> rfl
  | handleWrite =>
      rcases h with ⟨err, bytes, rfl⟩
      rfl
  | handleError =>
      rcases h with ⟨err, rfl⟩
      rfl
  | handleClose => rcases h with rfl | rfl <;> rfl
  | writeInLoop data => rcases h with ⟨n, rfl⟩ | ⟨err, bytes, rfl⟩ <;> rfl
  | cacheOutput data n => cases h
  | shutdownInLoop => cases h
  | addChannel => cases h
  | updateChannel => cases h
  | closeCb => cases h
  | user => cases h
  | _ =>
      cases h
      rfl

/-- Only the test for `EPOLLOUT` invokes `handle_write`. -/
theorem MayMake.eq_testOut {c : Call} (h : c.MayMake .handleWrite) : c = .testOut := by
  cases c with
  | testOut => rfl
  | _ => simp [MayMake] at h

end Call

/-! ## What a call does to `m_last_evt_status` -/

namespace Connection

variable {B : Build} {cbs : Callbacks} {env : Env} {mem : Nat → Byte} {conn conn' : Connection}

/-- The other calls leave `m_last_evt_status` alone, but for `handle_close`. -/
theorem exec_keeps_evtStatus {c : Call} (hclose : c ≠ .handleClose) (hsets : c.SetsOut = false) :
    Keeps evtStatus (exec B cbs env mem c) := by
  by_cases hquiet : c.Quiet = true
  · by_cases hout : c = .testOut
    · -- The test for `EPOLLOUT` clears the flag of the channel only.
      subst hout
      refine (Keeps.get _).bind fun c => Keeps.ite ?_ (Keeps.pure _ _)
      exact Keeps.bind (Keeps.modify fun _ => rfl) fun _ => Keeps.pure _ _
    · intro conn
      exact congrArg EvtChannel.lastEvtStatus (offQuiet_channle.keeps_exec hquiet hout conn)
  · cases c with
    | handleWrite => cases hsets
    | handleClose => contradiction
    | writeInLoop data =>
        intro conn
        rw [stateOf_exec_writeInLoop]
        exact congrArg EvtChannel.lastEvtStatus (keeps_channle_sendDirectly B env _ conn)
    | cacheOutput data n => cases hsets
    | addChannel => exact Keeps.bind (Keeps.modify fun _ => rfl) fun _ => Keeps.pure _ _
    | updateChannel => exact Keeps.bind (Keeps.modify fun _ => rfl) fun _ => Keeps.pure _ _
    | closeCb => exact keeps_closeCb (fun _ _ => rfl) (fun _ _ => rfl) fun _ _ => rfl
    | _ => exact absurd rfl hquiet

/-- `handle_close` clears the mask: the two directions have no bit in common. -/
theorem evtStatus_handleClose (conn : Connection) :
    (stateOf (handleClose.run conn)).evtStatus = 0 := by
  show conn.evtStatus &&& readMask &&& epollOut = 0
  exact and_and_eq_zero readMask_and_epollOut _

/-- Behind bytes that were cached the write interest is set, unless it is in progress. -/
theorem evtStatus_cacheOutput {data : Source} {n : Nat} {calls : List Call}
    (hrun : (exec B cbs env mem (.cacheOutput data n)).run conn = .ok calls conn') :
    conn'.evtStatus =
      if conn.channle.progressInWrite then conn.evtStatus else conn.evtStatus ||| epollOut := by
  cases happend : (ByteBuffer.append B ((data.read mem).take n)).run conn.writeCache with
  | error e b =>
      rw [exec, cacheOutput, run_bind_error (run_bind_error (run_onWriteCache_error happend))]
        at hrun
      cases hrun
  | ok out b =>
      have hcached : (cacheOutput B ((data.read mem).take n)).run conn =
          .ok () (({ conn with writeCache := b }).setWriteInterest true) := by
        rw [cacheOutput, run_bind_ok (run_onWriteCache happend), run_enableWrite]
      rw [exec, run_bind_ok hcached] at hrun
      cases hrun
      exact evtStatus_setWriteInterest _

/-- A test invokes the callback behind it if that is due for `m_last_evt_status`. -/
theorem run_test {t c : Call} (h : t.handler = some c) (conn : Connection) :
    ∃ conn', (exec B cbs env mem t).run conn =
      .ok (if c.due conn.evtStatus = true then [c] else []) conn' := by
  -- Each test has its own condition; that for `EPOLLOUT` clears the flag as well.
  cases t with
  | testHup =>
      cases h
      exact ⟨conn, rfl⟩
  | testErr =>
      cases h
      exact ⟨conn, rfl⟩
  | testIn =>
      cases h
      exact ⟨conn, rfl⟩
  | testOut =>
      cases h
      rw [exec, run_bind_ok (EStateM.run_get conn), Call.due, evtStatus]
      split
      · exact ⟨_, rfl⟩
      · exact ⟨_, rfl⟩
  | _ => cases h

end Connection

/-! ## One `process_work` call -/

/-- A dispatch: the loop, and what happened in it so far. -/
structure Dispatch where
  loop : Loop
  /-- the callbacks of the channel that were invoked -/
  invoked : List Call
  /-- `handle_close` ran in this dispatch -/
  closed : Bool
  /-- the write interest was set in this dispatch, and not cleared by `handle_close` since -/
  armed : Bool

namespace Dispatch

open Connection

inductive Act
  /-- the next call is made -/
  | call (env : Env)
  /-- the running callback does this -/
  | user (op : UserOp)

def Act.toLoop : Act → Loop.Act
  | .call env => .call env
  | .user op => .user op

/-- `save_evt_status(events)`, and `process_work` is called. -/
def start (conn : Connection) (events : Events) : Dispatch :=
  { loop :=
      { conn := { conn with channle := conn.channle.saveEvtStatus events }
        stack := Loop.dispatchCalls
        fault := none }
    invoked := []
    closed := false
    armed := false }

/-- The callback that the next call invokes, if that is a test. -/
def invokes (S : Setup) (mem : Nat → Byte) (env : Env) (s : Loop) : List Call :=
  match s.stack with
  | [] => []
  | c :: _ =>
      if c.IsTest then
        match (Connection.exec S.build S.cbs env mem c).run s.conn with
        | .ok calls _ => calls
        | .error _ _ => []
      else
        []

/-- Whether the write interest was set, behind the next call. -/
def armedNext (s : Dispatch) : Bool :=
  match s.loop.stack with
  | .handleClose :: _ => false
  | .cacheOutput _ _ :: _ => s.armed || !s.loop.conn.channle.progressInWrite
  | _ => s.armed

def next (S : Setup) (mem : Nat → Byte) (s : Dispatch) : Act → Dispatch
  | .call env =>
      { loop := s.loop.next S mem (.call env)
        invoked := s.invoked ++ invokes S mem env s.loop
        closed := s.closed || s.loop.stack.head? == some .handleClose
        armed := s.armedNext }
  | .user op => { s with loop := s.loop.next S mem (.user op) }

def step (S : Setup) (mem : Nat → Byte) (s : Dispatch) (a : Act) : Option Dispatch :=
  if s.loop.Enabled mem a.toLoop then some (s.next S mem a) else none

/-- The callbacks follow the reported events. -/
structure Follows (events : Events) (s : Dispatch) : Prop where
  /-- none is invoked without its condition on the events -/
  reported : ∀ c ∈ s.invoked, c.due events = true
  /-- by the end each is invoked whose condition holds, unless the connection was closed -/
  every : s.loop.stack = [] → s.loop.fault = none → s.closed = false →
    ∀ c : Call, c.due events = true → c ∈ s.invoked

/-- The test for `EPOLLOUT` finds no write interest that a callback set, or `EPOLLOUT` was
reported. -/
def ArmedReported (events : Events) (s : Dispatch) : Act → Prop
  | .call _ =>
      s.loop.stack.head? = some .testOut → meets events epollOut = true ∨ s.armed = false
  | .user _ => True

instance (events : Events) (s : Dispatch) : (a : Act) → Decidable (s.ArmedReported events a)
  | .call _ => inferInstanceAs (Decidable (_ → _ ∨ _))
  | .user _ => inferInstanceAs (Decidable True)

variable {S : Setup} {mem : Nat → Byte} {events : Events} {s s' : Dispatch} {a : Act} {env : Env}

theorem step_eq_some :
    s.step S mem a = some s' ↔ s.loop.Enabled mem a.toLoop ∧ s.next S mem a = s' := by
  simp [step]

/-- The events that the tests of an open connection go by. -/
def base (events : Events) (s : Dispatch) : Events :=
  if s.closed then 0 else events

structure MaskInv (events : Events) (s : Dispatch) : Prop where
  /-- the first test is the first thing that happens -/
  fresh : .testHup ∈ s.loop.stack → s.loop.stack = Loop.dispatchCalls ∧ s.closed = false
  /-- each test is made once -/
  once : (s.loop.stack.filter Call.IsTest).Nodup
  /-- the mask is what was reported, and possibly `EPOLLOUT` -/
  mask : s.loop.conn.evtStatus = s.base events ∨
    s.loop.conn.evtStatus = s.base events ||| epollOut
  /-- before its test `EPOLLOUT` is in the mask if it was reported or the write interest was set -/
  out : .testOut ∈ s.loop.stack → s.loop.fault = none →
    meets s.loop.conn.evtStatus epollOut = (meets (s.base events) epollOut || s.armed)
  /-- `handle_write` comes behind the last test -/
  last : .handleWrite ∈ s.loop.stack → .testOut ∉ s.loop.stack
  /-- behind each test of an open connection the callback that was due was invoked -/
  made : ∀ t c : Call, t.handler = some c → t ∉ s.loop.stack → s.closed = false →
    c.due events = true → c ∈ s.invoked

/-! ## Steps -/

theorem maskInv_start (conn : Connection) (events : Events) :
    (start conn events).MaskInv events := by
  refine { fresh := fun _ => ⟨rfl, rfl⟩, once := ?_, mask := Or.inl rfl, out := ?_, last := ?_,
           made := ?_ }
  · show (Loop.dispatchCalls.filter Call.IsTest).Nodup
    decide
  · intro _ _
    exact (Bool.or_false _).symm
  · intro hmem
    have hmem : Call.handleWrite ∈ Loop.dispatchCalls := hmem
    exact absurd hmem (by decide)
  · intro t c hc hmem
    have hmem : t ∉ Loop.dispatchCalls := hmem
    refine absurd ?_ hmem
    cases t with
    | testHup => decide
    | testErr => decide
    | testIn => decide
    | testOut => decide
    | _ => cases hc

/-- The base mask changes only where `handle_close` runs. -/
theorem base_congr (h : s'.closed = s.closed) : s'.base events = s.base events := by
  rw [base, base, h]

/-- Whatever the mask makes due, but for the write callback, the reported events make due. -/
theorem MaskInv.due_of_due (h : s.MaskInv events) {c : Call} (hc : c ≠ .handleWrite)
    (hdue : c.due s.loop.conn.evtStatus = true) : c.due events = true := by
  have hbase : c.due (s.base events) = true := by
    rcases h.mask with hmask | hmask
    · rwa [hmask] at hdue
    · rwa [hmask, Call.due_or_out hc] at hdue
  cases hclosed : s.closed with
  | false => simpa [base, hclosed] using hbase
  | true =>
      rw [base, if_pos hclosed, Call.due_zero] at hbase
      cases hbase

/-- While the connection is open, the mask makes due what the reported events make due. -/
theorem MaskInv.due_of_events (h : s.MaskInv events) (hopen : s.closed = false) {c : Call}
    (hdue : c.due events = true) : c.due s.loop.conn.evtStatus = true := by
  have hbase : s.base events = events := by simp [base, hopen]
  rcases h.mask with hmask | hmask
  · rwa [hmask, hbase]
  · rw [hmask, hbase]
    exact Call.due_or_out_of_due hdue

/-- A step of a callback of the user. -/
theorem MaskInv.user (h : s.MaskInv events) (op : UserOp) (hfault : s.loop.fault = none)
    (hen : s.loop.stack.head? = some .user) : (s.next S mem (.user op)).MaskInv events := by
  have hmask : (s.loop.user S op).conn.evtStatus = s.loop.conn.evtStatus :=
    congrArg EvtChannel.lastEvtStatus (Loop.user_channle S _ op)
  rcases List.head?_eq_some_iff.mp hen with ⟨rest, hstack⟩
  -- The calls that the invariant speaks of come and go with neither of them.
  have hcalls : ∀ c : Call, c ≠ .user → c ≠ .shutdownInLoop → (∀ data, c ≠ .writeInLoop data) →
      (c ∈ (s.loop.user S op).stack ↔ c ∈ s.loop.stack) := by
    intro c huser hshut hwrite
    rcases Loop.user_stack (S := S) (s := s.loop) op with ⟨data, htop⟩ | htop | htop | htop
    · rw [htop, List.mem_cons]
      simp [hwrite _]
    · rw [htop, List.mem_cons]
      simp [hshut]
    · rw [htop]
    · rw [htop, hstack, List.tail_cons, List.mem_cons]
      simp [huser]
  have htests : (s.loop.user S op).stack.filter Call.IsTest = s.loop.stack.filter Call.IsTest := by
    rcases Loop.user_stack (S := S) (s := s.loop) op with ⟨data, htop⟩ | htop | htop | htop
    · rw [htop]
      rfl
    · rw [htop]
      rfl
    · rw [htop]
    · rw [htop, hstack]
      rfl
  refine { fresh := ?_, once := ?_, mask := ?_, out := ?_, last := ?_, made := ?_ }
  · intro hmem
    have hmem : .testHup ∈ s.loop.stack := (hcalls _ (by simp) (by simp) (by simp)).mp hmem
    -- The first test is not behind a callback.
    rcases h.fresh hmem with ⟨hfresh, -⟩
    rw [hstack] at hfresh
    cases hfresh
  · show ((s.loop.user S op).stack.filter Call.IsTest).Nodup
    rw [htests]
    exact h.once
  · show (s.loop.user S op).conn.evtStatus = _ ∨ (s.loop.user S op).conn.evtStatus = _
    rw [hmask]
    exact h.mask
  · intro hmem _
    show meets (s.loop.user S op).conn.evtStatus epollOut = _
    rw [hmask]
    exact h.out ((hcalls _ (by simp) (by simp) (by simp)).mp hmem) hfault
  · intro hmem hout
    exact h.last ((hcalls _ (by simp) (by simp) (by simp)).mp hmem)
      ((hcalls _ (by simp) (by simp) (by simp)).mp hout)
  · intro t c hc hmem
    refine h.made t c hc fun hold => hmem ?_
    refine (hcalls t ?_ ?_ ?_).mpr hold
    · rintro rfl
      cases hc
    · rintro rfl
      cases hc
    · rintro data rfl
      cases hc

/-- The calls behind a call, and the tests among them. -/
theorem call_tests (S : Setup) (mem : Nat → Byte) (env : Env) {c : Call} {rest : List Call}
    (hstack : s.loop.stack = c :: rest) :
    ∃ calls, (s.loop.call S mem env).stack = calls ++ rest ∧ (∀ c' ∈ calls, c.MayMake c') ∧
      calls.filter Call.IsTest = [] := by
  rcases Loop.call_stack S mem env hstack with ⟨calls, hcalls, hmake⟩
  refine ⟨calls, hcalls, hmake, ?_⟩
  rw [List.filter_eq_nil_iff]
  intro c' hc'
  simp [(hmake c' hc').isTest_eq_false]

/-- What a call does to `m_last_evt_status`, next to what the invariant takes it for. -/
theorem MaskInv.call_mask (h : s.MaskInv events) {c : Call} {rest : List Call}
    (hstack : s.loop.stack = c :: rest) :
    (s.loop.call S mem env).conn.evtStatus = (s.next S mem (.call env)).base events ∨
      (s.loop.call S mem env).conn.evtStatus =
        (s.next S mem (.call env)).base events ||| epollOut := by
  by_cases hc : c = .handleClose
  · -- `handle_close` clears the mask.
    subst hc
    left
    have hclosed : (s.next S mem (.call env)).closed = true := by
      show (s.closed || s.loop.stack.head? == some .handleClose) = true
      rw [hstack]
      simp
    rw [base, if_pos hclosed, Loop.call_cons hstack, Loop.conn_ofResult]
    exact evtStatus_handleClose s.loop.conn
  · have hclosed : (s.next S mem (.call env)).closed = s.closed := by
      show (s.closed || s.loop.stack.head? == some .handleClose) = s.closed
      rw [hstack]
      simp [hc]
    rw [base_congr hclosed, Loop.call_cons hstack, Loop.conn_ofResult]
    -- Every other call leaves the mask, or adds `EPOLLOUT` to it.
    have hadds : Relates AddsOut (Connection.exec S.build S.cbs env mem c) := exec_addsOut hc
    have hadds := hadds s.loop.conn
    rcases h.mask with hmask | hmask
    · rwa [AddsOut, hmask] at hadds
    · rw [AddsOut, hmask, BitVec.or_assoc, BitVec.or_self] at hadds
      exact Or.inr (hadds.elim id id)

/-- The write interest before the test for `EPOLLOUT`. -/
theorem MaskInv.call_out (h : s.MaskInv events) {c : Call} {rest : List Call}
    (hstack : s.loop.stack = c :: rest) (hahead : .testOut ∈ rest)
    (hfault : s.loop.fault = none) (hfault' : (s.loop.call S mem env).fault = none) :
    meets (s.loop.call S mem env).conn.evtStatus epollOut =
      (meets ((s.next S mem (.call env)).base events) epollOut || s.armedNext) := by
  have hmem : .testOut ∈ s.loop.stack := hstack ▸ List.mem_cons_of_mem c hahead
  have hold := h.out hmem hfault
  have hclosed : c ≠ .handleClose → (s.next S mem (.call env)).closed = s.closed := by
    intro hc
    show (s.closed || s.loop.stack.head? == some .handleClose) = s.closed
    rw [hstack]
    simp [hc]
  have hconn : (s.loop.call S mem env).conn.evtStatus =
      (stateOf ((Connection.exec S.build S.cbs env mem c).run s.loop.conn)).evtStatus := by
    rw [Loop.call_cons hstack, Loop.conn_ofResult]
  cases hsets : c.SetsOut with
  | true =>
      cases c with
      | handleWrite =>
          -- `handle_write` comes behind the test.
          exact absurd hmem (h.last (hstack ▸ List.mem_cons_self))
      | cacheOutput data n =>
          rw [base_congr (hclosed (by simp))]
          have harmed : s.armedNext = (s.armed || !s.loop.conn.channle.progressInWrite) := by
            rw [armedNext, hstack]
          cases hrun : (Connection.exec S.build S.cbs env mem (.cacheOutput data n)).run
              s.loop.conn with
          | error e conn' =>
              rw [Loop.call_cons hstack, hrun] at hfault'
              cases hfault'
          | ok calls conn' =>
              rw [hconn, hrun, stateOf_ok, evtStatus_cacheOutput hrun, harmed]
              cases s.loop.conn.channle.progressInWrite with
              | true => simpa using hold
              | false =>
                  have hout := meets_or_right s.loop.conn.evtStatus epollOut (by decide)
                  simpa using hout
      | _ => cases hsets
  | false =>
      by_cases hc : c = .handleClose
      · subst hc
        have hnext : (s.next S mem (.call env)).closed = true := by
          show (s.closed || s.loop.stack.head? == some .handleClose) = true
          rw [hstack]
          simp
        have harmed : s.armedNext = false := by rw [armedNext, hstack]
        have hzero : (stateOf ((Connection.exec S.build S.cbs env mem .handleClose).run
            s.loop.conn)).evtStatus = 0 := evtStatus_handleClose s.loop.conn
        rw [hconn, hzero, base, if_pos hnext, harmed, meets_zero, Bool.or_false]
      · have harmed : s.armedNext = s.armed := by
          rw [armedNext, hstack]
          cases c with
          | handleClose => contradiction
          | cacheOutput data n => cases hsets
          | _ => rfl
        have hkeeps : Keeps evtStatus (Connection.exec S.build S.cbs env mem c) :=
          exec_keeps_evtStatus hc hsets
        rw [hconn, hkeeps s.loop.conn, base_congr (hclosed hc), harmed, hold]

/-- What a test of the dispatch invokes. -/
theorem invokes_test {t c : Call} {rest : List Call} (hstack : s.loop.stack = t :: rest)
    (hc : t.handler = some c) :
    invokes S mem env s.loop = if c.due s.loop.conn.evtStatus = true then [c] else [] := by
  rcases @run_test S.build S.cbs env mem t c hc s.loop.conn with ⟨conn', hrun⟩
  rw [invokes, hstack]
  dsimp only
  rw [if_pos (Call.isTest_of_handler hc), hrun]

/-- The other calls invoke no callback of the channel. -/
theorem invokes_other {c : Call} {rest : List Call} (hstack : s.loop.stack = c :: rest)
    (hc : c.handler = none) : invokes S mem env s.loop = [] := by
  rw [invokes, hstack]
  simp [Call.IsTest, hc]

/-- A call of the dispatch. -/
theorem MaskInv.call (h : s.MaskInv events) (hfault : s.loop.fault = none)
    {c : Call} {rest : List Call} (hstack : s.loop.stack = c :: rest) :
    (s.next S mem (.call env)).MaskInv events := by
  rcases call_tests S mem env hstack with ⟨calls, hcalls, hmake, hnone⟩
  -- A test on the new stack was there before.
  have hrest : ∀ t : Call, t.IsTest = true → t ∈ (s.loop.call S mem env).stack → t ∈ rest := by
    intro t ht hmem
    rw [hcalls] at hmem
    rcases List.mem_append.mp hmem with hnew | hold
    · exact absurd ht (by simp [(hmake t hnew).isTest_eq_false])
    · exact hold
  have honce : ((c :: rest).filter Call.IsTest).Nodup := hstack ▸ h.once
  refine { fresh := ?_, once := ?_, mask := h.call_mask hstack, out := ?_, last := ?_, made := ?_ }
  · intro hmem
    have hmem : .testHup ∈ rest := hrest _ rfl hmem
    -- The first test is on top of the stack, and made only once.
    rcases h.fresh (hstack ▸ List.mem_cons_of_mem c hmem) with ⟨hfresh, -⟩
    rw [hstack] at hfresh
    cases hfresh
    exact absurd hmem (by decide)
  · show ((s.loop.call S mem env).stack.filter Call.IsTest).Nodup
    rw [hcalls, List.filter_append, hnone, List.nil_append]
    exact honce.sublist ((List.sublist_cons_self c rest).filter _)
  · intro hmem hfault'
    exact h.call_out hstack (hrest _ rfl hmem) hfault hfault'
  · intro hmem hout
    have hout : .testOut ∈ rest := hrest _ rfl hout
    have hmem : Call.handleWrite ∈ (s.loop.call S mem env).stack := hmem
    rw [hcalls] at hmem
    rcases List.mem_append.mp hmem with hnew | hold
    · -- The test that invokes `handle_write` is the only one for `EPOLLOUT`.
      have hc : c = .testOut := (hmake _ hnew).eq_testOut
      subst hc
      rw [List.filter_cons_of_pos rfl, List.nodup_cons] at honce
      exact honce.1 (List.mem_filter.mpr ⟨hout, rfl⟩)
    · exact h.last (hstack ▸ List.mem_cons_of_mem c hold) (hstack ▸ List.mem_cons_of_mem c hout)
  · intro t c' hc' hmem hopen hdue
    have hopen : s.closed = false := (Bool.or_eq_false_iff.mp hopen).1
    apply List.mem_append.mpr
    by_cases hold : t ∈ s.loop.stack
    · right
      -- The test was on top: it is the one that was made.
      have htop : t = c := by
        rw [hstack] at hold
        rcases List.mem_cons.mp hold with htop | hrest'
        · exact htop
        · exact absurd (hcalls ▸ List.mem_append_right calls hrest') hmem
      subst htop
      rw [invokes_test hstack hc', if_pos (h.due_of_events hopen hdue)]
      exact List.mem_singleton_self c'
    · exact Or.inl (h.made t c' hc' hold hopen hdue)

theorem MaskInv.step (h : s.MaskInv events) (hs : s.step S mem a = some s') :
    s'.MaskInv events := by
  rcases step_eq_some.mp hs with ⟨hen, rfl⟩
  cases a with
  | call env =>
      rcases hen with ⟨hfault, hcallable⟩
      rcases hcallable.exists_cons with ⟨c, rest, hstack, -, -⟩
      exact h.call hfault hstack
  | user op => exact h.user op hen.1 hen.2

/-- By the end of the dispatch every callback that was due was invoked. -/
theorem MaskInv.every (h : s.MaskInv events) (hidle : s.loop.stack = [])
    (hopen : s.closed = false) {c : Call} (hdue : c.due events = true) : c ∈ s.invoked := by
  rcases Call.exists_test_of_due hdue with ⟨t, ht⟩
  exact h.made t c ht (by simp [hidle]) hopen hdue

/-- A test follows the reported events, but for a write interest that was set since. -/
theorem MaskInv.test_iff (h : s.MaskInv events) (hfault : s.loop.fault = none) {t c : Call}
    {rest : List Call} (hstack : s.loop.stack = t :: rest) (hc : t.handler = some c) :
    (c.due s.loop.conn.evtStatus = true → c.due events = true) ↔
      s.ArmedReported events (.call env) := by
  by_cases hwrite : c = .handleWrite
  · subst hwrite
    have ht : t = .testOut := by
      cases t with
      | testOut => rfl
      | _ => cases hc
    subst ht
    have hmem : .testOut ∈ s.loop.stack := hstack ▸ List.mem_cons_self
    have hout := h.out hmem hfault
    -- A closed connection has no base events left.
    have hclosed : meets (s.base events) epollOut = true → meets events epollOut = true := by
      intro hbase
      cases hclosed : s.closed with
      | false => simpa [base, hclosed] using hbase
      | true =>
          rw [base, if_pos hclosed, meets_zero] at hbase
          cases hbase
    rw [ArmedReported, hstack, List.head?_cons]
    simp only [Call.due, hout, true_imp_iff, Bool.or_eq_true]
    constructor
    · intro himp
      cases harmed : s.armed with
      | false => exact Or.inr rfl
      | true => exact Or.inl (himp (Or.inr harmed))
    · rintro hor (hbase | harmed)
      · exact hclosed hbase
      · rcases hor with hreported | hnot
        · exact hreported
        · rw [harmed] at hnot
          cases hnot
  -- The other tests do not see the write interest.
  · refine iff_of_true (h.due_of_due hwrite) ?_
    intro htop
    rw [hstack] at htop
    cases htop
    exact absurd (Option.some.inj hc).symm hwrite

/-- A step keeps to the reported events exactly if it finds no other write interest. -/
theorem follows_step (hinv : s.MaskInv events) (h : s.Follows events)
    (hs : s.step S mem a = some s') : s'.Follows events ↔ s.ArmedReported events a := by
  have hinv' : s'.MaskInv events := hinv.step hs
  rcases step_eq_some.mp hs with ⟨hen, rfl⟩
  -- What is to be invoked by the end follows from the invariant.
  have hfollows : (s.next S mem a).Follows events ↔
      ∀ c ∈ (s.next S mem a).invoked, c.due events = true := by
    constructor
    · exact fun hfollows => hfollows.reported
    · intro hreported
      exact { reported := hreported
              every := fun hidle _ hopen c hdue => hinv'.every hidle hopen hdue }
  rw [hfollows]
  cases a with
  | user op => exact iff_of_true h.reported trivial
  | call env =>
      rcases hen with ⟨hfault, hcallable⟩
      rcases hcallable.exists_cons with ⟨t, rest, hstack, -, -⟩
      have hinvoked : (s.next S mem (.call env)).invoked =
          s.invoked ++ invokes S mem env s.loop := rfl
      cases ht : t.handler with
      | none =>
          -- Only a test invokes anything.
          rw [hinvoked, invokes_other hstack ht, List.append_nil]
          refine iff_of_true h.reported ?_
          intro htop
          rw [hstack] at htop
          cases htop
          cases ht
      | some c =>
          rw [← hinv.test_iff hfault hstack ht, hinvoked, invokes_test hstack ht]
          constructor
          · intro hall hdue
            refine hall c (List.mem_append_right _ ?_)
            rw [if_pos hdue]
            exact List.mem_singleton_self c
          · intro himp c' hc'
            rcases List.mem_append.mp hc' with hold | hnew
            · exact h.reported c' hold
            · split at hnew
              · rename_i hdue
                obtain rfl : c' = c := List.mem_singleton.mp hnew
                exact himp hdue
              · cases hnew

/-- One `process_work` call invokes its callbacks by the reported events exactly if the test for
`EPOLLOUT` finds no write interest that a callback set behind the report. -/
theorem follows_iff (conn : Connection) {as : List Act}
    (hrun : run (step S mem) (start conn events) as = some s) :
    (∀ bs t, bs <+: as → run (step S mem) (start conn events) bs = some t →
        t.Follows events) ↔
      Along (step S mem) (ArmedReported events) (start conn events) as := by
  refine prefixes_iff_along (I := MaskInv events) (fun _ _ _ h hs => h.step hs)
    (fun _ _ _ hinv h hs => follows_step hinv h hs) (maskInv_start conn events) ?_ hrun
  refine { reported := ?_, every := ?_ }
  · intro c hc
    cases hc
  · intro hidle
    cases hidle

/-- The read callback writes one byte back, which the kernel takes. -/
def echoed : List Act :=
  [.call {}, .call {}, .call {}, .call { received := some [66] }, .call {},
    .user (.write ⟨[66], by decide⟩), .call { sent := some 1 }, .call {}, .user .returns,
    .user .returns, .call {}, .call {}]

theorem follows_iff_echoed :
    ∃ s, run (step Loop.debugSetup fun _ => 0)
        (start Loop.startedLoop.conn (epollIn ||| epollOut)) echoed = some s ∧
      s.loop.stack = [] ∧ s.invoked = [.handleRead, .handleWrite] ∧
      ∀ bs t, bs <+: echoed →
        run (step Loop.debugSetup fun _ => 0)
            (start Loop.startedLoop.conn (epollIn ||| epollOut)) bs = some t →
          t.Follows (epollIn ||| epollOut) := by
  -- One evaluation of the run serves both.
  obtain ⟨hany, hreported⟩ :
      (run (step Loop.debugSetup fun _ => 0)
        (start Loop.startedLoop.conn (epollIn ||| epollOut)) echoed).any (fun s =>
          decide (s.loop.stack = [] ∧ s.invoked = [.handleRead, .handleWrite])) = true ∧
      Along (step Loop.debugSetup fun _ => 0) (ArmedReported (epollIn ||| epollOut))
        (start Loop.startedLoop.conn (epollIn ||| epollOut)) echoed := by
    decide +kernel
  rcases exists_run_of_any hany with ⟨s, hrun, hidle, hinvoked⟩
  exact ⟨s, hrun, hidle, hinvoked, (follows_iff _ hrun).mpr hreported⟩

/-- Only input was reported.  The byte that the read callback writes has to be cached, and the test
for `EPOLLOUT` finds the write interest in the mask. -/
theorem write_interest_taken_for_event :
    ¬ ∀ (conn : Connection) (events : Events) (as : List Act) (s : Dispatch),
      run (step Loop.debugSetup fun _ => 0) (start conn events) as = some s →
        s.Follows events := by
  intro h
  have hany : (run (step Loop.debugSetup fun _ => 0) (start Loop.startedLoop.conn epollIn)
      [.call {}, .call {}, .call {}, .call { received := some [77] }, .call {},
        .user (.write ⟨[77], by decide⟩), .call { sent := none, errno := eagain }, .call {},
        .user .returns, .call {}]).any (fun s =>
          decide (s.invoked = [.handleRead, .handleWrite])) = true := by
    decide +kernel
  rcases exists_run_of_any hany with ⟨s, hrun, hinvoked⟩
  have hdue := (h _ _ _ s hrun).reported .handleWrite (by simp [hinvoked])
  exact absurd hdue (by decide)

end Dispatch

end Net
end Muradin
