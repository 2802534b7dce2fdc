import Muradin.Net.ByteBuffer.Faults
import Muradin.Net.TcpServer.Steps

/-!
# Callbacks — callbacks that the user left unset

`tcp_server` passes on the callbacks of its user, set or not, and only `handle_error` looks whether
its callback is set.  Calling an empty `boost::function` throws out of `io_service::run`.

* `not_badFunctionCall_of_run` — nothing is thrown in a run whose steps bind set callbacks only;
* `never_badFunctionCall_iff` — for which callbacks that is so in every run.
-/

namespace Muradin
namespace Net

open Lib Cpp Events

/-! ## The callbacks that are bound -/

namespace Call

/-- The callback that the call delivers is set; the close callback always is. -/
def IsSet (cbs : Callbacks) : Call → Prop
  | .connCb => cbs.conn = true
  | .readCb _ => cbs.read = true
  | .writeCb _ _ => cbs.write = true
  | .errCb _ => cbs.error = true
  | _ => True

/-- `::send` neither takes bytes nor fails with another error than `EAGAIN`. -/
def SendsNothing (env : Env) : Prop :=
  env.sendRet = 0 ∨ env.sendRet < 0 ∧ env.errno = eagain

/-- The call binds no callback that is not set, with these answers of the system calls. -/
def BindsSet (cbs : Callbacks) (env : Env) (conn : Connection) : Call → Prop
  | .handleRead => if env.received = some [] then cbs.conn = true else cbs.read = true
  | .handleWrite => cbs.write = true ∨ SendsNothing env
  | .writeInLoop _ =>
      cbs.write = true ∨ SendsNothing env ∨
        0 < SizeT.sub conn.writeCache.wtIndex conn.writeCache.rdIndex
  | .handleClose => cbs.conn = true
  | _ => True

instance (env : Env) : Decidable (SendsNothing env) :=
  inferInstanceAs (Decidable (_ ∨ _))

instance (cbs : Callbacks) (env : Env) (conn : Connection) :
    (c : Call) → Decidable (c.BindsSet cbs env conn)
  | .handleRead =>
      inferInstanceAs (Decidable (if env.received = some [] then cbs.conn = true else _ = true))
  | .handleWrite => inferInstanceAs (Decidable (_ ∨ _))
  | .writeInLoop _ => inferInstanceAs (Decidable (_ ∨ _))
  | .handleClose => inferInstanceAs (Decidable (_ = _))
  | .testHup | .testErr | .testIn | .testOut | .handleError | .cacheOutput _ _ | .shutdownInLoop
  | .addChannel | .updateChannel | .connCb | .readCb _ | .writeCb _ _ | .errCb _ | .closeCb
  | .user => inferInstanceAs (Decidable True)

end Call

namespace Connection

variable {B : Build} {cbs : Callbacks} {env : Env} {mem : Nat → Byte} {conn conn' : Connection}

/-- `write_in_loop` makes no callback where `::send` takes nothing or would block. -/
theorem returns_sendDirectly_nil (h : Call.SendsNothing env) (data : List Byte) :
    Returns (fun out : Option Nat × List Call => out.2 = []) (sendDirectly B env data) := by
  have hsend : Returns (fun ret => ret = env.sendRet) (send env data) :=
    Returns.bind fun _ => Returns.pure rfl
  refine Returns.bind fun _ => Returns.bind fun readable => ?_
  refine Returns.ite (Returns.pure rfl) (Returns.bind_of hsend ?_)
  rintro ret rfl
  refine Returns.ite_of (fun hfailed => ?_) fun hsent => Returns.pure ?_
  · refine Returns.ite_of (fun _ => Returns.pure rfl) fun hother => ?_
    rcases h with hzero | ⟨-, hagain⟩
    · rw [hzero] at hfailed
      exact absurd hfailed (by decide)
    · exact absurd hagain hother
  · rcases h with hzero | ⟨hneg, -⟩
    · rw [hzero]
      rfl
    · exact absurd hneg hsent

/-- Behind unsent bytes it sends nothing. -/
theorem sendDirectly_behind_unsent {data : List Byte} {out : Option Nat × List Call}
    (h : 0 < SizeT.sub conn.writeCache.wtIndex conn.writeCache.rdIndex)
    (hrun : (sendDirectly B env data).run conn = .ok out conn') : out.2 = [] := by
  rw [sendDirectly, run_bind_ok (EStateM.run_modify _ _)] at hrun
  rcases ByteBuffer.readableBytes_cases B conn.writeCache with hreadable | hfails
  · have hcache : (onWriteCache (ByteBuffer.readableBytes B)).run
        { conn with written := conn.written ++ data } = .ok _ _ := run_onField_ok hreadable
    rw [run_bind_ok hcache, if_pos h] at hrun
    cases hrun
    rfl
  · have hcache : (onWriteCache (ByteBuffer.readableBytes B)).run
        { conn with written := conn.written ++ data } = .error _ _ := run_onField_error hfails
    rw [run_bind_error hcache] at hrun
    cases hrun

/-- What a call binds is set, where the call binds set callbacks only. -/
theorem exec_isSet {c : Call} (h : c.BindsSet cbs env conn) {calls : List Call}
    (hrun : (exec B cbs env mem c).run conn = .ok calls conn') : ∀ c' ∈ calls, c'.IsSet cbs := by
  have hmake : ∀ c' ∈ calls, c.MayMake c' := exec_mayMake c _ _ _ hrun
  intro c' hc'
  cases c with
  | handleRead =>
      rcases returns_handleRead_calls _ _ _ hrun with ⟨hshut, rfl⟩ | ⟨hshut, err, rfl⟩
      · rw [Call.BindsSet, if_pos hshut] at h
        rcases List.mem_pair.mp hc' with rfl | rfl
        · exact h
        · trivial
      · rw [Call.BindsSet, if_neg hshut] at h
        rw [List.mem_singleton.mp hc']
        exact h
  | handleWrite =>
      rcases h with hset | hnothing
      · rcases hmake c' hc' with ⟨err, bytes, rfl⟩
        exact hset
      · rw [returns_handleWrite_nil hnothing _ _ _ hrun] at hc'
        cases hc'
  | handleError =>
      -- The only callback that is tested before it is bound.
      rcases hmake c' hc' with ⟨err, rfl⟩
      cases hset : cbs.error with
      | true => exact hset
      | false =>
          simp only [exec, handleError, hset] at hrun
          cases hrun
          cases hc'
  | handleClose =>
      rcases hmake c' hc' with rfl | rfl
      · exact h
      · trivial
  | writeInLoop data =>
      obtain ⟨out, hsend, hcalls⟩ := exec_writeInLoop_calls hrun
      rcases hcalls c' hc' with ⟨n, rfl⟩ | hcb
      · trivial
      · rcases h with hset | hnothing
        · rcases returns_sendDirectly _ _ _ _ hsend c' hcb with ⟨err, bytes, rfl⟩
          exact hset
        · have hnil : out.2 = [] := by
            rcases hnothing with hnothing | hunsent
            · exact returns_sendDirectly_nil hnothing _ _ _ _ hsend
            · exact sendDirectly_behind_unsent hunsent hsend
          rw [hnil] at hcb
          cases hcb
  | testHup | testErr | testIn | testOut | connCb | readCb _ | writeCb _ _ | errCb _ =>
      obtain rfl := hmake c' hc'
      trivial
  | _ => exact (hmake c' hc').elim

/-! ## What is thrown -/

theorem raises_enableWrite (enable : Bool) : Raises Fault.OfObject (enableWrite enable) := by
  intro c e t hrun
  rw [run_enableWrite] at hrun
  cases hrun

theorem raises_send (data : List Byte) : Raises Fault.OfObject (send env data) :=
  (Raises.modify _ _).bind fun _ => Raises.pure _ _

theorem raises_sendDirectly (data : List Byte) :
    Raises Fault.OfObject (sendDirectly B env data) := by
  refine (Raises.modify _ _).bind fun _ => ?_
  refine (Raises.onField (ByteBuffer.raises_readableBytes B)).bind fun readable => ?_
  refine Raises.ite (Raises.pure _ _) ?_
  refine (raises_send data).bind fun ret => Raises.ite ?_ (Raises.pure _ _)
  exact Raises.ite (Raises.pure _ _) (Raises.pure _ _)

theorem raises_cacheOutput (data : List Byte) : Raises Fault.OfObject (cacheOutput B data) :=
  (Raises.onField (ByteBuffer.raises_append B data)).bind fun _ => raises_enableWrite true

theorem raises_handleWrite : Raises Fault.OfObject (handleWrite B env) := by
  have hdiscard : ∀ n, Raises Fault.OfObject (onWriteCache (ByteBuffer.discard B n)) :=
    fun n => Raises.onField (ByteBuffer.raises_discard B n)
  have hreadable : Raises Fault.OfObject (onWriteCache (ByteBuffer.readableBytes B)) :=
    Raises.onField (ByteBuffer.raises_readableBytes B)
  refine hreadable.bind fun readable => (Raises.get _).bind fun c => ?_
  refine (Raises.orThrow fun _ => CharVector.load_error).bind fun data => ?_
  refine (raises_send data).bind fun ret => Raises.ite ?_ ?_
  · exact Raises.ite ((raises_enableWrite true).bind fun _ => Raises.pure _ _) (Raises.pure _ _)
  · refine (hdiscard _).bind fun _ => hreadable.bind fun left => ?_
    have hrest : Raises Fault.OfObject (do
        if 0 < ret then
          let _ ← onWriteCache (ByteBuffer.discard B ret.toNat)
          return [Call.writeCb 0 ret.toNat]
        else
          return []) :=
      Raises.ite ((hdiscard _).bind fun _ => Raises.pure _ _) (Raises.pure _ _)
    exact Raises.ite ((raises_enableWrite true).bind fun _ => hrest) hrest

theorem raises_handleRead : Raises Fault.OfObject (handleRead B env) := by
  refine (Raises.onField (ByteBuffer.raises_makeSpace B _)).bind fun _ => ?_
  cases env.received with
  | none => exact Raises.pure _ _
  | some bytes =>
      refine (Raises.onField (ByteBuffer.raises_storeAtWtPtr bytes)).bind fun _ => ?_
      refine Raises.ite (Raises.pure _ _) ?_
      exact (Raises.onField (ByteBuffer.raises_hasWritten B _)).bind fun _ => Raises.pure _ _

theorem raises_deliver {isSet : Bool} (h : isSet = true) (note : Connection → Note) :
    Raises Fault.OfObject (deliver isSet note) := by
  rw [deliver, if_pos h]
  exact (Raises.modify _ _).bind fun _ => Raises.pure _ _

/-- An empty callback throws, and nothing else does. -/
theorem raises_exec {c : Call} (h : c.IsSet cbs) : Raises Fault.OfObject (exec B cbs env mem c) := by
  have htest : ∀ (cond : Events → Bool) (handler : Call),
      Raises Fault.OfObject (test cond handler) :=
    fun cond handler => (Raises.get _).bind fun _ => Raises.pure _ _
  cases c with
  | testHup =>
      rw [exec]
      exact htest _ _
  | testErr =>
      rw [exec]
      exact htest _ _
  | testIn =>
      rw [exec]
      exact htest _ _
  | testOut =>
      refine (Raises.get _).bind fun c => Raises.ite ?_ (Raises.pure _ _)
      exact (Raises.modify _ _).bind fun _ => Raises.pure _ _
  | handleRead => exact raises_handleRead
  | handleWrite => exact raises_handleWrite
  | handleError => exact Raises.pure _ _
  | handleClose =>
      intro c e t hrun
      rcases run_handleClose c with ⟨ch, p, hok⟩
      rw [exec, hok] at hrun
      cases hrun
  | writeInLoop data => exact (raises_sendDirectly _).bind fun _ => Raises.pure _ _
  | cacheOutput data n => exact (raises_cacheOutput _).bind fun _ => Raises.pure _ _
  | shutdownInLoop => exact (Raises.modify _ _).bind fun _ => Raises.pure _ _
  | addChannel => exact (Raises.modify _ _).bind fun _ => Raises.pure _ _
  | updateChannel => exact (Raises.modify _ _).bind fun _ => Raises.pure _ _
  | connCb => exact raises_deliver h _
  | readCb err => exact raises_deliver h _
  | writeCb err bytes => exact raises_deliver h _
  | errCb err => exact raises_deliver h _
  | closeCb =>
      refine (Raises.modify _ _).bind fun _ => Raises.bind ?_ fun _ => Raises.pure _ _
      refine (Raises.modify _ _).bind fun _ => (Raises.get _).bind fun c => ?_
      exact (Raises.cassert trivial B _).bind fun _ => Raises.modify _ _
  | user => exact Raises.pure _ _

end Connection

/-! ## One step -/

namespace System

variable {Tid : Type}

/-- The step binds no callback that is not set. -/
def BindsSet (cbs : Callbacks) (s : System Tid) : Act Tid → Prop
  | .start => s.startPc = .runConnCb → cbs.conn = true
  | .call env => ∀ c ∈ s.loop.stack.head?, c.BindsSet cbs env s.loop.conn
  | _ => True

instance (cbs : Callbacks) (s : System Tid) : (a : Act Tid) → Decidable (s.BindsSet cbs a)
  | .start => inferInstanceAs (Decidable (_ → _))
  | .call _ => inferInstanceAs (Decidable (∀ c ∈ s.loop.stack.head?, _))
  | .io _ | .poll _ _ | .processWork | .workDone | .runNext | .user _ | .copy _ | .give _ _
  | .release _ | .write _ _ _ | .shutdownMark _ | .shutdownQueue _ | .poke _ _ =>
      inferInstanceAs (Decidable True)

/-- Every callback that is bound is set, and none that was not was called. -/
structure CallbacksSet (cbs : Callbacks) (s : System Tid) : Prop where
  bound : ∀ c ∈ s.ahead, c.IsSet cbs
  called : s.loop.fault ≠ some .badFunctionCall

theorem none_ne_badFunctionCall : (none : Option Fault) ≠ some .badFunctionCall := by
  decide

theorem dangling_ne_badFunctionCall : some Fault.dangling ≠ some .badFunctionCall := by
  decide

theorem ne_badFunctionCall {e : Fault} (h : e.OfObject) : some e ≠ some .badFunctionCall := by
  intro heq
  cases heq
  exact h

theorem callbacksSet_of_accepted {s : System Tid} (cbs : Callbacks) (h : s.Accepted) :
    s.CallbacksSet cbs := by
  refine { bound := ?_, called := ?_ }
  · intro c hc
    exact absurd hc (h.not_mem_ahead c)
  · rw [h.new]
    exact none_ne_badFunctionCall

variable [DecidableEq Tid] {S : Setup} {s s' : System Tid} {a : Act Tid}

omit [DecidableEq Tid] in
/-- What a step brings is set. -/
theorem brings_isSet (hok : s.BindsSet S.cbs a) {c : Call} (hbrings : s.Brings S a c) :
    c.IsSet S.cbs := by
  cases a with
  | start =>
      have hok : s.startPc = .runConnCb → S.cbs.conn = true := hok
      rw [Brings] at hbrings
      cases hpc : s.startPc <;> rw [hpc] at hbrings <;> cases hbrings
      · trivial
      · trivial
      · exact hok hpc
  | processWork =>
      rcases Loop.mem_dispatchCalls.mp hbrings with rfl | rfl | rfl | rfl <;> trivial
  | call env =>
      rcases hbrings with ⟨-, c₀, calls, conn, hhead, hrun, hc⟩
      exact Connection.exec_isSet (hok c₀ hhead) hrun c hc
  | user op =>
      rcases hbrings with ⟨data, rfl⟩ | rfl
      · trivial
      · trivial
  | write t ptr len =>
      obtain rfl := hbrings
      trivial
  | shutdownQueue t =>
      obtain rfl := hbrings
      trivial
  | _ => cases hbrings

/-- Only the call of an empty callback would throw. -/
theorem CallbacksSet.called_next (h : s.CallbacksSet S.cbs) (hen : s.Enabled a) :
    (s.next S a).loop.fault ≠ some .badFunctionCall := by
  cases a with
  | start =>
      rw [next, startNext]
      cases s.startPc <;> exact h.called
  | poll selfReady events => cases events <;> exact h.called
  | processWork =>
      rw [next]
      split
      · exact dangling_ne_badFunctionCall
      · exact h.called
  | call env =>
      rcases hen.2.1.exists_cons with ⟨c, rest, hstack, -, -⟩
      have hset : c.IsSet S.cbs := h.bound c (List.mem_append_left _ (by simp [hstack]))
      rw [next]
      split
      · exact dangling_ne_badFunctionCall
      · show (s.loop.call S s.mem env).fault ≠ _
        rw [Loop.call_cons hstack]
        cases hrun : (Connection.exec S.build S.cbs env s.mem c).run s.loop.conn with
        | ok calls conn => exact none_ne_badFunctionCall
        | error e conn => exact ne_badFunctionCall (Connection.raises_exec hset _ _ _ hrun)
  | user op =>
      cases op with
      | readBuffer op =>
          show (s.loop.user S (.readBuffer op)).fault ≠ _
          rw [Loop.user]
          have hraises : Raises Fault.OfObject (Connection.onReadCache (op.exec S.build S.host)) :=
            Raises.onField (ByteBuffer.raises_exec S.build S.host op)
          split
          · exact h.called
          · next e c hrun => exact ne_badFunctionCall (hraises _ _ _ hrun)
      | _ => exact h.called
  | _ => exact h.called

theorem CallbacksSet.step (h : s.CallbacksSet S.cbs) (hok : s.BindsSet S.cbs a)
    (hs : s.step S a = some s') : s'.CallbacksSet S.cbs := by
  rcases step_eq_some.mp hs with ⟨hen, rfl⟩
  have hahead : (s.next S a).settle.ahead = (s.next S a).ahead := settle_of_same (fun _ => rfl) _
  have hfault : (s.next S a).settle.loop.fault = (s.next S a).loop.fault :=
    settle_of_same (f := fun s => s.loop.fault) (fun _ => rfl) _
  refine { bound := ?_, called := ?_ }
  · rw [hahead]
    intro c hc
    rcases mem_ahead_next hen hc with hold | hbrings
    · exact h.bound c hold
    · exact brings_isSet hok hbrings
  · rw [hfault]
    exact h.called_next hen

/-! ## Runs -/

theorem CallbacksSet.run {as : List (Act Tid)} (h : s.CallbacksSet S.cbs)
    (halong : Along (System.step S) (BindsSet S.cbs) s as)
    (hrun : Lib.run (System.step S) s as = some s') : s'.CallbacksSet S.cbs :=
  invariant_along (I := CallbacksSet S.cbs) (fun _ _ _ h hok hs => h.step hok hs) h halong hrun

/-- In a run whose steps bind set callbacks only, no empty callback is called. -/
theorem not_badFunctionCall_of_run {s₀ : System Tid} {as : List (Act Tid)} (hnew : s₀.Accepted)
    (hrun : run (step S) s₀ as = some s) (halong : Along (step S) (BindsSet S.cbs) s₀ as) :
    s.loop.fault ≠ some .badFunctionCall :=
  ((callbacksSet_of_accepted S.cbs hnew).run halong hrun).called

/-- A user who wants to know only when connections begin and end. -/
def connOnly : Setup :=
  { build := .debug
    host := .liteEndian
    cbs := { conn := true, read := false, write := false, error := false } }

/-- An error is reported, the peer hangs up, and the connection is closed. -/
def errorAndHup : List (Act Bool) :=
  startSteps ++ startTasks ++
    [.io .testQuit, .poll false (some epollErr), .processWork, .call {}, .call {}, .call {},
      .call {}, .call {}, .workDone, .io .dispatched, .io .swapPending, .io .batchDone,
      .io .testQuit, .poll false (some epollHup), .processWork, .call {}, .call {}, .call {},
      .user .returns, .call {}, .call {}, .call {}, .call {}, .workDone]

theorem not_badFunctionCall_of_run_errorAndHup :
    ∃ s, run (step connOnly) acceptedByOther errorAndHup = some s ∧
      s.loop.conn.notes = [.conn true, .conn false, .close] ∧
      s.loop.fault ≠ some .badFunctionCall := by
  have hany : (run (step connOnly) acceptedByOther errorAndHup).any
      (fun s => decide (s.loop.conn.notes = [.conn true, .conn false, .close])) = true := by
    decide +kernel
  have halong : Along (step connOnly) (BindsSet connOnly.cbs) acceptedByOther errorAndHup := by
    decide +kernel
  rcases exists_run_of_any hany with ⟨s, hrun, hnotes⟩
  exact ⟨s, hrun, hnotes, not_badFunctionCall_of_run accepted_acceptedByOther hrun halong⟩

/-! ## Which callbacks have to be set -/

/-- A Debug build with these callbacks. -/
def setupOf (cbs : Callbacks) : Setup :=
  { build := .debug
    host := .liteEndian
    cbs }

/-- The loop runs the tasks of `start()` up to the connection callback. -/
def runsConnCb : List (Act Bool) :=
  startSteps ++ [.io .testQuit, .poll false none, .io .dispatched, .io .swapPending,
    .runNext, .call {}, .io .taskReturns, .runNext, .call {}, .io .taskReturns, .runNext, .call {}]

/-- One byte arrives. -/
def receivesByte : List (Act Bool) :=
  startSteps ++ startTasks ++ [.io .testQuit, .poll false (some epollIn), .processWork, .call {},
    .call {}, .call {}, .call { received := some [1] }, .call {}]

/-- The connection callback writes one byte, and it is sent. -/
def sendsByte : List (Act Bool) :=
  runsConnCb ++ [.user (.write ⟨[1], by decide⟩), .call { sent := some 1 }, .call {}]

/-- With a callback unset that every connection, every received byte or every sent byte is told to,
a run on fixed labels comes to its call. -/
theorem exists_badFunctionCall {cbs : Callbacks}
    (h : ¬ (cbs.conn = true ∧ cbs.read = true ∧ cbs.write = true)) :
    ∃ as s, run (step (setupOf cbs)) acceptedByOther as = some s ∧
      s.loop.fault = some .badFunctionCall := by
  have hconn : ∀ read write error, (run (step (setupOf ⟨false, read, write, error⟩))
      acceptedByOther runsConnCb).any (fun s => decide (s.loop.fault = some .badFunctionCall)) =
        true := by
    decide +kernel
  have hread : ∀ write error, (run (step (setupOf ⟨true, false, write, error⟩))
      acceptedByOther receivesByte).any (fun s => decide (s.loop.fault = some .badFunctionCall)) =
        true := by
    decide +kernel
  have hwrite : ∀ error, (run (step (setupOf ⟨true, true, false, error⟩))
      acceptedByOther sendsByte).any (fun s => decide (s.loop.fault = some .badFunctionCall)) =
        true := by
    decide +kernel
  rcases cbs with ⟨conn, read, write, error⟩
  cases conn with
  | false => exact ⟨runsConnCb, exists_run_of_any (hconn read write error)⟩
  | true =>
      cases read with
      | false => exact ⟨receivesByte, exists_run_of_any (hread write error)⟩
      | true =>
          cases write with
          | false => exact ⟨sendsByte, exists_run_of_any (hwrite error)⟩
          | true => exact absurd ⟨rfl, rfl, rfl⟩ h

omit [DecidableEq Tid] in
/-- With these three set, no step binds a callback that is not. -/
theorem bindsSet_of_set {cbs : Callbacks} (hconn : cbs.conn = true) (hread : cbs.read = true)
    (hwrite : cbs.write = true) (s : System Tid) (a : Act Tid) : s.BindsSet cbs a := by
  cases a with
  | start => exact fun _ => hconn
  | call env =>
      intro c _
      cases c with
      | handleRead =>
          rw [Call.BindsSet]
          split
          · exact hconn
          · exact hread
      | handleWrite => exact Or.inl hwrite
      | writeInLoop data => exact Or.inl hwrite
      | handleClose => exact hconn
      | _ => trivial
  | _ => trivial

/-- No run calls an empty callback exactly if the user has set the connection, the read and the
write callback; the error callback may be unset. -/
theorem never_badFunctionCall_iff (cbs : Callbacks) :
    (∀ (B : Build) (host : ByteOrder) (Tid : Type) [DecidableEq Tid] (s₀ s : System Tid)
        (as : List (Act Tid)), s₀.Accepted →
      run (step { build := B, host, cbs }) s₀ as = some s →
        s.loop.fault ≠ some .badFunctionCall) ↔
      cbs.conn = true ∧ cbs.read = true ∧ cbs.write = true := by
  constructor
  · intro hnever
    by_contra hunset
    rcases exists_badFunctionCall hunset with ⟨as, s, hrun, hfault⟩
    exact hnever .debug .liteEndian Bool _ s as accepted_acceptedByOther hrun hfault
  · rintro ⟨hconn, hread, hwrite⟩ B host Tid _ s₀ s as hnew hrun
    have hall : ∀ (s : System Tid) a, s.BindsSet cbs a := bindsSet_of_set hconn hread hwrite
    exact ((callbacksSet_of_accepted cbs hnew).run (along_of_forall hall s₀ as) hrun).called

/-- With no callback set, the first task of `start()` that calls one throws. -/
theorem unset_conn_callback_is_called :
    ¬ ∀ (S : Setup) (s₀ s : System Bool) (as : List (Act Bool)), s₀.Accepted →
      run (step S) s₀ as = some s → s.loop.fault ≠ some .badFunctionCall := by
  intro h
  have hany : (run (step (setupOf ⟨false, false, false, false⟩)) acceptedByOther runsConnCb).any
      (fun s => decide (s.loop.fault = some .badFunctionCall)) = true := by
    decide +kernel
  rcases exists_run_of_any hany with ⟨s, hrun, hfault⟩
  exact h _ _ _ _ accepted_acceptedByOther hrun hfault

end System

end Net
end Muradin
