import Muradin.Net.TcpServer.System

/-!
# Steps — what one step of the system can do

* `next_of_not_ofHolder` — only the threads that hold a copy change the memory, the copies and the
  life of the connection;
* `io_next` — for the `io_service`, every step of the system is a step of its own, or none;
* `mem_ahead_next` — which calls a step adds to those that the loop has still to make;
* `closing_run` — a close callback that is still to be made belongs to a `handle_close` that has run.
-/

namespace Muradin
namespace Net

open Lib Cpp Events

namespace System

variable {Tid : Type}

/-- The calls that the loop has still to make: those on its stack and those of the tasks that have
not been started. -/
def ahead (s : System Tid) : List Call :=
  s.loop.stack ++ s.io.waiting.flatMap (·.2.calls)

/-- The loop has nothing to do yet for a connection that was just accepted. -/
theorem Accepted.not_mem_ahead {s : System Tid} (h : s.Accepted) (c : Call) : c ∉ s.ahead := by
  have hstack : s.loop.stack = [] := by
    rw [h.new]
    rfl
  intro hc
  rw [ahead, hstack, List.nil_append] at hc
  rcases List.mem_flatMap.mp hc with ⟨x, hx, hcalls⟩
  rw [h.unrelated x (IoService.mem_held_of_waiting hx)] at hcalls
  cases hcalls

variable [DecidableEq Tid] {S : Setup} {s s' : System Tid} {a : Act Tid}

/-! ## What a step leaves alone -/

/-- The step copies, gives up or uses a `connection_ptr` for `shutdown()`, or stores to the memory. -/
def Act.OfHolder : Act Tid → Bool
  | .copy _ | .give _ _ | .release _ | .shutdownMark _ | .shutdownQueue _ | .poke _ _ => true
  | _ => false

/-- Every other step leaves the memory, the copies and the life of the connection alone. -/
theorem next_of_not_ofHolder (S : Setup) (s : System Tid) (ha : a.OfHolder = false) :
    ∃ io loop startPc active locked handed,
      s.next S a =
        { s with
          io := io
          loop := loop
          startPc := startPc
          active := active
          locked := locked
          handed := handed } := by
  cases a with
  | start =>
      rw [next, startNext]
      cases s.startPc <;> exact ⟨_, _, _, _, _, _, rfl⟩
  | poll selfReady events => cases events <;> exact ⟨_, _, _, _, _, _, rfl⟩
  | processWork =>
      rw [next]
      split <;> exact ⟨_, _, _, _, _, _, rfl⟩
  | call env =>
      rw [next]
      split <;> exact ⟨_, _, _, _, _, _, rfl⟩
  | io b => exact ⟨_, _, _, _, _, _, rfl⟩
  | workDone => exact ⟨_, _, _, _, _, _, rfl⟩
  | runNext => exact ⟨_, _, _, _, _, _, rfl⟩
  | user op => exact ⟨_, _, _, _, _, _, rfl⟩
  | write t ptr len => exact ⟨_, _, _, _, _, _, rfl⟩
  | _ => cases ha

/-! ## The `io_service` below -/

/-- What a step is for the `io_service`. -/
def ioAct (s : System Tid) : Act Tid → Option (IoService.Act Tid Task)
  | .io a => some a
  | .start =>
      match s.startPc with
      | .joinToService => some (.runTask s.acceptorTid .addChannel)
      | .updateChannel => some (.runTask s.acceptorTid .updateChannel)
      | .runConnCb => some (.runTask s.acceptorTid .connCb)
      | _ => none
  | .poll selfReady _ => some (.pollReturns selfReady)
  | .runNext => some .runNext
  | .write t ptr len => some (.runTask t (.writeInLoop (.memory ptr len (loadMemory s.mem ptr len))))
  | .shutdownQueue t => some (.runTask t .shutdownInLoop)
  | _ => none

omit [DecidableEq Tid] in
theorem io_settle (s : System Tid) : s.settle.io = s.io :=
  settle_of_same (fun _ => rfl) s

theorem io_next (S : Setup) (s : System Tid) (a : Act Tid) :
    (s.next S a).io = ((s.ioAct a).map s.io.next).getD s.io := by
  cases a with
  | start =>
      rw [next, startNext, ioAct]
      cases s.startPc <;> rfl
  | poll selfReady events => cases events <;> rfl
  | processWork =>
      rw [next]
      split <;> rfl
  | call env =>
      rw [next]
      split <;> rfl
  | _ => rfl

theorem ioAct_enabled {b : IoService.Act Tid Task} (hen : s.Enabled a)
    (hb : s.ioAct a = some b) : s.io.Enabled b := by
  cases a with
  | io a =>
      cases hb
      exact hen.2.2
  | start =>
      rw [ioAct] at hb
      cases hpc : s.startPc <;> rw [hpc] at hb <;> cases hb <;> exact hen.2.2.2
  | poll selfReady events =>
      cases hb
      exact hen.2.1
  | runNext =>
      cases hb
      exact hen.2
  | write t ptr len =>
      cases hb
      exact hen.2.2.2.1
  | shutdownQueue t =>
      cases hb
      exact hen.2.2.2
  | _ => cases hb

/-- What comes into a list of tasks by `run_task` only, comes into it by the steps that call
`run_task`. -/
theorem mem_next_of_io {tasks : IoService Tid Task → List (Tid × Task)} {x : Tid × Task}
    (hio : ∀ b, s.ioAct a = some b → x ∈ tasks (s.io.next b) →
      x ∈ tasks s.io ∨ b = .runTask x.1 x.2)
    (hx : x ∈ tasks (s.next S a).io) : x ∈ tasks s.io ∨ s.ioAct a = some (.runTask x.1 x.2) := by
  rw [io_next] at hx
  cases hb : s.ioAct a with
  | none =>
      rw [hb] at hx
      exact Or.inl hx
  | some b =>
      rw [hb] at hx
      exact (hio b hb hx).imp_right (congrArg some)

/-- A task that exists behind a step was there before, or this step queued it. -/
theorem mem_held_next {x : Tid × Task} (hx : x ∈ (s.next S a).io.held) :
    x ∈ s.io.held ∨ s.ioAct a = some (.runTask x.1 x.2) :=
  mem_next_of_io (fun _ _ hmem => IoService.mem_held_next hmem) hx

theorem mem_outstanding_next {x : Tid × Task} (hx : x ∈ (s.next S a).io.outstanding) :
    x ∈ s.io.outstanding ∨ s.ioAct a = some (.runTask x.1 x.2) :=
  mem_next_of_io (fun _ _ hmem => IoService.mem_outstanding_next hmem) hx

theorem mem_waiting_next {x : Tid × Task} (hen : s.Enabled a)
    (hx : x ∈ (s.next S a).io.waiting) :
    x ∈ s.io.waiting ∨ s.ioAct a = some (.runTask x.1 x.2) :=
  mem_next_of_io (fun _ hb hmem => IoService.mem_waiting_next (ioAct_enabled hen hb) hmem) hx

/-- What the connection has nothing to do with is queued as `other`. -/
theorem other_of_io {b : IoService.Act Tid Task} {t : Tid} {task : Task}
    (hen : s.Enabled (.io b)) (hb : b = .runTask t task) : task = .other := by
  subst hb
  exact hen.2.1

/-! ## The calls to come -/

/-- A step adds this call to those that the loop has still to make. -/
def Brings (S : Setup) (s : System Tid) : Act Tid → Call → Prop
  | .start, c =>
      match s.startPc with
      | .joinToService => c = .addChannel
      | .updateChannel => c = .updateChannel
      | .runConnCb => c = .connCb
      | _ => False
  | .processWork, c => c ∈ Loop.dispatchCalls
  | .call env, c =>
      s.destroyed = false ∧ ∃ c₀ calls conn, s.loop.stack.head? = some c₀ ∧
        (Connection.exec S.build S.cbs env s.mem c₀).run s.loop.conn = .ok calls conn ∧ c ∈ calls
  | .user _, c => (∃ data, c = .writeInLoop (.bytes data)) ∨ c = .shutdownInLoop
  | .write _ ptr len, c => c = .writeInLoop (.memory ptr len (loadMemory s.mem ptr len))
  | .shutdownQueue _, c => c = .shutdownInLoop
  | _, _ => False

/-- What a step brings to the queue. -/
theorem brings_of_queued (hen : s.Enabled a) {t : Tid} {task : Task}
    (hqueued : s.ioAct a = some (.runTask t task)) {c : Call} (hc : c ∈ task.calls) :
    s.Brings S a c := by
  cases a with
  | io b =>
      rw [other_of_io hen (Option.some.inj hqueued)] at hc
      cases hc
  | start =>
      rw [ioAct] at hqueued
      rw [Brings]
      cases hpc : s.startPc <;> rw [hpc] at hqueued <;> cases hqueued <;>
        exact List.mem_singleton.mp hc
  | write u ptr len =>
      cases hqueued
      exact List.mem_singleton.mp hc
  | shutdownQueue u =>
      cases hqueued
      exact List.mem_singleton.mp hc
  | _ => cases hqueued

omit [DecidableEq Tid] in
/-- The task that the loop starts was waiting. -/
theorem exists_waiting_of_nextTask (hpc : s.io.loopPc = .nextTask) {c : Call}
    (hc : c ∈ s.nextTask.calls) : ∃ x ∈ s.io.waiting, c ∈ x.2.calls := by
  cases hx : s.io.toRun[s.io.i]? with
  | none => simp [nextTask, hx, Task.calls] at hc
  | some x =>
      refine ⟨x, ?_, by simpa [nextTask, hx] using hc⟩
      rw [IoService.waiting_eq (by simp [hpc])]
      refine List.mem_append_right _ ?_
      rw [List.drop_eq_getElem?_toList_append, hx]
      exact List.mem_cons_self

/-- What a step brings to the stack. -/
theorem brings_of_stack (hen : s.Enabled a) {c : Call} (hc : c ∈ (s.next S a).loop.stack) :
    c ∈ s.ahead ∨ s.Brings S a c := by
  have hold : ∀ {c : Call}, c ∈ s.loop.stack → c ∈ s.ahead := List.mem_append_left _
  cases a with
  | start =>
      left
      apply hold
      rw [next, startNext] at hc
      cases hpc : s.startPc <;> rw [hpc] at hc <;> exact hc
  | poll selfReady events =>
      left
      cases events <;> exact hold hc
  | processWork =>
      rw [next] at hc
      split at hc
      · exact Or.inl (hold hc)
      · exact Or.inr hc
  | runNext =>
      left
      -- The task was waiting: its calls were to come already.
      rcases exists_waiting_of_nextTask hen.2.1 hc with ⟨x, hx, hcalls⟩
      exact List.mem_append_right _ (List.mem_flatMap.mpr ⟨x, hx, hcalls⟩)
  | call env =>
      rcases hen.2.1.exists_cons with ⟨c₀, rest, hstack, -, -⟩
      rw [next] at hc
      split at hc
      · exact Or.inl (hold hc)
      · next halive =>
        have hc : c ∈ (s.loop.call S s.mem env).stack := hc
        -- A call that throws brings nothing.
        rw [Loop.call_cons hstack] at hc
        cases hrun : (Connection.exec S.build S.cbs env s.mem c₀).run s.loop.conn with
        | ok calls conn =>
            rw [hrun] at hc
            rcases List.mem_append.mp hc with hnew | hrest
            · exact Or.inr ⟨by simpa using halive, c₀, calls, conn, by simp [hstack], hrun, hnew⟩
            · exact Or.inl (hold (by simp [hstack, hrest]))
        | error e conn =>
            rw [hrun] at hc
            have hrest : c ∈ rest := hc
            exact Or.inl (hold (by simp [hstack, hrest]))
  | user op =>
      have hc : c ∈ (s.loop.user S op).stack := hc
      rcases Loop.user_stack (S := S) (s := s.loop) op with ⟨data, hstack⟩ | hstack | hstack | hstack
      · rw [hstack] at hc
        rcases List.mem_cons.mp hc with rfl | hrest
        · exact Or.inr (Or.inl ⟨data.1, rfl⟩)
        · exact Or.inl (hold hrest)
      · rw [hstack] at hc
        rcases List.mem_cons.mp hc with rfl | hrest
        · exact Or.inr (Or.inr rfl)
        · exact Or.inl (hold hrest)
      · rw [hstack] at hc
        exact Or.inl (hold hc)
      · rw [hstack] at hc
        exact Or.inl (hold (List.mem_of_mem_tail hc))
  | _ => exact Or.inl (hold hc)

/-- A call that is to come behind a step was to come before, or the step brings it. -/
theorem mem_ahead_next (hen : s.Enabled a) {c : Call} (hc : c ∈ (s.next S a).ahead) :
    c ∈ s.ahead ∨ s.Brings S a c := by
  rcases List.mem_append.mp hc with hstack | htask
  · exact brings_of_stack hen hstack
  · rcases List.mem_flatMap.mp htask with ⟨x, hx, hcalls⟩
    rcases mem_waiting_next hen hx with hold | hqueued
    · exact Or.inl (List.mem_append_right _ (List.mem_flatMap.mpr ⟨x, hold, hcalls⟩))
    · exact Or.inr (brings_of_queued hen hqueued hcalls)

/-! ## The close callback -/

omit [DecidableEq Tid] in
theorem closing_settle (h : s.loop.Closing) : s.settle.loop.Closing := by
  unfold settle
  split <;> exact h

theorem closing_next (h : s.loop.Closing) (a : Act Tid) : (s.next S a).loop.Closing := by
  cases a with
  | start =>
      rw [next, startNext]
      cases s.startPc <;> exact h
  | poll selfReady events => cases events <;> exact h
  | processWork =>
      rw [next]
      split
      · exact h
      · intro hmem
        have hmem : Call.closeCb ∈ Loop.dispatchCalls := hmem
        exact absurd hmem (by decide)
  | runNext =>
      intro hmem
      have hmem : Call.closeCb ∈ s.nextTask.calls := hmem
      -- No task is a close callback.
      cases htask : s.nextTask <;> simp [htask, Task.calls] at hmem
  | call env =>
      rw [next]
      split
      · exact h
      · cases hstack : s.loop.stack with
        | nil => simpa [Loop.call, hstack] using h
        | cons c rest => exact h.call hstack
  | user op => exact h.user op
  | _ => exact h

theorem closing_step (h : s.loop.Closing) (hs : s.step S a = some s') : s'.loop.Closing := by
  rcases step_eq_some.mp hs with ⟨-, rfl⟩
  exact closing_settle (closing_next h a)

theorem closing_run {as : List (Act Tid)} (h : s.loop.Closing) (hrun : run (step S) s as = some s') :
    s'.loop.Closing :=
  invariant_run (I := fun s => s.loop.Closing) (fun _ _ _ h hs => closing_step h hs) h hrun

end System

end Net
end Muradin
