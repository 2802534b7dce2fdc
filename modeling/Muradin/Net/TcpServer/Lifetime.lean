import Muradin.Net.TcpServer.Steps

/-!
# Lifetime — tasks that are bound to the raw `this`

`write` and `shutdown` bind `this` into the task that they queue, and `this` keeps nothing alive.
The caller's `connection_ptr` does, until it is released; the task may run much later.

* a destroyed connection has no references left, so nobody can queue for it any more;
* what can run on a destroyed connection is therefore a task that was queued before;
* `alive_of_run` says which runs are free of it: the last reference is never given up over such a
  task.
-/

namespace Muradin
namespace Net

open Lib Cpp Events

namespace System

variable {Tid : Type}

/-- A task bound to the raw `this` has not returned yet. -/
def BoundToThis (s : System Tid) : Prop :=
  ∃ x ∈ s.io.outstanding, x.2.BindsThis = true

instance (s : System Tid) : Decidable s.BoundToThis :=
  inferInstanceAs (Decidable (∃ x ∈ s.io.outstanding, _))

/-- The task that the loop is executing finds its connection alive. -/
def RunsAlive (s : System Tid) : Prop :=
  s.io.loopPc = .inTask → s.nextTask.BindsThis = true → s.destroyed = false

/-! ## References -/

/-- Nothing refers to the connection. -/
structure Unreferenced (s : System Tid) : Prop where
  inConnMap : s.loop.conn.inConnMap = false
  holders : s.holders = []
  started : s.startPc = .done
  unlocked : s.locked = false
  noUser : .user ∉ s.loop.stack
  noConnCb : ∀ x ∈ s.io.held, x.2 ≠ .connCb

theorem Unreferenced.not_holder {s : System Tid} (h : s.Unreferenced) (t : Tid) :
    t ∉ s.holders := by
  rw [h.holders]
  exact List.not_mem_nil

theorem refs_eq_zero {s : System Tid} : s.refs = 0 ↔ s.Unreferenced := by
  have hstart : (if s.startPc = .done then 0 else 1) = 0 ↔ s.startPc = .done := by
    split <;> simp_all
  have hcount : s.io.held.countP (·.2 = .connCb) = 0 ↔ ∀ x ∈ s.io.held, x.2 ≠ .connCb := by
    simp [List.countP_eq_zero]
  unfold refs
  simp only [Nat.add_eq_zero_iff, Bool.toNat_eq_zero, List.length_eq_zero_iff, hstart,
    List.count_eq_zero, hcount]
  constructor
  · rintro ⟨⟨⟨⟨⟨hmap, hholders⟩, hstarted⟩, hlocked⟩, huser⟩, hcb⟩
    exact ⟨hmap, hholders, hstarted, hlocked, huser, hcb⟩
  · rintro ⟨hmap, hholders, hstarted, hlocked, huser, hcb⟩
    exact ⟨⟨⟨⟨⟨hmap, hholders⟩, hstarted⟩, hlocked⟩, huser⟩, hcb⟩

theorem refs_destroy (s : System Tid) : s.destroy.refs = s.refs := rfl

theorem refs_settle (s : System Tid) : s.settle.refs = s.refs :=
  settle_of_same refs_destroy s

theorem destroyed_settle (s : System Tid) :
    s.settle.destroyed = true ↔ s.destroyed = true ∨ s.refs = 0 := by
  unfold settle
  split
  · next h => simp [destroy, h]
  · next h => simp [h]

/-! ## The invariant -/

/-- A connection is destroyed exactly when nothing refers to it, and then no task is bound to it. -/
structure LifetimeInv (s : System Tid) : Prop where
  destroyed_iff : s.destroyed = true ↔ s.refs = 0
  /-- `shutdown()` is called through a `connection_ptr`. -/
  shuttingDown : ∀ t, s.shuttingDown t = true → t ∈ s.holders
  unbound : s.destroyed = true → ¬ s.BoundToThis

/-- The part of it that holds in every run. -/
structure RefInv (s : System Tid) : Prop where
  destroyed_iff : s.destroyed = true ↔ s.refs = 0
  shuttingDown : ∀ t, s.shuttingDown t = true → t ∈ s.holders

theorem LifetimeInv.refInv {s : System Tid} (h : s.LifetimeInv) : s.RefInv :=
  { destroyed_iff := h.destroyed_iff
    shuttingDown := h.shuttingDown }

/-- What refers to the connection keeps it alive. -/
theorem RefInv.alive {s : System Tid} (h : s.RefInv) (href : ¬ s.Unreferenced) :
    s.destroyed = false := by
  cases hdestroyed : s.destroyed with
  | false => rfl
  | true => exact absurd (refs_eq_zero.mp (h.destroyed_iff.mp hdestroyed)) href

theorem lifetimeInv_of_accepted {s : System Tid} (h : s.Accepted) : s.LifetimeInv := by
  have hdestroyed : s.destroyed = false := by
    rw [h.new]
    rfl
  have hrefs : s.refs ≠ 0 := by
    intro hzero
    have hstarted := (refs_eq_zero.mp hzero).started
    rw [h.new] at hstarted
    cases hstarted
  refine { destroyed_iff := ?_, shuttingDown := ?_, unbound := ?_ }
  · simp [hdestroyed, hrefs]
  · intro t ht
    rw [h.new] at ht
    cases ht
  · intro hd
    rw [hdestroyed] at hd
    cases hd

variable [DecidableEq Tid] {S : Setup} {s s' : System Tid} {a : Act Tid}

/-- The step leaves a reference if there was one and a task bound to the raw `this` has not returned
yet. -/
def KeepsReference (S : Setup) (s : System Tid) (a : Act Tid) : Prop :=
  s.BoundToThis → s.refs ≠ 0 → (s.next S a).refs ≠ 0

instance (s : System Tid) (a : Act Tid) : Decidable (s.KeepsReference S a) :=
  inferInstanceAs (Decidable (_ → _ → _))

/-! ## One step -/

theorem shuttingDown_next (h : s.RefInv) (hen : s.Enabled a) :
    ∀ t, (s.next S a).shuttingDown t = true → t ∈ (s.next S a).holders := by
  intro t ht
  cases ha : a.OfHolder with
  | false =>
      rcases next_of_not_ofHolder S s ha with ⟨_, _, _, _, _, _, hnext⟩
      rw [hnext] at ht ⊢
      exact h.shuttingDown t ht
  | true =>
      cases a with
      | copy u => exact List.mem_cons_of_mem u (h.shuttingDown t ht)
      | give u v => exact List.mem_cons_of_mem v (h.shuttingDown t ht)
      -- A thread that is inside `shutdown()` does not release its copy.
      | release u =>
          have hmark : s.shuttingDown t = true := ht
          have hopen : s.shuttingDown u = false := hen.2.2.2
          have hne : t ≠ u := by
            intro heq
            rw [← heq, hmark] at hopen
            cases hopen
          exact (List.mem_erase_of_ne hne).mpr (h.shuttingDown t hmark)
      | shutdownMark u =>
          by_cases htu : t = u
          · subst htu
            exact hen.2.1
          · have ht : Function.update s.shuttingDown u true t = true := ht
            rw [Function.update_of_ne htu] at ht
            exact h.shuttingDown t ht
      | shutdownQueue u =>
          have ht : Function.update s.shuttingDown u false t = true := ht
          by_cases htu : t = u
          · subst htu
            rw [Function.update_self] at ht
            cases ht
          · rw [Function.update_of_ne htu] at ht
            exact h.shuttingDown t ht
      | poke addr val => exact h.shuttingDown t ht
      | _ => cases ha

/-- A task bound to the raw `this` is queued by a thread that holds the connection, before and behind
the step. -/
theorem boundToThis_next (h : s.RefInv) (hen : s.Enabled a)
    (hbound : (s.next S a).BoundToThis) :
    s.BoundToThis ∨ (s.holders ≠ [] ∧ (s.next S a).holders = s.holders) := by
  rcases hbound with ⟨x, hx, hthis⟩
  rcases mem_outstanding_next hx with hold | hqueued
  · exact Or.inl ⟨x, hold, hthis⟩
  right
  rcases x with ⟨t, task⟩
  cases a with
  | io b =>
      rw [other_of_io hen (Option.some.inj hqueued)] at hthis
      cases hthis
  | start =>
      -- `start()` binds its callback to `shared_from_this()`.
      rw [ioAct] at hqueued
      cases hpc : s.startPc <;> rw [hpc] at hqueued <;> cases hqueued <;> cases hthis
  | write t ptr len => exact ⟨List.ne_nil_of_mem hen.2.1, rfl⟩
  | shutdownQueue t => exact ⟨List.ne_nil_of_mem (h.shuttingDown t hen.2.1), rfl⟩
  | _ => cases hqueued

/-- The connection is destroyed behind a step, not by it. -/
theorem destroyed_next (S : Setup) (s : System Tid) (a : Act Tid) :
    (s.next S a).destroyed = s.destroyed := by
  cases ha : a.OfHolder with
  | true => cases a <;> first | rfl | cases ha
  | false =>
      rcases next_of_not_ofHolder S s ha with ⟨_, _, _, _, _, _, hnext⟩
      rw [hnext]

/-- Nobody can reach a connection without references again. -/
theorem refs_next_of_zero (h : s.RefInv) (hzero : s.refs = 0) (hen : s.Enabled a) :
    (s.next S a).refs = 0 := by
  have hun := refs_eq_zero.mp hzero
  have hdestroyed := h.destroyed_iff.mpr hzero
  -- The only tasks that can still be queued are those of the others.
  have hheld : ∀ x ∈ (s.next S a).io.held, x.2 ≠ .connCb := by
    intro x hx
    rcases mem_held_next hx with hold | hqueued
    · exact hun.noConnCb x hold
    · rcases x with ⟨t, task⟩
      cases a with
      | io b =>
          rw [other_of_io hen (Option.some.inj hqueued)]
          simp
      | start => exact absurd hun.started hen.2.1
      | write t ptr len =>
          cases hqueued
          simp
      | shutdownQueue t =>
          cases hqueued
          simp
      | _ => cases hqueued
  refine refs_eq_zero.mpr ?_
  cases a with
  | io b => exact { hun with noConnCb := hheld }
  | start => exact absurd hun.started hen.2.1
  | poll selfReady events =>
      cases events <;> exact { hun with noConnCb := hheld }
  | processWork =>
      simp only [next, hdestroyed, if_true]
      exact { hun with }
  | workDone => exact { hun with unlocked := rfl }
  | runNext =>
      refine { hun with noConnCb := hheld, noUser := ?_ }
      show .user ∉ s.nextTask.calls
      cases s.nextTask <;> simp [Task.calls]
  | call env =>
      simp only [next, hdestroyed, if_true]
      exact { hun with }
  | user op => exact absurd (List.mem_of_mem_head? hen.2.1) hun.noUser
  | copy t => exact absurd (List.mem_of_mem_head? hen.2.1) hun.noUser
  | give t t' => exact absurd hen.2 (hun.not_holder t)
  | release t => exact absurd hen.2.1 (hun.not_holder t)
  | write t ptr len => exact absurd hen.2.1 (hun.not_holder t)
  | shutdownMark t => exact absurd hen.2.1 (hun.not_holder t)
  | shutdownQueue t => exact absurd (h.shuttingDown t hen.2.1) (hun.not_holder t)
  | poke addr val => exact { hun with }

theorem RefInv.step (h : s.RefInv) (hs : s.step S a = some s') : s'.RefInv := by
  rcases step_eq_some.mp hs with ⟨hen, rfl⟩
  refine { destroyed_iff := ?_, shuttingDown := ?_ }
  · rw [refs_settle, destroyed_settle, destroyed_next, h.destroyed_iff]
    constructor
    · rintro (hzero | hzero)
      · exact refs_next_of_zero h hzero hen
      · exact hzero
    · exact Or.inr
  · have hholders : (s.next S a).settle.holders = (s.next S a).holders :=
      settle_of_same (fun _ => rfl) _
    have hmarks : (s.next S a).settle.shuttingDown = (s.next S a).shuttingDown :=
      settle_of_same (fun _ => rfl) _
    rw [hholders, hmarks]
    exact shuttingDown_next h hen

theorem LifetimeInv.step (h : s.LifetimeInv) (hok : s.KeepsReference S a)
    (hs : s.step S a = some s') : s'.LifetimeInv := by
  have hrefs : s'.RefInv := h.refInv.step hs
  rcases step_eq_some.mp hs with ⟨hen, rfl⟩
  refine { hrefs with unbound := ?_ }
  intro hdestroyed hbound
  have hzero : (s.next S a).refs = 0 := by
    rw [← refs_settle]
    exact hrefs.destroyed_iff.mp hdestroyed
  rw [BoundToThis, io_settle] at hbound
  rcases boundToThis_next h.refInv hen hbound with hold | ⟨hne, hsame⟩
  · by_cases hold' : s.refs = 0
    · exact h.unbound (h.destroyed_iff.mpr hold') hold
    · exact hok hold hold' hzero
  · -- Whoever queued it still holds the connection.
    rw [← hsame] at hne
    exact hne (refs_eq_zero.mp hzero).holders

omit [DecidableEq Tid] in
/-- The task that is being executed has not returned. -/
theorem LifetimeInv.runsAlive (h : s.LifetimeInv) : s.RunsAlive := by
  intro hpc hthis
  cases hdestroyed : s.destroyed with
  | false => rfl
  | true =>
      refine absurd ?_ (h.unbound hdestroyed)
      cases hx : s.io.toRun[s.io.i]? with
      | none => simp [nextTask, hx, Task.BindsThis] at hthis
      | some x =>
          have hmem : x ∈ s.io.toRun.drop s.io.i := by
            rw [List.drop_eq_getElem?_toList_append, hx]
            exact List.mem_cons_self
          refine ⟨x, List.mem_append_right _ hmem, ?_⟩
          simpa [nextTask, hx] using hthis

/-! ## Runs -/

/-- When no step of a run gives up the last reference over a task that `write` or `shutdown` queued,
no such task is executed on a destroyed connection. -/
theorem alive_of_run {s₀ : System Tid} {as : List (Act Tid)} (hnew : s₀.Accepted)
    (hrun : run (step S) s₀ as = some s) (halong : Along (step S) (KeepsReference S) s₀ as) :
    s.RunsAlive := by
  have hinv : s.LifetimeInv :=
    invariant_along (I := LifetimeInv) (fun _ _ _ h hok hs => h.step hok hs)
      (lifetimeInv_of_accepted hnew) halong hrun
  exact hinv.runsAlive

/-- The connection callback of `start()` stores a copy for the other thread.  The peer closes, and
behind `epoll_wait` of that iteration, before the tasks of it, the thread calls `write`. -/
def writeBeforeClose : List (Act Bool) :=
  startSteps ++ startTasksDoing [.copy true] ++ peerCloses ++
    [.write true 0 1, .io (.wakeMeUp true), .user .returns, .call {}]

/-- The entry of `m_conn_map` goes, and the loop runs the task. -/
def closeAndRun : List (Act Bool) :=
  [.call {}, .workDone, .io .dispatched, .io .swapPending, .runNext]

/-- The thread keeps its copy while the loop runs the task. -/
def releaseLate : List (Act Bool) :=
  writeBeforeClose ++ closeAndRun

theorem alive_of_run_releaseLate :
    ∃ s, run (step debugSetup) acceptedByOther releaseLate = some s ∧
      s.io.loopPc = .inTask ∧ s.nextTask.BindsThis = true ∧ s.destroyed = false := by
  -- One evaluation of the run serves both.
  obtain ⟨hany, halong⟩ :
      (run (step debugSetup) acceptedByOther releaseLate).any (fun s =>
        decide (s.io.loopPc = .inTask ∧ s.nextTask.BindsThis = true)) = true ∧
      Along (step debugSetup) (KeepsReference debugSetup) acceptedByOther releaseLate := by
    decide +kernel
  rcases exists_run_of_any hany with ⟨s, hrun, hpc, hthis⟩
  exact ⟨s, hrun, hpc, hthis, alive_of_run accepted_acceptedByOther hrun halong hpc hthis⟩

/-- The thread gives its copy up as soon as `write` has returned: the queued `write_in_loop` runs on
the destroyed connection. -/
theorem task_runs_on_destroyed :
    ¬ ∀ (s₀ s : System Bool) (as : List (Act Bool)), s₀.Accepted →
      run (step debugSetup) s₀ as = some s → s.RunsAlive := by
  intro h
  have hany : (run (step debugSetup) acceptedByOther
      (writeBeforeClose ++ [.release true] ++ closeAndRun)).any (fun s =>
        decide (s.io.loopPc = .inTask ∧ s.nextTask.BindsThis = true ∧ s.destroyed = true)) = true := by
    decide +kernel
  rcases exists_run_of_any hany with ⟨s, hrun, hpc, hthis, hdestroyed⟩
  have halive := h _ _ _ accepted_acceptedByOther hrun hpc hthis
  rw [hdestroyed] at halive
  cases halive

end System

end Net
end Muradin
