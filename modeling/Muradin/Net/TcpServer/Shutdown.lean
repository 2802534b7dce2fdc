import Muradin.Net.TcpServer.Steps

/-!
# Shutdown — the status of a connection behind `handle_close`

`handle_close` sets `m_conn_status` to `kDisconnect`, and `final_destory` asserts it.  In between
the connection callback runs, and other threads may hold the connection; `shutdown()`, which is
documented to be thread-safe, sets `kInDisconnect` whatever the status is.

`statusTerminal_iff` says exactly in which runs `kDisconnect` is final: no `shutdown()` comes behind
`handle_close`.
-/

namespace Muradin
namespace Net

open Lib Cpp Events

namespace System

variable {Tid : Type}

/-- `kDisconnect` is final once `handle_close` has run, and `final_destory` finds it. -/
def StatusTerminal (s : System Tid) : Prop :=
  (s.loop.conn.closed = true → s.loop.conn.connStatus = .kDisconnect) ∧
    (s.loop.stack.head? = some .closeCb → s.loop.conn.connStatus = .kDisconnect)

/-- The assignment to `m_conn_status` in `shutdown()`, by a callback or another thread. -/
def Act.IsShutdown : Act Tid → Bool
  | .user .shutdown => true
  | .shutdownMark _ => true
  | _ => false

/-- No `shutdown()` behind `handle_close`. -/
def NoLateShutdown (s : System Tid) (a : Act Tid) : Prop :=
  a.IsShutdown = true → s.loop.conn.closed = false

instance (s : System Tid) (a : Act Tid) : Decidable (s.NoLateShutdown a) :=
  inferInstanceAs (Decidable (_ → _))

variable {s s' : System Tid}

/-! ## The close callback -/

/-- Only the first half of `StatusTerminal` is a matter of the step. -/
theorem statusTerminal_of_closing (h : s.loop.Closing) :
    s.StatusTerminal ↔ (s.loop.conn.closed = true → s.loop.conn.connStatus = .kDisconnect) := by
  constructor
  · exact fun hterminal => hterminal.1
  · intro hstatus
    refine ⟨hstatus, ?_⟩
    intro hhead
    exact hstatus (h (List.mem_of_mem_head? hhead))

variable [DecidableEq Tid] {S : Setup} {a : Act Tid}

/-! ## One step -/

/-- The status and the history of `handle_close`. -/
def life (s : System Tid) : ConnStat × Bool :=
  (s.loop.conn.connStatus, s.loop.conn.closed)

omit [DecidableEq Tid] in
theorem life_settle (s : System Tid) : s.settle.life = s.life :=
  settle_of_same (fun _ => rfl) s

theorem life_shutdown (ha : a.IsShutdown = true) (hs : s.step S a = some s') :
    s'.life = (.kInDisconnect, s.loop.conn.closed) := by
  rcases step_eq_some.mp hs with ⟨-, rfl⟩
  rw [life_settle]
  cases a with
  | user op =>
      cases op with
      | shutdown => rfl
      | _ => cases ha
  | shutdownMark t => rfl
  | _ => cases ha

/-- Behind `start()` the status is otherwise written by `handle_close` only. -/
theorem life_other (hdone : s.startPc = .done) (ha : a.IsShutdown = false)
    (hs : s.step S a = some s') : s'.life = s.life ∨ s'.life = (.kDisconnect, true) := by
  rcases step_eq_some.mp hs with ⟨hen, rfl⟩
  rw [life_settle]
  cases a with
  | start => exact absurd hdone hen.2.1
  | poll selfReady events => cases events <;> exact Or.inl rfl
  | processWork =>
      left
      rw [next]
      split <;> rfl
  | call env =>
      rcases hen.2.1.exists_cons with ⟨c, rest, hstack, -, -⟩
      rw [next]
      split
      · exact Or.inl rfl
      · by_cases hc : c = .handleClose
        · right
          subst hc
          -- `handle_close` sets the status to what is final.
          rcases Loop.call_handleClose (S := S) hstack with ⟨hclosed, hstatus⟩
          exact Prod.ext hstatus hclosed
        · left
          rcases Loop.call_status (S := S) hstack hc with ⟨hstatus, hclosed⟩
          exact Prod.ext hstatus hclosed
  | user op =>
      cases op with
      | shutdown => cases ha
      | readBuffer op =>
          left
          rcases Loop.readBuffer_status S s.loop op with ⟨hstatus, hclosed⟩
          exact Prod.ext hstatus hclosed
      | _ => exact Or.inl rfl
  | shutdownMark t => cases ha
  | _ => exact Or.inl rfl

/-- A step keeps `kDisconnect` final exactly when it is no `shutdown()` behind `handle_close`. -/
theorem statusTerminal_step (hdone : s.startPc = .done) (hclosing : s.loop.Closing)
    (h : s.StatusTerminal) (hs : s.step S a = some s') :
    s'.StatusTerminal ↔ s.NoLateShutdown a := by
  rw [statusTerminal_of_closing (closing_step hclosing hs)]
  cases ha : a.IsShutdown with
  | true =>
      rcases Prod.mk.inj (life_shutdown ha hs) with ⟨hstatus, hclosed⟩
      rw [hstatus, hclosed, NoLateShutdown, ha]
      cases s.loop.conn.closed <;> simp
  | false =>
      refine iff_of_true ?_ (fun hshutdown => by simp [ha] at hshutdown)
      rcases life_other hdone ha hs with hsame | hclose
      · rcases Prod.mk.inj hsame with ⟨hstatus, hclosed⟩
        rw [hstatus, hclosed]
        exact h.1
      · exact fun _ => congrArg (·.1) hclose

/-! ## Runs -/

theorem startPc_step (hdone : s.startPc = .done) (hs : s.step S a = some s') :
    s'.startPc = .done := by
  rcases step_eq_some.mp hs with ⟨hen, rfl⟩
  have hsettle : ∀ t : System Tid, t.settle.startPc = t.startPc := settle_of_same fun _ => rfl
  rw [hsettle]
  cases a with
  | start => exact absurd hdone hen.2.1
  | poll selfReady events => cases events <;> exact hdone
  | processWork =>
      rw [next]
      split <;> exact hdone
  | call env =>
      rw [next]
      split <;> exact hdone
  | _ => exact hdone

/-- Behind a completed `start()`, `kDisconnect` is final throughout a run exactly when no step of it
is a `shutdown()` behind `handle_close`. -/
theorem statusTerminal_iff {s₀ : System Tid} {pre as : List (Act Tid)} (hnew : s₀.Accepted)
    (hpre : run (step S) s₀ pre = some s) (hdone : s.startPc = .done)
    (hopen : s.loop.conn.closed = false) (hrun : run (step S) s as = some s') :
    (∀ bs t, bs <+: as → run (step S) s bs = some t → t.StatusTerminal) ↔
      Along (step S) NoLateShutdown s as := by
  have hclosing₀ : s₀.loop.Closing := by
    rw [hnew.new]
    exact fun hmem => by cases hmem
  have hclosing : s.loop.Closing := closing_run hclosing₀ hpre
  refine prefixes_iff_along (I := fun s : System Tid => s.startPc = .done ∧ s.loop.Closing)
    ?_ ?_ ⟨hdone, hclosing⟩ ?_ hrun
  · rintro s a s' ⟨hdone, hclosing⟩ hs
    exact ⟨startPc_step hdone hs, closing_step hclosing hs⟩
  · rintro s a s' ⟨hdone, hclosing⟩ h hs
    exact statusTerminal_step hdone hclosing h hs
  · rw [statusTerminal_of_closing hclosing, hopen]
    exact fun hclosed => by cases hclosed

/-- No callback calls `shutdown()` when the peer closes. -/
theorem statusTerminal_iff_closeQuietly :
    ∃ s s', run (step debugSetup) acceptedByOther (startSteps ++ startTasks) = some s ∧
      run (step debugSetup) s closeQuietly = some s' ∧ s'.loop.conn.closed = true ∧
      ∀ bs t, bs <+: closeQuietly → run (step debugSetup) s bs = some t → t.StatusTerminal := by
  have hpre : (run (step debugSetup) acceptedByOther (startSteps ++ startTasks)).any
      (fun s => decide (s.startPc = .done ∧ s.loop.conn.closed = false)) = true := by
    decide +kernel
  -- One evaluation of the run serves both.
  obtain ⟨hall, halong⟩ :
      (run (step debugSetup) acceptedByOther ((startSteps ++ startTasks) ++ closeQuietly)).any
        (fun s => decide (s.loop.conn.closed = true)) = true ∧
      Along (step debugSetup) NoLateShutdown acceptedByOther
        ((startSteps ++ startTasks) ++ closeQuietly) := by
    decide +kernel
  rcases exists_run_of_any hpre with ⟨s, hs, hdone, hopen⟩
  rcases exists_run_of_any hall with ⟨s', hs', hclosed⟩
  rcases run_append_eq_some.mp hs' with ⟨t, ht, hrun⟩
  obtain rfl : t = s := Option.some.inj (ht.symm.trans hs)
  refine ⟨t, s', hs, hrun, hclosed, ?_⟩
  exact (statusTerminal_iff accepted_acceptedByOther hs hdone hopen hrun).mpr (halong.append.2 t hs)

/-- The connection callback that `handle_close` issues calls `shutdown()`: the close callback finds
`kInDisconnect`. -/
theorem shutdown_in_last_callback :
    ¬ ∀ (s₀ s s' : System Bool) (pre as : List (Act Bool)), s₀.Accepted →
      run (step debugSetup) s₀ pre = some s → s.startPc = .done → s.loop.conn.closed = false →
        run (step debugSetup) s as = some s' → s'.StatusTerminal := by
  intro h
  have hpre : (run (step debugSetup) acceptedByOther (startSteps ++ startTasks)).any
      (fun s => decide (s.startPc = .done ∧ s.loop.conn.closed = false)) = true := by
    decide +kernel
  have hall : (run (step debugSetup) acceptedByOther ((startSteps ++ startTasks) ++
      (peerCloses ++ [.user .shutdown, .call {}, .user .returns]))).any
      (fun s => decide (s.loop.stack.head? = some .closeCb ∧
        s.loop.conn.connStatus = .kInDisconnect)) = true := by
    decide +kernel
  rcases exists_run_of_any hpre with ⟨s, hs, hdone, hopen⟩
  rcases exists_run_of_any hall with ⟨s', hs', hhead, hstatus⟩
  rcases run_append_eq_some.mp hs' with ⟨t, ht, hrun⟩
  obtain rfl : t = s := Option.some.inj (ht.symm.trans hs)
  have hfinal := (h _ _ _ _ _ accepted_acceptedByOther hs hdone hopen hrun).2 hhead
  rw [hstatus] at hfinal
  cases hfinal

end System

end Net
end Muradin
