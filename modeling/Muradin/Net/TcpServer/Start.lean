import Muradin.Net.TcpServer.Steps

/-!
# Start — the callbacks of a connection, from the first one on

`start()` runs on the acceptor's thread: it hands the channel to the loop before it sets
`m_conn_status` and before it queues the connection callback.  From the update of the channel on,
the loop may dispatch an event and come to a callback first.

* `Unopened` is the phase before the first callback, `Opened` the one behind it;
* `inOrder_of_run` says which runs have their callbacks in order: before the first callback no event
  is dispatched that comes to another one.
-/

namespace Muradin
namespace Net

open Lib Cpp Events

/-- `start()` has set `m_conn_status`. -/
def StartPc.connected : StartPc → Bool
  | .runConnCb | .leave | .done => true
  | _ => false

namespace System

variable {Tid : Type}

/-- The first callback is the connection callback with `connected()`, and there is none such behind
the close callback. -/
def InOrder (s : System Tid) : Prop :=
  (∀ n ∈ s.loop.conn.notes.head?, n = .conn true) ∧
    s.loop.conn.notes.Pairwise fun m n => m = .close → n ≠ .conn true

/-- The handler comes to a callback other than the connection callback with `connected()`. -/
def EarlyCallback (S : Setup) (conn : Connection) (env : Env) : Call → Prop
  | .handleRead =>
      if env.received = some [] then conn.connStatus ≠ .kConnected else S.cbs.read = true
  | .handleWrite =>
      S.cbs.write = true ∧ ¬ (env.sendRet = 0 ∨ env.sendRet < 0 ∧ env.errno = eagain)
  | .handleError => S.cbs.error = true
  | .handleClose => True
  | _ => False

/-- Before the first callback, no handler is called that comes to another one. -/
def KeepsFirst (S : Setup) (s : System Tid) : Act Tid → Prop
  | .call env =>
      s.loop.conn.notes = [] → ∀ c ∈ s.loop.stack.head?, ¬ EarlyCallback S s.loop.conn env c
  | _ => True

instance (S : Setup) (conn : Connection) (env : Env) :
    (c : Call) → Decidable (EarlyCallback S conn env c)
  | .handleRead =>
      inferInstanceAs (Decidable (if env.received = some [] then _ ≠ _ else _ = _))
  | .handleWrite => inferInstanceAs (Decidable (_ ∧ _))
  | .handleError => inferInstanceAs (Decidable (_ = _))
  | .handleClose => inferInstanceAs (Decidable True)
  | .testHup | .testErr | .testIn | .testOut | .writeInLoop _ | .cacheOutput _ _ | .shutdownInLoop
  | .addChannel | .updateChannel | .connCb | .readCb _ | .writeCb _ _ | .errCb _ | .closeCb | .user =>
      inferInstanceAs (Decidable False)

instance (S : Setup) (s : System Tid) : (a : Act Tid) → Decidable (s.KeepsFirst S a)
  | .call _ => inferInstanceAs (Decidable (_ → ∀ c ∈ s.loop.stack.head?, _))
  | .io _ | .start | .poll _ _ | .processWork | .workDone | .runNext | .user _ | .copy _ | .give _ _
  | .release _ | .write _ _ _ | .shutdownMark _ | .shutdownQueue _ | .poke _ _ =>
      inferInstanceAs (Decidable True)

/-! ## The two phases -/

/-- The calls that can be to come before the first callback: a connection callback is one of
`start()`, and a callback that is not set throws. -/
def Quiet (S : Setup) (pc : StartPc) : Call → Prop
  | .connCb => pc.connected = true
  | .readCb _ => S.cbs.read = false
  | .writeCb _ _ => S.cbs.write = false
  | .errCb _ | .closeCb | .user | .writeInLoop _ => False
  | _ => True

structure Unopened (S : Setup) (s : System Tid) : Prop where
  notes : s.loop.conn.notes = []
  /-- The first copy is given away by a callback. -/
  holders : s.holders = []
  quiet : ∀ c ∈ s.ahead, Quiet S s.startPc c
  status : s.loop.conn.connStatus = .kConnected ↔ s.startPc.connected = true
  opened : s.loop.conn.closed = false

structure Opened (s : System Tid) : Prop where
  first : s.loop.conn.notes.head? = some (.conn true)
  last : s.loop.conn.notes.Pairwise fun m n => m = .close → n ≠ .conn true
  /-- `start()` does not set `m_conn_status` any more. -/
  connected : s.startPc.connected = true
  status : s.loop.conn.closed = true → s.loop.conn.connStatus ≠ .kConnected
  closing : s.loop.Closing
  noted : .close ∈ s.loop.conn.notes → s.loop.conn.closed = true

theorem unopened_of_accepted {s : System Tid} (S : Setup) (h : s.Accepted) : s.Unopened S := by
  have hloop : s.loop = { conn := Connection.newConnection, stack := [], fault := none } := by
    rw [h.new]
    rfl
  have hholders : s.holders = [] := by
    rw [h.new]
    rfl
  have hpc : s.startPc = .insertConn := by
    rw [h.new]
    rfl
  refine { notes := ?_, holders := hholders, quiet := ?_, status := ?_, opened := ?_ }
  · rw [hloop]
    rfl
  · intro c hc
    rw [ahead, hloop, List.nil_append] at hc
    rcases List.mem_flatMap.mp hc with ⟨x, hx, hcalls⟩
    rw [h.unrelated x (IoService.mem_held_of_waiting hx)] at hcalls
    cases hcalls
  · rw [hloop, hpc]
    simp [Connection.newConnection, StartPc.connected]
  · rw [hloop]
    rfl

theorem Unopened.inOrder {S : Setup} {s : System Tid} (h : s.Unopened S) : s.InOrder := by
  rw [InOrder, h.notes]
  exact ⟨by simp, List.Pairwise.nil⟩

theorem Opened.inOrder {s : System Tid} (h : s.Opened) : s.InOrder := by
  refine ⟨?_, h.last⟩
  intro n hn
  rw [h.first] at hn
  exact (Option.some.inj hn).symm

theorem Unopened.settle {S : Setup} {s : System Tid} (h : s.Unopened S) : s.settle.Unopened S := by
  unfold System.settle
  split
  · exact { h with }
  · exact h

theorem Opened.settle {s : System Tid} (h : s.Opened) : s.settle.Opened := by
  unfold System.settle
  split
  · exact { h with }
  · exact h

variable [DecidableEq Tid] {S : Setup} {s s' : System Tid} {a : Act Tid}

/-! ## One step before the first callback -/

theorem connected_next (h : s.startPc.connected = true) (a : Act Tid) :
    (s.next S a).startPc.connected = true := by
  cases a with
  | start =>
      cases hpc : s.startPc <;> simp [next, startNext, hpc, StartPc.connected] at h ⊢
  | poll selfReady events => cases events <;> exact h
  | processWork =>
      rw [next]
      split <;> exact h
  | call env =>
      rw [next]
      split <;> exact h
  | _ => exact h

theorem quiet_mono {pc pc' : StartPc} (hpc : pc.connected = true → pc'.connected = true) {c : Call}
    (h : Quiet S pc c) : Quiet S pc' c := by
  cases c with
  | connCb => exact hpc h
  | _ => exact h

omit [DecidableEq Tid] in
/-- No callback of the user is running. -/
theorem Unopened.not_user (h : s.Unopened S) : s.loop.stack.head? ≠ some .user := by
  intro hhead
  exact h.quiet .user (List.mem_append_left _ (List.mem_of_mem_head? hhead))

omit [DecidableEq Tid] in
/-- Nobody but the server holds the connection yet. -/
theorem Unopened.not_holder (h : s.Unopened S) (t : Tid) : t ∉ s.holders := by
  rw [h.holders]
  exact List.not_mem_nil

omit [DecidableEq Tid] in
/-- What a call makes is quiet, unless it delivers a callback. -/
theorem Unopened.quiet_exec (h : s.Unopened S) {env : Env} (hok : s.KeepsFirst S (.call env))
    {c₀ : Call} {calls : List Call} {conn : Connection} (hhead : s.loop.stack.head? = some c₀)
    (hrun : (Connection.exec S.build S.cbs env s.mem c₀).run s.loop.conn = .ok calls conn)
    (hnotes : conn.notes = []) : ∀ c ∈ calls, Quiet S s.startPc c := by
  have hquiet : Quiet S s.startPc c₀ :=
    h.quiet c₀ (List.mem_append_left _ (List.mem_of_mem_head? hhead))
  have hearly : ¬ EarlyCallback S s.loop.conn env c₀ := hok h.notes c₀ hhead
  have hmake : ∀ c ∈ calls, c₀.MayMake c := Connection.exec_mayMake c₀ _ _ _ hrun
  intro c hc
  cases c₀ with
  | handleRead =>
      rw [EarlyCallback] at hearly
      rcases Connection.returns_handleRead_calls _ _ _ hrun with ⟨hshut, rfl⟩ | ⟨hshut, err, rfl⟩
      · rw [if_pos hshut, not_not] at hearly
        rcases List.mem_pair.mp hc with rfl | rfl
        · exact h.status.mp hearly
        · trivial
      · rw [if_neg hshut, Bool.not_eq_true] at hearly
        rw [List.mem_singleton.mp hc]
        exact hearly
  | handleWrite =>
      by_cases hnone : env.sendRet = 0 ∨ env.sendRet < 0 ∧ env.errno = eagain
      · have hnil : calls = [] := Connection.returns_handleWrite_nil hnone _ _ _ hrun
        rw [hnil] at hc
        cases hc
      · rcases hmake c hc with ⟨err, bytes, rfl⟩
        have hunset : ¬ S.cbs.write = true := fun hset => hearly ⟨hset, hnone⟩
        simpa [Quiet] using hunset
  | handleError =>
      have hunset : S.cbs.error = false := by simpa [EarlyCallback] using hearly
      simp only [Connection.exec, Connection.handleError, hunset] at hrun
      cases hrun
      cases hc
  | handleClose => exact absurd trivial hearly
  | connCb =>
      -- The connection callback is noted, or it throws.
      have hdeliver := congrArg Cpp.stateOf hrun
      rw [Connection.exec, Connection.stateOf_deliver] at hdeliver
      cases hset : S.cbs.conn with
      | true =>
          rw [hset, if_pos rfl] at hdeliver
          rw [← Cpp.stateOf_ok calls conn, ← hdeliver] at hnotes
          simp at hnotes
      | false =>
          rw [Connection.exec, hset] at hrun
          cases hrun
  | readCb err =>
      have hunset : S.cbs.read = false := hquiet
      rw [Connection.exec, hunset] at hrun
      cases hrun
  | writeCb err bytes =>
      have hunset : S.cbs.write = false := hquiet
      rw [Connection.exec, hunset] at hrun
      cases hrun
  | testHup | testErr | testIn | testOut =>
      obtain rfl := hmake c hc
      trivial
  | writeInLoop _ | errCb _ | closeCb | user => exact hquiet.elim
  | _ => exact (hmake c hc).elim

theorem Unopened.quiet_next (h : s.Unopened S) (hen : s.Enabled a) (hok : s.KeepsFirst S a)
    (hnotes : (s.next S a).loop.conn.notes = []) :
    ∀ c ∈ (s.next S a).ahead, Quiet S (s.next S a).startPc c := by
  intro c hc
  rcases mem_ahead_next hen hc with hold | hbrings
  · exact quiet_mono (fun hpc => connected_next hpc a) (h.quiet c hold)
  · cases a with
    | start =>
        rw [Brings] at hbrings
        -- `start()` queues its connection callback behind `set_connected`.
        rw [next, startNext]
        cases hpc : s.startPc <;> rw [hpc] at hbrings <;> cases hbrings <;> trivial
    | processWork =>
        rcases Loop.mem_dispatchCalls.mp hbrings with rfl | rfl | rfl | rfl <;> trivial
    | call env =>
        rcases hbrings with ⟨halive, c₀, calls, conn, hhead, hrun, hmem⟩
        rcases List.head?_eq_some_iff.mp hhead with ⟨rest, hstack⟩
        rw [next_call_of_alive S env halive] at hnotes ⊢
        simp only [Loop.call_cons hstack, hrun, Loop.ofResult] at hnotes
        exact h.quiet_exec hok hhead hrun hnotes c hmem
    | user op => exact absurd hen.2.1 h.not_user
    | write t ptr len => exact absurd hen.2.1 (h.not_holder t)
    | shutdownQueue t =>
        obtain rfl := hbrings
        trivial
    | _ => cases hbrings

/-- Only a call delivers a callback. -/
theorem notes_next (ha : ∀ env, a ≠ .call env) :
    (s.next S a).loop.conn.notes = s.loop.conn.notes := by
  cases a with
  | start =>
      rw [next, startNext]
      cases s.startPc <;> rfl
  | poll selfReady events => cases events <;> rfl
  | processWork =>
      rw [next]
      split <;> rfl
  | call env => exact absurd rfl (ha env)
  | user op => exact Loop.user_notes S _ op
  | _ => rfl

/-- The step leaves no callback delivered. -/
theorem Unopened.next (h : s.Unopened S) (hen : s.Enabled a) (hok : s.KeepsFirst S a)
    (hnotes : (s.next S a).loop.conn.notes = []) : (s.next S a).Unopened S := by
  have hquiet := h.quiet_next hen hok hnotes
  cases a with
  | start =>
      refine { notes := hnotes, holders := ?_, quiet := hquiet, status := ?_, opened := ?_ }
      · rw [System.next, startNext]
        cases s.startPc <;> exact h.holders
      · have hstatus := h.status
        cases hpc : s.startPc <;>
          simp_all [System.next, startNext, StartPc.connected, setConnStatus, setChannle, queue]
      · rw [System.next, startNext]
        cases s.startPc <;> exact h.opened
  | poll selfReady events => cases events <;> exact { h with quiet := hquiet }
  | processWork =>
      cases hlife : s.destroyed with
      | true =>
          rw [next_processWork_of_destroyed S hlife] at hquiet ⊢
          exact { h with quiet := hquiet }
      | false =>
          rw [next_processWork_of_alive S hlife] at hquiet ⊢
          exact { h with quiet := hquiet }
  | call env =>
      rcases hen.2.1.exists_cons with ⟨c, rest, hstack, -, -⟩
      have hhead : s.loop.stack.head? = some c := by simp [hstack]
      -- `handle_close` would make the callback that is excluded.
      have hclose : c ≠ .handleClose := by
        rintro rfl
        exact hok h.notes _ hhead trivial
      have hkept : (s.loop.call S s.mem env).conn.connStatus = s.loop.conn.connStatus ∧
          (s.loop.call S s.mem env).conn.closed = s.loop.conn.closed :=
        Loop.call_status hstack hclose
      cases hlife : s.destroyed with
      | true =>
          rw [next_call_of_destroyed S env hlife] at hquiet ⊢
          exact { h with quiet := hquiet }
      | false =>
          rw [next_call_of_alive S env hlife] at hquiet hnotes ⊢
          exact
            { notes := hnotes
              holders := h.holders
              quiet := hquiet
              status := by rw [← h.status, ← hkept.1]
              opened := by rw [← h.opened, ← hkept.2] }
  | user op => exact absurd hen.2.1 h.not_user
  | copy t => exact absurd hen.2.1 h.not_user
  | give t t' => exact absurd hen.2 (h.not_holder t)
  | release t => exact absurd hen.2.1 (h.not_holder t)
  | write t ptr len => exact absurd hen.2.1 (h.not_holder t)
  | shutdownMark t => exact absurd hen.2.1 (h.not_holder t)
  | _ => exact { h with quiet := hquiet }

omit [DecidableEq Tid] in
/-- The connection callback of `start()` is the first one. -/
theorem Unopened.connCb (h : s.Unopened S) {env : Env} {rest : List Call}
    (hstack : s.loop.stack = .connCb :: rest) (hset : S.cbs.conn = true) :
    ({ s with
        loop := s.loop.call S s.mem env
        handed := s.handed ++ s.handing } : System Tid).Opened := by
  have hconn := Loop.call_deliver S s.mem env hstack rfl
  rw [hset, if_pos rfl] at hconn
  have hpc : s.startPc.connected = true :=
    h.quiet .connCb (List.mem_append_left _ (by simp [hstack]))
  have hconnected : s.loop.conn.connected = true := by
    simp [Connection.connected, h.status.mpr hpc]
  have hfirst : (s.loop.call S s.mem env).conn.notes = [.conn true] := by
    rw [hconn, h.notes, hconnected]
    rfl
  have hclosed : (s.loop.call S s.mem env).conn.closed = false := by
    rw [hconn]
    exact h.opened
  have hclosing : s.loop.Closing := by
    intro hmem
    exact (h.quiet .closeCb (List.mem_append_left _ hmem)).elim
  exact
    { first := by simp [hfirst]
      last := by simp [hfirst]
      connected := hpc
      status := by simp [hclosed]
      closing := hclosing.call hstack
      noted := by simp [hfirst] }

/-- The step delivers the first callback. -/
theorem Unopened.opens (h : s.Unopened S) (hen : s.Enabled a)
    (hnotes : (s.next S a).loop.conn.notes ≠ []) : (s.next S a).Opened := by
  cases a with
  | call env =>
      cases hlife : s.destroyed with
      | true =>
          rw [next_call_of_destroyed S env hlife] at hnotes
          exact absurd h.notes hnotes
      | false =>
          rcases hen.2.1.exists_cons with ⟨c, rest, hstack, -, -⟩
          have hquiet : Quiet S s.startPc c :=
            h.quiet c (List.mem_append_left _ (by simp [hstack]))
          rw [next_call_of_alive S env hlife] at hnotes ⊢
          have hnotes : (s.loop.call S s.mem env).conn.notes ≠ [] := hnotes
          cases c with
          | connCb =>
              cases hset : S.cbs.conn with
              | false =>
                  rw [Loop.call_deliver S s.mem env hstack rfl, hset] at hnotes
                  exact absurd h.notes hnotes
              | true => exact h.connCb hstack hset
          | readCb err =>
              have hunset : S.cbs.read = false := hquiet
              rw [Loop.call_deliver S s.mem env hstack rfl, hunset] at hnotes
              exact absurd h.notes hnotes
          | writeCb err bytes =>
              have hunset : S.cbs.write = false := hquiet
              rw [Loop.call_deliver S s.mem env hstack rfl, hunset] at hnotes
              exact absurd h.notes hnotes
          | errCb err => exact hquiet.elim
          | closeCb => exact hquiet.elim
          | _ =>
              -- The other calls note nothing.
              have hsame : (s.loop.call S s.mem env).conn.notes = s.loop.conn.notes :=
                Loop.call_keeps hstack (Connection.exec_keeps_notes rfl)
              exact absurd (hsame.trans h.notes) hnotes
  | _ => exact absurd ((notes_next (by simp)).trans h.notes) hnotes

/-! ## One step behind the first callback -/

omit [DecidableEq Tid] in
/-- A call may note one more callback, and `handle_close` may be called. -/
theorem Opened.call (h : s.Opened) {env : Env} {c : Call} {rest : List Call}
    (hstack : s.loop.stack = c :: rest) (hclosing : (s.loop.call S s.mem env).Closing) :
    ({ s with
        loop := s.loop.call S s.mem env
        handed := s.handed ++ s.handing } : System Tid).Opened := by
  have hclosed : s.loop.conn.closed = true → (s.loop.call S s.mem env).conn.closed = true :=
    Loop.call_closed hstack
  have hstatus : (s.loop.call S s.mem env).conn.closed = true →
      (s.loop.call S s.mem env).conn.connStatus ≠ .kConnected := by
    intro hclosed'
    by_cases hc : c = .handleClose
    · subst hc
      rw [(Loop.call_handleClose hstack).2]
      decide
    · rw [(Loop.call_status hstack hc).1]
      exact h.status ((Loop.call_status hstack hc).2.symm.trans hclosed')
  have hnotes : (s.loop.call S s.mem env).conn.notes = s.loop.conn.notes ∨
      ∃ n, c.note s.loop.conn = some n ∧
        (s.loop.call S s.mem env).conn.notes = s.loop.conn.notes ++ [n] :=
    Loop.call_notes hstack
  -- A call that notes nothing keeps everything; the other one adds its note at the end.
  rcases hnotes with hsame | ⟨n, hn, hnew⟩
  · exact
      { first := hsame ▸ h.first
        last := hsame ▸ h.last
        connected := h.connected
        status := hstatus
        closing := hclosing
        noted := fun hmem => hclosed (h.noted (hsame ▸ hmem)) }
  · refine
      { first := ?_
        last := ?_
        connected := h.connected
        status := hstatus
        closing := hclosing
        noted := ?_ }
    · rw [hnew, List.head?_append, h.first]
      rfl
    · -- Behind the close callback the status is not `kConnected`, and the callback tells it.
      rw [hnew]
      refine List.pairwise_append.mpr ⟨h.last, List.pairwise_singleton _ _, ?_⟩
      intro m hm n' hn' hclose htrue
      obtain rfl := List.mem_singleton.mp hn'
      subst hclose htrue
      exact h.status (h.noted hm) (Call.note_conn hn)
    · rw [hnew]
      intro hmem
      rcases List.mem_append.mp hmem with hold | hlast
      · exact hclosed (h.noted hold)
      · obtain rfl := List.mem_singleton.mp hlast
        obtain rfl := Call.note_close hn
        exact hclosed (h.closing (by simp [hstack]))

theorem Opened.next (h : s.Opened) (hen : s.Enabled a) : (s.next S a).Opened := by
  have hclosing := closing_next (S := S) h.closing a
  have hconnected := connected_next (S := S) h.connected a
  cases a with
  | start =>
      -- `start()` has set the status already.
      rw [System.next, startNext] at hclosing hconnected ⊢
      have hpc := h.connected
      cases hstart : s.startPc <;> rw [hstart] at hpc hclosing hconnected
      all_goals first
        | exact { h with closing := hclosing, connected := hconnected }
        | cases hpc
  | poll selfReady events =>
      cases events <;> exact { h with closing := hclosing }
  | processWork =>
      cases hlife : s.destroyed with
      | true =>
          rw [next_processWork_of_destroyed S hlife] at hclosing ⊢
          exact { h with closing := hclosing }
      | false =>
          rw [next_processWork_of_alive S hlife] at hclosing ⊢
          exact { h with closing := hclosing }
  | call env =>
      cases hlife : s.destroyed with
      | true =>
          rw [next_call_of_destroyed S env hlife] at hclosing ⊢
          exact { h with closing := hclosing }
      | false =>
          rw [next_call_of_alive S env hlife] at hclosing ⊢
          rcases hen.2.1.exists_cons with ⟨c, rest, hstack, -, -⟩
          exact h.call hstack hclosing
  | user op =>
      have hnotes : (s.loop.user S op).conn.notes = s.loop.conn.notes :=
        Loop.user_notes S _ op
      have hclosed : (s.loop.user S op).conn.closed = s.loop.conn.closed :=
        Loop.user_closed S _ op
      refine
        { first := hnotes ▸ h.first
          last := hnotes ▸ h.last
          connected := h.connected
          status := ?_
          closing := hclosing
          noted := ?_ }
      · intro hclosed'
        rcases Loop.user_status (S := S) (s := s.loop) op with hstatus | hstatus
        · intro hconn
          exact h.status (hclosed ▸ hclosed') (hstatus ▸ hconn)
        · intro hconn
          exact absurd (hstatus.symm.trans hconn) (by decide)
      · intro hmem
        exact hclosed.trans (h.noted (hnotes ▸ hmem))
  | shutdownMark t => exact { h with closing := hclosing, status := fun _ hstatus => by cases hstatus }
  | _ => exact { h with closing := hclosing }

/-! ## Runs -/

theorem phase_step (h : s.Unopened S ∨ s.Opened) (hok : s.KeepsFirst S a)
    (hs : s.step S a = some s') : s'.Unopened S ∨ s'.Opened := by
  rcases step_eq_some.mp hs with ⟨hen, rfl⟩
  rcases h with hunopened | hopened
  · by_cases hnotes : (s.next S a).loop.conn.notes = []
    · exact Or.inl (hunopened.next hen hok hnotes).settle
    · exact Or.inr (hunopened.opens hen hnotes).settle
  · exact Or.inr (hopened.next hen).settle

/-- When no handler comes to another callback before the first one, the callbacks are in order. -/
theorem inOrder_of_run {s₀ : System Tid} {as : List (Act Tid)} (hnew : s₀.Accepted)
    (hrun : run (step S) s₀ as = some s) (halong : Along (step S) (KeepsFirst S) s₀ as) :
    s.InOrder := by
  have hphase : s.Unopened S ∨ s.Opened :=
    invariant_along (I := fun s => s.Unopened S ∨ s.Opened)
      (fun _ _ _ h hok hs => phase_step h hok hs) (Or.inl (unopened_of_accepted S hnew)) halong hrun
  rcases hphase with hunopened | hopened
  · exact hunopened.inOrder
  · exact hopened.inOrder

/-- The connection callback of `start()` comes first, and the peer closes later. -/
def openAndClose : List (Act Bool) :=
  startSteps ++ startTasks ++ closeQuietly

theorem inOrder_of_run_openAndClose :
    ∃ s, run (step debugSetup) acceptedByOther openAndClose = some s ∧
      s.loop.conn.notes = [.conn true, .conn true, .conn false, .close] ∧ s.InOrder := by
  -- One evaluation of the run serves both.
  obtain ⟨hany, halong⟩ :
      (run (step debugSetup) acceptedByOther openAndClose).any (fun s =>
        decide (s.loop.conn.notes = [.conn true, .conn true, .conn false, .close])) = true ∧
      Along (step debugSetup) (KeepsFirst debugSetup) acceptedByOther openAndClose := by
    decide +kernel
  rcases exists_run_of_any hany with ⟨s, hrun, hnotes⟩
  exact ⟨s, hrun, hnotes, inOrder_of_run accepted_acceptedByOther hrun halong⟩

/-- The acceptor's thread is behind the update of the channel, and the peer has sent a byte: the loop
delivers the read callback, and no connection callback is queued yet. -/
theorem read_callback_first :
    ¬ ∀ (s₀ s : System Bool) (as : List (Act Bool)), s₀.Accepted →
      run (step debugSetup) s₀ as = some s → s.InOrder := by
  intro h
  have hany : (run (step debugSetup) acceptedByOther (startSteps.take 7 ++
      [.io .testQuit, .poll false none, .io .dispatched, .io .swapPending,
        .runNext, .call {}, .io .taskReturns, .runNext, .call {}, .io .taskReturns, .io .batchDone,
        .io .testQuit, .poll false (some epollIn), .processWork, .call {}, .call {}, .call {},
        .call { received := some [1] }, .call {}])).any (fun s =>
          decide (s.loop.conn.notes = [.read 0] ∧ s.startPc = .setConnected)) = true := by
    decide +kernel
  rcases exists_run_of_any hany with ⟨s, hrun, hnotes, -⟩
  have hfirst := (h _ _ _ accepted_acceptedByOther hrun).1 (.read 0) (by simp [hnotes])
  cases hfirst

end System

end Net
end Muradin
