import Muradin.Net.Connection.Dispatch

/-!
# Closing — how far a connection is with its close callback

Two ways lead to `handle_close`: the test for a hang-up, and the end of the input in `handle_read`.
`ClosePhase` follows the calls on both of them through a dispatch.  Behind `handle_close` neither is
taken again, as long as no `handle_read` that still comes finds the end of the input.
-/

namespace Muradin
namespace Net

open Lib Cpp Events

namespace Call

/-- The calls on the way to the close callback. -/
def Leads : Call → Bool
  | .testHup | .testIn | .handleRead | .handleClose | .closeCb => true
  | _ => false

theorem MayMake.leads {c c' : Call} (h : c.MayMake c') (hc : c'.Leads = true) : c.Leads = true := by
  cases c with
  | testErr =>
      cases h
      cases hc
  | testOut =>
      cases h
      cases hc
  | handleWrite =>
      rcases h with ⟨err, bytes, rfl⟩
      cases hc
  | handleError =>
      rcases h with ⟨err, rfl⟩
      cases hc
  | writeInLoop data => rcases h with ⟨n, rfl⟩ | ⟨err, bytes, rfl⟩ <;> cases hc
  | connCb | readCb _ | writeCb _ _ | errCb _ =>
      cases h
      cases hc
  | cacheOutput _ _ | shutdownInLoop | addChannel | updateChannel | user => cases h
  | _ => rfl

/-- No call adds the channel. -/
theorem MayMake.ne_addChannel {c c' : Call} (h : c.MayMake c') : c' ≠ .addChannel := by
  rintro rfl
  cases c with
  | handleRead => simp [MayMake] at h
  | handleWrite => simp [MayMake] at h
  | handleError => simp [MayMake] at h
  | handleClose => simp [MayMake] at h
  | writeInLoop data => simp [MayMake] at h
  | _ => cases h

end Call

/-! ## The phases -/

/-- The phases of a connection, with the calls that are still to be made on the way to its close
callback. -/
inductive ClosePhase (path : List Call) (conn : Connection) : Prop
  | opened (hpath : path <:+ [.testHup, .testIn]) (hclosed : conn.closed = false)
      (hnotes : conn.notes.count .close = 0)
  | reading (hpath : path = [.handleRead]) (hclosed : conn.closed = false)
      (hnotes : conn.notes.count .close = 0)
  | closing (tests : List Call) (hpath : path = .handleClose :: tests)
      (htests : tests <:+ [.testIn]) (hclosed : conn.closed = false)
      (hnotes : conn.notes.count .close = 0)
  | closed (tests : List Call) (hpath : path = .closeCb :: tests) (htests : tests <:+ [.testIn])
      (hclosed : conn.closed = true) (hnotes : conn.notes.count .close = 0)
  | removed (hpath : path <:+ [.testIn]) (hclosed : conn.closed = true)
      (hnotes : conn.notes.count .close = 1)
  | readingLate (hpath : path = [.handleRead]) (hclosed : conn.closed = true)
      (hnotes : conn.notes.count .close = 1)

namespace ClosePhase

variable {path tests : List Call} {conn conn' : Connection}

/-- The close callback is made at most once. -/
theorem count_le_one (h : ClosePhase path conn) : conn.notes.count .close ≤ 1 := by
  cases h with
  | removed _ _ hnotes => exact Nat.le_of_eq hnotes
  | readingLate _ _ hnotes => exact Nat.le_of_eq hnotes
  | opened _ _ hnotes => omega
  | reading _ _ hnotes => omega
  | closing _ _ _ _ hnotes => omega
  | closed _ _ _ _ hnotes => omega

/-- The phase does not look at the rest of the connection. -/
theorem congr (h : ClosePhase path conn) (hclosed : conn'.closed = conn.closed)
    (hnotes : conn'.notes.count .close = conn.notes.count .close) : ClosePhase path conn' := by
  cases h with
  | opened hpath hopen hzero => exact .opened hpath (hclosed.trans hopen) (hnotes.trans hzero)
  | reading hpath hopen hzero => exact .reading hpath (hclosed.trans hopen) (hnotes.trans hzero)
  | closing tests hpath htests hopen hzero =>
      exact .closing tests hpath htests (hclosed.trans hopen) (hnotes.trans hzero)
  | closed tests hpath htests hdone hzero =>
      exact .closed tests hpath htests (hclosed.trans hdone) (hnotes.trans hzero)
  | removed hpath hdone hone => exact .removed hpath (hclosed.trans hdone) (hnotes.trans hone)
  | readingLate hpath hdone hone =>
      exact .readingLate hpath (hclosed.trans hdone) (hnotes.trans hone)

/-- A dispatch begins on an open connection. -/
theorem of_nil (h : ClosePhase [] conn) (hopen : conn.closed = false) :
    ClosePhase [.testHup, .testIn] conn := by
  cases h with
  | opened _ _ hnotes => exact .opened (List.suffix_refl _) hopen hnotes
  | reading hpath => cases hpath
  | closing _ hpath => cases hpath
  | closed _ hpath => cases hpath
  | removed _ hclosed =>
      rw [hopen] at hclosed
      cases hclosed
  | readingLate hpath => cases hpath

/-- The hang-up is tested first, on an open connection. -/
theorem of_testHup (h : ClosePhase (.testHup :: tests) conn) :
    ClosePhase tests conn ∧ ClosePhase (.handleClose :: tests) conn := by
  cases h with
  | opened hpath hopen hzero =>
      have htests : tests = [.testIn] := by simpa [List.suffix_cons_iff] using hpath
      subst htests
      exact ⟨.opened (List.suffix_cons _ _) hopen hzero,
        .closing [.testIn] rfl (List.suffix_refl _) hopen hzero⟩
  | reading hpath => cases hpath
  | closing _ hpath => cases hpath
  | closed _ hpath => cases hpath
  | removed hpath => simp [List.suffix_cons_iff] at hpath
  | readingLate hpath => cases hpath

theorem of_testIn (h : ClosePhase (.testIn :: tests) conn) :
    ClosePhase tests conn ∧ ClosePhase (.handleRead :: tests) conn := by
  cases h with
  | opened hpath hopen hzero =>
      have htests : tests = [] := by simpa [List.suffix_cons_iff] using hpath
      subst htests
      exact ⟨.opened List.nil_suffix hopen hzero, .reading rfl hopen hzero⟩
  | reading hpath => cases hpath
  | closing _ hpath => cases hpath
  | closed _ hpath => cases hpath
  | removed hpath hdone hone =>
      have htests : tests = [] := by simpa [List.suffix_cons_iff] using hpath
      subst htests
      exact ⟨.removed List.nil_suffix hdone hone, .readingLate rfl hdone hone⟩
  | readingLate hpath => cases hpath

/-- The end of the input leads to `handle_close` while the connection is open. -/
theorem of_handleRead (h : ClosePhase (.handleRead :: tests) conn) :
    ClosePhase tests conn ∧ (conn.closed = false → ClosePhase (.handleClose :: tests) conn) := by
  cases h with
  | opened hpath => simp [List.suffix_cons_iff] at hpath
  | reading hpath hopen hzero =>
      cases hpath
      exact ⟨.opened List.nil_suffix hopen hzero,
        fun _ => .closing [] rfl List.nil_suffix hopen hzero⟩
  | closing _ hpath => cases hpath
  | closed _ hpath => cases hpath
  | removed hpath => simp [List.suffix_cons_iff] at hpath
  | readingLate hpath hdone hone =>
      cases hpath
      refine ⟨.removed List.nil_suffix hdone hone, ?_⟩
      intro hopen
      rw [hdone] at hopen
      cases hopen

theorem of_handleClose (h : ClosePhase (.handleClose :: tests) conn)
    (hclosed : conn'.closed = true)
    (hnotes : conn'.notes.count .close = conn.notes.count .close) :
    ClosePhase (.closeCb :: tests) conn' := by
  cases h with
  | opened hpath => simp [List.suffix_cons_iff] at hpath
  | reading hpath => cases hpath
  | closing tests' hpath htests hopen hzero =>
      cases hpath
      exact .closed tests rfl htests hclosed (hnotes.trans hzero)
  | closed _ hpath => cases hpath
  | removed hpath => simp [List.suffix_cons_iff] at hpath
  | readingLate hpath => cases hpath

theorem of_closeCb (h : ClosePhase (.closeCb :: tests) conn) (hclosed : conn'.closed = conn.closed)
    (hnotes : conn'.notes.count .close = conn.notes.count .close + 1) :
    ClosePhase tests conn' := by
  cases h with
  | opened hpath => simp [List.suffix_cons_iff] at hpath
  | reading hpath => cases hpath
  | closing _ hpath => cases hpath
  | closed tests' hpath htests hdone hzero =>
      cases hpath
      exact .removed htests (hclosed.trans hdone) (by rw [hnotes, hzero])
  | removed hpath => simp [List.suffix_cons_iff] at hpath
  | readingLate hpath => cases hpath

/-- The close callback that is to come is the first one. -/
theorem count_of_closeCb (h : ClosePhase (.closeCb :: tests) conn) :
    conn.notes.count .close = 0 := by
  cases h with
  | opened hpath => simp [List.suffix_cons_iff] at hpath
  | reading hpath => cases hpath
  | closing _ hpath => cases hpath
  | closed _ _ _ _ hzero => exact hzero
  | removed hpath => simp [List.suffix_cons_iff] at hpath
  | readingLate hpath => cases hpath

end ClosePhase

/-! ## Calls -/

namespace Connection

variable {B : Build} {cbs : Callbacks} {env : Env} {mem : Nat → Byte}

/-- Behind a close callback that has returned the descriptor is not registered. -/
theorem registered_closeCb {conn conn' : Connection} {calls : List Call}
    (hrun : (exec B cbs env mem .closeCb).run conn = .ok calls conn') :
    conn'.poller.registered = none := by
  have hdel : ∀ p : EpPoller, p.delChannel.registered = none := by
    intro p
    unfold EpPoller.delChannel
    split
    · rfl
    · rename_i hnone
      simpa using hnone
  by_cases hassert : B = .debug ∧ ¬ conn.connStatus = .kDisconnect
  · -- The assertion of `final_destory` has failed.
    simp [exec, onRemoveConn, finalDestory, cassert, hassert] at hrun
  · simp only [exec, onRemoveConn, finalDestory, cassert, EStateM.run_bind, EStateM.run_modify,
      EStateM.run_get, if_neg hassert, EStateM.run_pure] at hrun
    cases hrun
    exact hdel _

end Connection

namespace Loop

open Connection

variable {S : Setup} {mem : Nat → Byte} {s : Loop} {env : Env} {c : Call} {rest : List Call}

/-- The calls on the stack that are on the way to the close callback. -/
def path (s : Loop) : List Call :=
  s.stack.filter Call.Leads

theorem path_cons (hstack : s.stack = c :: rest) (hc : c.Leads = true) :
    s.path = c :: rest.filter Call.Leads := by
  rw [path, hstack, List.filter_cons_of_pos hc]

/-- The other calls do not touch the path. -/
theorem call_path (S : Setup) (mem : Nat → Byte) (env : Env) (hstack : s.stack = c :: rest)
    (hc : c.Leads = false) : (s.call S mem env).path = s.path := by
  rcases call_stack S mem env hstack with ⟨calls, hcalls, hmake⟩
  -- No call that is made by one off the path is on it.
  have hnone : calls.filter Call.Leads = [] := by
    rw [List.filter_eq_nil_iff]
    intro c' hc' hleads
    rw [(hmake c' hc').leads hleads] at hc
    cases hc
  rw [path, path, hcalls, hstack, List.filter_append, hnone, List.filter_cons_of_neg (by simp [hc])]
  rfl

/-- Off the path no call leads to the close callback, or ends the connection. -/
theorem call_of_path_nil (S : Setup) (mem : Nat → Byte) (env : Env) (hstack : s.stack = c :: rest)
    (hpath : s.path = []) :
    c.Leads = false ∧ (s.call S mem env).path = [] ∧
      (s.call S mem env).conn.closed = s.conn.closed := by
  have hleads : c.Leads = false := by
    cases hleads : c.Leads with
    | false => rfl
    | true =>
        rw [path_cons hstack hleads] at hpath
        cases hpath
  have hclose : c ≠ .handleClose := by
    rintro rfl
    cases hleads
  exact ⟨hleads, (call_path S mem env hstack hleads).trans hpath, (call_status hstack hclose).2⟩

/-- Only the close callback is noted as such. -/
theorem count_close_call (S : Setup) (mem : Nat → Byte) (env : Env) (hstack : s.stack = c :: rest)
    (hcb : c ≠ .closeCb) :
    (s.call S mem env).conn.notes.count .close = s.conn.notes.count .close := by
  rcases @call_notes S mem s env c rest hstack with hsame | ⟨n, hn, hnew⟩
  · rw [hsame]
  · have hne : n ≠ .close := by
      rintro rfl
      exact hcb (Call.note_close hn)
    rw [hnew, List.count_append, List.count_singleton, if_neg (by simpa using hne), Nat.add_zero]

/-- A call that is neither `handle_close` nor the close callback keeps the phase of a path. -/
theorem closePhase_conn {p : List Call} (h : ClosePhase p s.conn) (hstack : s.stack = c :: rest)
    (hclose : c ≠ .handleClose) (hcb : c ≠ .closeCb) : ClosePhase p (s.call S mem env).conn :=
  h.congr (call_status hstack hclose).2 (count_close_call S mem env hstack hcb)

/-- The path behind a test. -/
theorem call_path_test (S : Setup) (mem : Nat → Byte) (env : Env) {t : Call}
    (hstack : s.stack = t :: rest) (hc : t.handler = some c) :
    (s.call S mem env).path =
      (if c.due s.conn.evtStatus = true then [c] else []).filter Call.Leads ++
        rest.filter Call.Leads := by
  rcases @run_test S.build S.cbs env mem t c hc s.conn with ⟨conn', hrun⟩
  rw [path, call_cons hstack, hrun, ← List.filter_append]
  rfl

/-- The close callback erases the entry of `m_conn_map`, and is noted. -/
theorem inConnMap_closeCb (S : Setup) (mem : Nat → Byte) (env : Env)
    (hstack : s.stack = .closeCb :: rest) :
    (s.call S mem env).conn.inConnMap = false ∧
      (s.call S mem env).conn.notes.count .close = s.conn.notes.count .close + 1 := by
  rw [call_cons hstack, conn_ofResult, notes_closeCb, List.count_append]
  refine ⟨?_, rfl⟩
  have hkeeps : Keeps (fun c : Connection => c.inConnMap) (do
      finalDestory S.build
      return ([] : List Call)) :=
    (keeps_finalDestory fun _ _ => rfl).bind fun _ => Keeps.pure _ _
  exact hkeeps { s.conn with notes := s.conn.notes ++ [.close], inConnMap := false }

/-- Every call leads from phase to phase, but for the end of the input behind `handle_close`. -/
theorem closePhase_call (S : Setup) (mem : Nat → Byte) (env : Env) (h : ClosePhase s.path s.conn)
    (hstack : s.stack = c :: rest)
    (hend : c = .handleRead → env.received = some [] → s.conn.closed = false) :
    ClosePhase (s.call S mem env).path (s.call S mem env).conn := by
  cases hleads : c.Leads with
  | false =>
      -- Off the path a call touches neither the path nor what the phase looks at.
      rw [call_path S mem env hstack hleads]
      refine closePhase_conn h hstack ?_ ?_
      · rintro rfl
        cases hleads
      · rintro rfl
        cases hleads
  | true =>
      rw [path_cons hstack hleads] at h
      cases c with
      | testHup =>
          refine closePhase_conn ?_ hstack (by simp) (by simp)
          rw [call_path_test S mem env hstack rfl]
          split
          · exact h.of_testHup.2
          · exact h.of_testHup.1
      | testIn =>
          refine closePhase_conn ?_ hstack (by simp) (by simp)
          rw [call_path_test S mem env hstack rfl]
          split
          · exact h.of_testIn.2
          · exact h.of_testIn.1
      | handleRead =>
          refine closePhase_conn ?_ hstack (by simp) (by simp)
          rw [path, call_cons hstack]
          cases hrun : (Connection.exec S.build S.cbs env mem .handleRead).run s.conn with
          | error e conn' => exact h.of_handleRead.1
          | ok calls conn' =>
              rw [ofResult, List.filter_append]
              -- The end of the input leads on, any other read does not.
              rcases returns_handleRead_calls _ _ _ hrun with ⟨hempty, rfl⟩ | ⟨-, err, rfl⟩
              · exact h.of_handleRead.2 (hend rfl hempty)
              · exact h.of_handleRead.1
      | handleClose =>
          rcases run_handleClose s.conn with ⟨ch, p, hrun⟩
          have hcall : s.call S mem env =
              ofResult rest (.ok [.connCb, .closeCb]
                { s.conn with connStatus := .kDisconnect, closed := true, channle := ch,
                              poller := p }) := by
            rw [call_cons hstack, Connection.exec, hrun]
          rw [hcall]
          exact h.of_handleClose rfl rfl
      | closeCb =>
          have hpath : (s.call S mem env).path = rest.filter Call.Leads := by
            rcases call_stack S mem env hstack with ⟨calls, hcalls, hmake⟩
            cases calls with
            | nil => rw [path, hcalls, List.nil_append]
            | cons c' calls => exact (hmake c' List.mem_cons_self).elim
          rw [hpath]
          exact h.of_closeCb (call_status hstack (by simp)).2
            (inConnMap_closeCb S mem env hstack).2
      | _ => cases hleads

/-- What a callback of the user does is not on the path. -/
theorem user_path (S : Setup) (op : UserOp) (huser : ∀ c ∈ s.stack.head?, c.Leads = false) :
    (s.user S op).path = s.path := by
  rcases user_stack (S := S) (s := s) op with ⟨data, hstack⟩ | hstack | hstack | hstack
  · rw [path, hstack]
    rfl
  · rw [path, hstack]
    rfl
  · rw [path, hstack, path]
  · -- The callback that returns is not on the path.
    rw [path, hstack, path]
    cases htop : s.stack with
    | nil => rfl
    | cons c rest =>
        have hc : c.Leads = false := huser c (by simp [htop])
        rw [List.tail_cons, List.filter_cons_of_neg (by simp [hc])]

theorem closePhase_user (S : Setup) (h : ClosePhase s.path s.conn) (op : UserOp)
    (huser : ∀ c ∈ s.stack.head?, c.Leads = false) :
    ClosePhase (s.user S op).path (s.user S op).conn := by
  rw [user_path S op huser]
  refine h.congr ?_ ?_
  · exact user_closed S _ op
  · have hnotes : (s.user S op).conn.notes = s.conn.notes :=
      user_notes S _ op
    rw [hnotes]

/-- At rest a registered connection is open, when a closed one is registered only as long as its
close callback is to come. -/
theorem open_of_registered
    (h : s.conn.poller.registered.isSome = true → s.conn.closed = true → .closeCb ∈ s.stack)
    (hidle : s.stack = []) (hregistered : s.conn.poller.registered.isSome = true) :
    s.conn.closed = false := by
  cases hclosed : s.conn.closed with
  | false => rfl
  | true =>
      have hmem := h hregistered hclosed
      rw [hidle] at hmem
      cases hmem

/-- Behind `handle_close` the descriptor is registered until the close callback has returned. -/
theorem registered_call (S : Setup) (mem : Nat → Byte) (env : Env)
    (h : s.conn.poller.registered.isSome = true → s.conn.closed = true → .closeCb ∈ s.stack)
    (hstack : s.stack = c :: rest) (hadd : c = .addChannel → s.conn.closed = false)
    (hfault : (s.call S mem env).fault = none)
    (hregistered : (s.call S mem env).conn.poller.registered.isSome = true)
    (hclosed : (s.call S mem env).conn.closed = true) :
    .closeCb ∈ (s.call S mem env).stack := by
  by_cases hclose : c = .handleClose
  · subst hclose
    rcases run_handleClose s.conn with ⟨ch, p, hrun⟩
    rw [call_cons hstack, Connection.exec, hrun]
    simp [ofResult]
  · have hsame : s.conn.closed = true := (call_status hstack hclose).2.symm.trans hclosed
    by_cases hcb : c = .closeCb
    · subst hcb
      rw [call_cons hstack] at hregistered hfault
      cases hrun : (Connection.exec S.build S.cbs env mem .closeCb).run s.conn with
      | ok calls conn' =>
          rw [hrun] at hregistered
          have hnone : conn'.poller.registered = none := registered_closeCb hrun
          have hregistered : conn'.poller.registered.isSome = true := hregistered
          rw [hnone] at hregistered
          cases hregistered
      | error e conn' =>
          rw [hrun] at hfault
          cases hfault
    · have hne : c ≠ .addChannel := by
        intro heq
        rw [hadd heq] at hsame
        cases hsame
      have hrel : Relates SameRegistered (Connection.exec S.build S.cbs env mem c) :=
        exec_sameRegistered hne hcb
      have hold : s.conn.poller.registered.isSome = true := by
        rw [call_cons hstack, conn_ofResult] at hregistered
        exact (hrel s.conn).symm.trans hregistered
      -- The close callback is still below.
      have hmem := h hold hsame
      rw [hstack] at hmem
      have hmem : .closeCb ∈ rest := (List.mem_cons.mp hmem).resolve_left (Ne.symm hcb)
      rcases call_stack S mem env hstack with ⟨calls, hcalls, -⟩
      rw [hcalls]
      exact List.mem_append_right calls hmem

/-- Only the call itself is gone of the calls that add the channel. -/
theorem count_addChannel_call (S : Setup) (mem : Nat → Byte) (env : Env)
    (hstack : s.stack = c :: rest) :
    (s.call S mem env).stack.count .addChannel = rest.count .addChannel := by
  rcases call_stack S mem env hstack with ⟨calls, hcalls, hmake⟩
  have hnone : calls.count .addChannel = 0 := by
    rw [List.count_eq_zero]
    intro hmem
    exact (hmake _ hmem).ne_addChannel rfl
  rw [hcalls, List.count_append, hnone, Nat.zero_add]

end Loop

end Net
end Muradin
