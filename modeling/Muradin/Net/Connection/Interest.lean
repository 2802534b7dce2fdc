import Muradin.Net.Connection.Loop

/-!
# Interest — the read interest of a connection in `epoll`

`m_last_evt_status` holds the interest set, and `save_evt_status` overwrites it with the events that
were reported.  `enable_write(true)` adds `EPOLLOUT` to whatever is there and registers the result:
behind a report of `EPOLLOUT` alone, the mask that is registered no longer contains `EPOLLIN`.

`readRegistered_of_run`: the read interest stays registered in every run in which the write interest
is only set while `m_last_evt_status` contains `EPOLLIN`.
-/

namespace Muradin
namespace Net

open Lib Cpp Events

namespace Call

/-- The calls that register nothing and leave the write cache alone. -/
def Quiet : Call → Bool
  | .handleWrite | .handleClose | .writeInLoop _ | .cacheOutput _ _ | .addChannel | .updateChannel
  | .closeCb => false
  | _ => true

/-- The calls of a dispatch and of a write, on memory that an object can have. -/
def InDispatch (mem : Nat → Byte) : Call → Prop
  | .writeInLoop data => (data.read mem).length ≤ CharVector.maxSize
  | .cacheOutput data _ => (data.read mem).length ≤ CharVector.maxSize
  | .addChannel => False
  | .updateChannel => False
  | _ => True

theorem InDispatch.of_mayMake {mem : Nat → Byte} {c c' : Call} (h : c.InDispatch mem)
    (hmake : c.MayMake c') : c'.InDispatch mem := by
  cases c with
  | handleRead => rcases hmake with rfl | rfl | ⟨err, rfl⟩ <;> trivial
  | handleWrite =>
      rcases hmake with ⟨err, bytes, rfl⟩
      trivial
  | handleError =>
      rcases hmake with ⟨err, rfl⟩
      trivial
  | handleClose => rcases hmake with rfl | rfl <;> trivial
  | writeInLoop data =>
      rcases hmake with ⟨n, rfl⟩ | ⟨err, bytes, rfl⟩
      · exact h
      · trivial
  | cacheOutput data n => cases hmake
  | shutdownInLoop => cases hmake
  | addChannel => cases hmake
  | updateChannel => cases hmake
  | closeCb => cases hmake
  | user => cases hmake
  | _ =>
      cases hmake
      trivial

end Call

namespace Connection

variable {B : Build} {cbs : Callbacks} {env : Env} {mem : Nat → Byte} {conn : Connection}
  {q : ByteFifo}

/-- The mask registered for the descriptor contains `EPOLLIN`. -/
def ReadRegistered (conn : Connection) : Prop :=
  ∃ m, conn.poller.registered = some m ∧ meets m epollIn = true

/-- The read interest is registered, unless the connection was closed. -/
def ReadKept (conn : Connection) : Prop :=
  conn.closed = false → conn.ReadRegistered

/-- The calls that set the write interest, and when: a second one is an early return. -/
def ReArms (conn : Connection) (env : Env) : Call → Prop
  | .cacheOutput _ _ => conn.channle.progressInWrite = false
  | .handleWrite =>
      conn.channle.progressInWrite = false ∧
        (env.sendRet < 0 ∧ env.errno = eagain ∨
          0 ≤ env.sendRet ∧ env.sendRet < conn.writeCache.content.length)
  | _ => False

instance (conn : Connection) (env : Env) : (c : Call) → Decidable (ReArms conn env c)
  | .cacheOutput _ _ => inferInstanceAs (Decidable (_ = _))
  | .handleWrite => inferInstanceAs (Decidable (_ ∧ _))
  | .testHup | .testErr | .testIn | .testOut | .handleRead | .handleError | .handleClose
  | .writeInLoop _ | .shutdownInLoop | .addChannel | .updateChannel | .connCb | .readCb _
  | .writeCb _ _ | .errCb _ | .closeCb | .user => inferInstanceAs (Decidable False)

/-! ## Setting the write interest -/

/-- The one place where the mask is registered again while the connection is open. -/
theorem readKept_setWriteInterest (h : conn.ReadKept)
    (hin : conn.closed = false → conn.channle.progressInWrite = false →
      meets conn.channle.lastEvtStatus epollIn = true) :
    (conn.setWriteInterest true).ReadKept := by
  intro hopen
  have hopen : conn.closed = false := by rwa [closed_setWriteInterest] at hopen
  rcases h hopen with ⟨m, hm, hmin⟩
  cases hprogress : conn.channle.progressInWrite with
  | true =>
      refine ⟨m, ?_, hmin⟩
      rw [setWriteInterest, if_pos ⟨rfl, hprogress⟩]
      exact hm
  | false =>
      refine ⟨conn.channle.writeInterest true, ?_, meets_or_left (hin hopen hprogress)⟩
      rw [setWriteInterest, if_neg (by simp [hprogress])]
      exact EpPoller.updateEvtCode_of_registered hm _

/-! ## Calls that leave the output alone -/

/-- What the read interest depends on, and the cache behind it. -/
def outputPart (conn : Connection) : ByteBuffer × EpPoller × Bool :=
  (conn.writeCache, conn.poller, conn.closed)

/-- `f` does not look at the read cache, the notes and the write side of the socket. -/
structure OffQuiet {ρ : Type} (f : Connection → ρ) : Prop where
  readCache : ∀ b c, f { c with readCache := b } = f c
  notes : ∀ c notes, f { c with notes := notes } = f c
  writeShutdown : ∀ c w, f { c with writeShutdown := w } = f c

theorem OffQuiet.keeps_handleRead {ρ : Type} {f : Connection → ρ} (h : OffQuiet f) :
    Keeps f (handleRead B env) :=
  relates_handleRead (R := fun c d => f d = f c) (fun _ => rfl)
    (fun _ _ _ hcd hde => hde.trans hcd) fun c b => h.readCache b c

/-- The quiet calls change nothing else; the test for `EPOLLOUT` clears the flag of the channel. -/
theorem OffQuiet.keeps_exec {ρ : Type} {f : Connection → ρ} (h : OffQuiet f) {c : Call}
    (hquiet : c.Quiet = true) (hout : c ≠ .testOut) : Keeps f (exec B cbs env mem c) := by
  cases c with
  | testHup =>
      rw [exec]
      exact keeps_test f _ _
  | testErr =>
      rw [exec]
      exact keeps_test f _ _
  | testIn =>
      rw [exec]
      exact keeps_test f _ _
  | testOut => contradiction
  | handleRead => exact h.keeps_handleRead
  | handleError => exact Keeps.pure f _
  | shutdownInLoop =>
      exact (Keeps.modify fun c => h.writeShutdown c _).bind fun _ => Keeps.pure f _
  | connCb => exact keeps_deliver h.notes _ _
  | readCb err => exact keeps_deliver h.notes _ _
  | writeCb err bytes => exact keeps_deliver h.notes _ _
  | errCb err => exact keeps_deliver h.notes _ _
  | user => exact Keeps.pure f _
  | _ => cases hquiet

theorem offQuiet_outputPart : OffQuiet outputPart := by
  constructor <;> intros <;> rfl

theorem offQuiet_channle : OffQuiet fun c => c.channle := by
  constructor <;> intros <;> rfl

theorem quiet_keeps {c : Call} (hquiet : c.Quiet = true) :
    Keeps outputPart (exec B cbs env mem c) := by
  by_cases hout : c = .testOut
  · subst hout
    refine (Keeps.get _).bind fun c => Keeps.ite ?_ (Keeps.pure _ _)
    exact Keeps.bind (Keeps.modify fun _ => rfl) fun _ => Keeps.pure _ _
  · exact offQuiet_outputPart.keeps_exec hquiet hout

/-- The direct send does not touch the channel. -/
theorem sendDirectly_keeps (B : Build) (env : Env) (h : conn.writeCache.Represents q) (data : List Byte) :
    outputPart (stateOf ((sendDirectly B env data).run conn)) = outputPart conn := by
  by_cases hq : q.content = []
  · rw [run_sendDirectly_direct env h hq data]
    rfl
  · rw [run_sendDirectly_behind env h hq data]
    rfl

/-! ## One call -/

/-- What a call needs to know, and keeps, about the output. -/
structure OutputInv (conn : Connection) : Prop where
  cache : conn.writeCache.Inv
  kept : conn.ReadKept

theorem OutputInv.of_outputPart {conn' : Connection} (h : conn.OutputInv)
    (hpart : outputPart conn' = outputPart conn) : conn'.OutputInv := by
  have hcache : conn'.writeCache = conn.writeCache := congrArg (·.1) hpart
  have hpoller : conn'.poller = conn.poller := congrArg (·.2.1) hpart
  have hclosed : conn'.closed = conn.closed := congrArg (·.2.2) hpart
  refine { cache := hcache ▸ h.cache, kept := ?_ }
  intro hopen
  rw [ReadRegistered, hpoller]
  exact h.kept (hclosed ▸ hopen)

theorem outputInv_of_closed (hcache : conn.writeCache.Inv) (hclosed : conn.closed = true) :
    conn.OutputInv := by
  refine { cache := hcache, kept := ?_ }
  intro hopen
  simp [hclosed] at hopen

theorem OutputInv.setWriteInterest (h : conn.OutputInv)
    (hin : conn.closed = false → conn.channle.progressInWrite = false →
      meets conn.channle.lastEvtStatus epollIn = true) :
    (conn.setWriteInterest true).OutputInv :=
  { cache := by
      rw [writeCache_setWriteInterest]
      exact h.cache
    kept := readKept_setWriteInterest h.kept hin }

theorem OutputInv.handleWrite (h : conn.OutputInv)
    (hanswers : ∀ r ∈ env.sent, r ≤ conn.writeCache.content.length)
    (hsafe : conn.closed = false → ReArms conn env .handleWrite →
      meets conn.channle.lastEvtStatus epollIn = true) :
    (stateOf ((Connection.handleWrite B env).run conn)).OutputInv := by
  have hrep := h.cache.represents
  rcases Int.lt_or_le env.sendRet 0 with hneg | hnonneg
  · rcases run_handleWrite_failed (B := B) hrep hneg with ⟨calls, hrun⟩
    rw [hrun]
    split
    · rename_i heagain
      have harmed := h.setWriteInterest fun hopen hprogress =>
        hsafe hopen ⟨hprogress, Or.inl ⟨hneg, heagain⟩⟩
      exact harmed.of_outputPart rfl
    · exact h.of_outputPart rfl
  -- Bytes that are left over set the write interest again.
  · rcases exists_of_sendRet_nonneg hnonneg with ⟨r, hr, k, hk, hret⟩
    have hle : k ≤ conn.writeCache.content.length := Nat.le_trans hk (hanswers r hr)
    rcases handleWrite_sent (B := B) hrep hret hle with ⟨b, hb, hstate⟩
    rw [hstate]
    have hcache : b.Inv := hb.elim (·.toInv) (·.toInv)
    split
    · rename_i hlt
      have harmed := h.setWriteInterest fun hopen hprogress =>
        hsafe hopen ⟨hprogress, Or.inr ⟨hnonneg, by rw [hret]; exact Int.ofNat_lt.mpr hlt⟩⟩
      exact { cache := hcache, kept := harmed.kept }
    · exact { cache := hcache, kept := h.kept }

/-- The close callback leaves the cache and the history of `handle_close` alone. -/
theorem closeCb_keeps (B : Build) (cbs : Callbacks) (env : Env) (mem : Nat → Byte)
    (conn : Connection) :
    (stateOf ((exec B cbs env mem .closeCb).run conn)).writeCache = conn.writeCache ∧
      (stateOf ((exec B cbs env mem .closeCb).run conn)).closed = conn.closed := by
  have hkeeps : Keeps (fun c : Connection => (c.writeCache, c.closed))
      (exec B cbs env mem .closeCb) :=
    keeps_closeCb (fun _ _ => rfl) (fun _ _ => rfl) fun _ _ => rfl
  exact Prod.mk.inj (hkeeps conn)

/-- A call that sets the write interest only behind `EPOLLIN` keeps the read interest. -/
theorem OutputInv.exec (h : conn.OutputInv) {c : Call} (hc : c.InDispatch mem)
    (hclosing : c = .closeCb → conn.closed = true) (hanswers : Loop.Answers mem conn env c)
    (hsafe : conn.closed = false → ReArms conn env c →
      meets conn.channle.lastEvtStatus epollIn = true) :
    (stateOf ((Connection.exec B cbs env mem c).run conn)).OutputInv := by
  have hrep := h.cache.represents
  by_cases hquiet : c.Quiet = true
  · exact h.of_outputPart (quiet_keeps hquiet conn)
  · cases c with
    | handleWrite => exact h.handleWrite hanswers hsafe
    | handleClose =>
        rcases run_handleClose conn with ⟨ch, p, hrun⟩
        rw [Connection.exec, hrun]
        exact outputInv_of_closed h.cache rfl
    | writeInLoop data =>
        -- The direct send leaves the output alone; what is left over is cached by the next call.
        rw [stateOf_exec_writeInLoop]
        exact h.of_outputPart (sendDirectly_keeps B env hrep (data.read mem))
    | cacheOutput data n =>
        rcases stateOf_exec_cacheOutput (B := B) cbs env hrep n hc with ⟨b, hb, hstate⟩ | hsame
        · -- The bytes are in the cache, and the write interest is set behind them.
          rw [hstate]
          have hcached : ({ conn with writeCache := b } : Connection).OutputInv :=
            { cache := hb.toInv, kept := h.kept }
          exact hcached.setWriteInterest fun hopen hprogress => hsafe hopen hprogress
        · rw [hsame]
          exact h
    | addChannel => cases hc
    | updateChannel => cases hc
    | closeCb =>
        rcases closeCb_keeps B cbs env mem conn with
          ⟨hcache, hclosed⟩
        exact outputInv_of_closed (hcache ▸ h.cache) (hclosed.trans (hclosing rfl))
    | _ => exact absurd rfl hquiet

end Connection

/-! ## Runs -/

namespace Loop

open Connection

variable {S : Setup} {mem : Nat → Byte} {s s' : Loop} {a : Act}

/-- The write interest is set only while `m_last_evt_status` contains `EPOLLIN`. -/
def ArmsBehindIn (s : Loop) : Act → Prop
  | .call env =>
      ∀ c ∈ s.stack.head?, s.conn.closed = false → ReArms s.conn env c →
        meets s.conn.channle.lastEvtStatus epollIn = true
  | _ => True

instance (s : Loop) : (a : Act) → Decidable (s.ArmsBehindIn a)
  | .call _ => inferInstanceAs (Decidable (∀ c ∈ s.stack.head?, _ → _ → _))
  | .poll _ | .processWork | .writeInLoop _ | .user _ => inferInstanceAs (Decidable True)

/-- `J` holds of the connection, the calls that are still to be made are those of a dispatch, and a
close callback among them belongs to a closed connection. -/
structure DispatchInv (J : Connection → Prop) (mem : Nat → Byte) (s : Loop) : Prop where
  conn : J s.conn
  calls : ∀ c ∈ s.stack, c.InDispatch mem
  closing : s.Closing

/-- `J` does not depend on what the poller reports and what a callback changes by itself. -/
structure OffDispatch (J : Connection → Prop) : Prop where
  poll : ∀ conn events, J conn → J { conn with channle := conn.channle.saveEvtStatus events }
  readCache : ∀ conn b, J conn → J { conn with readCache := b }
  status : ∀ conn, J conn → J { conn with connStatus := .kInDisconnect }

namespace DispatchInv

variable {J : Connection → Prop}

theorem call {env : Env} (h : s.DispatchInv J mem) (hcallable : s.Callable mem env)
    (hcall : ∀ c ∈ s.stack.head?, c.InDispatch mem → (c = .closeCb → s.conn.closed = true) →
      Answers mem s.conn env c →
        J (stateOf ((Connection.exec S.build S.cbs env mem c).run s.conn))) :
    (s.call S mem env).DispatchInv J mem := by
  rcases hcallable.exists_cons with ⟨c, rest, hstack, -, hanswers⟩
  have hmem : c ∈ s.stack := by simp [hstack]
  refine { conn := ?_, calls := ?_, closing := h.closing.call hstack }
  · rw [call_cons hstack, conn_ofResult]
    refine hcall c (by simp [hstack]) (h.calls c hmem) ?_ hanswers
    intro hc
    exact h.closing (hc ▸ hmem)
  · rcases call_stack S mem env hstack with ⟨calls, hstack', hmake⟩
    intro c' hc'
    rw [hstack'] at hc'
    rcases List.mem_append.mp hc' with hnew | hold
    · exact (h.calls c hmem).of_mayMake (hmake c' hnew)
    · exact h.calls c' (by simp [hstack, hold])

theorem user (hJ : OffDispatch J) (h : s.DispatchInv J mem) (op : UserOp) :
    (s.user S op).DispatchInv J mem := by
  refine { conn := ?_, calls := ?_, closing := h.closing.user op }
  · rcases user_conn (S := S) (s := s) op with hconn | ⟨b, hconn⟩ | hconn
    · rw [hconn]
      exact h.conn
    · rw [hconn]
      exact hJ.readCache _ b h.conn
    · rw [hconn]
      exact hJ.status _ h.conn
  · intro c hc
    rcases user_stack (S := S) (s := s) op with ⟨data, hstack⟩ | hstack | hstack | hstack
    · rw [hstack] at hc
      rcases List.mem_cons.mp hc with rfl | hold
      · exact data.2
      · exact h.calls c hold
    · rw [hstack] at hc
      rcases List.mem_cons.mp hc with rfl | hold
      · trivial
      · exact h.calls c hold
    · rw [hstack] at hc
      exact h.calls c hc
    · rw [hstack] at hc
      exact h.calls c (List.mem_of_mem_tail hc)

/-- The step rule: what is left is the call that a step makes. -/
theorem step (hJ : OffDispatch J) (h : s.DispatchInv J mem)
    (hcall : ∀ env, a = .call env → ∀ c ∈ s.stack.head?, c.InDispatch mem →
      (c = .closeCb → s.conn.closed = true) → Answers mem s.conn env c →
        J (stateOf ((Connection.exec S.build S.cbs env mem c).run s.conn)))
    (hs : s.step S mem a = some s') : s'.DispatchInv J mem := by
  rcases step_eq_some.mp hs with ⟨hen, rfl⟩
  cases a with
  | poll events =>
      exact { conn := hJ.poll _ events h.conn, calls := h.calls, closing := h.closing }
  -- The four tests of a dispatch.
  | processWork =>
      refine { conn := h.conn, calls := ?_, closing := ?_ }
      · intro c hc
        rcases mem_dispatchCalls.mp hc with rfl | rfl | rfl | rfl <;> trivial
      · intro hmem
        have hmem : Call.closeCb ∈ dispatchCalls := hmem
        exact absurd hmem (by decide)
  | writeInLoop data =>
      refine { conn := h.conn, calls := ?_, closing := ?_ }
      · intro c hc
        have hc : c = .writeInLoop (.bytes data.1) := List.mem_singleton.mp hc
        subst hc
        exact data.2
      · intro hmem
        have hmem : Call.closeCb = .writeInLoop (.bytes data.1) := List.mem_singleton.mp hmem
        cases hmem
  | call env => exact h.call hen.2 (hcall env rfl)
  | user op => exact h.user hJ op

end DispatchInv

structure InterestInv (mem : Nat → Byte) (s : Loop) : Prop where
  output : s.conn.OutputInv
  calls : ∀ c ∈ s.stack, c.InDispatch mem
  closing : s.Closing

theorem interestInv_iff : s.InterestInv mem ↔ s.DispatchInv OutputInv mem := by
  constructor
  · intro h
    exact { conn := h.output, calls := h.calls, closing := h.closing }
  · intro h
    exact { output := h.conn, calls := h.calls, closing := h.closing }

theorem offDispatch_outputInv : OffDispatch OutputInv :=
  { poll := fun _ _ h => h.of_outputPart rfl
    readCache := fun _ _ h => h.of_outputPart rfl
    status := fun _ h => h.of_outputPart rfl }

/-- A step that sets the write interest only behind `EPOLLIN` keeps the read interest. -/
theorem InterestInv.step (h : s.InterestInv mem) (hsafe : s.ArmsBehindIn a)
    (hs : s.step S mem a = some s') : s'.InterestInv mem := by
  refine interestInv_iff.mpr ((interestInv_iff.mp h).step offDispatch_outputInv ?_ hs)
  rintro env rfl c hc hin hclosing hanswers
  exact h.output.exec hin hclosing hanswers (hsafe c hc)

/-- A connection whose channel was added and whose read interest was registered, between two
dispatches. -/
structure Reading (s : Loop) : Prop where
  idle : s.stack = []
  opened : s.conn.closed = false
  cache : s.conn.writeCache.Inv
  registered : s.conn.ReadRegistered

theorem Reading.dispatchInv {J : Connection → Prop} (h : s.Reading) (hJ : J s.conn) :
    s.DispatchInv J mem := by
  refine { conn := hJ, calls := ?_, closing := ?_ }
  · intro c hc
    simp [h.idle] at hc
  · intro hmem
    simp [h.idle] at hmem

/-- The read interest of an open connection stays registered in every run in which the write
interest is only set behind `EPOLLIN`. -/
theorem readRegistered_of_run {as : List Act} (h : s.Reading)
    (hsafe : Along (step S mem) ArmsBehindIn s as) (hrun : run (step S mem) s as = some s')
    (hopen : s'.conn.closed = false) : s'.conn.ReadRegistered := by
  have houtput : s.conn.OutputInv := { cache := h.cache, kept := fun _ => h.registered }
  have hinv : s'.InterestInv mem :=
    invariant_along (fun _ _ _ h hsafe hs => InterestInv.step h hsafe hs)
      (interestInv_iff.mpr (h.dispatchInv houtput)) hsafe hrun
  exact hinv.output.kept hopen

/-- A started connection of a Debug build with every callback set. -/
def startedLoop : Loop :=
  { conn :=
      { newConnection with
        connStatus := .kConnected
        channle := { tied := true, lastEvtStatus := readMask, progressInWrite := false }
        poller := { inChannelMap := true, registered := some readMask }
        inConnMap := true }
    stack := []
    fault := none }

def debugSetup : Setup :=
  { build := .debug
    host := .liteEndian
    cbs := { conn := true, read := true, write := true, error := true } }

theorem reading_startedLoop : startedLoop.Reading :=
  { idle := rfl
    opened := rfl
    cache :=
      { resver_le_rd := by decide
        rd_le_wt := by decide
        wt_le_storage := by decide +kernel }
    registered := ⟨readMask, rfl, by decide⟩ }

/-- The kernel is full, and the bytes are cached before anything is polled. -/
def cachedAtOnce : List Act :=
  [.writeInLoop ⟨[7, 8], by decide⟩, .call { sent := none, errno := eagain }, .call {}]

theorem readRegistered_of_run_cachedAtOnce :
    ∃ s, run (step debugSetup fun _ => 0) startedLoop cachedAtOnce = some s ∧
      s.conn.poller.registered = some (readMask ||| epollOut) ∧ s.conn.ReadRegistered := by
  have hsafe : Along (step debugSetup fun _ => 0) ArmsBehindIn startedLoop cachedAtOnce := by
    decide +kernel
  have hany : (run (step debugSetup fun _ => 0) startedLoop cachedAtOnce).any (fun s =>
      decide (s.conn.poller.registered = some (readMask ||| epollOut) ∧ s.conn.closed = false)) =
        true := by
    decide +kernel
  rcases exists_run_of_any hany with ⟨s, hrun, hregistered, hopen⟩
  exact ⟨s, hrun, hregistered, readRegistered_of_run reading_startedLoop hsafe hrun hopen⟩

/-- The socket becomes writable and takes one of the two cached bytes: `EPOLLOUT` alone is
registered for the rest. -/
def partialFlush : List Act :=
  cachedAtOnce ++ [.poll epollOut, .processWork, .call {}, .call {}, .call {}, .call {},
    .call { sent := some 1 }]

theorem partialFlush_loses_read_interest :
    ¬ ∀ (s : Loop) (as : List Act) (s' : Loop), s.Reading →
      run (step debugSetup fun _ => 0) s as = some s' → s'.conn.closed = false →
        s'.conn.ReadRegistered := by
  intro h
  have hany : (run (step debugSetup fun _ => 0) startedLoop partialFlush).any (fun s =>
      decide (s.conn.poller.registered = some epollOut ∧ s.conn.closed = false)) = true := by
    decide +kernel
  rcases exists_run_of_any hany with ⟨s, hrun, hregistered, hopen⟩
  rcases h _ _ _ reading_startedLoop hrun hopen with ⟨m, hm, hin⟩
  -- The registered mask is `EPOLLOUT`.
  obtain rfl : m = epollOut := Option.some.inj (hm.symm.trans hregistered)
  exact absurd hin (by decide)

end Loop

end Net
end Muradin
