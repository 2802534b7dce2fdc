import Muradin.Net.Connection.Interest

/-!
# Flush — the write interest of a connection in `epoll`

While an open connection has bytes in its write cache, `EPOLLOUT` is registered for it: the early
return of `enable_write(true)` is taken only behind an earlier call that registered `EPOLLOUT`, and
the flag behind it is cleared only where `handle_write` follows (`writeRegistered_of_run`).

Nothing takes the write interest back: `handle_write` registers it again for what is left and does
nothing for a cache that is empty.  `writeWithdrawn_iff` says when the interest is gone all the same.
-/

namespace Muradin
namespace Net

open Lib Cpp Events

namespace Connection

variable {B : Build} {cbs : Callbacks} {env : Env} {mem : Nat → Byte} {conn : Connection}
  {q : ByteFifo}

/-- The mask registered for the descriptor contains `EPOLLOUT`. -/
def WriteRegistered (conn : Connection) : Prop :=
  ∃ m, conn.poller.registered = some m ∧ meets m epollOut = true

theorem writeRegistered_congr {conn' : Connection} (h : conn'.poller = conn.poller) :
    conn'.WriteRegistered ↔ conn.WriteRegistered := by
  rw [WriteRegistered, WriteRegistered, h]

/-! ## The flag and the registered mask -/

/-- The descriptor of an open connection is registered, and behind `m_progress_in_write` there is a
registered `EPOLLOUT`. -/
structure ProgressInv (conn : Connection) : Prop where
  cache : conn.writeCache.Inv
  registered : conn.closed = false → ∃ m, conn.poller.registered = some m
  inProgress : conn.closed = false → conn.channle.progressInWrite = true → conn.WriteRegistered

/-- Between two calls nothing waits in the cache without `EPOLLOUT`. -/
structure FlushInv (conn : Connection) : Prop extends ProgressInv conn where
  waiting : conn.closed = false → conn.writeCache.content ≠ [] → conn.WriteRegistered

/-- `enable_write(true)` leaves `EPOLLOUT` registered, early return or not. -/
theorem ProgressInv.setWriteInterest (h : conn.ProgressInv) :
    (conn.setWriteInterest true).ProgressInv ∧
      (conn.closed = false → (conn.setWriteInterest true).WriteRegistered) := by
  have hout : conn.closed = false → (conn.setWriteInterest true).WriteRegistered := by
    intro hopen
    cases hprogress : conn.channle.progressInWrite with
    -- The early return: the flag promises the registration.
    | true =>
        rw [Connection.setWriteInterest, if_pos ⟨rfl, hprogress⟩]
        exact h.inProgress hopen hprogress
    | false =>
        rcases h.registered hopen with ⟨m, hm⟩
        rw [Connection.setWriteInterest, if_neg (by simp [hprogress])]
        exact ⟨_, EpPoller.updateEvtCode_of_registered hm _, meets_or_right _ _ (by decide)⟩
  refine ⟨{ cache := ?_, registered := ?_, inProgress := ?_ }, hout⟩
  · rw [writeCache_setWriteInterest]
    exact h.cache
  · intro hopen
    rw [closed_setWriteInterest] at hopen
    rcases hout hopen with ⟨m, hm, -⟩
    exact ⟨m, hm⟩
  · intro hopen _
    rw [closed_setWriteInterest] at hopen
    exact hout hopen

/-- Whatever the cache holds behind an `enable_write(true)`, it will be flushed. -/
theorem ProgressInv.flushInv_setWriteInterest (h : conn.ProgressInv) :
    (conn.setWriteInterest true).FlushInv := by
  rcases h.setWriteInterest with ⟨hprogress, hout⟩
  refine { hprogress with waiting := ?_ }
  intro hopen _
  rw [closed_setWriteInterest] at hopen
  exact hout hopen

/-- A call that leaves cache and poller alone and does not set the flag keeps the invariant. -/
theorem FlushInv.of_outputPart {conn' : Connection} (h : conn.FlushInv)
    (hpart : outputPart conn' = outputPart conn)
    (hflag : conn'.channle.progressInWrite = true → conn.channle.progressInWrite = true) :
    conn'.FlushInv := by
  have hcache : conn'.writeCache = conn.writeCache := congrArg (·.1) hpart
  have hpoller : conn'.poller = conn.poller := congrArg (·.2.1) hpart
  have hclosed : conn'.closed = conn.closed := congrArg (·.2.2) hpart
  refine { cache := hcache ▸ h.cache, registered := ?_, inProgress := ?_, waiting := ?_ }
  · rw [hclosed, hpoller]
    exact h.registered
  · rw [hclosed, writeRegistered_congr hpoller]
    intro hopen hprogress
    exact h.inProgress hopen (hflag hprogress)
  · rw [hclosed, hcache, writeRegistered_congr hpoller]
    exact h.waiting

theorem flushInv_of_closed (hcache : conn.writeCache.Inv) (hclosed : conn.closed = true) :
    conn.FlushInv := by
  refine { cache := hcache, registered := ?_, inProgress := ?_, waiting := ?_ } <;>
    intro hopen <;> simp [hclosed] at hopen

theorem offDispatch_flushInv : Loop.OffDispatch FlushInv :=
  { poll := fun _ _ h => h.of_outputPart rfl id
    readCache := fun _ _ h => h.of_outputPart rfl id
    status := fun _ h => h.of_outputPart rfl id }

/-! ## One call -/

/-- The quiet calls leave the channel alone; the test for `EPOLLOUT` clears the flag. -/
theorem quiet_keeps_flag {c : Call} (hquiet : c.Quiet = true)
    (hflag : (stateOf ((exec B cbs env mem c).run conn)).channle.progressInWrite = true) :
    conn.channle.progressInWrite = true := by
  by_cases hout : c = .testOut
  · subst hout
    rw [exec, run_bind_ok (EStateM.run_get conn)] at hflag
    split at hflag
    · -- the flag was cleared
      cases hflag
    · exact hflag
  · have hsame : (stateOf ((exec B cbs env mem c).run conn)).channle = conn.channle :=
      offQuiet_channle.keeps_exec hquiet hout conn
    rwa [hsame] at hflag

theorem FlushInv.handleWrite (h : conn.FlushInv)
    (hanswers : ∀ r ∈ env.sent, r ≤ conn.writeCache.content.length) :
    (stateOf ((Connection.handleWrite B env).run conn)).FlushInv := by
  have hrep := h.cache.represents
  rcases Int.lt_or_le env.sendRet 0 with hneg | hnonneg
  · rcases run_handleWrite_failed (B := B) hrep hneg with ⟨calls, hrun⟩
    rw [hrun]
    split
    · exact h.toProgressInv.flushInv_setWriteInterest.of_outputPart rfl id
    · exact h.of_outputPart rfl id
  · rcases exists_of_sendRet_nonneg hnonneg with ⟨r, hr, k, hk, hret⟩
    have hle : k ≤ conn.writeCache.content.length := Nat.le_trans hk (hanswers r hr)
    rcases handleWrite_sent (B := B) hrep hret hle with ⟨b, hb, hstate⟩
    have hcache : b.Inv := hb.elim (·.toInv) (·.toInv)
    rw [hstate]
    split
    · -- Some bytes are left, and `EPOLLOUT` was registered for them.
      rcases h.toProgressInv.setWriteInterest with ⟨hprogress, hout⟩
      refine { hprogress with cache := hcache, waiting := ?_ }
      intro hopen _
      apply hout
      rwa [← closed_setWriteInterest conn true]
    · -- Everything was sent: the cache is empty.
      rename_i hall
      have hempty : b.content = [] := by
        have hpop : ∀ n, k ≤ n → (conn.writeCache.toFifo.pop n).content = [] := by
          intro n hn
          rw [ByteFifo.content_pop]
          exact List.drop_eq_nil_of_le (Nat.le_trans (Nat.le_of_not_lt hall) hn)
        rcases hb with hb | hb
        · rw [hb.content_eq, hpop k (Nat.le_refl k)]
        · rw [hb.content_eq, hpop (k + k) (Nat.le_add_right k k)]
      refine { cache := hcache, registered := h.registered, inProgress := h.inProgress, waiting := ?_ }
      intro _ hne
      exact absurd hempty hne

theorem keeps_channle_sendDirectly (B : Build) (env : Env) (data : List Byte) :
    Keeps (fun c : Connection => c.channle) (sendDirectly B env data) :=
  relates_sendDirectly (R := fun c d => d.channle = c.channle) (fun _ => rfl)
    (fun _ _ _ hcd hde => hde.trans hcd) (fun _ _ => rfl) (fun _ _ => rfl) (fun _ _ => rfl) data

/-- Every call of a dispatch keeps what waits in the cache waited for. -/
theorem FlushInv.exec (h : conn.FlushInv) {c : Call} (hc : c.InDispatch mem)
    (hclosing : c = .closeCb → conn.closed = true) (hanswers : Loop.Answers mem conn env c) :
    (stateOf ((Connection.exec B cbs env mem c).run conn)).FlushInv := by
  have hrep := h.cache.represents
  by_cases hquiet : c.Quiet = true
  · exact h.of_outputPart (quiet_keeps hquiet conn) (quiet_keeps_flag hquiet)
  · cases c with
    | handleWrite => exact h.handleWrite hanswers
    | handleClose =>
        rcases run_handleClose conn with ⟨ch, p, hrun⟩
        rw [Connection.exec, hrun]
        exact flushInv_of_closed h.cache rfl
    | writeInLoop data =>
        -- The direct send does not touch cache, poller and channel.
        have hpart := sendDirectly_keeps B env hrep (data.read mem)
        have hflag : (stateOf ((sendDirectly B env (data.read mem)).run conn)).channle =
            conn.channle := keeps_channle_sendDirectly B env (data.read mem) conn
        rw [stateOf_exec_writeInLoop]
        refine h.of_outputPart hpart fun hprogress => ?_
        rwa [hflag] at hprogress
    | cacheOutput data n =>
        rcases stateOf_exec_cacheOutput (B := B) cbs env hrep n hc with ⟨b, hb, hstate⟩ | hsame
        · -- The bytes are in the cache, and the write interest is set behind them.
          rw [hstate]
          have hcached : ({ conn with writeCache := b } : Connection).ProgressInv :=
            { cache := hb.toInv, registered := h.registered, inProgress := h.inProgress }
          exact hcached.flushInv_setWriteInterest
        · rw [hsame]
          exact h
    | addChannel => cases hc
    | updateChannel => cases hc
    | closeCb =>
        rcases closeCb_keeps B cbs env mem conn with
          ⟨hcache, hclosed⟩
        exact flushInv_of_closed (hcache ▸ h.cache) (hclosed.trans (hclosing rfl))
    | _ => exact absurd rfl hquiet

/-! ## What one `handle_write` leaves -/

/-- `handle_write` returns and leaves the cache empty, told from what it finds: it sends nothing of
nothing, or the two discards of what was sent are the whole cache. -/
def Drains (B : Build) (conn : Connection) (env : Env) : Prop :=
  env.sendRet < 0 ∧ conn.writeCache.content = [] ∨
    0 ≤ env.sendRet ∧ (conn.writeCache.content.length : Int) ≤ 2 * env.sendRet ∧
      (B = .debug → (conn.writeCache.content.length : Int) = 2 * env.sendRet)

/-- `EPOLLOUT` is registered already, or `handle_write` registers it. -/
def RegistersWrite (conn : Connection) (env : Env) : Prop :=
  conn.WriteRegistered ∨ ReArms conn env .handleWrite ∧ ∃ m, conn.poller.registered = some m

theorem writeRegistered_setWriteInterest :
    (conn.setWriteInterest true).WriteRegistered ↔
      conn.WriteRegistered ∨
        conn.channle.progressInWrite = false ∧ ∃ m, conn.poller.registered = some m := by
  cases hprogress : conn.channle.progressInWrite with
  | true =>
      rw [setWriteInterest, if_pos ⟨rfl, hprogress⟩]
      simp
  | false =>
      rw [setWriteInterest, if_neg (by simp [hprogress])]
      cases hregistered : conn.poller.registered with
      | none =>
          -- `epoll_ctl` finds nothing to modify.
          simp [WriteRegistered, EpPoller.updateEvtCode, hregistered]
      | some m =>
          refine iff_of_true ?_ (Or.inr ⟨rfl, m, rfl⟩)
          exact ⟨_, EpPoller.updateEvtCode_of_registered hregistered _,
            meets_or_right _ _ (by decide)⟩

/-- Whether `EPOLLOUT` is registered behind a `handle_write`. -/
theorem writeRegistered_handleWrite (hcache : conn.writeCache.Inv)
    (hanswers : ∀ r ∈ env.sent, r ≤ conn.writeCache.content.length) :
    (stateOf ((handleWrite B env).run conn)).WriteRegistered ↔ RegistersWrite conn env := by
  have hrep := hcache.represents
  -- A `handle_write` that asks for write events does it by `enable_write(true)`, otherwise the
  -- poller is as it was.
  have hcase : ∀ (p : Prop) [Decidable p],
      (p ↔ env.sendRet < 0 ∧ env.errno = eagain ∨
        0 ≤ env.sendRet ∧ env.sendRet < conn.writeCache.content.length) →
      ((if p then conn.setWriteInterest true else conn).WriteRegistered ↔
        RegistersWrite conn env) := by
    intro p hdec hp
    by_cases harms : p
    · rw [if_pos harms, writeRegistered_setWriteInterest, RegistersWrite, ReArms]
      simp only [hp.mp harms, and_true]
    · have hnot : ¬ (env.sendRet < 0 ∧ env.errno = eagain ∨
          0 ≤ env.sendRet ∧ env.sendRet < conn.writeCache.content.length) := fun h => harms (hp.mpr h)
      rw [if_neg harms, RegistersWrite, ReArms]
      simp only [hnot, and_false, false_and, or_false]
  rcases Int.lt_or_le env.sendRet 0 with hneg | hnonneg
  · rcases run_handleWrite_failed (B := B) hrep hneg with ⟨calls, hrun⟩
    rw [hrun]
    refine Iff.trans (writeRegistered_congr rfl) (hcase _ ?_)
    simp [hneg, Int.not_le.mpr hneg]
  · rcases exists_of_sendRet_nonneg hnonneg with ⟨r, hr, k, hk, hret⟩
    have hle : k ≤ conn.writeCache.content.length := Nat.le_trans hk (hanswers r hr)
    rcases handleWrite_sent (B := B) hrep hret hle with ⟨b, -, hstate⟩
    rw [hstate]
    refine Iff.trans (writeRegistered_congr rfl) (hcase _ ?_)
    simp only [hret, Int.natCast_nonneg, true_and, Int.ofNat_lt,
      Int.not_lt.mpr (Int.natCast_nonneg k), false_and, false_or]
    exact Iff.rfl

/-- While the connection is open no call takes the write interest back. -/
theorem exec_keeps_writeRegistered (h : conn.FlushInv)
    (hregistered : conn.closed = false → conn.WriteRegistered) {c : Call} (hc : c.InDispatch mem)
    (hclosing : c = .closeCb → conn.closed = true) (hanswers : Loop.Answers mem conn env c) :
    (stateOf ((exec B cbs env mem c).run conn)).closed = false →
      (stateOf ((exec B cbs env mem c).run conn)).WriteRegistered := by
  have hrep := h.cache.represents
  -- A call that leaves the poller alone leaves the interest alone.
  have hkeep : ∀ {conn' : Connection}, outputPart conn' = outputPart conn →
      conn'.closed = false → conn'.WriteRegistered := by
    intro conn' hpart hopen
    have hpoller : conn'.poller = conn.poller := congrArg (·.2.1) hpart
    have hclosed : conn'.closed = conn.closed := congrArg (·.2.2) hpart
    rw [writeRegistered_congr hpoller]
    exact hregistered (hclosed ▸ hopen)
  by_cases hquiet : c.Quiet = true
  · exact hkeep (quiet_keeps hquiet conn)
  · cases c with
    | handleWrite =>
        intro hopen
        have hsame : (stateOf ((handleWrite B env).run conn)).closed = conn.closed :=
          (Prod.mk.inj (offWork_connStatus.keeps_handleWrite conn)).2
        have hopen : conn.closed = false := hsame.symm.trans hopen
        exact (writeRegistered_handleWrite h.cache hanswers).mpr (Or.inl (hregistered hopen))
    | handleClose =>
        rcases run_handleClose conn with ⟨ch, p, hrun⟩
        rw [exec, hrun]
        intro hopen
        cases hopen
    | writeInLoop data =>
        rw [stateOf_exec_writeInLoop]
        exact hkeep (sendDirectly_keeps B env hrep (data.read mem))
    | cacheOutput data n =>
        rcases stateOf_exec_cacheOutput (B := B) cbs env hrep n hc with ⟨b, -, hstate⟩ | hsame
        · rw [hstate]
          intro hopen
          have hopen : conn.closed = false :=
            (closed_setWriteInterest { conn with writeCache := b } true).symm.trans hopen
          exact writeRegistered_setWriteInterest.mpr (Or.inl (hregistered hopen))
        · rw [hsame]
          exact hregistered
    | addChannel => cases hc
    | updateChannel => cases hc
    | closeCb =>
        rcases closeCb_keeps B cbs env mem conn with ⟨-, hclosed⟩
        intro hopen
        rw [hclosed, hclosing rfl] at hopen
        cases hopen
    | _ => exact absurd rfl hquiet

/-- A failed send leaves the cache as it is. -/
theorem handleWrite_drains_of_neg (hcache : conn.writeCache.Inv) (hneg : env.sendRet < 0) :
    (∃ calls c, (handleWrite B env).run conn = .ok calls c ∧ c.writeCache.content = []) ↔
      Drains B conn env := by
  rcases run_handleWrite_failed (B := B) hcache.represents hneg with ⟨calls, hrun⟩
  have hsame : ((if env.errno = eagain then conn.setWriteInterest true else conn).sentOf env
      conn.writeCache.toFifo.content).writeCache = conn.writeCache := by
    rw [writeCache_sentOf]
    split
    · exact writeCache_setWriteInterest conn true
    · rfl
  rw [Drains, hrun]
  constructor
  · rintro ⟨calls', c, heq, hempty⟩
    cases heq
    rw [hsame] at hempty
    exact Or.inl ⟨hneg, hempty⟩
  · rintro (⟨-, hempty⟩ | ⟨hpos, -⟩)
    · exact ⟨_, _, rfl, by rw [hsame]; exact hempty⟩
    · exact absurd hneg (Int.not_lt.mpr hpos)

/-- The condition, for a send that accepted `k` bytes. -/
theorem drains_of_sent {k : Nat} (hret : env.sendRet = k) :
    Drains B conn env ↔ conn.writeCache.content.length ≤ 2 * k ∧
      (B = .debug → conn.writeCache.content.length = 2 * k) := by
  rw [Drains, hret]
  constructor
  · rintro (⟨hneg, -⟩ | ⟨-, hshort, hdebug⟩)
    · exact absurd hneg (Int.not_lt.mpr (Int.natCast_nonneg k))
    · refine ⟨by omega, fun hB => ?_⟩
      have heq := hdebug hB
      omega
  · rintro ⟨hshort, hdebug⟩
    refine Or.inr ⟨Int.natCast_nonneg k, by omega, fun hB => ?_⟩
    have heq := hdebug hB
    omega

/-- When `handle_write` returns with an empty cache. -/
theorem handleWrite_drains_iff (hcache : conn.writeCache.Inv)
    (hanswers : ∀ r ∈ env.sent, r ≤ conn.writeCache.content.length) :
    (∃ calls c, (handleWrite B env).run conn = .ok calls c ∧ c.writeCache.content = []) ↔
      Drains B conn env := by
  rcases Int.lt_or_le env.sendRet 0 with hneg | hnonneg
  · exact handleWrite_drains_of_neg hcache hneg
  · rcases exists_of_sendRet_nonneg hnonneg with ⟨r, hr, k, hk, hret⟩
    have hle : k ≤ conn.writeCache.content.length := Nat.le_trans hk (hanswers r hr)
    rcases run_handleWrite_sent (B := B) hcache.represents hret hle with ⟨b, hb, hrun⟩
    let c₁ : Connection :=
      { (if k < conn.writeCache.toFifo.content.length then conn.setWriteInterest true
          else conn).sentOf env conn.writeCache.toFifo.content with writeCache := b }
    have hb₁ : c₁.writeCache.Represents (conn.writeCache.toFifo.pop k) := hb
    have hleft : (conn.writeCache.toFifo.pop k).content.length =
        conn.writeCache.content.length - k := List.length_drop
    rw [drains_of_sent hret, hrun]
    rcases discardAgain_cases B hb₁ k with ⟨hlt, hB, hagain⟩ | ⟨hle, b', hb', hagain⟩
    · rw [hagain]
      refine iff_of_false ?_ ?_
      · rintro ⟨calls, c, heq, -⟩
        cases heq
      · rintro ⟨-, hdebug⟩
        have heq := hdebug hB
        omega
    · -- Behind the second discard `2 * k` bytes are gone.
      have hlen : b'.content.length = conn.writeCache.content.length - (k + k) := by
        rw [hb'.content_eq, ByteFifo.pop_pop, ByteFifo.content_pop]
        exact List.length_drop
      rw [hagain]
      constructor
      · rintro ⟨calls', c, heq, hempty⟩
        cases heq
        have hzero : b'.content.length = 0 := by rw [hempty, List.length_nil]
        refine ⟨by omega, fun hB => ?_⟩
        have hle := hle hB
        omega
      · rintro ⟨hshort, -⟩
        refine ⟨_, _, rfl, List.eq_nil_of_length_eq_zero ?_⟩
        show b'.content.length = 0
        omega

end Connection

/-! ## Runs -/

namespace Loop

open Connection

variable {S : Setup} {mem : Nat → Byte} {s s' : Loop} {a : Act}

theorem flushInv_step (h : s.DispatchInv FlushInv mem) (hs : s.step S mem a = some s') :
    s'.DispatchInv FlushInv mem := by
  refine h.step offDispatch_flushInv ?_ hs
  rintro env rfl c - hin hclosing hanswers
  exact h.conn.exec hin hclosing hanswers

/-- A connection with nothing to send, between two dispatches. -/
structure Drained (s : Loop) : Prop extends Reading s where
  empty : s.conn.writeCache.content = []
  notInProgress : s.conn.channle.progressInWrite = false

theorem Drained.flushInv (h : s.Drained) : s.DispatchInv FlushInv mem := by
  apply h.toReading.dispatchInv
  refine { cache := h.cache, registered := ?_, inProgress := ?_, waiting := ?_ }
  · intro _
    rcases h.registered with ⟨m, hm, -⟩
    exact ⟨m, hm⟩
  · intro _ hprogress
    simp [h.notInProgress] at hprogress
  · intro _ hne
    exact absurd h.empty hne

theorem flushInv_run {as : List Act} (h : s.Drained) (hrun : run (step S mem) s as = some s') :
    s'.DispatchInv FlushInv mem :=
  invariant_run (fun _ _ _ h hs => flushInv_step h hs) h.flushInv hrun

/-- No write stalls: at every point of a run, while the connection is open and bytes wait in its
write cache, `EPOLLOUT` is registered for it. -/
theorem writeRegistered_of_run {as : List Act} (h : s.Drained)
    (hrun : run (step S mem) s as = some s') (hopen : s'.conn.closed = false)
    (hwaiting : s'.conn.writeCache.content ≠ []) : s'.conn.WriteRegistered :=
  (flushInv_run h hrun).conn.waiting hopen hwaiting

/-- The kernel is full for the first bytes, and takes them when it reports that it can. -/
def flushLater : List Act :=
  [.writeInLoop ⟨[3, 1, 4], by decide⟩, .call { sent := none, errno := eagain }, .call {},
    .poll epollOut, .processWork, .call {}, .call {}, .call {}, .call {}]

theorem drained_startedLoop : startedLoop.Drained :=
  { reading_startedLoop with
    empty := by decide +kernel
    notInProgress := rfl }

theorem writeRegistered_of_run_flushLater :
    ∃ s, run (step debugSetup fun _ => 0) startedLoop flushLater = some s ∧
      s.conn.writeCache.content = [3, 1, 4] ∧ s.conn.channle.progressInWrite = false ∧
      s.conn.WriteRegistered := by
  have hany : (run (step debugSetup fun _ => 0) startedLoop flushLater).any (fun s =>
      decide (s.conn.writeCache.content = [3, 1, 4] ∧ s.conn.channle.progressInWrite = false ∧
        s.conn.closed = false)) = true := by
    decide +kernel
  rcases exists_run_of_any hany with ⟨s, hrun, hcache, hprogress, hopen⟩
  refine ⟨s, hrun, hcache, hprogress, ?_⟩
  apply writeRegistered_of_run drained_startedLoop hrun hopen
  simp [hcache]

/-! ## The interest is not taken back -/

instance (conn : Connection) : Decidable conn.WriteRegistered :=
  decidable_of_iff (conn.poller.registered.any (meets · epollOut) = true)
    (Option.any_eq_true _ _)

/-- A step that is a completed `handle_write` and leaves the cache empty leaves no `EPOLLOUT`. -/
def WithdrawsWrite (S : Setup) (mem : Nat → Byte) (s : Loop) : Act → Prop
  | .call env =>
      s.stack.head? = some .handleWrite → (s.call S mem env).fault = none →
        (s.call S mem env).conn.writeCache.content = [] →
          ¬ (s.call S mem env).conn.WriteRegistered
  | _ => True

/-- A `handle_write` that will empty the cache finds no `EPOLLOUT` registered, and registers
none. -/
def DrainsUnregistered (S : Setup) (s : Loop) : Act → Prop
  | .call env =>
      s.stack.head? = some .handleWrite → Drains S.build s.conn env → ¬ RegistersWrite s.conn env
  | _ => True

instance (B : Build) (conn : Connection) (env : Env) : Decidable (Drains B conn env) :=
  inferInstanceAs (Decidable (_ ∨ _ ∧ _ ∧ (_ → _)))

instance (conn : Connection) (env : Env) : Decidable (RegistersWrite conn env) :=
  decidable_of_iff
    (conn.WriteRegistered ∨ ReArms conn env .handleWrite ∧ conn.poller.registered.isSome = true)
    (by rw [RegistersWrite, Option.isSome_iff_exists])

instance (S : Setup) (s : Loop) : (a : Act) → Decidable (s.DrainsUnregistered S a)
  | .call _ => inferInstanceAs (Decidable (_ → _ → ¬ _))
  | .poll _ | .processWork | .writeInLoop _ | .user _ => inferInstanceAs (Decidable True)

instance (S : Setup) (mem : Nat → Byte) (s : Loop) :
    (a : Act) → Decidable (s.WithdrawsWrite S mem a)
  | .call _ => inferInstanceAs (Decidable (_ → _ → _ → ¬ _))
  | .poll _ | .processWork | .writeInLoop _ | .user _ => inferInstanceAs (Decidable True)

theorem withdrawsWrite_iff (h : s.DispatchInv FlushInv mem) (hs : s.step S mem a = some s') :
    s.WithdrawsWrite S mem a ↔ s.DrainsUnregistered S a := by
  rcases step_eq_some.mp hs with ⟨hen, -⟩
  cases a with
  | call env =>
      rcases hen.2.exists_cons with ⟨c, rest, hstack, -, hanswers⟩
      rw [WithdrawsWrite, DrainsUnregistered, call_cons hstack, hstack, List.head?_cons]
      refine forall_congr' fun hc => ?_
      obtain rfl : c = .handleWrite := Option.some.inj hc
      have hreg := writeRegistered_handleWrite (B := S.build) h.conn.cache hanswers
      have hdrains := handleWrite_drains_iff (B := S.build) h.conn.cache hanswers
      rw [← hreg, ← hdrains, conn_ofResult]
      have hexec : Connection.exec S.build S.cbs env mem .handleWrite =
          Connection.handleWrite S.build env := rfl
      rw [hexec]
      -- The step is completed exactly where `handle_write` returns.
      cases hrun : (Connection.handleWrite S.build env).run s.conn with
      | ok calls conn => simp [ofResult]
      | error e conn => simp [ofResult]
  | _ => exact Iff.rfl

/-- In a run of an initially drained connection every `handle_write` that empties the cache leaves no
`EPOLLOUT` registered exactly if each of them finds none and registers none. -/
theorem writeWithdrawn_iff {as : List Act} (h : s.Drained)
    (hrun : run (step S mem) s as = some s') :
    Along (step S mem) (WithdrawsWrite S mem) s as ↔
      Along (step S mem) (DrainsUnregistered S) s as :=
  along_congr (I := fun s => s.DispatchInv FlushInv mem) (fun _ _ _ h hs => flushInv_step h hs)
    (fun _ _ _ h hs => withdrawsWrite_iff h hs) h.flushInv hrun

/-- Once `EPOLLOUT` is registered it stays until the connection is closed: behind its first cached
bytes no `handle_write` of a connection meets the condition above. -/
theorem writeRegistered_stays {as : List Act} (h : s.DispatchInv FlushInv mem)
    (hregistered : s.conn.closed = false → s.conn.WriteRegistered)
    (hrun : run (step S mem) s as = some s') (hopen : s'.conn.closed = false) :
    s'.conn.WriteRegistered := by
  -- The invariant of the flushing, with the registration beside it.
  let J : Connection → Prop := fun conn =>
    conn.FlushInv ∧ (conn.closed = false → conn.WriteRegistered)
  have hJ : OffDispatch J :=
    { poll := fun _ events h => ⟨offDispatch_flushInv.poll _ events h.1, h.2⟩
      readCache := fun _ b h => ⟨offDispatch_flushInv.readCache _ b h.1, h.2⟩
      status := fun _ h => ⟨offDispatch_flushInv.status _ h.1, h.2⟩ }
  have hstep : ∀ (s : Loop) a s', s.DispatchInv J mem → s.step S mem a = some s' →
      s'.DispatchInv J mem := by
    intro s a s' h hs
    refine h.step hJ ?_ hs
    rintro env rfl c - hin hclosing hanswers
    refine ⟨h.conn.1.exec hin hclosing hanswers, ?_⟩
    exact exec_keeps_writeRegistered h.conn.1 h.conn.2 hin hclosing hanswers
  have hinv : s.DispatchInv J mem :=
    { conn := ⟨h.conn, hregistered⟩, calls := h.calls, closing := h.closing }
  exact (invariant_run hstep hinv hrun).conn.2 hopen

/-- The socket is reported writable while nothing was ever cached. -/
def writableWhileIdle : List Act :=
  [.poll epollOut, .processWork, .call {}, .call {}, .call {}, .call {}, .call { sent := some 0 }]

theorem writeWithdrawn_iff_writableWhileIdle :
    ∃ s, run (step debugSetup fun _ => 0) startedLoop writableWhileIdle = some s ∧
      s.conn.accepted = [] ∧
      Along (step debugSetup fun _ => 0) (WithdrawsWrite debugSetup fun _ => 0) startedLoop
        writableWhileIdle := by
  have hunregistered : Along (step debugSetup fun _ => 0) (DrainsUnregistered debugSetup) startedLoop
      writableWhileIdle := by
    decide +kernel
  have hany : (run (step debugSetup fun _ => 0) startedLoop writableWhileIdle).any (fun s =>
      decide (s.conn.accepted = [])) = true := by
    decide +kernel
  rcases exists_run_of_any hany with ⟨s, hrun, haccepted⟩
  exact ⟨s, hrun, haccepted, (writeWithdrawn_iff drained_startedLoop hrun).mpr hunregistered⟩

def releaseSetup : Setup :=
  { debugSetup with build := .release }

/-- All the cached bytes are sent, and `EPOLLOUT` stays registered for nothing. -/
theorem flushed_keeps_write_interest :
    ¬ ∀ (s : Loop) (as : List Act) (s' : Loop), s.Drained →
      run (step releaseSetup fun _ => 0) s as = some s' →
        Along (step releaseSetup fun _ => 0) (WithdrawsWrite releaseSetup fun _ => 0) s as := by
  intro h
  have hany : (run (step releaseSetup fun _ => 0) startedLoop
      (flushLater ++ [.call { sent := some 3 }])).any (fun s =>
        decide (s.conn.writeCache.content = [] ∧ s.conn.poller.registered =
          some (readMask ||| epollOut))) = true := by
    decide +kernel
  rcases exists_run_of_any hany with ⟨s, hrun, -, -⟩
  have hwithdraws := h _ _ _ drained_startedLoop hrun
  revert hwithdraws
  decide +kernel

end Loop

end Net
end Muradin
