import Muradin.Net.Connection.Interest

/-!
# Accounting — how many bytes wait in the write cache

The counts behind `write_in_loop` and `handle_write`, for any answers of `::send`:

* `run_writeInLoop` — what a write reports to the write callback and what it adds to the cache;
* `run_handleWrite` — what `handle_write` reports and what it takes from the cache.

From these follows when the bytes that were written are the bytes that were reported and the bytes
that wait (`balanced_iff`).
-/

namespace Muradin
namespace Net

open Lib Cpp Events

namespace Call

/-- The bytes that a call reports to the write callback. -/
def reportedBytes : Call → Nat
  | .writeCb _ bytes => bytes
  | _ => 0

/-- The bytes that these calls report to the write callback. -/
def reported (calls : List Call) : Nat :=
  (calls.map reportedBytes).sum

@[simp] theorem reported_nil : reported [] = 0 := rfl

@[simp] theorem reported_writeCb (err bytes : Nat) : reported [.writeCb err bytes] = bytes := by
  simp [reported, reportedBytes]

end Call

namespace Connection

variable {B : Build} {env : Env} {c : Connection} {q : ByteFifo} {data : List Byte}

/-! ## `write_in_loop` -/

/-- What a write of `n` bytes adds to a cache of `m` bytes, and the callbacks behind it. -/
def writeOutcome (env : Env) (m n : Nat) : Option Nat × List Call :=
  if 0 < m then (some n, []) else directSend env n

theorem run_sendDirectly (env : Env) (h : c.writeCache.Represents q) (data : List Byte) :
    ∃ c', (sendDirectly B env data).run c =
        .ok (writeOutcome env q.content.length data.length) c' ∧
      c'.writeCache = c.writeCache ∧ c'.written = c.written ++ data := by
  by_cases hq : q.content = []
  · refine ⟨({ c with written := c.written ++ data }).sentOf env data, ?_, rfl, rfl⟩
    rw [writeOutcome, if_neg (by simp [hq])]
    exact run_sendDirectly_direct env h hq data
  · refine ⟨{ c with written := c.written ++ data }, ?_, rfl, rfl⟩
    rw [writeOutcome, if_pos (List.length_pos_iff.mpr hq)]
    exact run_sendDirectly_behind env h hq data

/-- No more is cached than was written. -/
theorem writeOutcome_le (env : Env) (m n : Nat) : (writeOutcome env m n).1.getD 0 ≤ n := by
  unfold writeOutcome directSend
  split
  · exact Nat.le_refl n
  · split
    · split <;> simp
    · simp only
      split <;> simp

/-- A write makes its callbacks and caches what is left, or that is too much for the container. -/
theorem run_writeInLoop (env : Env) (h : c.writeCache.Represents q)
    (hmax : data.length ≤ CharVector.maxSize) :
    (∃ c', (writeInLoop B env data).run c =
        .ok (writeOutcome env q.content.length data.length).2 c' ∧ c'.writeCache.Inv ∧
      c'.writeCache.content.length =
        q.content.length + (writeOutcome env q.content.length data.length).1.getD 0 ∧
      c'.written = c.written ++ data) ∨
      ∃ n ∈ (writeOutcome env q.content.length data.length).1,
        CharVector.maxSize < n + c.writeCache.wtIndex ∧
        ∃ c', (writeInLoop B env data).run c = .error .lengthError c' ∧
          c'.writeCache = c.writeCache ∧ c'.written = c.written ++ data := by
  rcases run_sendDirectly (B := B) env h data with ⟨c₁, hrun, hcache, hwritten⟩
  have hrep : c₁.writeCache.Represents q := hcache ▸ h
  have hle := writeOutcome_le env q.content.length data.length
  rw [writeInLoop, run_bind_ok hrun]
  dsimp only
  cases hleft : (writeOutcome env q.content.length data.length).1 with
  | none =>
      left
      refine ⟨c₁, rfl, hrep.toInv, ?_, hwritten⟩
      rw [hrep.content_eq]
      rfl
  | some n =>
      rw [hleft, Option.getD_some] at hle
      have hlen : (data.take n).length = n := List.length_take_of_le hle
      have hmax' : (data.take n).length ≤ CharVector.maxSize := by
        rw [hlen]
        exact Nat.le_trans hle hmax
      dsimp only
      rcases cacheOutput_spec (B := B) hrep hmax' with ⟨b, hb, hcached⟩ | ⟨hthrow, hlarge⟩
      · left
        have hcache' : ({ c₁ with writeCache := b }.setWriteInterest true).writeCache = b :=
          writeCache_setWriteInterest _ true
        refine ⟨_, by rw [run_bind_ok hcached]; rfl, ?_, ?_, ?_⟩
        · rw [hcache']
          exact hb.toInv
        · rw [hcache', hb.content_eq, ByteFifo.content_push, List.length_append, hlen,
            Option.getD_some]
        · rw [written_setWriteInterest]
          exact hwritten
      -- `append` found no memory, and nothing was cached.
      · rw [hlen, hcache] at hlarge
        exact Or.inr ⟨n, rfl, hlarge, c₁, by rw [run_bind_error hthrow], hcache, hwritten⟩

/-- The bytes of a write are reported or cached, unless its direct send fails for good, which an
`int` also says of a count that does not fit. -/
theorem writeOutcome_counts {m n : Nat} (hanswers : SendAnswers env n) :
    Call.reported (writeOutcome env m n).2 + (writeOutcome env m n).1.getD 0 = n ↔
      (m = 0 → 0 ≤ env.sendRet ∨ env.errno = eagain) := by
  unfold writeOutcome
  split
  · exact iff_of_true (by simp) (by omega)
  · rename_i hm
    have hm : m = 0 := by omega
    simp only [hm, true_imp_iff, directSend]
    rcases Int.lt_or_le env.sendRet 0 with hneg | hnonneg
    · simp only [if_pos hneg, Int.not_le.mpr hneg, false_or]
      split
      · rename_i hagain
        exact iff_of_true (by simp) hagain
      · -- Nothing is cached for a send that seems to have failed.
        rename_i hother
        refine iff_of_false ?_ hother
        intro hzero
        have hzero : n = 0 := by simpa using hzero.symm
        cases hsent : env.sent with
        | none => exact hother (hanswers.2 hsent)
        | some r =>
            have hr : r = 0 := Nat.le_zero.mp (hzero ▸ hanswers.1 r hsent)
            rw [Env.sendRet, hsent, hr] at hneg
            exact absurd hneg (by decide)
    · refine iff_of_true ?_ (Or.inl hnonneg)
      -- A count that fits an `int`: what was not sent is cached.
      rcases exists_of_sendRet_nonneg hnonneg with ⟨r, hr, k, hk, hret⟩
      have hle : k ≤ n := Nat.le_trans hk (hanswers.1 r hr)
      rw [if_neg (Int.not_lt.mpr hnonneg), hret, Int.toNat_natCast]
      have hreported : Call.reported (if 0 < (k : Int) then [.writeCb 0 k] else []) = k := by
        split
        · exact Call.reported_writeCb 0 k
        · rw [Call.reported_nil]
          omega
      have hleft : (if k < n then some (n - k) else none).getD 0 = n - k := by
        split
        · rfl
        · rw [Option.getD_none]
          omega
      show Call.reported (if 0 < (k : Int) then [.writeCb 0 k] else []) +
        (if k < n then some (n - k) else none).getD 0 = n
      rw [hreported, hleft]
      omega

/-! ## `handle_write` -/

/-- A failed send of the cache reports no bytes and takes none. -/
theorem run_handleWrite_of_neg (h : c.writeCache.Represents q) (hret : env.sendRet < 0) :
    ∃ calls c', (handleWrite B env).run c = .ok calls c' ∧ Call.reported calls = 0 ∧
      c'.writeCache = c.writeCache ∧ c'.written = c.written := by
  rw [handleWrite, run_bind_ok (run_readable h), run_bind_ok (EStateM.run_get c),
    load_readable h, run_bind_ok (run_orThrow_ok _ _), run_bind_ok (run_send c _), if_pos hret]
  split
  · refine ⟨[], _, by rw [run_bind_ok (run_enableWrite _ true)]; rfl, rfl, ?_, ?_⟩
    · exact writeCache_setWriteInterest _ true
    · exact written_setWriteInterest _ true
  · exact ⟨_, _, rfl, Call.reported_writeCb _ 0, rfl, rfl⟩

/-- A send of `k` bytes is reported once and discarded twice; where fewer than `k` bytes are left
for the second discard its assertion fails. -/
theorem run_handleWrite_of_sent (h : c.writeCache.Represents q) {k : Nat} (hret : env.sendRet = k)
    (hk : k ≤ q.content.length) :
    (q.content.length < 2 * k ∧ B = .debug ∧
        ∃ c', (handleWrite B env).run c = .error .assertion c' ∧ c'.writeCache.Inv) ∨
      (B = .debug → 2 * k ≤ q.content.length) ∧
        ∃ calls c', (handleWrite B env).run c = .ok calls c' ∧ Call.reported calls = k ∧
          c'.writeCache.Inv ∧ c'.writeCache.content.length = q.content.length - 2 * k ∧
          c'.written = c.written := by
  rcases run_handleWrite_sent (B := B) h hret hk with ⟨b, hb, hrun⟩
  let c₁ : Connection :=
    { (if k < q.content.length then c.setWriteInterest true else c).sentOf env q.content with
      writeCache := b }
  have hb₁ : c₁.writeCache.Represents (q.pop k) := hb
  have hwritten : c₁.written = c.written := by
    show ((if k < q.content.length then c.setWriteInterest true else c).sentOf env
      q.content).written = c.written
    rw [written_sentOf]
    split
    · exact written_setWriteInterest c true
    · rfl
  have hleft : (q.pop k).content.length = q.content.length - k := List.length_drop
  -- Behind both discards `2 * k` bytes are gone.
  have htwice : ∀ b' : ByteBuffer, b'.Represents ((q.pop k).pop k) →
      b'.content.length = q.content.length - 2 * k := by
    intro b' hb'
    rw [hb'.content_eq, ByteFifo.pop_pop, ← Nat.two_mul]
    exact List.length_drop
  rw [hrun]
  rcases discardAgain_cases B hb₁ k with ⟨hlt, hB, hagain⟩ | ⟨hle, b', hb', hagain⟩
  · left
    exact ⟨by omega, hB, c₁, hagain, hb.toInv⟩
  · right
    refine ⟨fun hB => ?_, _, _, hagain, ?_, hb'.toInv, htwice b' hb', hwritten⟩
    · have hle := hle hB
      omega
    · split
      · exact Call.reported_writeCb 0 k
      · rw [Call.reported_nil]
        omega

end Connection

/-! ## Runs of `write_in_loop` and `handle_write` -/

namespace Output

/-- The function that a step calls. -/
def exec (B : Build) : Act → Method Connection (List Call)
  | .writeInLoop data env => Connection.writeInLoop B env data.1
  | .handleWrite env => Connection.handleWrite B env

theorem next_eq (B : Build) (s : Output) (a : Act) :
    s.next B a = ofResult ((exec B a).run s.conn) := by
  cases a <;> rfl

end Output

/-- A connection on its loop thread, and what its write callback was told. -/
structure Accounting where
  output : Output
  /-- the sum of the counts that were reported -/
  reported : Nat
  /-- an assertion of `discard` failed, or would have failed in a Debug build -/
  discardFailed : Bool

namespace Accounting

open Connection

/-- What a call that returned has reported. -/
def reportedBy : EStateM.Result Fault Connection (List Call) → Nat
  | .ok calls _ => Call.reported calls
  | .error _ _ => 0

def asserts : EStateM.Result Fault Connection (List Call) → Bool
  | .error .assertion _ => true
  | _ => false

def next (B : Build) (s : Accounting) (a : Output.Act) : Accounting :=
  { output := s.output.next B a
    reported := s.reported + reportedBy ((Output.exec B a).run s.output.conn)
    discardFailed :=
      s.discardFailed || asserts ((Output.exec .debug a).run s.output.conn) }

def step (B : Build) (s : Accounting) (a : Output.Act) : Option Accounting :=
  if s.output.Enabled a then some (s.next B a) else none

/-- The last bytes written are neither reported nor cached: they are too many for the container. -/
def OutOfMemory (s : Accounting) : Prop :=
  ∃ rest, s.output.conn.written.length =
      s.reported + s.output.conn.writeCache.content.length + rest ∧
    CharVector.maxSize < rest + s.output.conn.writeCache.wtIndex

/-- The bytes written are the bytes reported and the bytes that wait, but for a write that ends the
run for want of memory, and every `discard` found the bytes that it was to drop. -/
def Balanced (s : Accounting) : Prop :=
  (s.output.fault = some .lengthError ∧ s.OutOfMemory ∨
    s.output.conn.written.length = s.reported + s.output.conn.writeCache.content.length) ∧
    s.discardFailed = false

/-- `handle_write` sends nothing, and no direct send is taken for a failed one. -/
def CountsKept (s : Accounting) : Output.Act → Prop
  | .writeInLoop _ env =>
      s.output.conn.writeCache.content.length = 0 → 0 ≤ env.sendRet ∨ env.errno = eagain
  | .handleWrite env => env.sendRet ≤ 0

variable {B : Build} {s s' : Accounting} {a : Output.Act}

theorem step_eq_some : s.step B a = some s' ↔ s.output.Enabled a ∧ s.next B a = s' := by
  simp [step]

/-- A run that goes on has its cache in the documented layout. -/
def CacheInv (s : Accounting) : Prop :=
  s.output.fault = none → s.output.conn.writeCache.Inv

/-- Before anything was reported. -/
def unreported (c : Connection) : Accounting :=
  { output := { conn := c, fault := none }, reported := 0, discardFailed := false }

instance (s : Accounting) : (a : Output.Act) → Decidable (s.CountsKept a)
  | .writeInLoop _ _ => inferInstanceAs (Decidable (_ → _ ∨ _))
  | .handleWrite _ => inferInstanceAs (Decidable (_ ≤ _))

/-- The state behind a call that returned. -/
theorem next_of_ok {calls : List Call} {c' : Connection}
    (h : (Output.exec B a).run s.output.conn = .ok calls c') :
    s.next B a =
      { output := { conn := c', fault := none }
        reported := s.reported + Call.reported calls
        discardFailed := s.discardFailed || asserts ((Output.exec .debug a).run s.output.conn) } := by
  rw [next, Output.next_eq, h]
  rfl

theorem next_of_error {e : Fault} {c' : Connection}
    (h : (Output.exec B a).run s.output.conn = .error e c') :
    s.next B a =
      { output := { conn := c', fault := some e }
        reported := s.reported
        discardFailed := s.discardFailed || asserts ((Output.exec .debug a).run s.output.conn) } := by
  rw [next, Output.next_eq, h]
  rfl

theorem CacheInv.step (h : s.CacheInv) (hs : s.step B a = some s') : s'.CacheInv := by
  rcases step_eq_some.mp hs with ⟨hen, rfl⟩
  cases a with
  | writeInLoop data env =>
      have hrep := (h hen.1).represents
      -- A write that throws ends the run.
      rcases run_writeInLoop (B := B) env hrep data.2 with ⟨c', hrun, hinv, -⟩ | ⟨-, -, -, c', hrun, -⟩
      · rw [next_of_ok (a := .writeInLoop data env) hrun]
        exact fun _ => hinv
      · rw [next_of_error (a := .writeInLoop data env) hrun]
        exact (nomatch ·)
  | handleWrite env =>
      have hrep := (h hen.1).represents
      rcases Int.lt_or_le env.sendRet 0 with hneg | hnonneg
      · rcases run_handleWrite_of_neg (B := B) hrep hneg with ⟨calls, c', hrun, -, hcache, -⟩
        rw [next_of_ok (a := .handleWrite env) hrun]
        exact fun _ => hcache ▸ h hen.1
      · rcases exists_of_sendRet_nonneg hnonneg with ⟨r, hr, k, hk, hret⟩
        have hle : k ≤ s.output.conn.writeCache.toFifo.content.length :=
          Nat.le_trans hk (hen.2.1 r hr)
        rcases run_handleWrite_of_sent (B := B) hrep hret hle with
          ⟨-, -, c', hrun, -⟩ | ⟨-, calls, c', hrun, -, hinv, -⟩
        · rw [next_of_error (a := .handleWrite env) hrun]
          exact (nomatch ·)
        · rw [next_of_ok (a := .handleWrite env) hrun]
          exact fun _ => hinv

/-- The step lemma for a write. -/
theorem writeInLoop_next {data : Block} {env : Env} (h : s.output.conn.writeCache.Inv)
    (hanswers : SendAnswers env data.1.length)
    (hbytes : s.output.conn.written.length =
      s.reported + s.output.conn.writeCache.content.length)
    (hdiscard : s.discardFailed = false) :
    (s.next B (.writeInLoop data env)).Balanced ↔ s.CountsKept (.writeInLoop data env) := by
  have hrep := h.represents
  have hkept : s.CountsKept (.writeInLoop data env) ↔ _ :=
    (writeOutcome_counts (m := s.output.conn.writeCache.toFifo.content.length) hanswers).symm
  -- Neither build asserts anything that could fail.
  have hasserts : asserts ((Output.exec .debug (.writeInLoop data env)).run s.output.conn) =
      false := by
    show asserts ((Connection.writeInLoop .debug env data.1).run s.output.conn) = false
    rcases run_writeInLoop (B := .debug) env hrep data.2 with ⟨c', hrun, -⟩ | ⟨-, -, -, c', hrun, -⟩
    · rw [hrun]
      rfl
    · rw [hrun]
      rfl
  rcases run_writeInLoop (B := B) env hrep data.2 with
    ⟨c', hrun, -, hlen, hwritten⟩ | ⟨n, hleft, hlarge, c', hrun, hcache, hwritten⟩
  · have hrun : (Output.exec B (.writeInLoop data env)).run s.output.conn = .ok _ c' := hrun
    rw [next_of_ok hrun, hkept]
    simp only [Balanced, hwritten, hlen, hasserts, hdiscard, List.length_append, hbytes,
      Bool.or_false, and_true, reduceCtorEq, false_and, false_or]
    have hsame : s.output.conn.writeCache.toFifo.content.length =
        s.output.conn.writeCache.content.length := rfl
    omega
  · have hrun : (Output.exec B (.writeInLoop data env)).run s.output.conn =
        .error .lengthError c' := hrun
    rw [next_of_error hrun]
    refine iff_of_true ⟨Or.inl ⟨rfl, data.1.length, ?_, ?_⟩, ?_⟩ ?_
    · show c'.written.length = s.reported + c'.writeCache.content.length + data.1.length
      rw [hwritten, hcache, List.length_append, hbytes]
    · have hle := writeOutcome_le env s.output.conn.writeCache.toFifo.content.length data.1.length
      rw [Option.mem_def.mp hleft, Option.getD_some] at hle
      show CharVector.maxSize < data.1.length + c'.writeCache.wtIndex
      rw [hcache]
      omega
    · rw [hdiscard, hasserts]
      rfl
    · intro hempty
      -- Only what is cached can be too large.
      by_contra hnot
      have hneg : env.sendRet < 0 := Int.not_le.mp fun hle => hnot (Or.inl hle)
      have hother : env.errno ≠ eagain := fun heq => hnot (Or.inr heq)
      have hzero : ¬ 0 < s.output.conn.writeCache.toFifo.content.length := by
        show ¬ 0 < s.output.conn.writeCache.content.length
        omega
      rw [writeOutcome, if_neg hzero, directSend, if_pos hneg, if_neg hother] at hleft
      cases hleft

/-- A failed send of `handle_write` changes no count. -/
theorem handleWrite_next_of_neg {env : Env} (h : s.output.conn.writeCache.Inv)
    (hneg : env.sendRet < 0)
    (hbytes : s.output.conn.written.length =
      s.reported + s.output.conn.writeCache.content.length)
    (hdiscard : s.discardFailed = false) : (s.next B (.handleWrite env)).Balanced := by
  rcases run_handleWrite_of_neg (B := .debug) h.represents hneg with ⟨_, _, hdebug, -, -, -⟩
  rcases run_handleWrite_of_neg (B := B) h.represents hneg with
    ⟨calls, c', hrun, hreported, hcache, hwritten⟩
  have hdebug : (Output.exec .debug (.handleWrite env)).run s.output.conn = .ok _ _ := hdebug
  have hrun : (Output.exec B (.handleWrite env)).run s.output.conn = .ok calls c' := hrun
  rw [next_of_ok hrun, hdebug]
  refine ⟨Or.inr ?_, ?_⟩
  · rw [hwritten, hcache, hreported]
    exact hbytes
  · rw [hdiscard]
    rfl

/-- The step lemma for `handle_write`. -/
theorem handleWrite_next {env : Env} (h : s.output.conn.writeCache.Inv)
    (hanswers : SendAnswers env s.output.conn.writeCache.content.length)
    (hbytes : s.output.conn.written.length =
      s.reported + s.output.conn.writeCache.content.length)
    (hdiscard : s.discardFailed = false) :
    (s.next B (.handleWrite env)).Balanced ↔ s.CountsKept (.handleWrite env) := by
  have hrep := h.represents
  rw [CountsKept]
  rcases Int.lt_or_le env.sendRet 0 with hneg | hnonneg
  · exact iff_of_true (handleWrite_next_of_neg h hneg hbytes hdiscard) (Int.le_of_lt hneg)
  · rcases exists_of_sendRet_nonneg hnonneg with ⟨r, hr, k, hk, hret⟩
    have hle : k ≤ s.output.conn.writeCache.toFifo.content.length :=
      Nat.le_trans hk (hanswers.1 r hr)
    have hlen : s.output.conn.writeCache.toFifo.content.length =
        s.output.conn.writeCache.content.length := rfl
    have hzero : env.sendRet ≤ 0 ↔ k = 0 := by
      rw [hret]
      omega
    rw [hzero]
    have hdebug := run_handleWrite_of_sent (B := .debug) hrep hret hle
    rcases run_handleWrite_of_sent (B := B) hrep hret hle with
      ⟨hshort, -, c', hrun, -⟩ | ⟨hlong, calls, c', hrun, hreported, -, hlen', hwritten⟩
    · -- A Debug build aborts.
      have hrun : (Output.exec B (.handleWrite env)).run s.output.conn =
          .error .assertion c' := hrun
      rw [next_of_error hrun]
      refine iff_of_false ?_ (by omega)
      rintro ⟨-, hkept⟩
      rcases hdebug with ⟨-, -, c'', hfail, -⟩ | ⟨hlong, -⟩
      · have hfail : (Output.exec .debug (.handleWrite env)).run s.output.conn =
            .error .assertion c'' := hfail
        rw [hfail] at hkept
        simp [asserts] at hkept
      · have := hlong rfl
        omega
    · have hrun : (Output.exec B (.handleWrite env)).run s.output.conn = .ok calls c' := hrun
      rw [next_of_ok hrun]
      rcases hdebug with ⟨hshort, -, c'', hfail, -⟩ | ⟨hlong', calls', c'', hfine, -⟩
      · -- A Release build goes on where a Debug build aborts.
        have hfail : (Output.exec .debug (.handleWrite env)).run s.output.conn =
            .error .assertion c'' := hfail
        rw [hfail]
        refine iff_of_false ?_ (by omega)
        rintro ⟨-, hkept⟩
        simp [asserts] at hkept
      · have hfine : (Output.exec .debug (.handleWrite env)).run s.output.conn =
            .ok calls' c'' := hfine
        have hshort := hlong' rfl
        rw [hfine]
        simp only [Balanced, hwritten, hlen', hreported, hdiscard, asserts, Bool.or_false, and_true,
          reduceCtorEq, false_and, false_or, hbytes]
        omega

/-- A step keeps the balance exactly if it keeps the counts. -/
theorem balanced_step (hinv : s.CacheInv) (h : s.Balanced) (hs : s.step B a = some s') :
    s'.Balanced ↔ s.CountsKept a := by
  rcases step_eq_some.mp hs with ⟨hen, rfl⟩
  have hfault : s.output.fault = none := by
    cases a with
    | writeInLoop data env => exact hen.1
    | handleWrite env => exact hen.1
  rcases h with ⟨⟨hthrow, -⟩ | hbytes, hdiscard⟩
  · rw [hfault] at hthrow
    cases hthrow
  · cases a with
    | writeInLoop data env => exact writeInLoop_next (hinv hfault) hen.2 hbytes hdiscard
    | handleWrite env => exact handleWrite_next (hinv hfault) hen.2 hbytes hdiscard

/-- At every point of a run the bytes that were written are the bytes that were reported and the
bytes that wait, with no failed assertion of `discard`, exactly if `handle_write` never sends
anything and no direct send of more than an `int` holds is taken for a failed one. -/
theorem balanced_iff {c : Connection} (hc : Output.Unwritten c) {as : List Output.Act}
    (hrun : run (step B) (unreported c) as = some s) :
    (∀ bs t, bs <+: as → run (step B) (unreported c) bs = some t → t.Balanced) ↔
      Along (step B) CountsKept (unreported c) as := by
  refine prefixes_iff_along (I := CacheInv) (fun _ _ _ h hs => h.step hs)
    (fun _ _ _ hinv h hs => balanced_step hinv h hs) ?_ ?_ hrun
  · intro _
    rcases hc.intact with ⟨q, hrep, -⟩
    exact hrep.toInv
  · rcases hc.intact with ⟨q, hrep, hbytes⟩
    refine ⟨Or.inr ?_, rfl⟩
    have hcontent : c.writeCache.content = [] := by
      have heq := hc.intact.accepted_append
      rw [hc.accepted, hc.written] at heq
      exact heq
    show c.written.length = 0 + c.writeCache.content.length
    rw [hc.written, hcontent, List.length_nil]

/-- Two writes that the kernel does not take at once. -/
def cachedWrites : List Output.Act :=
  [.writeInLoop ⟨[2, 7, 1], by decide⟩ { sent := some 1 }, .writeInLoop ⟨[8], by decide⟩ {},
    .handleWrite { sent := none, errno := eagain }, .handleWrite { sent := some 0 }]

theorem balanced_iff_cachedWrites :
    ∃ s, run (step .debug) (unreported newConnection) cachedWrites = some s ∧ s.reported = 1 ∧
      s.output.conn.writeCache.content.length = 3 ∧
      ∀ bs t, bs <+: cachedWrites → run (step .debug) (unreported newConnection) bs = some t →
        t.Balanced := by
  have hkept : Along (step .debug) CountsKept (unreported newConnection) cachedWrites := by
    decide +kernel
  have hany : (run (step .debug) (unreported newConnection) cachedWrites).any (fun s =>
      decide (s.reported = 1 ∧ s.output.conn.writeCache.content.length = 3)) = true := by
    decide +kernel
  rcases exists_run_of_any hany with ⟨s, hrun, hreported, hlen⟩
  exact ⟨s, hrun, hreported, hlen, (balanced_iff Output.unwritten_newConnection hrun).mpr hkept⟩

/-- Two of three cached bytes are sent: the second discard finds one byte, and a Debug build
aborts. -/
theorem partial_flush_aborts :
    ∃ s, run (step .debug) (unreported newConnection)
        [.writeInLoop ⟨[2, 7, 1], by decide⟩ { sent := none, errno := eagain },
          .handleWrite { sent := some 2 }] = some s ∧
      s.output.fault = some .assertion ∧ s.discardFailed = true ∧ s.reported = 0 ∧
      s.output.conn.written.length = 3 ∧ s.output.conn.writeCache.content.length = 1 := by
  have hany : (run (step .debug) (unreported newConnection)
      [.writeInLoop ⟨[2, 7, 1], by decide⟩ { sent := none, errno := eagain },
        .handleWrite { sent := some 2 }]).any (fun s =>
      decide (s.output.fault = some .assertion ∧ s.discardFailed = true ∧ s.reported = 0 ∧
        s.output.conn.written.length = 3 ∧ s.output.conn.writeCache.content.length = 1)) = true := by
    decide +kernel
  exact exists_run_of_any hany

end Accounting

end Net
end Muradin
