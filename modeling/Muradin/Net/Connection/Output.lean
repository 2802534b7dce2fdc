import Muradin.Net.Connection.Frame

/-!
# Output — what the peer is sent

`Intact c`: the bytes that the socket accepted, followed by the readable bytes of the write cache,
are the bytes that were passed to `write_in_loop`.  Both ways out of `write_in_loop` and
`handle_write` are meant to keep it, and two of them do not:

* behind a direct send of `r` bytes the first `len - r` bytes are cached, not the last;
* `handle_write` discards what was sent twice.
-/

namespace Muradin
namespace Net

open Lib Cpp Events

namespace ByteBuffer

variable {b : ByteBuffer} {q : ByteFifo} {B : Build}

/-- `discard(bytes)` on more bytes than there are: the assertion of a Debug build fails, .. -/
theorem Represents.run_discard_debug (h : b.Represents q) {n : Nat} (hn : q.content.length < n) :
    (discard .debug n).run b = .error .assertion b := by
  rw [discard, run_bind_ok h.run_readableBytes]
  exact run_bind_error (run_cassert_debug (Nat.not_le.mpr hn) b)

/-- .. and a Release build empties the buffer. -/
theorem Represents.discard_release_spec (h : b.Represents q) {n : Nat}
    (hn : q.content.length < n) :
    Yields (discard .release n) b (q.pop n) (q.pop n).content.length := by
  have hclear : q.pop n = q.clear := ByteFifo.pop_of_length_le (Nat.le_of_lt hn)
  rcases h.discardAll_spec with ⟨b', hrun, hrep⟩
  refine ⟨b', ?_, by rwa [hclear]⟩
  rw [discard, run_bind_ok h.run_readableBytes, run_bind_ok (run_cassert_release b),
    if_pos (Nat.le_of_lt hn), run_bind_ok hrun, hrep.run_readableBytes, hclear]

end ByteBuffer

namespace Connection

variable {B : Build} {env : Env} {c : Connection} {q : ByteFifo}

/-! ## The write cache -/

theorem run_onWriteCache {α : Type} {m : Method ByteBuffer α} {a : α} {b : ByteBuffer}
    (h : m.run c.writeCache = .ok a b) :
    (onWriteCache m).run c = .ok a { c with writeCache := b } :=
  run_onField_ok h

theorem run_onWriteCache_error {α : Type} {m : Method ByteBuffer α} {e : Fault} {b : ByteBuffer}
    (h : m.run c.writeCache = .error e b) :
    (onWriteCache m).run c = .error e { c with writeCache := b } :=
  run_onField_error h

theorem run_readable (h : c.writeCache.Represents q) :
    (onWriteCache (ByteBuffer.readableBytes B)).run c = .ok q.content.length c :=
  run_onWriteCache h.run_readableBytes

/-- `cacheOutput` pushes the bytes and asks for write events, or has no memory for them. -/
theorem cacheOutput_spec (h : c.writeCache.Represents q) {data : List Byte}
    (hmax : data.length ≤ CharVector.maxSize) :
    (∃ b, b.Represents (q.push data) ∧
      (cacheOutput B data).run c = .ok () ({ c with writeCache := b }.setWriteInterest true)) ∨
      (cacheOutput B data).run c = .error .lengthError c ∧
        CharVector.maxSize < data.length + c.writeCache.wtIndex := by
  rcases h.append_spec (B := B) hmax with ⟨b, hrun, hrep⟩ | ⟨hthrow, hlarge⟩
  · left
    refine ⟨b, hrep, ?_⟩
    simp only [cacheOutput, EStateM.run_bind, run_onWriteCache hrun, run_enableWrite]
  · right
    refine ⟨?_, hlarge⟩
    simp only [cacheOutput, EStateM.run_bind, run_onWriteCache_error hthrow]

/-- The call that caches what is left over does that, or changes nothing. -/
theorem stateOf_exec_cacheOutput (cbs : Callbacks) (env : Env) {mem : Nat → Byte} {data : Source}
    (h : c.writeCache.Represents q) (n : Nat)
    (hmax : (data.read mem).length ≤ CharVector.maxSize) :
    (∃ b, b.Represents (q.push ((data.read mem).take n)) ∧
      stateOf ((exec B cbs env mem (.cacheOutput data n)).run c) =
        { c with writeCache := b }.setWriteInterest true) ∨
      stateOf ((exec B cbs env mem (.cacheOutput data n)).run c) = c := by
  have hmax' : ((data.read mem).take n).length ≤ CharVector.maxSize :=
    Nat.le_trans (List.length_take_le' _ _) hmax
  rw [exec]
  rcases cacheOutput_spec (B := B) h hmax' with ⟨b, hb, hrun⟩ | ⟨hthrow, -⟩
  · left
    refine ⟨b, hb, ?_⟩
    rw [run_bind_ok hrun]
    rfl
  · right
    rw [run_bind_error hthrow]
    rfl

/-! ## `handle_write` -/

theorem load_readable (h : c.writeCache.Represents q) :
    c.writeCache.contianer.load c.writeCache.rdIndex
      (c.writeCache.rdIndex + q.content.length) = .ok q.content := by
  have hlen := h.length_eq
  have hrd := h.rd_le_wt
  have hend : c.writeCache.rdIndex + q.content.length = c.writeCache.wtIndex := by omega
  rw [hend, CharVector.load_eq_ok hrd h.wt_le_storage]
  exact congrArg Except.ok h.content_eq

theorem run_send (c : Connection) (data : List Byte) :
    (send env data).run c =
      .ok env.sendRet { c with accepted := c.accepted ++ data.take (env.sent.getD 0) } :=
  rfl

/-- The bytes that `::send` accepted of the cache. -/
def sentOf (c : Connection) (env : Env) (bytes : List Byte) : Connection :=
  { c with accepted := c.accepted ++ bytes.take (env.sent.getD 0) }

@[simp] theorem writeCache_sentOf (c : Connection) (env : Env) (bytes : List Byte) :
    (c.sentOf env bytes).writeCache = c.writeCache := rfl

@[simp] theorem accepted_sentOf (c : Connection) (env : Env) (bytes : List Byte) :
    (c.sentOf env bytes).accepted = c.accepted ++ bytes.take (env.sent.getD 0) := rfl

@[simp] theorem written_sentOf (c : Connection) (env : Env) (bytes : List Byte) :
    (c.sentOf env bytes).written = c.written := rfl

@[simp] theorem closed_sentOf (c : Connection) (env : Env) (bytes : List Byte) :
    (c.sentOf env bytes).closed = c.closed := rfl

/-- Behind a failed send the cache is as it was. -/
theorem run_handleWrite_failed (h : c.writeCache.Represents q) (hret : env.sendRet < 0) :
    ∃ calls, (handleWrite B env).run c = .ok calls
      ((if env.errno = eagain then c.setWriteInterest true else c).sentOf env q.content) := by
  rw [handleWrite, run_bind_ok (run_readable h), run_bind_ok (EStateM.run_get c),
    load_readable h, run_bind_ok (run_orThrow_ok _ _), run_bind_ok (run_send c _), if_pos hret]
  split
  · refine ⟨[], ?_⟩
    rw [run_bind_ok (run_enableWrite _ true), setWriteInterest_accepted, EStateM.run_pure, sentOf,
      accepted_setWriteInterest]
  · exact ⟨_, rfl⟩

/-- What `handle_write` does behind its first discard, once `k` bytes were sent. -/
def discardAgain (B : Build) (k : Nat) : Method Connection (List Call) :=
  if 0 < (k : Int) then do
    let _ ← onWriteCache (ByteBuffer.discard B k)
    return [.writeCb 0 k]
  else
    return []

theorem run_discardAgain {k n : Nat} {b : ByteBuffer} (hk : 0 < k)
    (hrun : (ByteBuffer.discard B k).run c.writeCache = .ok n b) :
    (discardAgain B k).run c = .ok [.writeCb 0 k] { c with writeCache := b } := by
  rw [discardAgain, if_pos (Int.natCast_pos.mpr hk), run_bind_ok (run_onWriteCache hrun)]
  rfl

/-- The second discard drops `k` bytes again, .. -/
theorem discardAgain_of_le (h : c.writeCache.Represents q) {k : Nat} (hk : 0 < k)
    (hle : k ≤ q.content.length) :
    ∃ b, b.Represents (q.pop k) ∧
      (discardAgain B k).run c = .ok [.writeCb 0 k] { c with writeCache := b } := by
  rcases h.discard_spec (B := B) hle with ⟨b, hrun, hrep⟩
  exact ⟨b, hrep, run_discardAgain hk hrun⟩

/-- .. and where there are fewer left it aborts a Debug build .. -/
theorem discardAgain_debug (h : c.writeCache.Represents q) {k : Nat}
    (hlt : q.content.length < k) : (discardAgain .debug k).run c = .error .assertion c := by
  have hk : 0 < k := Nat.lt_of_le_of_lt (Nat.zero_le _) hlt
  rw [discardAgain, if_pos (Int.natCast_pos.mpr hk),
    run_bind_error (run_onWriteCache_error (h.run_discard_debug hlt))]

/-- .. and empties the cache of a Release build. -/
theorem discardAgain_release (h : c.writeCache.Represents q) {k : Nat}
    (hlt : q.content.length < k) :
    ∃ b, b.Represents (q.pop k) ∧
      (discardAgain .release k).run c = .ok [.writeCb 0 k] { c with writeCache := b } := by
  have hk : 0 < k := Nat.lt_of_le_of_lt (Nat.zero_le _) hlt
  rcases h.discard_release_spec hlt with ⟨b, hrun, hrep⟩
  exact ⟨b, hrep, run_discardAgain hk hrun⟩

/-- The second discard, of any number of bytes: it aborts, or `k` bytes are gone. -/
theorem discardAgain_cases (B : Build) (h : c.writeCache.Represents q) (k : Nat) :
    (q.content.length < k ∧ B = .debug ∧ (discardAgain B k).run c = .error .assertion c) ∨
      (B = .debug → k ≤ q.content.length) ∧
        ∃ b, b.Represents (q.pop k) ∧
          (discardAgain B k).run c =
            .ok (if 0 < k then [.writeCb 0 k] else []) { c with writeCache := b } := by
  rcases Nat.eq_zero_or_pos k with rfl | hk
  · exact Or.inr ⟨fun _ => Nat.zero_le _, c.writeCache, by rwa [ByteFifo.pop_zero], rfl⟩
  · rw [if_pos hk]
    rcases Nat.lt_or_ge q.content.length k with hlt | hle
    · cases B with
      | debug => exact Or.inl ⟨hlt, rfl, discardAgain_debug h hlt⟩
      | release => exact Or.inr ⟨by simp, discardAgain_release h hlt⟩
    · exact Or.inr ⟨fun _ => hle, discardAgain_of_le h hk hle⟩

/-- Whatever it does, it leaves the bytes that were left by the first discard, or `k` fewer. -/
theorem stateOf_discardAgain (h : c.writeCache.Represents q) (k : Nat) :
    ∃ b, (b.Represents q ∨ b.Represents (q.pop k)) ∧
      stateOf ((discardAgain B k).run c) = { c with writeCache := b } := by
  rcases discardAgain_cases B h k with ⟨-, -, hrun⟩ | ⟨-, b, hrep, hrun⟩
  · exact ⟨c.writeCache, Or.inl h, by rw [hrun]; rfl⟩
  · exact ⟨b, Or.inr hrep, by rw [hrun]; rfl⟩

/-- Behind a send that accepted `k` bytes: they are dropped, the write interest is set for the rest,
and the second discard is still to come. -/
theorem run_handleWrite_sent (h : c.writeCache.Represents q) {k : Nat} (hret : env.sendRet = k)
    (hk : k ≤ q.content.length) :
    ∃ b, b.Represents (q.pop k) ∧
      (handleWrite B env).run c = (discardAgain B k).run
        { (if k < q.content.length then c.setWriteInterest true else c).sentOf env q.content with
          writeCache := b } := by
  have hnot : ¬ env.sendRet < 0 := by
    rw [hret]
    exact Int.not_lt.mpr (Int.natCast_nonneg k)
  rcases h.discard_spec (B := B) hk with ⟨b, hrun, hrep⟩
  have hdiscard : (onWriteCache (ByteBuffer.discard B k)).run (c.sentOf env q.content) =
      .ok (q.pop k).content.length { c.sentOf env q.content with writeCache := b } :=
    run_onWriteCache hrun
  have hrep' : ({ c.sentOf env q.content with writeCache := b } : Connection).writeCache.Represents
      (q.pop k) := hrep
  have hleft : (q.pop k).content.length = q.content.length - k := by simp
  refine ⟨b, hrep, ?_⟩
  rw [handleWrite, run_bind_ok (run_readable h), run_bind_ok (EStateM.run_get c),
    load_readable h, run_bind_ok (run_orThrow_ok _ _), run_bind_ok (run_send c _), if_neg hnot, hret,
    Int.toNat_natCast, ← sentOf, run_bind_ok hdiscard, run_bind_ok (run_readable hrep')]
  dsimp only
  by_cases hlt : k < q.content.length
  · -- Some bytes are left: `enable_write(true)` comes before the second discard.
    have hpos : 0 < (q.pop k).content.length := by omega
    rw [if_pos hpos, if_pos hlt, run_bind_ok (run_enableWrite _ true), setWriteInterest_writeCache,
      sentOf, setWriteInterest_accepted, sentOf, accepted_setWriteInterest]
    rfl
  · have hpos : ¬ 0 < (q.pop k).content.length := by omega
    rw [if_neg hpos, if_neg hlt]
    rfl

/-- Behind a send that accepted bytes, `k` bytes are gone from the cache, or `k` bytes twice. -/
theorem handleWrite_sent (h : c.writeCache.Represents q) {k : Nat} (hret : env.sendRet = k)
    (hk : k ≤ q.content.length) :
    ∃ b, (b.Represents (q.pop k) ∨ b.Represents (q.pop (k + k))) ∧
      stateOf ((handleWrite B env).run c) =
        { (if k < q.content.length then c.setWriteInterest true else c).sentOf env q.content with
          writeCache := b } := by
  rcases run_handleWrite_sent (B := B) h hret hk with ⟨b₁, hrep₁, hrun⟩
  let c₁ : Connection :=
    { (if k < q.content.length then c.setWriteInterest true else c).sentOf env q.content with
      writeCache := b₁ }
  rcases stateOf_discardAgain (B := B) (c := c₁) hrep₁ k with ⟨b, hb, hstate⟩
  refine ⟨b, by rwa [← ByteFifo.pop_pop], ?_⟩
  rw [hrun, hstate]

/-- A non-negative `int` is at most the count it was cut from. -/
theorem exists_of_sendRet_nonneg (h : 0 ≤ env.sendRet) :
    ∃ r ∈ env.sent, ∃ k : Nat, k ≤ r ∧ env.sendRet = k := by
  cases hsent : env.sent with
  | none =>
      rw [Env.sendRet, hsent] at h
      exact absurd h (by decide)
  | some r =>
      have hret : env.sendRet =
          if 2 * (r % 2 ^ 32) < 2 ^ 32 then ((r % 2 ^ 32 : Nat) : Int)
          else ((r % 2 ^ 32 : Nat) : Int) - (2 ^ 32 : Nat) := by
        rw [Env.sendRet, hsent]
        show (BitVec.ofNat 32 r).toInt = _
        rw [BitVec.toInt_eq_toNat_cond, BitVec.toNat_ofNat]
      refine ⟨r, rfl, r % 2 ^ 32, Nat.mod_le _ _, ?_⟩
      split at hret
      · exact hret
      · omega

/-- `handle_write` needs no memory: it returns, or the second discard aborts. -/
theorem handleWrite_cases (h : c.writeCache.Represents q)
    (hsent : ∀ r ∈ env.sent, r ≤ q.content.length) :
    (∃ calls c', (handleWrite B env).run c = .ok calls c') ∨
      ∃ c', (handleWrite B env).run c = .error .assertion c' := by
  rcases Int.lt_or_le env.sendRet 0 with hneg | hnonneg
  · rcases run_handleWrite_failed (B := B) h hneg with ⟨calls, hrun⟩
    exact Or.inl ⟨calls, _, hrun⟩
  · rcases exists_of_sendRet_nonneg hnonneg with ⟨r, hr, k, hk, hret⟩
    rcases run_handleWrite_sent (B := B) h hret (Nat.le_trans hk (hsent r hr)) with
      ⟨b, hb, hrun⟩
    let c₁ : Connection :=
      { (if k < q.content.length then c.setWriteInterest true else c).sentOf env q.content with
        writeCache := b }
    rcases discardAgain_cases B (c := c₁) hb k with ⟨-, -, hagain⟩ | ⟨-, b', -, hagain⟩
    · exact Or.inr ⟨c₁, hrun.trans hagain⟩
    · exact Or.inl ⟨_, _, hrun.trans hagain⟩

/-! ## `write_in_loop` -/

/-- Nothing is lost, repeated or reordered between `write_in_loop` and the peer. -/
def Intact (c : Connection) : Prop :=
  ∃ q, c.writeCache.Represents q ∧ c.accepted ++ q.content = c.written

/-- The last bytes that were passed are neither sent nor cached: behind those that wait they would
need a container larger than `max_size()`. -/
def OutOfMemory (c : Connection) : Prop :=
  ∃ rest, c.accepted ++ c.writeCache.content ++ rest = c.written ∧
    CharVector.maxSize < rest.length + c.writeCache.wtIndex

theorem Intact.accepted_append (h : c.Intact) :
    c.accepted ++ c.writeCache.content = c.written := by
  rcases h with ⟨q, hrep, hbytes⟩
  rw [hrep.content_eq, hbytes]

/-- Caching the bytes that are missing completes the stream, unless they are too many. -/
theorem cacheOutput_intact (h : c.writeCache.Represents q) {data : List Byte}
    (hmax : data.length ≤ CharVector.maxSize)
    (hbytes : c.accepted ++ q.content ++ data = c.written) :
    (∃ c', (cacheOutput B data).run c = .ok () c' ∧ c'.Intact) ∨
      (cacheOutput B data).run c = .error .lengthError c ∧ c.OutOfMemory := by
  rcases cacheOutput_spec (B := B) h hmax with ⟨b, hrep, hrun⟩ | ⟨hthrow, hlarge⟩
  · left
    refine ⟨_, hrun, q.push data, ?_, ?_⟩
    · rwa [writeCache_setWriteInterest]
    · rw [accepted_setWriteInterest, written_setWriteInterest, ByteFifo.content_push,
        ← List.append_assoc, hbytes]
  · exact Or.inr ⟨hthrow, data, by rwa [h.content_eq], hlarge⟩

theorem cInt_eq {r : Nat} (h : r < 2 ^ 31) : cInt r = r := by
  have hmod : r % 2 ^ 32 = r := Nat.mod_eq_of_lt (Nat.lt_trans h (by decide))
  rw [cInt, BitVec.toInt_eq_toNat_of_lt]
  · rw [BitVec.toNat_ofNat, hmod]
  · rw [BitVec.toNat_ofNat, hmod]
    omega

/-- What `::send` of `n` bytes answers in a run without other errors than `EAGAIN`. -/
def SendAnswers (env : Env) (n : Nat) : Prop :=
  (∀ r ∈ env.sent, r ≤ n) ∧ (env.sent = none → env.errno = eagain)

/-- The direct send of `data` went out whole, or not at all, or what `append` takes instead of the
rest happens to be the rest. -/
def DirectSendWhole (env : Env) (data : List Byte) : Prop :=
  ∀ r ∈ env.sent, r < 2 ^ 31 ∧ data.take (data.length - r) = data.drop r

/-- A send of `n` cached bytes went out whole, or not at all. -/
def CachedSendWhole (env : Env) (n : Nat) : Prop :=
  ∀ r ∈ env.sent, r < 2 ^ 31 ∧ (r = 0 ∨ r = n)

/-- What the direct send of `n` bytes leaves to be cached, and the callbacks behind it. -/
def directSend (env : Env) (n : Nat) : Option Nat × List Call :=
  if env.sendRet < 0 then
    if env.errno = eagain then (some n, []) else (none, [.writeCb env.errno 0])
  else
    (if env.sendRet.toNat < n then some (n - env.sendRet.toNat) else none,
      if 0 < env.sendRet then [.writeCb 0 env.sendRet.toNat] else [])

theorem run_sendDirectly_behind (env : Env) (h : c.writeCache.Represents q) (hq : q.content ≠ [])
    (data : List Byte) :
    (sendDirectly B env data).run c =
      .ok (some data.length, []) { c with written := c.written ++ data } := by
  have hrep : ({ c with written := c.written ++ data } : Connection).writeCache.Represents q := h
  rw [sendDirectly, run_bind_ok (EStateM.run_modify _ c), run_bind_ok (run_readable hrep),
    if_pos (List.length_pos_iff.mpr hq)]
  rfl

theorem run_sendDirectly_direct (env : Env) (h : c.writeCache.Represents q) (hq : q.content = [])
    (data : List Byte) :
    (sendDirectly B env data).run c =
      .ok (directSend env data.length)
        (({ c with written := c.written ++ data }).sentOf env data) := by
  have hrep : ({ c with written := c.written ++ data } : Connection).writeCache.Represents q := h
  have hempty : ¬ 0 < q.content.length := by simp [hq]
  rw [sendDirectly, run_bind_ok (EStateM.run_modify _ c), run_bind_ok (run_readable hrep),
    if_neg hempty, run_bind_ok (run_send _ data), directSend]
  split
  · split <;> rfl
  · rfl

/-- Behind unsent bytes the new ones are only cached. -/
theorem writeInLoop_behind (env : Env) (h : c.writeCache.Represents q) (hq : q.content ≠ [])
    (hbytes : c.accepted ++ q.content = c.written) {data : List Byte}
    (hmax : data.length ≤ CharVector.maxSize) :
    (∃ c', (writeInLoop B env data).run c = .ok [] c' ∧ c'.Intact) ∨
      ∃ c', (writeInLoop B env data).run c = .error .lengthError c' ∧ c'.OutOfMemory := by
  let c₁ : Connection := { c with written := c.written ++ data }
  have hbytes₁ : c₁.accepted ++ q.content ++ data.take data.length = c₁.written := by
    show c.accepted ++ q.content ++ data.take data.length = c.written ++ data
    rw [hbytes, List.take_length]
  have hmax₁ : (data.take data.length).length ≤ CharVector.maxSize := by rwa [List.take_length]
  rw [writeInLoop, run_bind_ok (run_sendDirectly_behind env h hq data)]
  rcases cacheOutput_intact (B := B) (c := c₁) h hmax₁ hbytes₁ with
    ⟨c', hrun, hintact⟩ | ⟨hthrow, hmemory⟩
  · exact Or.inl ⟨c', by dsimp only; rw [run_bind_ok hrun]; rfl, hintact⟩
  · exact Or.inr ⟨c₁, by dsimp only; rw [run_bind_error hthrow], hmemory⟩

/-- What went out of a direct send and what is to be cached are together the bytes. -/
theorem take_append_directSend {data : List Byte} (hanswers : SendAnswers env data.length)
    (hwhole : DirectSendWhole env data) :
    data.take (env.sent.getD 0) ++ (directSend env data.length).1.elim [] (data.take ·) = data := by
  cases hsent : env.sent with
  | none =>
      -- `EAGAIN`: everything is cached.
      have hret : env.sendRet < 0 := by
        rw [Env.sendRet, hsent]
        decide
      have heagain : env.errno = eagain := hanswers.2 hsent
      rw [directSend, if_pos hret, if_pos heagain]
      simp
  | some r =>
      have hle : r ≤ data.length := hanswers.1 r hsent
      have hwhole := hwhole r hsent
      have hret : env.sendRet = r := by
        rw [Env.sendRet, hsent]
        exact cInt_eq hwhole.1
      have hnot : ¬ env.sendRet < 0 := by
        rw [hret]
        exact Int.not_lt.mpr (Int.natCast_nonneg r)
      rw [directSend, if_neg hnot, hret, Int.toNat_natCast, Option.getD_some]
      dsimp only
      split
      · rw [Option.elim_some, hwhole.2, List.take_append_drop]
      · rw [Option.elim_none, List.append_nil, List.take_of_length_le (by omega)]

theorem writeInLoop_direct (h : c.writeCache.Represents q) (hq : q.content = [])
    (hbytes : c.accepted = c.written) {data : List Byte}
    (hmax : data.length ≤ CharVector.maxSize) (hanswers : SendAnswers env data.length)
    (hwhole : DirectSendWhole env data) :
    (∃ calls c', (writeInLoop B env data).run c = .ok calls c' ∧ c'.Intact) ∨
      ∃ c', (writeInLoop B env data).run c = .error .lengthError c' ∧ c'.OutOfMemory := by
  have hdata := take_append_directSend hanswers hwhole
  rw [writeInLoop, run_bind_ok (run_sendDirectly_direct env h hq data)]
  dsimp only
  cases hleft : (directSend env data.length).1 with
  | none =>
      rw [hleft] at hdata
      left
      -- Everything went out.
      refine ⟨_, _, rfl, q, h, ?_⟩
      show c.accepted ++ data.take (env.sent.getD 0) ++ q.content = c.written ++ data
      have hdata : data.take (env.sent.getD 0) = data := by simpa using hdata
      rw [hq, List.append_nil, hdata, hbytes]
  | some n =>
      rw [hleft] at hdata
      have hrep : (({ c with written := c.written ++ data }).sentOf env data).writeCache.Represents
          q := h
      have hmax' : (data.take n).length ≤ CharVector.maxSize :=
        Nat.le_trans (List.length_take_le' _ _) hmax
      rcases cacheOutput_intact (B := B) hrep hmax' (by
        show c.accepted ++ data.take (env.sent.getD 0) ++ q.content ++ data.take n =
          c.written ++ data
        have hdata : data.take (env.sent.getD 0) ++ data.take n = data := hdata
        rw [hq, List.append_nil, List.append_assoc, hdata, hbytes]) with
          ⟨c', hrun, hintact⟩ | ⟨hthrow, hmemory⟩
      · exact Or.inl ⟨_, c', by dsimp only; rw [run_bind_ok hrun]; rfl, hintact⟩
      · exact Or.inr ⟨_, by dsimp only; rw [run_bind_error hthrow], hmemory⟩

/-- `write_in_loop` leaves the stream intact, or has no memory for the bytes. -/
theorem writeInLoop_intact (h : c.Intact) {data : List Byte}
    (hmax : data.length ≤ CharVector.maxSize) (hanswers : SendAnswers env data.length)
    (hwhole : c.writeCache.content = [] → DirectSendWhole env data) :
    (∃ calls c', (writeInLoop B env data).run c = .ok calls c' ∧ c'.Intact) ∨
      ∃ c', (writeInLoop B env data).run c = .error .lengthError c' ∧ c'.OutOfMemory := by
  rcases h with ⟨q, hrep, hbytes⟩
  -- The cache decides whether the bytes are sent or only cached.
  by_cases hq : q.content = []
  · have hbytes : c.accepted = c.written := by simpa [hq] using hbytes
    exact writeInLoop_direct hrep hq hbytes hmax hanswers (hwhole (hrep.content_eq.trans hq))
  · rcases writeInLoop_behind env hrep hq hbytes hmax with ⟨c', hrun, hintact⟩ | hthrow
    · exact Or.inl ⟨[], c', hrun, hintact⟩
    · exact Or.inr hthrow

/-! ## `handle_write` on an intact stream -/

theorem handleWrite_intact (h : c.Intact) (hanswers : SendAnswers env c.writeCache.content.length)
    (hwhole : CachedSendWhole env c.writeCache.content.length) :
    (stateOf ((handleWrite B env).run c)).Intact := by
  rcases h with ⟨q, hrep, hbytes⟩
  rw [hrep.content_eq] at hanswers hwhole
  -- Whether the write interest is set again does not matter for the bytes.
  have hcase : ∀ (p : Prop) [Decidable p],
      (if p then c.setWriteInterest true else c).writeCache = c.writeCache ∧
        (if p then c.setWriteInterest true else c).accepted = c.accepted ∧
        (if p then c.setWriteInterest true else c).written = c.written := by
    intro p hp
    split <;> simp
  cases hsent : env.sent with
  | none =>
      have hret : env.sendRet < 0 := by
        rw [Env.sendRet, hsent]
        decide
      rcases run_handleWrite_failed (B := B) hrep hret with ⟨calls, hrun⟩
      rcases hcase (env.errno = eagain) with ⟨hcache, haccepted, hwritten⟩
      rw [hrun]
      refine ⟨q, ?_, ?_⟩
      · rwa [stateOf_ok, writeCache_sentOf, hcache]
      · rw [stateOf_ok, accepted_sentOf, written_sentOf, haccepted, hwritten, hsent,
          Option.getD_none, List.take_zero, List.append_nil, hbytes]
  | some r =>
      have hle : r ≤ q.content.length := hanswers.1 r hsent
      have hwhole := hwhole r hsent
      have hret : env.sendRet = r := by
        rw [Env.sendRet, hsent]
        exact cInt_eq hwhole.1
      rcases handleWrite_sent (B := B) hrep hret hle with ⟨b, hb, hstate⟩
      rcases hcase (r < q.content.length) with ⟨-, haccepted, hwritten⟩
      rw [hstate]
      -- Dropping nothing twice, or everything twice, is dropping it once.
      have htwice : q.pop (r + r) = q.pop r := by
        rcases hwhole.2 with rfl | hall
        · rfl
        · rw [ByteFifo.pop_of_length_le (by omega), ByteFifo.pop_of_length_le (by omega)]
      have hb' : b.Represents (q.pop r) := by
        rcases hb with hb | hb
        · exact hb
        · rwa [htwice] at hb
      refine ⟨q.pop r, hb', ?_⟩
      show ((if r < q.content.length then c.setWriteInterest true else c).sentOf env
          q.content).accepted ++ (q.pop r).content =
        ((if r < q.content.length then c.setWriteInterest true else c).sentOf env q.content).written
      rw [accepted_sentOf, written_sentOf, haccepted, hwritten, hsent, Option.getD_some,
        ByteFifo.content_pop, List.append_assoc, List.take_append_drop, hbytes]

/-! ## Runs of `write_in_loop` and `handle_write` -/

end Connection

/-- A connection on its loop thread, and the fault that ended the run. -/
structure Output where
  conn : Connection
  fault : Option Fault

namespace Output

open Connection

inductive Act
  | writeInLoop (data : Block) (env : Env)
  | handleWrite (env : Env)

def Enabled (s : Output) : Act → Prop
  | .writeInLoop data env => s.fault = none ∧ SendAnswers env data.1.length
  | .handleWrite env => s.fault = none ∧ SendAnswers env s.conn.writeCache.content.length

/-- The callbacks are the last thing either function does; what they write are further steps. -/
def ofResult : EStateM.Result Fault Connection (List Call) → Output
  | .ok _ c => { conn := c, fault := none }
  | .error e c => { conn := c, fault := some e }

def next (B : Build) (s : Output) : Act → Output
  | .writeInLoop data env => ofResult ((Connection.writeInLoop B env data.1).run s.conn)
  | .handleWrite env => ofResult ((Connection.handleWrite B env).run s.conn)

instance (env : Env) (n : Nat) : Decidable (SendAnswers env n) :=
  inferInstanceAs (Decidable (_ ∧ _))

instance (s : Output) : (a : Act) → Decidable (s.Enabled a)
  | .writeInLoop _ _ => inferInstanceAs (Decidable (_ ∧ _))
  | .handleWrite _ => inferInstanceAs (Decidable (_ ∧ _))

def step (B : Build) (s : Output) (a : Act) : Option Output :=
  if s.Enabled a then some (s.next B a) else none

/-- No send goes out in part. -/
def SendsWhole (s : Output) : Act → Prop
  | .writeInLoop data env => s.conn.writeCache.content = [] → DirectSendWhole env data.1
  | .handleWrite env => CachedSendWhole env s.conn.writeCache.content.length

/-- Where there is no memory for the bytes, and only there, `append` throws and the run is over. -/
def Intact (s : Output) : Prop :=
  s.fault = some .lengthError ∧ s.conn.OutOfMemory ∨
    s.fault ≠ some .lengthError ∧ s.conn.Intact

instance (s : Output) : (a : Act) → Decidable (s.SendsWhole a)
  | .writeInLoop _ _ => inferInstanceAs (Decidable (_ → ∀ r ∈ _, _))
  | .handleWrite _ => inferInstanceAs (Decidable (∀ r ∈ _, _))

variable {B : Build} {s s' : Output} {a : Act}

theorem step_eq_some : s.step B a = some s' ↔ s.Enabled a ∧ s.next B a = s' := by
  simp [step]

theorem conn_ofResult (r : EStateM.Result Fault Connection (List Call)) :
    (ofResult r).conn = stateOf r := by
  cases r <;> rfl

/-- A run that goes on is intact. -/
theorem Intact.conn_intact (h : s.Intact) (hfault : s.fault = none) : s.conn.Intact := by
  rcases h with ⟨hthrow, -⟩ | ⟨-, hintact⟩
  · rw [hfault] at hthrow
    cases hthrow
  · exact hintact

/-- A step that sends whole keeps the stream intact. -/
theorem intact_step (h : s.Intact) (hwhole : s.SendsWhole a) (hs : s.step B a = some s') :
    s'.Intact := by
  rcases step_eq_some.mp hs with ⟨hen, rfl⟩
  cases a with
  | writeInLoop data env =>
      rcases hen with ⟨hfault, hanswers⟩
      rcases writeInLoop_intact (B := B) (h.conn_intact hfault) data.2 hanswers hwhole with
        ⟨calls, c', hrun, hintact⟩ | ⟨c', hthrow, hmemory⟩
      · right
        rw [next, hrun]
        exact ⟨by simp [ofResult], hintact⟩
      · left
        rw [next, hthrow]
        exact ⟨rfl, hmemory⟩
  | handleWrite env =>
      rcases hen with ⟨hfault, hanswers⟩
      right
      refine ⟨?_, ?_⟩
      · rcases h.conn_intact hfault with ⟨q, hrep, -⟩
        rw [hrep.content_eq] at hanswers
        rw [next]
        rcases handleWrite_cases (B := B) hrep hanswers.1 with ⟨calls, c', hrun⟩ | ⟨c', hrun⟩
        · rw [hrun]
          nofun
        · rw [hrun]
          nofun
      · rw [next, conn_ofResult]
        exact handleWrite_intact (h.conn_intact hfault) hanswers hwhole

/-! ## Runs -/

/-- A connection through which nothing was written yet. -/
structure Unwritten (c : Connection) : Prop where
  writeCache : ByteBuffer.construct .liteEndian 2048 = .ok c.writeCache
  accepted : c.accepted = []
  written : c.written = []

theorem Unwritten.intact {c : Connection} (h : Unwritten c) : c.Intact := by
  have hsize : 2048 + 8 ≤ CharVector.maxSize := by decide
  rcases ByteBuffer.construct_represents .liteEndian hsize with ⟨b, hb, hrep, -⟩
  have heq : c.writeCache = b := Except.ok.inj (h.writeCache.symm.trans hb)
  refine ⟨_, heq ▸ hrep, ?_⟩
  rw [h.accepted, h.written]
  rfl

/-- In a run in which no send goes out in part, the accepted bytes followed by the cached ones are
at every point the bytes that were written, but for an `append` that has no memory for the last of
them. -/
theorem accepted_append_writeCache {c : Connection} (hc : Unwritten c) {as : List Act}
    (hwhole : Along (step B) SendsWhole { conn := c, fault := none } as)
    (hrun : run (step B) { conn := c, fault := none } as = some s) :
    (s.fault ≠ some .lengthError →
        s.conn.accepted ++ s.conn.writeCache.content = s.conn.written) ∧
      (s.fault = some .lengthError → s.conn.OutOfMemory) := by
  have hintact : s.Intact :=
    invariant_along (fun _ _ _ h hwhole hs => intact_step h hwhole hs)
      (Or.inr ⟨by simp, hc.intact⟩) hwhole hrun
  rcases hintact with ⟨hthrow, hmemory⟩ | ⟨hreturned, hintact⟩
  · exact ⟨fun hreturned => absurd hthrow hreturned, fun _ => hmemory⟩
  · exact ⟨fun _ => hintact.accepted_append, fun hthrow => absurd hthrow hreturned⟩

theorem unwritten_of_construct {c : Connection} (h : construct = .ok c) : Unwritten c := by
  rw [construct_eq] at h
  cases h
  exact
    { writeCache := rfl
      accepted := rfl
      written := rfl }

theorem unwritten_newConnection : Unwritten newConnection :=
  unwritten_of_construct construct_eq

/-- The kernel takes the first bytes at once, is full for the next ones and takes them later. -/
def wholeSends : List Act :=
  [.writeInLoop ⟨[1, 2], by decide⟩ { sent := some 2 },
    .writeInLoop ⟨[3, 4], by decide⟩ { sent := none, errno := eagain },
    .writeInLoop ⟨[5], by decide⟩ {}, .handleWrite { sent := some 3 }]

theorem accepted_append_writeCache_wholeSends :
    ∃ s, run (step .release) { conn := newConnection, fault := none } wholeSends = some s ∧
      s.conn.accepted = [1, 2, 3, 4, 5] ∧
      s.conn.accepted ++ s.conn.writeCache.content = s.conn.written := by
  have hwhole : Along (step .release) SendsWhole { conn := newConnection, fault := none }
      wholeSends := by decide +kernel
  have hany : (run (step .release) { conn := newConnection, fault := none } wholeSends).any
      (fun s => decide (s.conn.accepted = [1, 2, 3, 4, 5] ∧ s.fault = none)) = true := by
    decide +kernel
  rcases exists_run_of_any hany with ⟨s, hrun, haccepted, hfault⟩
  refine ⟨s, hrun, haccepted,
    (accepted_append_writeCache unwritten_newConnection hwhole hrun).1 ?_⟩
  simp [hfault]

/-- One of two bytes goes out: the first byte is cached for the second one. -/
theorem partial_send_repeats_bytes :
    ¬ ∀ (c : Connection) (as : List Act) (s : Output), Unwritten c →
      run (step .debug) { conn := c, fault := none } as = some s →
        s.conn.accepted ++ s.conn.writeCache.content = s.conn.written := by
  intro h
  have hrun : run (step .debug) { conn := newConnection, fault := none }
      [.writeInLoop ⟨[1, 2], by decide⟩ { sent := some 1 }] = some _ := rfl
  have hbytes := h _ _ _ unwritten_newConnection hrun
  revert hbytes
  decide +kernel

end Output

end Net
end Muradin
