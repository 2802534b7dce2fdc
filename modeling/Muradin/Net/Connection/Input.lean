import Muradin.Net.ByteBuffer.Consume
import Muradin.Net.Connection.Interest

/-!
# Input — the bytes that arrive are the bytes that are read

`handle_read` takes a raw pointer behind `ensure_write_space`, lets `recv` store there, and commits
the count later.  `Inbound` is a connection on its loop thread with two histories: what `recv` has
stored, and what the user has taken from `read_buffer()`, inside the callbacks or between them.
Each byte is in exactly one place: `input_intact`.
-/

namespace Muradin
namespace Net

open Lib Cpp Events

namespace Connection

variable {B : Build} {env : Env} {c : Connection} {q : ByteFifo}

/-! ## One `handle_read` -/

theorem run_onReadCache {α : Type} {m : Method ByteBuffer α} {a : α} {b : ByteBuffer}
    (h : m.run c.readCache = .ok a b) : (onReadCache m).run c = .ok a { c with readCache := b } :=
  run_onField_ok h

/-- An exception that left the cache as it was left the connection as it was. -/
theorem run_onReadCache_throws {α : Type} {m : Method ByteBuffer α}
    (h : ByteBuffer.Throws m c.readCache) : (onReadCache m).run c = .error .lengthError c :=
  run_onField_error h

/-- `recv` is called with room for `max_readbytes_once` bytes, and what it stores is pushed; or there
is no memory for them, and it is not called. -/
theorem handleRead_spec (h : c.readCache.Represents q)
    (hanswer : ∀ bytes ∈ env.received, bytes.length ≤ maxReadbytesOnce) :
    (∃ b₁ b₂ calls,
        (ByteBuffer.ensureWriteSpace B maxReadbytesOnce).run c.readCache = .ok () b₁ ∧
        b₁.Represents q ∧ b₁.wtIndex + maxReadbytesOnce ≤ b₁.storage ∧
        (handleRead B env).run c = .ok calls { c with readCache := b₂ } ∧
        b₂.Represents (q.push (env.received.getD []))) ∨
      ByteBuffer.Throws (ByteBuffer.ensureWriteSpace B maxReadbytesOnce) c.readCache ∧
        (handleRead B env).run c = .error .lengthError c ∧
        CharVector.maxSize < maxReadbytesOnce + c.readCache.wtIndex := by
  have hwrap : maxReadbytesOnce + c.readCache.wtIndex < SizeT.modulus :=
    ByteBuffer.add_wtIndex_lt_modulus h.toInv (by decide)
  rcases h.makeSpace_spec (B := B) hwrap with ⟨b₁, hspace, hrep₁, hroom⟩ | ⟨hthrow, hlarge⟩
  · left
    have hensure := run_onReadCache (m := ByteBuffer.ensureWriteSpace B maxReadbytesOnce) hspace
    cases hreceived : env.received with
    | none =>
        refine ⟨b₁, b₁, [.readCb env.errno], hspace, hrep₁, hroom, ?_, ?_⟩
        · rw [handleRead, run_bind_ok hensure, hreceived]
          rfl
        · simpa using hrep₁
    | some bytes =>
        have hfits : b₁.wtIndex + bytes.length ≤ b₁.storage :=
          Nat.le_trans (Nat.add_le_add_left (hanswer bytes hreceived) _) hroom
        rcases hrep₁.store_hasWritten_spec (B := B) hfits with ⟨b₂, hstore, b₃, hwritten, hrep₃⟩
        have hrecv := run_onReadCache (c := { c with readCache := b₁ }) hstore
        have hcommit := run_onReadCache (c := { c with readCache := b₂ }) hwritten
        rw [handleRead, run_bind_ok hensure, hreceived]
        dsimp only
        rw [run_bind_ok hrecv]
        by_cases hempty : bytes.length = 0
        · -- The peer has shut down: nothing was stored, and nothing is committed.
          refine ⟨b₁, b₂, [.connCb, .handleClose], hspace, hrep₁, hroom, ?_, ?_⟩
          · rw [if_pos hempty]
            rfl
          · rcases hrep₁.storeAtWtPtr_spec hfits with ⟨b₂', hstore', hrep₂, -⟩
            cases hstore.symm.trans hstore'
            obtain rfl := List.length_eq_zero_iff.mp hempty
            simpa using hrep₂
        · refine ⟨b₁, b₃, [.readCb 0], hspace, hrep₁, hroom, ?_, hrep₃⟩
          rw [if_neg hempty, run_bind_ok hcommit]
          rfl
  · right
    have hthrow : ByteBuffer.Throws (ByteBuffer.ensureWriteSpace B maxReadbytesOnce) c.readCache :=
      hthrow
    refine ⟨hthrow, ?_, hlarge⟩
    rw [handleRead, run_bind_error (run_onReadCache_throws hthrow)]

/-- `handle_read` gives `recv` room for `max_readbytes_once` bytes inside the container, its
`has_written` passes the assertion in every build, and what `recv` stored, which is nothing where it
fails, is readable behind what was readable.  Only for want of memory `recv` is not called, and then
the connection is as it was. -/
def ReadsIntact (B : Build) (env : Env) (c : Connection) : Prop :=
  (∃ b₁ calls c', (ByteBuffer.ensureWriteSpace B maxReadbytesOnce).run c.readCache = .ok () b₁ ∧
      b₁.wtIndex + maxReadbytesOnce ≤ b₁.storage ∧
      (∀ bytes ∈ env.received, SizeT.add b₁.wtIndex bytes.length ≤ b₁.storage) ∧
      (handleRead B env).run c = .ok calls c' ∧
      c'.readCache.content = c.readCache.content ++ env.received.getD []) ∨
    (handleRead B env).run c = .error .lengthError c ∧
      CharVector.maxSize < maxReadbytesOnce + c.readCache.wtIndex

theorem readsIntact (h : c.readCache.Inv)
    (hanswer : ∀ bytes ∈ env.received, bytes.length ≤ maxReadbytesOnce) : ReadsIntact B env c := by
  rcases handleRead_spec (B := B) h.represents hanswer with
    ⟨b₁, b₂, calls, hspace, -, hroom, hrun, hrep₂⟩ | ⟨-, hrun, hlarge⟩
  · refine Or.inl ⟨b₁, calls, _, hspace, hroom, ?_, hrun, hrep₂.content_eq⟩
    intro bytes hbytes
    have hfits : b₁.wtIndex + bytes.length ≤ b₁.storage :=
      Nat.le_trans (Nat.add_le_add_left (hanswer bytes hbytes) _) hroom
    rwa [SizeT.add_eq (Nat.lt_of_le_of_lt hfits b₁.contianer.size_lt_modulus)]
  · exact Or.inr ⟨hrun, hlarge⟩

end Connection

/-! ## Runs -/

/-- A connection on its loop thread, what `recv` has stored, and what was taken from
`read_buffer()`. -/
structure Inbound where
  loop : Loop
  received : List Byte
  consumed : List Byte

namespace Inbound

inductive Act
  /-- a step of the loop, other than a call of a member function of `read_buffer()` -/
  | loop (a : Loop.Act)
  /-- the user takes bytes from `read_buffer()`, inside a callback or between two dispatches -/
  | consume (c : ByteBuffer.Consume)

def IsReadBuffer : Loop.Act → Bool
  | .user (.readBuffer _) => true
  | _ => false

def Enabled (mem : Nat → Byte) (s : Inbound) : Act → Prop
  | .loop a => IsReadBuffer a = false ∧ s.loop.Enabled mem a
  | .consume _ => s.loop.fault = none ∧ (s.loop.stack = [] ∨ s.loop.stack.head? = some .user)

/-- What `recv` stores in a step: it is called by `handle_read` behind `ensure_write_space`. -/
def arriving (S : Setup) (s : Loop) : Loop.Act → List Byte
  | .call env =>
      if s.stack.head? = some .handleRead then
        match (ByteBuffer.ensureWriteSpace S.build Connection.maxReadbytesOnce).run
            s.conn.readCache with
        | .ok _ _ => env.received.getD []
        | .error _ _ => []
      else
        []
  | _ => []

/-- The readable bytes that a call takes, if it returns. -/
def leaving (S : Setup) (b : ByteBuffer) (c : ByteBuffer.Consume) : List Byte :=
  match (c.op.exec S.build S.host).run b with
  | .ok _ _ => b.content.take (c.count b.content)
  | .error _ _ => []

def next (S : Setup) (mem : Nat → Byte) (s : Inbound) : Act → Inbound
  | .loop a =>
      { s with loop := s.loop.next S mem a, received := s.received ++ arriving S s.loop a }
  | .consume c =>
      { s with
        loop := s.loop.user S (.readBuffer c.op)
        consumed := s.consumed ++ leaving S s.loop.conn.readCache c }

instance (mem : Nat → Byte) (s : Inbound) : (a : Act) → Decidable (s.Enabled mem a)
  | .loop _ => inferInstanceAs (Decidable (_ ∧ _))
  | .consume _ => inferInstanceAs (Decidable (_ ∧ _))

def step (S : Setup) (mem : Nat → Byte) (s : Inbound) (a : Act) : Option Inbound :=
  if s.Enabled mem a then some (s.next S mem a) else none

variable {S : Setup} {mem : Nat → Byte} {s s' : Inbound} {a : Act}

theorem step_eq_some : s.step S mem a = some s' ↔ s.Enabled mem a ∧ s.next S mem a = s' := by
  simp [step]

/-- What was taken, followed by what is readable, is what was received. -/
structure Intact (s : Inbound) : Prop where
  cache : s.loop.conn.readCache.Inv
  balance : s.consumed ++ s.loop.conn.readCache.content = s.received

/-- A step that neither receives nor takes anything. -/
theorem Intact.of_same (h : s.Intact) {loop : Loop}
    (hcache : loop.conn.readCache = s.loop.conn.readCache) :
    Intact { s with loop := loop, received := s.received ++ [] } :=
  { cache := by
      show loop.conn.readCache.Inv
      rw [hcache]
      exact h.cache
    balance := by
      show s.consumed ++ loop.conn.readCache.content = s.received ++ []
      rw [hcache, List.append_nil, h.balance] }

theorem Intact.call (h : s.Intact) {env : Env} {c : Call} {rest : List Call}
    (hstack : s.loop.stack = c :: rest) (hanswers : Loop.Answers mem s.loop.conn env c) :
    (s.next S mem (.loop (.call env))).Intact := by
  by_cases hread : c = .handleRead
  · subst hread
    have hhead : s.loop.stack.head? = some .handleRead := by rw [hstack]; rfl
    have hcall : s.loop.call S mem env = Loop.ofResult rest
        ((Connection.exec S.build S.cbs env mem .handleRead).run s.loop.conn) :=
      Loop.call_cons hstack
    rcases Connection.handleRead_spec (B := S.build) h.cache.represents hanswers with
      ⟨b₁, b₂, calls, hspace, -, -, hrun, hrep⟩ | ⟨hthrow, hrun, -⟩
    · -- The bytes that `recv` stored are the new end of the queue.
      have harrive : arriving S s.loop (.call env) = env.received.getD [] := by
        simp only [arriving, if_pos hhead, hspace]
      have hconn : (s.loop.call S mem env).conn = { s.loop.conn with readCache := b₂ } := by
        rw [hcall, Loop.conn_ofResult, Connection.exec, hrun, stateOf_ok]
      refine { cache := ?_, balance := ?_ }
      · show (s.loop.call S mem env).conn.readCache.Inv
        rw [hconn]
        exact hrep.toInv
      · show s.consumed ++ (s.loop.call S mem env).conn.readCache.content =
          s.received ++ arriving S s.loop (.call env)
        rw [hconn, harrive, ← h.balance, List.append_assoc]
        exact congrArg (s.consumed ++ ·) hrep.content_eq
    · have hthrow : (ByteBuffer.ensureWriteSpace S.build Connection.maxReadbytesOnce).run
          s.loop.conn.readCache = .error .lengthError s.loop.conn.readCache := hthrow
      have harrive : arriving S s.loop (.call env) = [] := by
        simp only [arriving, if_pos hhead, hthrow]
      have hconn : (s.loop.call S mem env).conn = s.loop.conn := by
        rw [hcall, Loop.conn_ofResult, Connection.exec, hrun, stateOf_error]
      rw [next, harrive]
      exact h.of_same (congrArg (·.readCache) hconn)
  · -- No other call receives, or touches the read cache.
    have harrive : arriving S s.loop (.call env) = [] := by
      simp [arriving, hstack, hread]
    rw [next, harrive]
    exact h.of_same (Loop.call_keeps hstack (Connection.exec_keeps_readCache hread))

theorem Intact.consume (h : s.Intact) (c : ByteBuffer.Consume) :
    (s.next S mem (.consume c)).Intact := by
  have hrep := h.cache.represents
  rcases c.run_exec S.build S.host hrep with ⟨out, b, hrun, hrep'⟩ | ⟨e, hrun⟩
  · have hcache : (Connection.onReadCache (c.op.exec S.build S.host)).run s.loop.conn =
        .ok out { s.loop.conn with readCache := b } := Connection.run_onReadCache hrun
    have hconn : (s.loop.user S (.readBuffer c.op)).conn = { s.loop.conn with readCache := b } := by
      simp only [Loop.user, hcache]
    have hleave : leaving S s.loop.conn.readCache c =
        s.loop.conn.readCache.content.take (c.count s.loop.conn.readCache.content) := by
      simp only [leaving, hrun]
    refine { cache := ?_, balance := ?_ }
    · show (s.loop.user S (.readBuffer c.op)).conn.readCache.Inv
      rw [hconn]
      exact hrep'.toInv
    · show (s.consumed ++ leaving S s.loop.conn.readCache c) ++
        (s.loop.user S (.readBuffer c.op)).conn.readCache.content = s.received
      have hrest : b.content = s.loop.conn.readCache.content.drop
          (c.count s.loop.conn.readCache.content) := hrep'.content_eq
      rw [hconn, hleave, List.append_assoc]
      show s.consumed ++ (_ ++ b.content) = s.received
      rw [hrest, List.take_append_drop, h.balance]
  · -- A call that stops has taken nothing.
    have hcache : (Connection.onReadCache (c.op.exec S.build S.host)).run s.loop.conn =
        .error e s.loop.conn := run_onField_error hrun
    have hconn : (s.loop.user S (.readBuffer c.op)).conn = s.loop.conn := by
      simp only [Loop.user, hcache]
    have hleave : leaving S s.loop.conn.readCache c = [] := by
      simp only [leaving, hrun]
    refine { cache := ?_, balance := ?_ }
    · show (s.loop.user S (.readBuffer c.op)).conn.readCache.Inv
      rw [hconn]
      exact h.cache
    · show (s.consumed ++ leaving S s.loop.conn.readCache c) ++
        (s.loop.user S (.readBuffer c.op)).conn.readCache.content = s.received
      rw [hconn, hleave, List.append_nil, h.balance]

/-- The step lemma. -/
theorem Intact.step (h : s.Intact) (hs : s.step S mem a = some s') : s'.Intact := by
  rcases step_eq_some.mp hs with ⟨hen, rfl⟩
  cases a with
  | consume c => exact h.consume c
  | loop a =>
      cases a with
      | poll events => exact h.of_same rfl
      | processWork => exact h.of_same rfl
      | writeInLoop data => exact h.of_same rfl
      | call env =>
          rcases hen.2.2.exists_cons with ⟨c, rest, hstack, -, hanswers⟩
          exact h.call hstack hanswers
      | user op =>
          cases op with
          | write data => exact h.of_same rfl
          | shutdown => exact h.of_same rfl
          | readBuffer op => cases hen.1
          | returns => exact h.of_same rfl

/-- The input of a connection is intact in every run of its loop thread: each `handle_read` receives
into free space and keeps what is readable, and what was taken from the buffer, followed by what is
readable, is what was received, in order. -/
theorem input_intact (S : Setup) (mem : Nat → Byte) {loop : Loop} {as : List Act}
    (hnew : loop.conn.readCache = Connection.newCache)
    (hrun : run (step S mem) { loop, received := [], consumed := [] } as = some s) :
    s.consumed ++ s.loop.conn.readCache.content = s.received ∧
      ∀ env : Env, (∀ bytes ∈ env.received, bytes.length ≤ Connection.maxReadbytesOnce) →
        s.loop.conn.ReadsIntact S.build env := by
  rcases ByteBuffer.construct_represents .liteEndian (by decide : 2048 + 8 ≤ CharVector.maxSize) with
    ⟨b, hb, hrep, -⟩
  obtain rfl : Connection.newCache = b := Except.ok.inj hb
  have hstart : Intact { loop, received := [], consumed := [] } :=
    { cache := by
        show loop.conn.readCache.Inv
        rw [hnew]
        exact hrep.toInv
      balance := by
        show [] ++ loop.conn.readCache.content = []
        rw [hnew, List.nil_append]
        exact hrep.content_eq }
  have hintact : s.Intact := invariant_run (fun _ _ _ h hs => Intact.step h hs) hstart hrun
  exact ⟨hintact.balance, fun env hanswer => Connection.readsIntact hintact.cache hanswer⟩

/-- Three bytes arrive, two of them are taken inside the read callback, and the last one behind
it. -/
def readInTwoParts : List Act :=
  [.loop (.poll epollIn), .loop .processWork, .loop (.call {}), .loop (.call {}), .loop (.call {}),
    .loop (.call { received := some [7, 8, 9] }), .loop (.call {}), .consume (.discard 2),
    .loop (.user .returns), .loop (.call {}), .consume .retrieveUint8]

theorem input_intact_readInTwoParts :
    ∃ s, run (step Loop.debugSetup fun _ => 0)
        { loop := Loop.startedLoop, received := [], consumed := [] } readInTwoParts = some s ∧
      s.consumed = [7, 8, 9] ∧
      s.consumed ++ s.loop.conn.readCache.content = s.received ∧
      s.loop.conn.ReadsIntact .debug { received := none } := by
  have hany : (run (step Loop.debugSetup fun _ => 0)
      { loop := Loop.startedLoop, received := [], consumed := [] } readInTwoParts).any
        (fun s => decide (s.consumed = [7, 8, 9])) = true := by
    decide +kernel
  rcases exists_run_of_any hany with ⟨s, hrun, hconsumed⟩
  rcases input_intact Loop.debugSetup _ rfl hrun with ⟨hbalance, hreads⟩
  exact ⟨s, hrun, hconsumed, hbalance, hreads { received := none } (by simp)⟩

end Inbound

end Net
end Muradin
