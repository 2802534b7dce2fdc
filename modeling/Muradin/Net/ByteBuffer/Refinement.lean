import Mathlib.Logic.Function.Basic
import Muradin.Lib.Machine
import Muradin.Net.ByteBuffer.Spec

/-!
# Refinement — runs of byte buffers refine runs of byte queues

`Op` are the public member functions of one buffer, `HeapOp` those of any number of buffers
(appending one buffer to another one and swapping two of them included).  A caller that catches
`std::length_error` goes on with the buffers as they are, so a run is a list of operations and the
list of their replies.

`run_refines_fifo`: as long as every call meets its asserted precondition and no size computation
reaches `2 ^ 64`, a run never gets stuck, keeps the documented layout of every buffer, and is a run
of queues with the same replies.  A call throws only where the container would have to be larger than
`max_size()`.
-/

namespace Muradin
namespace Net

open Lib Cpp

namespace ByteBuffer

/-! ## Operations on one buffer -/

inductive Op
  | append (data : Block)
  | appendStr (szStr : Block)
  | appendUint8 (val : BitVec 8)
  | appendUint16 (val : BitVec 16) (byteorderCov : Bool)
  | appendUint32 (val : BitVec 32) (byteorderCov : Bool)
  | appendUint64 (val : BitVec 64) (byteorderCov : Bool)
  | ensureWriteSpace (bytes : Nat)
  /-- `ensure_write_space(room)`, `bytes` stored at `wt_ptr()`, `has_written` -/
  | fill (room : Nat) (bytes : List Byte)
  | discard (bytes : Nat)
  | rollbackWrite (bytes : Nat)
  | discardAll
  | shrink (resverBytes : Nat)
  | retrieveUint8
  | retrieveUint16 (byteorderCov : Bool)
  | retrieveUint32 (byteorderCov : Bool)
  | retrieveUint64 (byteorderCov : Bool)
  | retrieveString

/-- What a call returns. -/
inductive Out
  | unit
  | size (n : Nat)
  | uint (val : Nat)
  | string (bytes : List Byte)
  deriving DecidableEq

namespace Op

def exec (B : Build) (host : ByteOrder) : Op → Method ByteBuffer Out
  | append data => Out.size <$> ByteBuffer.append B data.1
  | appendStr szStr => Out.size <$> ByteBuffer.appendStr B szStr.1
  | appendUint8 val => Out.size <$> ByteBuffer.appendUint8 B host val
  | appendUint16 val cov => Out.size <$> ByteBuffer.appendUint16 B host val cov
  | appendUint32 val cov => Out.size <$> ByteBuffer.appendUint32 B host val cov
  | appendUint64 val cov => Out.size <$> ByteBuffer.appendUint64 B host val cov
  | ensureWriteSpace bytes => (fun _ => Out.unit) <$> ByteBuffer.ensureWriteSpace B bytes
  | fill room bytes => Out.size <$> ByteBuffer.fill B room bytes
  | discard bytes => Out.size <$> ByteBuffer.discard B bytes
  | rollbackWrite bytes => Out.size <$> ByteBuffer.rollbackWrite B bytes
  | discardAll => (fun _ => Out.unit) <$> ByteBuffer.discardAll
  | shrink resverBytes => (fun _ => Out.unit) <$> ByteBuffer.shrink B resverBytes
  | retrieveUint8 => (fun v => Out.uint v.toNat) <$> ByteBuffer.retrieveUint8 B host
  | retrieveUint16 cov => (fun v => Out.uint v.toNat) <$> ByteBuffer.retrieveUint16 B host cov
  | retrieveUint32 cov => (fun v => Out.uint v.toNat) <$> ByteBuffer.retrieveUint32 B host cov
  | retrieveUint64 cov => (fun v => Out.uint v.toNat) <$> ByteBuffer.retrieveUint64 B host cov
  | retrieveString => Out.string <$> ByteBuffer.retrieveString B

/-- The asserted preconditions, and that no size computation reaches `2 ^ 64`. -/
def Pre (b : ByteBuffer) : Op → Prop
  | ensureWriteSpace bytes => bytes + b.wtIndex < SizeT.modulus
  | fill room bytes => bytes.length ≤ room ∧ room + b.wtIndex < SizeT.modulus
  | discard bytes => bytes ≤ b.content.length
  | rollbackWrite bytes => bytes ≤ b.content.length
  | shrink resverBytes => resverIndex + b.content.length + resverBytes < SizeT.modulus
  | retrieveUint8 => 1 ≤ b.content.length
  | retrieveUint16 _ => 2 ≤ b.content.length
  | retrieveUint32 _ => 4 ≤ b.content.length
  | retrieveUint64 _ => 8 ≤ b.content.length
  | _ => True

instance (b : ByteBuffer) : (op : Op) → Decidable (Pre b op)
  | .ensureWriteSpace _ | .shrink _ => Nat.decLt _ _
  | .discard _ | .rollbackWrite _ | .retrieveUint8 | .retrieveUint16 _ | .retrieveUint32 _
  | .retrieveUint64 _ => Nat.decLe _ _
  | .fill room bytes =>
      inferInstanceAs (Decidable (bytes.length ≤ room ∧ room + b.wtIndex < SizeT.modulus))
  | .append _ | .appendStr _ | .appendUint8 _ | .appendUint16 _ _ | .appendUint32 _ _
  | .appendUint64 _ _ | .discardAll | .retrieveString => inferInstanceAs (Decidable True)

/-- The call asks for a container larger than `max_size()`. -/
def TooLarge (b : ByteBuffer) : Op → Prop
  | append data => CharVector.maxSize < data.1.length + b.wtIndex
  | appendStr szStr => CharVector.maxSize < (szStr.1.takeWhile (· ≠ 0)).length + b.wtIndex
  | appendUint8 _ => CharVector.maxSize < 1 + b.wtIndex
  | appendUint16 _ _ => CharVector.maxSize < 2 + b.wtIndex
  | appendUint32 _ _ => CharVector.maxSize < 4 + b.wtIndex
  | appendUint64 _ _ => CharVector.maxSize < 8 + b.wtIndex
  | ensureWriteSpace bytes => CharVector.maxSize < bytes + b.wtIndex
  | fill room _ => CharVector.maxSize < room + b.wtIndex
  | shrink resverBytes => CharVector.maxSize < resverIndex + b.content.length + resverBytes
  | _ => False

/-- The free space that a call promises in the buffer `b` it leaves. -/
def Room (b : ByteBuffer) : Op → Prop
  | ensureWriteSpace bytes => bytes ≤ b.storage - b.wtIndex
  | shrink resverBytes =>
      b.storage - b.wtIndex = resverBytes ∧
        b.storage = resverIndex + b.content.length + resverBytes
  | _ => True

/-! ## The same operations on a queue -/

/-- The bytes of a word that `append_uint*` appends. -/
def encodeUint {w : Nat} (host : ByteOrder) (n : Nat) (htobe htole : ByteOrder → BitVec w → BitVec w)
    (val : BitVec w) (byteorderCov : Bool) (order : ByteOrder) : List Byte :=
  memoryImage host n
    (if byteorderCov then if order = .bigEndian then htobe host val else htole host val else val)

def pushed (q : ByteFifo) (data : List Byte) : ByteFifo × Out :=
  (q.push data, .size (q.push data).content.length)

def onFifo (host : ByteOrder) (q : ByteFifo) : Op → ByteFifo × Out
  | append data => pushed q data.1
  | appendStr szStr => pushed q (szStr.1.takeWhile (· ≠ 0))
  | appendUint8 val => pushed q (memoryImage host 1 val)
  | appendUint16 val cov => pushed q (encodeUint host 2 htobe16 htole16 val cov q.byteorder)
  | appendUint32 val cov => pushed q (encodeUint host 4 htobe32 htole32 val cov q.byteorder)
  | appendUint64 val cov => pushed q (encodeUint host 8 htobe64 htole64 val cov q.byteorder)
  | ensureWriteSpace _ => (q, .unit)
  | fill _ bytes => pushed q bytes
  | discard bytes => (q.pop bytes, .size (q.pop bytes).content.length)
  | rollbackWrite bytes => (q.unpush bytes, .size (q.unpush bytes).content.length)
  | discardAll => (q.clear, .unit)
  | shrink _ => (q, .unit)
  | retrieveUint8 =>
      (q.pop 1, .uint (decodeUint host 1 (fun (_ : ByteOrder) (val : BitVec 8) => val) false q).toNat)
  | retrieveUint16 cov => (q.pop 2, .uint (decodeUint host 2 (byteorderValueS host) cov q).toNat)
  | retrieveUint32 cov => (q.pop 4, .uint (decodeUint host 4 (byteorderValueL host) cov q).toNat)
  | retrieveUint64 cov => (q.pop 8, .uint (decodeUint host 8 (byteorderValueLl host) cov q).toNat)
  | retrieveString =>
      if 0 ∈ q.content then
        (q.pop (q.content.idxOf 0 + 1), .string (q.content.takeWhile (· ≠ 0)))
      else
        (q, .string [])

/-! ## One call -/

variable {b : ByteBuffer} {q : ByteFifo} {B : Build} {host : ByteOrder} {α : Type}

/-- A call either returns what the queue says or throws for lack of memory. -/
def Meets (B : Build) (host : ByteOrder) (op : Op) (b : ByteBuffer) (q : ByteFifo) : Prop :=
  (∃ b', (op.exec B host).run b = .ok (op.onFifo host q).2 b' ∧
      b'.Represents (op.onFifo host q).1 ∧ op.Room b') ∨
    Throws (op.exec B host) b ∧ op.TooLarge b

theorem throws_map {f : α → Out} {m : Method ByteBuffer α} {b : ByteBuffer} (h : Throws m b) :
    Throws (f <$> m) b :=
  run_map_error h

/-- The call lemma for a function that pushes bytes and returns the size. -/
theorem meets_of_push {op : Op} {m : Method ByteBuffer Nat} {data : List Byte}
    (hexec : op.exec B host = Out.size <$> m) (hfifo : op.onFifo host q = pushed q data)
    (hroom : ∀ b', op.Room b')
    (h : Yields m b (q.push data) (q.push data).content.length ∨ Throws m b ∧ op.TooLarge b) :
    op.Meets B host b q := by
  rw [Meets, hexec, hfifo]
  rcases h with ⟨b', hrun, hrep⟩ | ⟨hthrow, hlarge⟩
  · exact Or.inl ⟨b', run_map_ok hrun, hrep, hroom b'⟩
  · exact Or.inr ⟨throws_map hthrow, hlarge⟩

/-- The call lemma for a function that always returns and promises no space. -/
theorem meets_of_yields {op : Op} {m : Method ByteBuffer α} {f : α → Out} {a : α} {q' : ByteFifo}
    (hexec : op.exec B host = f <$> m) (hfifo : op.onFifo host q = (q', f a))
    (hroom : ∀ b', op.Room b') (h : Yields m b q' a) : op.Meets B host b q := by
  rw [Meets, hexec, hfifo]
  rcases h with ⟨b', hrun, hrep⟩
  exact Or.inl ⟨b', run_map_ok hrun, hrep, hroom b'⟩

theorem length_encodeUint {w : Nat} (host : ByteOrder) (n : Nat)
    (htobe htole : ByteOrder → BitVec w → BitVec w) (val : BitVec w) (cov : Bool)
    (order : ByteOrder) : (encodeUint host n htobe htole val cov order).length = n :=
  length_memoryImage host n _

theorem run_appendUint {w : Nat} (h : b.Represents q) (host : ByteOrder) (n : Nat)
    (htobe htole : ByteOrder → BitVec w → BitVec w) (val : BitVec w) (cov : Bool) :
    (appendUint B host n htobe htole val cov).run b =
      (ByteBuffer.append B (encodeUint host n htobe htole val cov q.byteorder)).run b := by
  rw [← h.byteorder_eq]
  rfl

/-- `append_uint*` at any width. -/
theorem appendUint_spec {w : Nat} (h : b.Represents q) (host : ByteOrder) {n : Nat} (hn : n ≤ 8)
    (htobe htole : ByteOrder → BitVec w → BitVec w) (val : BitVec w) (cov : Bool) :
    Yields (appendUint B host n htobe htole val cov) b
        (q.push (encodeUint host n htobe htole val cov q.byteorder))
        (q.push (encodeUint host n htobe htole val cov q.byteorder)).content.length ∨
      Throws (appendUint B host n htobe htole val cov) b ∧ CharVector.maxSize < n + b.wtIndex := by
  have hlen := length_encodeUint host n htobe htole val cov q.byteorder
  have hmax : (encodeUint host n htobe htole val cov q.byteorder).length ≤ CharVector.maxSize := by
    rw [hlen]
    exact Nat.le_trans hn (by decide)
  have hrun := run_appendUint (B := B) h host n htobe htole val cov
  rcases h.append_spec (B := B) hmax with ⟨b', hb', hrep⟩ | ⟨hthrow, hlarge⟩
  · exact Or.inl ⟨b', hrun.trans hb', hrep⟩
  · rw [hlen] at hlarge
    exact Or.inr ⟨hrun.trans hthrow, hlarge⟩

/-- Every call that meets its precondition does what the queue says. -/
theorem meets_of_pre (op : Op) (h : b.Represents q) (hpre : op.Pre b) : op.Meets B host b q := by
  have hlen : b.content.length = q.content.length := congrArg List.length h.content_eq
  cases op with
  | append data => exact meets_of_push rfl rfl (fun _ => trivial) (h.append_spec data.2)
  | appendStr szStr =>
      -- Only the bytes before the first 0 are appended.
      have hle : (szStr.1.takeWhile (· ≠ 0)).length ≤ szStr.1.length :=
        (List.takeWhile_prefix _).length_le
      exact meets_of_push rfl rfl (fun _ => trivial) (h.append_spec (Nat.le_trans hle szStr.2))
  | appendUint8 val =>
      have hmax : (memoryImage host 1 val).length ≤ CharVector.maxSize := by
        rw [length_memoryImage]
        decide
      refine meets_of_push rfl rfl (fun _ => trivial) ?_
      have hspec := h.append_spec (B := B) hmax
      rwa [length_memoryImage] at hspec
  | appendUint16 val cov =>
      exact meets_of_push rfl rfl (fun _ => trivial) (appendUint_spec h host (by decide) _ _ val cov)
  | appendUint32 val cov =>
      exact meets_of_push rfl rfl (fun _ => trivial) (appendUint_spec h host (by decide) _ _ val cov)
  | appendUint64 val cov =>
      exact meets_of_push rfl rfl (fun _ => trivial) (appendUint_spec h host (by decide) _ _ val cov)
  | ensureWriteSpace bytes =>
      rcases h.makeSpace_spec (B := B) hpre with ⟨b', hrun, hrep, hroom⟩ | ⟨hthrow, hlarge⟩
      · exact Or.inl ⟨b', run_map_ok hrun, hrep, Nat.le_sub_of_add_le (by omega)⟩
      · exact Or.inr ⟨throws_map hthrow, hlarge⟩
  | fill room bytes =>
      exact meets_of_push rfl rfl (fun _ => trivial) (h.fill_spec hpre.1 hpre.2)
  | discard bytes =>
      have hpre : bytes ≤ q.content.length := hlen ▸ hpre
      exact meets_of_yields rfl rfl (fun _ => trivial) (h.discard_spec hpre)
  | rollbackWrite bytes =>
      have hpre : bytes ≤ q.content.length := hlen ▸ hpre
      exact meets_of_yields rfl rfl (fun _ => trivial) (h.rollbackWrite_spec hpre)
  | discardAll => exact meets_of_yields rfl rfl (fun _ => trivial) h.discardAll_spec
  | shrink resverBytes =>
      have hpre : resverIndex + b.content.length + resverBytes < SizeT.modulus := hpre
      rw [hlen] at hpre
      rcases h.shrink_spec (B := B) hpre with ⟨b', hrun, hrep, hstorage, hfree⟩ | ⟨hthrow, hlarge⟩
      · refine Or.inl ⟨b', run_map_ok hrun, hrep, hfree, ?_⟩
        rw [hrep.content_eq]
        exact hstorage
      · rw [← hlen] at hlarge
        exact Or.inr ⟨throws_map hthrow, hlarge⟩
  | retrieveUint8 =>
      have hpre : 1 ≤ q.content.length := hlen ▸ hpre
      exact meets_of_yields rfl rfl (fun _ => trivial) (h.retrieveUint_spec hpre)
  | retrieveUint16 cov =>
      have hpre : 2 ≤ q.content.length := hlen ▸ hpre
      exact meets_of_yields rfl rfl (fun _ => trivial) (h.retrieveUint_spec hpre)
  | retrieveUint32 cov =>
      have hpre : 4 ≤ q.content.length := hlen ▸ hpre
      exact meets_of_yields rfl rfl (fun _ => trivial) (h.retrieveUint_spec hpre)
  | retrieveUint64 cov =>
      have hpre : 8 ≤ q.content.length := hlen ▸ hpre
      exact meets_of_yields rfl rfl (fun _ => trivial) (h.retrieveUint_spec hpre)
  | retrieveString =>
      -- Without a 0 among the readable bytes nothing is retrieved.
      by_cases h0 : 0 ∈ q.content
      · exact meets_of_yields rfl (if_pos h0) (fun _ => trivial) (h.retrieveString_spec h0)
      · exact meets_of_yields rfl (if_neg h0) (fun _ => trivial)
          ⟨b, h.retrieveString_spec_of_notMem h0, h⟩

end Op

/-! ## Any number of buffers -/

inductive HeapOp
  | on (i : Nat) (op : Op)
  /-- `bufs[i].append(bufs[j])` -/
  | appendBuffer (i j : Nat)
  | swap (i j : Nat)

inductive Reply
  | returned (out : Out)
  | threw
  deriving DecidableEq

/-- All buffers of a program, and what its calls have returned so far. -/
structure Heap where
  bufs : Nat → ByteBuffer
  replies : List Reply

/-- The queues that the buffers hold. -/
def Heap.toFifos (s : Heap) : Nat → ByteFifo :=
  fun i => (s.bufs i).toFifo

/-- A call on buffer `i`. -/
def atIndex {α : Type} (i : Nat) (m : Method ByteBuffer α) : Method (Nat → ByteBuffer) α :=
  onField (fun bufs => bufs i) (fun b bufs => Function.update bufs i b) m

theorem run_atIndex_ok {α : Type} {i : Nat} {m : Method ByteBuffer α} {bufs : Nat → ByteBuffer}
    {a : α} {b : ByteBuffer} (h : m.run (bufs i) = .ok a b) :
    (atIndex i m).run bufs = .ok a (Function.update bufs i b) :=
  run_onField_ok h

/-- An exception that left the buffer as it was left all of them as they were. -/
theorem run_atIndex_throws {α : Type} {i : Nat} {m : Method ByteBuffer α}
    {bufs : Nat → ByteBuffer} (h : Throws m (bufs i)) :
    (atIndex i m).run bufs = .error .lengthError bufs := by
  have hrun : (atIndex i m).run bufs =
      .error .lengthError (Function.update bufs i (bufs i)) := run_onField_error h
  rwa [Function.update_eq_self] at hrun

namespace HeapOp

def exec (B : Build) (host : ByteOrder) : HeapOp → Method (Nat → ByteBuffer) Out
  | on i op => atIndex i (op.exec B host)
  | appendBuffer i j => do
      let bufs ← get
      atIndex i (Out.size <$> ByteBuffer.appendBuffer B (bufs j))
  | swap i j => do
      let bufs ← get
      let swapped := ByteBuffer.swap (bufs i) (bufs j)
      set (Function.update (Function.update bufs i swapped.1) j swapped.2)
      return .unit

/-- The source of `append` is another object. -/
def Pre (s : Heap) : HeapOp → Prop
  | on i op => op.Pre (s.bufs i)
  | appendBuffer i j => i ≠ j
  | swap _ _ => True

instance (s : Heap) : (op : HeapOp) → Decidable (Pre s op)
  | on i op => inferInstanceAs (Decidable (op.Pre (s.bufs i)))
  | appendBuffer i j => inferInstanceAs (Decidable (i ≠ j))
  | swap _ _ => .isTrue trivial

def TooLarge (bufs : Nat → ByteBuffer) : HeapOp → Prop
  | on i op => op.TooLarge (bufs i)
  | appendBuffer i j => CharVector.maxSize < (bufs j).content.length + (bufs i).wtIndex
  | swap _ _ => False

def Room (bufs : Nat → ByteBuffer) : HeapOp → Prop
  | on i op => op.Room (bufs i)
  | _ => True

def onFifos (host : ByteOrder) (qs : Nat → ByteFifo) : HeapOp → (Nat → ByteFifo) × Out
  | on i op => (Function.update qs i (op.onFifo host (qs i)).1, (op.onFifo host (qs i)).2)
  | appendBuffer i j =>
      (Function.update qs i ((qs i).push (qs j).content),
        .size ((qs i).push (qs j).content).content.length)
  | swap i j => (Function.update (Function.update qs i (qs j)) j (qs i), .unit)

/-- The call that led from `s` to `t` returned what the queues say and made the space it promises, or
it asked for a container larger than `max_size()`, threw, and changed no buffer. -/
def Answered (host : ByteOrder) (s t : Heap) (op : HeapOp) : Prop :=
  (t.replies = s.replies ++ [.returned (op.onFifos host s.toFifos).2] ∧
      t.toFifos = (op.onFifos host s.toFifos).1 ∧ op.Room t.bufs) ∨
    t = { bufs := s.bufs, replies := s.replies ++ [.threw] } ∧ op.TooLarge s.bufs

end HeapOp

/-- One call; a thrown `std::length_error` is caught by the caller. -/
def heapStep (B : Build) (host : ByteOrder) (s : Heap) (op : HeapOp) : Option Heap :=
  match (op.exec B host).run s.bufs with
  | .ok out bufs => some { bufs, replies := s.replies ++ [.returned out] }
  | .error .lengthError bufs => some { bufs, replies := s.replies ++ [.threw] }
  | .error _ _ => none

/-- The queues after a run with these replies, if queues can give them. -/
def fifoReplay (host : ByteOrder) : (Nat → ByteFifo) → List HeapOp → List Reply →
    Option (Nat → ByteFifo)
  | qs, [], [] => some qs
  | qs, _ :: ops, .threw :: replies => fifoReplay host qs ops replies
  | qs, op :: ops, .returned out :: replies =>
      if (op.onFifos host qs).2 = out then fifoReplay host (op.onFifos host qs).1 ops replies
      else none
  | _, _, _ => none

variable {B : Build} {host : ByteOrder}

theorem represents_update {bufs : Nat → ByteBuffer} {qs : Nat → ByteFifo}
    (h : ∀ k, (bufs k).Represents (qs k)) {i : Nat} {b : ByteBuffer} {q : ByteFifo}
    (hb : b.Represents q) :
    ∀ k, (Function.update bufs i b k).Represents (Function.update qs i q k) := by
  intro k
  by_cases hk : k = i
  · subst hk
    simpa using hb
  · simpa [Function.update_of_ne hk] using h k

/-- One call on buffers that represent queues. -/
theorem heapStep_spec (B : Build) (host : ByteOrder) {s : Heap} {qs : Nat → ByteFifo}
    (h : ∀ k, (s.bufs k).Represents (qs k)) (op : HeapOp) (hpre : op.Pre s) :
    (∃ bufs, heapStep B host s op =
        some { bufs, replies := s.replies ++ [.returned (op.onFifos host qs).2] } ∧
        (∀ k, (bufs k).Represents ((op.onFifos host qs).1 k)) ∧ op.Room bufs) ∨
      heapStep B host s op = some { bufs := s.bufs, replies := s.replies ++ [.threw] } ∧
        op.TooLarge s.bufs := by
  cases op with
  | on i op =>
      rcases op.meets_of_pre (B := B) (h i) hpre with ⟨b', hrun, hrep, hroom⟩ | ⟨hthrow, hlarge⟩
      · left
        refine ⟨Function.update s.bufs i b', ?_, represents_update h hrep, ?_⟩
        · have hexec : (HeapOp.exec B host (.on i op)).run s.bufs =
              .ok (op.onFifo host (qs i)).2 (Function.update s.bufs i b') := run_atIndex_ok hrun
          simp only [heapStep, hexec, HeapOp.onFifos]
        · simpa [HeapOp.Room] using hroom
      · right
        refine ⟨?_, hlarge⟩
        have hexec : (HeapOp.exec B host (.on i op)).run s.bufs =
            .error .lengthError s.bufs := run_atIndex_throws hthrow
        simp only [heapStep, hexec]
  | appendBuffer i j =>
      rcases (h i).appendBuffer_spec (B := B) (h j) with ⟨b', hrun, hrep⟩ | ⟨hthrow, hlarge⟩
      · left
        refine ⟨Function.update s.bufs i b', ?_, represents_update h hrep, trivial⟩
        have hexec : (HeapOp.exec B host (.appendBuffer i j)).run s.bufs =
            .ok (.size ((qs i).push (qs j).content).content.length)
              (Function.update s.bufs i b') := run_atIndex_ok (run_map_ok hrun)
        simp only [heapStep, hexec, HeapOp.onFifos]
      · right
        refine ⟨?_, ?_⟩
        · have hexec : (HeapOp.exec B host (.appendBuffer i j)).run s.bufs =
              .error .lengthError s.bufs := run_atIndex_throws (Op.throws_map hthrow)
          simp only [heapStep, hexec]
        · show CharVector.maxSize < (s.bufs j).content.length + (s.bufs i).wtIndex
          rw [(h j).content_eq]
          exact hlarge
  | swap i j =>
      left
      have hswap := (h i).swap_spec (h j)
      exact ⟨_, rfl, represents_update (represents_update h hswap.1) hswap.2, trivial⟩

theorem Heap.toFifos_eq {s : Heap} {qs : Nat → ByteFifo}
    (h : ∀ k, (s.bufs k).Represents (qs k)) : s.toFifos = qs := by
  funext k
  exact (h k).toFifo_eq

/-- The step lemma: a call in the documented layout keeps it and is answered. -/
theorem heapStep_answered (B : Build) (host : ByteOrder) {s : Heap} (h : ∀ k, (s.bufs k).Inv)
    {op : HeapOp} (hpre : op.Pre s) :
    ∃ t, heapStep B host s op = some t ∧ (∀ k, (t.bufs k).Inv) ∧ op.Answered host s t := by
  have hrep : ∀ k, (s.bufs k).Represents (s.toFifos k) := fun k => (h k).represents
  rcases heapStep_spec B host hrep op hpre with ⟨bufs, hstep, hrep, hroom⟩ | ⟨hstep, hlarge⟩
  · exact ⟨_, hstep, fun k => (hrep k).toInv, Or.inl ⟨rfl, Heap.toFifos_eq hrep, hroom⟩⟩
  · exact ⟨_, hstep, h, Or.inr ⟨rfl, hlarge⟩⟩

/-- A run in the documented layout: it is never stuck, and its replies are those of the queues. -/
theorem run_spec {s : Heap} (h : ∀ k, (s.bufs k).Inv) {ops : List HeapOp}
    (hpre : Along (heapStep B host) HeapOp.Pre s ops) :
    ∃ t replies, run (heapStep B host) s ops = some t ∧ t.replies = s.replies ++ replies ∧
      (∀ k, (t.bufs k).Inv) ∧ fifoReplay host s.toFifos ops replies = some t.toFifos := by
  -- On the calls: a call that throws is skipped by the queues.
  induction ops generalizing s with
  | nil => exact ⟨s, [], run_nil s, (List.append_nil _).symm, h, rfl⟩
  | cons op ops ih =>
      obtain ⟨hop, hrest⟩ := hpre
      rcases heapStep_answered B host h hop with ⟨u, hstep, hu, hanswered⟩
      rcases ih hu (hrest u hstep) with ⟨t, replies, hrun, hreplies, ht, hreplay⟩
      have hrun' : run (heapStep B host) s (op :: ops) = some t := run_cons.mpr ⟨u, hstep, hrun⟩
      rcases hanswered with ⟨hreply, hfifos, -⟩ | ⟨rfl, -⟩
      · refine ⟨t, .returned (op.onFifos host s.toFifos).2 :: replies, hrun', ?_, ht, ?_⟩
        · rw [hreplies, hreply, List.append_assoc]
          rfl
        · rw [hfifos] at hreplay
          simpa [fifoReplay] using hreplay
      · refine ⟨t, .threw :: replies, hrun', ?_, ht, hreplay⟩
        rw [hreplies, List.append_assoc]
        rfl

/-- Buffers as constructed, before any call. -/
def Fresh (order : Nat → ByteOrder) (size : Nat → Nat) (bufs : Nat → ByteBuffer) : Prop :=
  ∀ i, construct (order i) (size i) = .ok (bufs i) ∧ size i + resverIndex < SizeT.modulus

theorem Fresh.represents {order : Nat → ByteOrder} {size : Nat → Nat} {bufs : Nat → ByteBuffer}
    (h : Fresh order size bufs) :
    ∀ i, (bufs i).Represents { content := [], byteorder := order i } := by
  intro i
  rcases h i with ⟨hok, hwrap⟩
  rcases Nat.lt_or_ge CharVector.maxSize (size i + resverIndex) with hlarge | hle
  · -- The constructor would have thrown.
    have herr := CharVector.ofSize_eq_error hlarge
    rw [construct, SizeT.add_eq hwrap, herr] at hok
    cases hok
  · rcases construct_represents (order i) hle with ⟨b, hb, hrep, -⟩
    rw [hb] at hok
    cases hok
    exact hrep

/-- Byte buffers are queues of bytes: a run of calls that meet their preconditions on fresh
buffers is never stuck, keeps every buffer in the documented layout, and leaves in each buffer what
the queue of the same calls holds, with the same replies.  Every call of it either returns, with the
space it was promised, or throws for want of a container larger than `max_size()`. -/
theorem run_refines_fifo (B : Build) (host : ByteOrder) {order : Nat → ByteOrder}
    {size : Nat → Nat} {bufs₀ : Nat → ByteBuffer} (hfresh : Fresh order size bufs₀)
    (ops : List HeapOp)
    (hpre : Along (heapStep B host) HeapOp.Pre { bufs := bufs₀, replies := [] } ops) :
    (∃ t, run (heapStep B host) { bufs := bufs₀, replies := [] } ops = some t ∧
      fifoReplay host (fun i => { content := [], byteorder := order i }) ops t.replies =
        some t.toFifos ∧
      ∀ i, (t.bufs i).Inv) ∧
    ∀ ops' op, ops' ++ [op] <+: ops →
      ∃ s t, run (heapStep B host) { bufs := bufs₀, replies := [] } ops' = some s ∧
        heapStep B host s op = some t ∧ (∀ i, (s.bufs i).Inv) ∧ op.Answered host s t := by
  have hrep := hfresh.represents
  have hempty : Heap.toFifos { bufs := bufs₀, replies := [] } =
      fun i => { content := [], byteorder := order i } := Heap.toFifos_eq hrep
  have hinv : ∀ k, (({ bufs := bufs₀, replies := [] } : Heap).bufs k).Inv := fun k => (hrep k).toInv
  constructor
  · rcases run_spec hinv hpre with ⟨t, replies, hrun, hreplies, ht, hreplay⟩
    refine ⟨t, hrun, ?_, ht⟩
    rw [hreplies, ← hempty]
    exact hreplay
  · -- A call of the run is one more step behind a run of the same kind.
    rintro ops' op ⟨rest, rfl⟩
    obtain ⟨hpre', hlast⟩ := hpre.append.1.append
    rcases run_spec hinv hpre' with ⟨s, -, hrun, -, hs, -⟩
    rcases heapStep_answered B host hs (hlast s hrun).1 with
      ⟨t, hstep, -, hanswered⟩
    exact ⟨s, t, hrun, hstep, hs, hanswered⟩

/-- `bytebuffer(big_endian, 4)`. -/
def freshFour : ByteBuffer :=
  { byteorder := .bigEndian
    contianer :=
      { elems := List.replicate 12 0
        capacity := 12
        length_le_capacity := by decide
        capacity_le_max := by decide }
    rdIndex := 8
    wtIndex := 8 }

/-- Space is made, five bytes are appended to another buffer, and this one is appended and swapped. -/
def fiveSwapped : List HeapOp :=
  [.on 0 (.ensureWriteSpace 3), .on 1 (.append ⟨[2, 3, 5, 7, 11], by decide⟩), .appendBuffer 0 1,
    .on 0 (.discard 2), .swap 0 1]

theorem run_refines_fifo_fiveSwapped :
    ∃ t, run (heapStep .debug .liteEndian) { bufs := fun _ => freshFour, replies := [] }
        fiveSwapped = some t ∧
      t.replies = [.returned .unit, .returned (.size 5), .returned (.size 5), .returned (.size 3),
        .returned .unit] ∧
      (t.bufs 1).content = [5, 7, 11] ∧ (∀ i, (t.bufs i).Inv) ∧
      fifoReplay .liteEndian (fun _ => { content := [], byteorder := .bigEndian }) fiveSwapped
        t.replies = some t.toFifos := by
  have hfresh : Fresh (fun _ => .bigEndian) (fun _ => 4) (fun _ => freshFour) :=
    fun _ => ⟨rfl, (by decide : 4 + resverIndex < SizeT.modulus)⟩
  have hany : (run (heapStep .debug .liteEndian) { bufs := fun _ => freshFour, replies := [] }
      fiveSwapped).any (fun t => decide (t.replies = [.returned .unit, .returned (.size 5),
        .returned (.size 5), .returned (.size 3), .returned .unit] ∧
        (t.bufs 1).content = [5, 7, 11])) = true := by
    decide +kernel
  rcases exists_run_of_any hany with ⟨t, hrun, hreplies, hcontent⟩
  have hpre : Along (heapStep .debug .liteEndian) HeapOp.Pre
      { bufs := fun _ => freshFour, replies := [] } fiveSwapped := by
    decide +kernel
  rcases run_refines_fifo .debug .liteEndian hfresh fiveSwapped hpre with
    ⟨⟨t', hrun', hreplay, hinv⟩, -⟩
  cases hrun.symm.trans hrun'
  exact ⟨t, hrun, hreplies, hcontent, hinv, hreplay⟩

end ByteBuffer

end Net
end Muradin
