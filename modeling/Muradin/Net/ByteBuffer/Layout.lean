import Muradin.Net.ByteBuffer.Refinement

/-!
# Layout — `resize` and the documented layout

`LayoutOp` are all public member functions: those of a queue, the ones that only read, and
`byteorder`, `has_written` and `resize`.  The first keep the documented layout whenever their
asserted preconditions are met.  `resize` changes the container and nothing else: it drops the
elements from `new_capacity + m_resver_index` on, and with them whatever lies below the write index
there.

A buffer that is appended to itself is an `append` of its readable size: which bytes the pointer
taken before `make_space` then shows plays no part in the layout.

`layout_iff_resize_covers`: the layout holds after every call exactly when every `resize` leaves a
container that covers the write index.
-/

namespace Muradin
namespace Net

open Lib Cpp

namespace ByteBuffer

variable {b : ByteBuffer} {B : Build} {host : ByteOrder}

/-! ## What the layout is for -/

/-- The documented layout, and what the rest of the class relies on it for: `writeable_bytes()`
counts the elements behind the write index, and no later append stores outside the elements. -/
structure Intact (B : Build) (b : ByteBuffer) : Prop extends Inv b where
  writeable : ∃ n, (writeableBytes B).run b = .ok n b ∧ b.wtIndex + n = b.storage
  append_within : ∀ (data : Block) b', (append B data.1).run b ≠ .error .overrun b'

theorem Inv.intact (h : b.Inv) : b.Intact B := by
  refine { h with writeable := ?_, append_within := ?_ }
  · exact ⟨_, h.run_writeableBytes, Nat.add_sub_of_le h.wt_le_storage⟩
  · intro data b' hrun
    rcases h.represents.append_spec (B := B) data.2 with ⟨b'', hyields, -⟩ | ⟨hthrow, -⟩
    · rw [hyields] at hrun
      cases hrun
    · rw [hthrow] at hrun
      cases hrun

/-! ## Functions that only read -/

inductive Query
  | readableBytes
  | writeableBytes
  | discardableBytes
  | readUint8
  | readUint16 (byteorderCov : Bool)
  | readUint32 (byteorderCov : Bool)
  | readUint64 (byteorderCov : Bool)
  | findChar (c : Byte)
  | asString
  deriving DecidableEq

namespace Query

def exec (B : Build) (host : ByteOrder) : Query → Method ByteBuffer Out
  | readableBytes => Out.size <$> ByteBuffer.readableBytes B
  | writeableBytes => Out.size <$> ByteBuffer.writeableBytes B
  | discardableBytes => Out.size <$> ByteBuffer.discardableBytes B
  | readUint8 => (fun v => Out.uint v.toNat) <$> ByteBuffer.readUint8 B host
  | readUint16 cov => (fun v => Out.uint v.toNat) <$> ByteBuffer.readUint16 B host cov
  | readUint32 cov => (fun v => Out.uint v.toNat) <$> ByteBuffer.readUint32 B host cov
  | readUint64 cov => (fun v => Out.uint v.toNat) <$> ByteBuffer.readUint64 B host cov
  | findChar c => Out.size <$> ByteBuffer.findChar c
  | asString => Out.string <$> ByteBuffer.asString

/-- The asserted preconditions; the C string that `as_string()` copies ends inside the storage. -/
def Pre (b : ByteBuffer) : Query → Prop
  | readUint8 => 1 ≤ b.content.length
  | readUint16 _ => 2 ≤ b.content.length
  | readUint32 _ => 4 ≤ b.content.length
  | readUint64 _ => 8 ≤ b.content.length
  | asString => 0 ∈ b.contianer.elems.drop b.rdIndex
  | _ => True

theorem run_exec (B : Build) (host : ByteOrder) (query : Query) (h : b.Inv) (hpre : query.Pre b) :
    ∃ out, (query.exec B host).run b = .ok out b := by
  have hrep := h.represents
  cases query with
  | readableBytes => exact ⟨_, run_map_ok h.run_readableBytes⟩
  | writeableBytes => exact ⟨_, run_map_ok h.run_writeableBytes⟩
  | discardableBytes => exact ⟨_, run_map_ok h.run_discardableBytes⟩
  | readUint8 => exact ⟨_, run_map_ok (hrep.run_readUint hpre)⟩
  | readUint16 cov => exact ⟨_, run_map_ok (hrep.run_readUint hpre)⟩
  | readUint32 cov => exact ⟨_, run_map_ok (hrep.run_readUint hpre)⟩
  | readUint64 cov => exact ⟨_, run_map_ok (hrep.run_readUint hpre)⟩
  | findChar c => exact ⟨_, run_map_ok (hrep.run_findChar c)⟩
  | asString =>
      -- The precondition is that a 0 follows in the container.
      have hload : b.contianer.loadCString b.rdIndex =
          .ok ((b.contianer.elems.drop b.rdIndex).takeWhile (· ≠ 0)) := if_pos hpre
      have hrun : (ByteBuffer.asString).run b =
          .ok ((b.contianer.elems.drop b.rdIndex).takeWhile (· ≠ 0)) b := by
        simp only [ByteBuffer.asString, EStateM.run_bind, EStateM.run_get, hload, run_orThrow_ok]
      exact ⟨_, run_map_ok hrun⟩

end Query

/-! ## `has_written` and `resize` -/

theorem Inv.hasWritten_spec (h : b.Inv) {n : Nat} (hn : b.wtIndex + n ≤ b.storage) :
    ∃ b', (hasWritten B n).run b = .ok b'.content.length b' ∧ b'.Inv := by
  have hadd : SizeT.add b.wtIndex n = b.wtIndex + n :=
    SizeT.add_eq (Nat.lt_of_le_of_lt hn b.contianer.size_lt_modulus)
  have hassert : SizeT.add b.wtIndex n ≤ b.storage := by rwa [hadd]
  have hinv : ({ b with wtIndex := b.wtIndex + n } : ByteBuffer).Inv :=
    { resver_le_rd := h.resver_le_rd
      rd_le_wt := Nat.le_trans h.rd_le_wt (Nat.le_add_right _ _)
      wt_le_storage := hn }
  refine ⟨_, ?_, hinv⟩
  simp only [hasWritten, EStateM.run_bind, EStateM.run_get, run_cassert_of hassert, EStateM.run_set,
    hadd, hinv.run_readableBytes]

/-- `resize` either throws and leaves the buffer as it was, which only a size above the write index
can do, or keeps the layout exactly when the new container covers the write index. -/
theorem Inv.resize_spec (h : b.Inv) {n : Nat} (hn : n + resverIndex < SizeT.modulus) :
    (∃ b', (resize n).run b = .ok () b' ∧ (b'.Inv ↔ b.wtIndex ≤ n + resverIndex)) ∨
      Throws (resize n) b ∧ b.wtIndex ≤ n + resverIndex := by
  have hadd : SizeT.add n resverIndex = n + resverIndex := SizeT.add_eq hn
  have hwt : b.wtIndex ≤ b.contianer.size := h.wt_le_storage
  rcases Nat.lt_or_ge CharVector.maxSize (n + resverIndex) with hlarge | hmax
  · right
    -- The container throws before it is changed.
    have hsize := b.contianer.size_le_maxSize
    refine ⟨?_, by omega⟩
    simp only [Throws, resize, EStateM.run_bind, EStateM.run_get, hadd,
      CharVector.resize_eq_error hlarge, run_orThrow_error]
  · left
    rcases CharVector.resize_eq_ok hmax (v := b.contianer) with ⟨v, hv, hsize⟩
    refine ⟨{ b with contianer := v }, ?_, ?_⟩
    · simp only [resize, EStateM.run_bind, EStateM.run_get, hadd, hv, run_orThrow_ok,
        EStateM.run_set]
    · constructor
      -- The write index must still be inside the container.
      · intro hinv
        have hle : b.wtIndex ≤ v.size := hinv.wt_le_storage
        omega
      · intro hle
        exact
          { resver_le_rd := h.resver_le_rd
            rd_le_wt := h.rd_le_wt
            wt_le_storage := by
              show b.wtIndex ≤ v.size
              omega }

/-! ## Runs of all public member functions -/

inductive LayoutOp
  | heap (op : HeapOp)
  | query (i : Nat) (q : Query)
  | byteorder (i : Nat) (order : ByteOrder)
  | hasWritten (i : Nat) (bytes : Nat)
  | resize (i : Nat) (newCapacity : Nat)

namespace LayoutOp

def exec (B : Build) (host : ByteOrder) : LayoutOp → Method (Nat → ByteBuffer) Out
  | heap op => op.exec B host
  | query i q => atIndex i (q.exec B host)
  | byteorder i order => atIndex i ((fun _ => Out.unit) <$> setByteorder order)
  | hasWritten i bytes => atIndex i (Out.size <$> ByteBuffer.hasWritten B bytes)
  | resize i newCapacity => atIndex i ((fun _ => Out.unit) <$> ByteBuffer.resize newCapacity)

/-- The asserted preconditions, and that no size computation reaches `2 ^ 64`. -/
def Pre (s : Heap) : LayoutOp → Prop
  | heap op => op.Pre s
  | query i q => q.Pre (s.bufs i)
  | byteorder _ _ => True
  | hasWritten i bytes => (s.bufs i).wtIndex + bytes ≤ (s.bufs i).storage
  | resize _ newCapacity => newCapacity + resverIndex < SizeT.modulus

/-- A `resize` leaves the bytes below the write index in the container. -/
def ResizeCovers (s : Heap) : LayoutOp → Prop
  | resize i newCapacity => (s.bufs i).wtIndex ≤ newCapacity + resverIndex
  | _ => True

end LayoutOp

/-- One call; a thrown `std::length_error` is caught by the caller. -/
def layoutStep (B : Build) (host : ByteOrder) (s : Heap) (op : LayoutOp) : Option Heap :=
  match (op.exec B host).run s.bufs with
  | .ok out bufs => some { bufs, replies := s.replies ++ [.returned out] }
  | .error .lengthError bufs => some { bufs, replies := s.replies ++ [.threw] }
  | .error _ _ => none

/-- Every buffer is in the documented layout and safe to write to. -/
def Heap.Intact (B : Build) (s : Heap) : Prop :=
  ∀ i, (s.bufs i).Intact B

variable {s : Heap} {i : Nat}

theorem inv_update (h : ∀ k, (s.bufs k).Inv) (hb : b.Inv) :
    ∀ k, (Function.update s.bufs i b k).Inv := by
  intro k
  by_cases hk : k = i
  · subst hk
    simpa using hb
  · simpa [Function.update_of_ne hk] using h k

theorem layoutStep_of_ok {op : LayoutOp} {out : Out} {bufs : Nat → ByteBuffer}
    (h : (op.exec B host).run s.bufs = .ok out bufs) :
    layoutStep B host s op = some { bufs, replies := s.replies ++ [.returned out] } := by
  simp only [layoutStep, h]

theorem layoutStep_of_throws {op : LayoutOp} {bufs : Nat → ByteBuffer}
    (h : (op.exec B host).run s.bufs = .error .lengthError bufs) :
    layoutStep B host s op = some { bufs, replies := s.replies ++ [.threw] } := by
  simp only [layoutStep, h]

/-- One call on buffers in the documented layout: it is not stuck, and it leaves all of them in the
layout unless it is a `resize` below the write index. -/
theorem layoutStep_spec (B : Build) (host : ByteOrder) (op : LayoutOp) (h : ∀ k, (s.bufs k).Inv) (hpre : op.Pre s) :
    ∃ s', layoutStep B host s op = some s' ∧ ((∀ k, (s'.bufs k).Inv) ↔ op.ResizeCovers s) := by
  cases op with
  | heap op =>
      -- The calls of the queue keep the layout, whether they return or throw.
      have hstep : layoutStep B host s (.heap op) = heapStep B host s op := rfl
      rcases heapStep_spec B host (fun k => (h k).represents) op hpre with
        ⟨bufs, hsome, hrep, -⟩ | ⟨hsome, -⟩
      · exact ⟨_, hstep.trans hsome, iff_of_true (fun k => (hrep k).toInv) trivial⟩
      · exact ⟨_, hstep.trans hsome, iff_of_true h trivial⟩
  | query i q =>
      rcases q.run_exec B host (h i) hpre with ⟨out, hrun⟩
      exact ⟨_, layoutStep_of_ok (run_atIndex_ok hrun), iff_of_true (inv_update h (h i)) trivial⟩
  | byteorder i order =>
      have hinv : ({ s.bufs i with byteorder := order } : ByteBuffer).Inv := { h i with }
      have hrun : (setByteorder order).run (s.bufs i) =
          .ok () { s.bufs i with byteorder := order } := rfl
      exact ⟨_, layoutStep_of_ok (run_atIndex_ok (run_map_ok hrun)),
        iff_of_true (inv_update h hinv) trivial⟩
  | hasWritten i bytes =>
      rcases (h i).hasWritten_spec (B := B) hpre with ⟨b', hrun, hinv⟩
      exact ⟨_, layoutStep_of_ok (run_atIndex_ok (run_map_ok hrun)),
        iff_of_true (inv_update h hinv) trivial⟩
  | resize i newCapacity =>
      rcases (h i).resize_spec hpre with ⟨b', hrun, hiff⟩ | ⟨hthrow, hcovers⟩
      · refine ⟨_, layoutStep_of_ok (run_atIndex_ok (run_map_ok hrun)), ?_⟩
        constructor
        · intro hall
          have hb' : (Function.update s.bufs i b' i).Inv := hall i
          rw [Function.update_self] at hb'
          exact hiff.mp hb'
        · intro hcovers
          exact inv_update h (hiff.mpr hcovers)
      · exact ⟨_, layoutStep_of_throws (run_atIndex_throws (Op.throws_map hthrow)),
          iff_of_true h hcovers⟩

/-- The layout survives a sequence of calls, with everything that relies on it, exactly when every
`resize` in it covers the write index of its buffer at that point. -/
theorem layout_iff_resize_covers (B : Build) (host : ByteOrder) {order : Nat → ByteOrder}
    {size : Nat → Nat} {bufs₀ : Nat → ByteBuffer} (hfresh : Fresh order size bufs₀)
    (ops : List LayoutOp)
    (hpre : Along (layoutStep B host) (fun s op => s.Intact B → op.Pre s)
      { bufs := bufs₀, replies := [] } ops) :
    (∀ ops', ops' <+: ops →
        ∃ s, run (layoutStep B host) { bufs := bufs₀, replies := [] } ops' = some s ∧
          s.Intact B) ↔
      Along (layoutStep B host) (fun s op => op.ResizeCovers s)
        { bufs := bufs₀, replies := [] } ops := by
  refine prefixes_run_iff_along ?_ (fun i => (hfresh.represents i).toInv.intact) hpre
  intro s op hs hop
  rcases layoutStep_spec B host op (fun k => (hs k).toInv) hop with
    ⟨s', hstep, hiff⟩
  refine ⟨s', hstep, Iff.trans ?_ hiff⟩
  exact ⟨fun hall k => (hall k).toInv, fun hall k => (hall k).intact⟩

theorem layout_iff_resize_covers_freshFour :
    (∀ ops', ops' <+: [.hasWritten 0 4, .resize 0 4, .byteorder 0 .liteEndian] →
        ∃ s, run (layoutStep .debug .liteEndian)
            { bufs := fun _ => freshFour, replies := [] } ops' = some s ∧ s.Intact .debug) ↔
      Along (layoutStep .debug .liteEndian) (fun s op => op.ResizeCovers s)
        { bufs := fun _ => freshFour, replies := [] }
        [.hasWritten 0 4, .resize 0 4, .byteorder 0 .liteEndian] := by
  have hfresh : Fresh (fun _ => .bigEndian) (fun _ => 4) (fun _ => freshFour) :=
    fun _ => ⟨rfl, (by decide : 4 + resverIndex < SizeT.modulus)⟩
  have hwritten : LayoutOp.Pre { bufs := fun _ => freshFour, replies := [] } (.hasWritten 0 4) :=
    (by decide : 8 + 4 ≤ 12)
  have hresize : 4 + resverIndex < SizeT.modulus := by decide
  exact layout_iff_resize_covers .debug .liteEndian hfresh
    [.hasWritten 0 4, .resize 0 4, .byteorder 0 .liteEndian]
    ⟨fun _ => hwritten, fun _ _ => ⟨fun _ => hresize, fun _ _ => ⟨fun _ => trivial,
      fun _ _ => trivial⟩⟩⟩

/-- Four bytes are written and the buffer is resized to no bytes: all preconditions are met, but the
write index is behind the elements, `writeable_bytes()` passes its assertion and wraps, and the next
`append` reaches outside the elements. -/
theorem resize_below_content_breaks_layout :
    Along (layoutStep .debug .liteEndian) (fun s op => op.Pre s)
        { bufs := fun _ => freshFour, replies := [] } [.hasWritten 0 4, .resize 0 0] ∧
      ∃ s, run (layoutStep .debug .liteEndian) { bufs := fun _ => freshFour, replies := [] }
          [.hasWritten 0 4, .resize 0 0] = some s ∧
        ¬ (s.bufs 0).wtIndex ≤ (s.bufs 0).storage ∧
        (writeableBytes .debug).run (s.bufs 0) = .ok (2 ^ 64 - 4) (s.bufs 0) ∧
        ∃ b', (append .debug [1]).run (s.bufs 0) = .error .overrun b' := by
  have hwritten : LayoutOp.Pre { bufs := fun _ => freshFour, replies := [] } (.hasWritten 0 4) :=
    (by decide : 8 + 4 ≤ 12)
  have hresize : 0 + resverIndex < SizeT.modulus := by decide
  refine ⟨⟨hwritten, fun _ _ => ⟨hresize, fun _ _ => trivial⟩⟩, _, rfl, ?_, rfl, _, rfl⟩
  decide

end ByteBuffer

end Net
end Muradin
