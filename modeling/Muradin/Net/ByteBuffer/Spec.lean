import Mathlib.Data.List.TakeWhile
import Muradin.Net.ByteBuffer.Fifo

/-!
# Spec — what each member function of a byte buffer does to the queue

One lemma for each member function, for a buffer that represents a queue `q`:

* `Yields m b q' a` — `m` returns `a` and leaves a buffer that represents `q'`;
* `Throws m b` — `m` throws `std::length_error` and leaves the buffer as it was; this happens only
  when the container would have to be larger than `max_size()`.
-/

namespace Muradin
namespace Net

open Lib Cpp

namespace ByteBuffer

variable {b : ByteBuffer} {q : ByteFifo} {B : Build} {α : Type}

/-- `m` returns `a` and leaves a buffer that represents `q'`. -/
def Yields (m : Method ByteBuffer α) (b : ByteBuffer) (q' : ByteFifo) (a : α) : Prop :=
  ∃ b', m.run b = .ok a b' ∧ b'.Represents q'

/-- `m` throws `std::length_error` and leaves the buffer as it was. -/
def Throws (m : Method ByteBuffer α) (b : ByteBuffer) : Prop :=
  m.run b = .error .lengthError b

/-! ## Space -/

theorem Represents.makeSpace_spec (h : b.Represents q) {n : Nat}
    (hwrap : n + b.wtIndex < SizeT.modulus) :
    (∃ b', (makeSpace B n).run b = .ok () b' ∧ b'.Represents q ∧ b'.wtIndex + n ≤ b'.storage) ∨
      Throws (makeSpace B n) b ∧ CharVector.maxSize < n + b.wtIndex := by
  have hlen := length_content h.toInv
  have hrd := h.rd_le_wt
  have hresver : resverIndex ≤ b.rdIndex := h.resver_le_rd
  have hwt : b.wtIndex ≤ b.contianer.size := h.wt_le_storage
  by_cases hn : n ≤ b.freeBytes
  · -- Enough free bytes: the content is copied down, and the free bytes are all behind it.
    left
    rcases h.toInv.run_makeSpace_move (B := B) hn with ⟨v, hrun, helems, -⟩
    have hfits := h.content_fits
    have hsize : v.size = b.contianer.size := CharVector.size_of_stored hfits helems
    refine ⟨_, hrun, ?_, ?_⟩
    · refine h.of_window ?_ ?_ rfl
      · exact
          { resver_le_rd := Nat.le_refl _
            rd_le_wt := Nat.le_add_right _ _
            wt_le_storage := by
              show resverIndex + b.content.length ≤ v.size
              omega }
      · show window v.elems resverIndex (resverIndex + b.content.length) = b.content
        rw [helems, window_overlay hfits]
    · show resverIndex + b.content.length + n ≤ v.size
      unfold freeBytes storage at hn
      omega
  · -- The container must grow, unless the new size is more than a vector can have.
    have hn : b.freeBytes < n := Nat.lt_of_not_le hn
    by_cases hmax : n + b.wtIndex ≤ CharVector.maxSize
    · left
      rcases h.toInv.run_makeSpace_grow (B := B) hn hmax with ⟨v, hrun, helems, -⟩
      have hgrow : b.storage ≤ n + b.wtIndex := by
        unfold freeBytes storage at *
        omega
      have hsize : v.size = n + b.wtIndex := by
        have : b.storage = b.contianer.elems.length := rfl
        rw [CharVector.size, helems, List.length_append, List.length_replicate]
        omega
      refine ⟨_, hrun, ?_, ?_⟩
      · refine h.of_window ?_ ?_ rfl
        · exact
            { resver_le_rd := h.resver_le_rd
              rd_le_wt := h.rd_le_wt
              wt_le_storage := by
                show b.wtIndex ≤ v.size
                omega }
        · show window v.elems b.rdIndex b.wtIndex = b.content
          rw [helems, window_append_left hwt]
          rfl
      · show b.wtIndex + n ≤ v.size
        omega
    · right
      exact ⟨h.toInv.run_makeSpace_throw hn (Nat.lt_of_not_le hmax) hwrap, Nat.lt_of_not_le hmax⟩

theorem Represents.shrink_spec (h : b.Represents q) {n : Nat}
    (hwrap : resverIndex + q.content.length + n < SizeT.modulus) :
    (∃ b', (shrink B n).run b = .ok () b' ∧ b'.Represents q ∧
        b'.storage = resverIndex + q.content.length + n ∧ b'.storage - b'.wtIndex = n) ∨
      Throws (shrink B n) b ∧ CharVector.maxSize < resverIndex + q.content.length + n := by
  have hlen := h.length_eq
  have hrd := h.rd_le_wt
  have hwt : b.wtIndex ≤ b.contianer.size := h.wt_le_storage
  have hadd₁ : SizeT.add resverIndex q.content.length = resverIndex + q.content.length :=
    SizeT.add_eq (by omega)
  have hadd₂ : SizeT.add (resverIndex + q.content.length) n = resverIndex + q.content.length + n :=
    SizeT.add_eq hwrap
  by_cases hmax : resverIndex + q.content.length + n ≤ CharVector.maxSize
  · left
    rcases CharVector.ofSize_eq_ok hmax with ⟨buf, hbuf, hbufElems, -⟩
    have hbufSize : buf.size = resverIndex + q.content.length + n := by
      simp [CharVector.size, hbufElems]
    -- The new container takes the content to just behind its reserved bytes.
    have hload : b.contianer.load b.rdIndex (b.rdIndex + q.content.length) = .ok q.content := by
      have hend : b.rdIndex + q.content.length = b.wtIndex := by omega
      rw [hend, CharVector.load_eq_ok hrd hwt]
      exact congrArg Except.ok h.content_eq
    have hfits : resverIndex + q.content.length ≤ buf.size := by omega
    rcases CharVector.store_eq_ok hfits with ⟨v, hv, helems, -⟩
    have hsize : v.size = resverIndex + q.content.length + n :=
      (CharVector.size_of_stored hfits helems).trans hbufSize
    refine ⟨{ b with
      contianer := v, rdIndex := resverIndex, wtIndex := resverIndex + q.content.length },
      ?_, ?_, hsize, ?_⟩
    · simp only [shrink, EStateM.run_bind, h.run_readableBytes, EStateM.run_get, hadd₁, hadd₂, hbuf,
        run_orThrow_ok, hload, hv, EStateM.run_set]
    · exact
        { resver_le_rd := Nat.le_refl _
          rd_le_wt := Nat.le_add_right _ _
          wt_le_storage := by
            show resverIndex + q.content.length ≤ v.size
            omega
          content_eq := by
            show window v.elems resverIndex (resverIndex + q.content.length) = q.content
            rw [helems, window_overlay hfits]
          byteorder_eq := h.byteorder_eq }
    · show v.size - (resverIndex + q.content.length) = n
      omega
  · right
    have herr := CharVector.ofSize_eq_error (Nat.lt_of_not_le hmax)
    refine ⟨?_, Nat.lt_of_not_le hmax⟩
    simp only [Throws, shrink, EStateM.run_bind, h.run_readableBytes, EStateM.run_get, hadd₁, hadd₂,
      herr, run_orThrow_error]

theorem Represents.swap_spec {a b : ByteBuffer} {qa qb : ByteFifo} (ha : a.Represents qa)
    (hb : b.Represents qb) : (swap a b).1.Represents qb ∧ (swap a b).2.Represents qa :=
  ⟨hb, ha⟩

/-! ## Writing -/

/-- A store behind the write index is not readable before it is committed. -/
theorem Represents.storeAtWtPtr_spec (h : b.Represents q) {bytes : List Byte}
    (hroom : b.wtIndex + bytes.length ≤ b.storage) :
    ∃ b', (storeAtWtPtr bytes).run b = .ok () b' ∧ b'.Represents q ∧ b'.storage = b.storage := by
  rcases CharVector.store_eq_ok hroom with ⟨v, hv, helems, -⟩
  have hsize : v.size = b.storage := CharVector.size_of_stored hroom helems
  refine ⟨{ b with contianer := v }, ?_, ?_, hsize⟩
  · simp [storeAtWtPtr, hv]
  · refine h.of_window ?_ ?_ rfl
    · exact
        { resver_le_rd := h.resver_le_rd
          rd_le_wt := h.rd_le_wt
          wt_le_storage := by
            show b.wtIndex ≤ v.size
            rw [hsize]
            exact h.wt_le_storage }
    · show window v.elems b.rdIndex b.wtIndex = b.content
      rw [helems, window_overlay_of_le (Nat.le_refl _) h.wt_le_storage]
      rfl

/-- With room behind the write index, stored and committed bytes are pushed. -/
theorem Represents.store_hasWritten_spec (h : b.Represents q) {bytes : List Byte}
    (hroom : b.wtIndex + bytes.length ≤ b.storage) :
    ∃ b₁, (storeAtWtPtr bytes).run b = .ok () b₁ ∧
      Yields (hasWritten B bytes.length) b₁ (q.push bytes) (q.push bytes).content.length := by
  rcases CharVector.store_eq_ok hroom with ⟨v, hv, helems, -⟩
  have hrd := h.rd_le_wt
  have hsize : v.size = b.storage := CharVector.size_of_stored hroom helems
  have hadd : SizeT.add b.wtIndex bytes.length = b.wtIndex + bytes.length :=
    SizeT.add_eq (Nat.lt_of_le_of_lt hroom b.contianer.size_lt_modulus)
  -- The stored bytes do not overlap the readable ones.
  have hcontent : window v.elems b.rdIndex (b.wtIndex + bytes.length) = q.content ++ bytes := by
    rw [helems, ← window_append_window hrd (Nat.le_add_right _ _), window_overlay hroom,
      window_overlay_of_le (Nat.le_refl _) h.wt_le_storage]
    exact congrArg (· ++ bytes) h.content_eq
  have hrep : ({ b with contianer := v, wtIndex := b.wtIndex + bytes.length } :
      ByteBuffer).Represents (q.push bytes) :=
    { resver_le_rd := h.resver_le_rd
      rd_le_wt := Nat.le_trans hrd (Nat.le_add_right _ _)
      wt_le_storage := by
        show b.wtIndex + bytes.length ≤ v.size
        omega
      content_eq := hcontent
      byteorder_eq := h.byteorder_eq }
  have hassert : SizeT.add b.wtIndex bytes.length ≤
      ({ b with contianer := v } : ByteBuffer).storage := by
    show SizeT.add b.wtIndex bytes.length ≤ v.size
    omega
  refine ⟨{ b with contianer := v }, ?_, _, ?_, hrep⟩
  · simp [storeAtWtPtr, hv]
  · simp only [hasWritten, EStateM.run_bind, EStateM.run_get, run_cassert_of hassert,
      EStateM.run_set, hadd, hrep.run_readableBytes]

theorem Represents.fill_spec (h : b.Represents q) {room : Nat} {bytes : List Byte}
    (hle : bytes.length ≤ room) (hwrap : room + b.wtIndex < SizeT.modulus) :
    Yields (fill B room bytes) b (q.push bytes) (q.push bytes).content.length ∨
      Throws (fill B room bytes) b ∧ CharVector.maxSize < room + b.wtIndex := by
  rcases h.makeSpace_spec (B := B) hwrap with ⟨b₁, hrun₁, hrep₁, hroom⟩ | ⟨hthrow, hlarge⟩
  · left
    have hroom' : b₁.wtIndex + bytes.length ≤ b₁.storage := by omega
    rcases hrep₁.store_hasWritten_spec (B := B) hroom' with ⟨b₂, hrun₂, b₃, hrun₃, hrep₃⟩
    refine ⟨b₃, ?_, hrep₃⟩
    simp only [fill, ensureWriteSpace, EStateM.run_bind, hrun₁, hrun₂, hrun₃]
  · right
    have hthrow : (makeSpace B room).run b = .error .lengthError b := hthrow
    refine ⟨?_, hlarge⟩
    simp only [Throws, fill, ensureWriteSpace, EStateM.run_bind, hthrow]

/-- Neither a container nor an object in memory is larger than `max_size()`: nothing wraps. -/
theorem add_wtIndex_lt_modulus (h : b.Inv) {n : Nat} (hn : n ≤ CharVector.maxSize) :
    n + b.wtIndex < SizeT.modulus := by
  have hwt := h.wt_le_storage
  have hsize : b.storage ≤ CharVector.maxSize := b.contianer.size_le_maxSize
  have hmax : CharVector.maxSize + CharVector.maxSize < SizeT.modulus := by decide
  omega

theorem Represents.append_spec (h : b.Represents q) {data : List Byte}
    (hdata : data.length ≤ CharVector.maxSize) :
    Yields (append B data) b (q.push data) (q.push data).content.length ∨
      Throws (append B data) b ∧ CharVector.maxSize < data.length + b.wtIndex := by
  have hwrap := add_wtIndex_lt_modulus h.toInv hdata
  rcases h.makeSpace_spec (B := B) hwrap with ⟨b₁, hrun₁, hrep₁, hroom⟩ | ⟨hthrow, hlarge⟩
  · left
    rcases hrep₁.store_hasWritten_spec (B := B) hroom with ⟨b₂, hrun₂, b₃, hrun₃, hrep₃⟩
    refine ⟨b₃, ?_, hrep₃⟩
    simp only [append, ensureWriteSpace, EStateM.run_bind, hrun₁, hrun₂, hrun₃,
      hrep₃.run_readableBytes]
  · right
    have hthrow : (makeSpace B data.length).run b = .error .lengthError b := hthrow
    refine ⟨?_, hlarge⟩
    simp only [Throws, append, ensureWriteSpace, EStateM.run_bind, hthrow]

/-! ## Discarding -/

theorem Represents.discardAll_spec (h : b.Represents q) : Yields discardAll b q.clear () := by
  refine ⟨{ b with rdIndex := resverIndex, wtIndex := resverIndex }, rfl, ?_⟩
  have hresver : resverIndex ≤ b.rdIndex := h.resver_le_rd
  have hrd := h.rd_le_wt
  have hwt := h.wt_le_storage
  exact
    { resver_le_rd := Nat.le_refl _
      rd_le_wt := Nat.le_refl _
      wt_le_storage := by
        show resverIndex ≤ b.storage
        omega
      content_eq := window_self _ _
      byteorder_eq := h.byteorder_eq }

theorem Represents.discard_spec (h : b.Represents q) {n : Nat} (hn : n ≤ q.content.length) :
    Yields (discard B n) b (q.pop n) (q.pop n).content.length := by
  rcases Nat.lt_or_ge n q.content.length with hlt | hge
  · have hlen := h.length_eq
    have hwt := h.wt_le_storage
    have hadd : SizeT.add b.rdIndex n = b.rdIndex + n :=
      SizeT.add_eq (Nat.lt_of_le_of_lt (by omega) h.toInv.wt_lt_modulus)
    -- Only the read index moves.
    have hrep : ({ b with rdIndex := b.rdIndex + n } : ByteBuffer).Represents (q.pop n) :=
      { resver_le_rd := Nat.le_trans h.resver_le_rd (Nat.le_add_right _ _)
        rd_le_wt := by
          show b.rdIndex + n ≤ b.wtIndex
          omega
        wt_le_storage := hwt
        content_eq := by
          rw [ByteFifo.content_pop, ← h.content_eq]
          exact (drop_window _ _ _ _).symm
        byteorder_eq := h.byteorder_eq }
    refine ⟨_, ?_, hrep⟩
    simp only [discard, EStateM.run_bind, h.run_readableBytes, run_cassert_of hn,
      if_neg (Nat.not_le.mpr hlt), EStateM.run_modify, hadd, hrep.run_readableBytes]
  · -- Everything is discarded: both indices return to the reserved bytes.
    have hall : q.pop n = q.clear := ByteFifo.pop_of_length_le hge
    rcases h.discardAll_spec with ⟨b', hrun, hrep⟩
    refine ⟨b', ?_, by rwa [hall]⟩
    simp only [discard, EStateM.run_bind, h.run_readableBytes, run_cassert_of hn, if_pos hge, hrun,
      hrep.run_readableBytes, hall]

theorem Represents.rollbackWrite_spec (h : b.Represents q) {n : Nat} (hn : n ≤ q.content.length) :
    Yields (rollbackWrite B n) b (q.unpush n) (q.unpush n).content.length := by
  rcases Nat.lt_or_ge n q.content.length with hlt | hge
  · have hlen := h.length_eq
    have hwt := h.wt_le_storage
    have hsub : SizeT.sub b.wtIndex n = b.wtIndex - n :=
      SizeT.sub_eq (by omega) h.toInv.wt_lt_modulus
    -- Only the write index moves.
    have hrep : ({ b with wtIndex := b.wtIndex - n } : ByteBuffer).Represents (q.unpush n) :=
      { resver_le_rd := h.resver_le_rd
        rd_le_wt := by
          show b.rdIndex ≤ b.wtIndex - n
          omega
        wt_le_storage := Nat.le_trans (Nat.sub_le _ _) hwt
        content_eq := by
          have hend : b.wtIndex - n = b.rdIndex + (q.content.length - n) := by omega
          show window b.contianer.elems b.rdIndex (b.wtIndex - n) = _
          rw [hend, ← take_window (by omega : b.rdIndex + (q.content.length - n) ≤ b.wtIndex)]
          exact congrArg (List.take _) h.content_eq
        byteorder_eq := h.byteorder_eq }
    refine ⟨_, ?_, hrep⟩
    simp only [rollbackWrite, EStateM.run_bind, h.run_readableBytes, run_cassert_of hn,
      if_neg (Nat.not_le.mpr hlt), EStateM.run_modify, hsub, hrep.run_readableBytes]
  -- Everything is taken back: both indices return to the reserved bytes.
  · have hall : q.unpush n = q.clear := ByteFifo.unpush_of_length_le hge
    rcases h.discardAll_spec with ⟨b', hrun, hrep⟩
    refine ⟨b', ?_, by rwa [hall]⟩
    simp only [rollbackWrite, EStateM.run_bind, h.run_readableBytes, run_cassert_of hn, if_pos hge,
      hrun, hrep.run_readableBytes, hall]

/-! ## Integers -/

variable {w : Nat}

/-- What the first `n` bytes of a queue are read as. -/
def decodeUint (host : ByteOrder) (n : Nat) (byteorderValue : ByteOrder → BitVec w → BitVec w)
    (byteorderCov : Bool) (q : ByteFifo) : BitVec w :=
  let val := fromMemory host w (q.content.take n)
  if byteorderCov then byteorderValue q.byteorder val else val

theorem Represents.run_readUint (h : b.Represents q) {host : ByteOrder} {n : Nat}
    {byteorderValue : ByteOrder → BitVec w → BitVec w} {byteorderCov : Bool}
    (hn : n ≤ q.content.length) :
    (readUint B host n byteorderValue byteorderCov).run b =
      .ok (decodeUint host n byteorderValue byteorderCov q) b := by
  have hlen := h.length_eq
  have hrd := h.rd_le_wt
  have hwt : b.wtIndex ≤ b.contianer.size := h.wt_le_storage
  have hload : b.contianer.load b.rdIndex (b.rdIndex + n) = .ok (q.content.take n) := by
    rw [CharVector.load_eq_ok (Nat.le_add_right _ _) (by omega),
      ← take_window (by omega : b.rdIndex + n ≤ b.wtIndex)]
    exact congrArg (fun bytes => Except.ok (bytes.take n)) h.content_eq
  simp only [readUint, readInteger, EStateM.run_bind, h.run_readableBytes, run_cassert_of hn,
    EStateM.run_get, hload, run_orThrow_ok, EStateM.run_pure, h.byteorder_eq, decodeUint]

theorem Represents.retrieveUint_spec (h : b.Represents q) {host : ByteOrder} {n : Nat}
    {byteorderValue : ByteOrder → BitVec w → BitVec w} {byteorderCov : Bool}
    (hn : n ≤ q.content.length) :
    Yields (retrieveUint B n (readUint B host n byteorderValue byteorderCov)) b (q.pop n)
      (decodeUint host n byteorderValue byteorderCov q) := by
  rcases h.discard_spec (B := B) hn with ⟨b', hrun, hrep⟩
  refine ⟨b', ?_, hrep⟩
  simp only [retrieveUint, EStateM.run_bind, h.run_readUint hn, hrun, EStateM.run_pure]

/-! ## Strings -/

theorem Represents.run_findChar (h : b.Represents q) (c : Byte) :
    (findChar c).run b = .ok (if c ∈ q.content then q.content.idxOf c + 1 else 0) b := by
  have hload : b.contianer.load b.rdIndex b.wtIndex = .ok q.content := by
    rw [CharVector.load_eq_ok h.rd_le_wt h.wt_le_storage]
    exact congrArg Except.ok h.content_eq
  simp only [findChar, EStateM.run_bind, EStateM.run_get, hload, run_orThrow_ok, EStateM.run_pure]

/-- The elements from `rd_ptr()` on: the readable bytes, and what lies behind them. -/
theorem Inv.drop_rdIndex (h : b.Inv) :
    b.contianer.elems.drop b.rdIndex = b.content ++ b.contianer.elems.drop b.wtIndex := by
  have hrd := h.rd_le_wt
  have hwt : b.wtIndex ≤ b.contianer.elems.length := h.wt_le_storage
  rw [content, window, ← List.drop_append_of_le_length, List.take_append_drop]
  rw [List.length_take]
  omega

/-- The C string at `rd_ptr()`, when one of the readable bytes ends it. -/
theorem Represents.loadCString_eq (h : b.Represents q) (h0 : 0 ∈ q.content) :
    b.contianer.loadCString b.rdIndex = .ok (q.content.takeWhile (· ≠ 0)) := by
  have hsplit : b.contianer.elems.drop b.rdIndex = q.content ++ b.contianer.elems.drop b.wtIndex := by
    rw [h.toInv.drop_rdIndex, h.content_eq]
  have hstop : (q.content ++ b.contianer.elems.drop b.wtIndex).takeWhile (· ≠ 0) =
      q.content.takeWhile (· ≠ 0) := by
    rw [List.takeWhile_append]
    have hne : ¬ (q.content.takeWhile (· ≠ 0)).length = q.content.length := by
      intro heq
      have hall := (List.takeWhile_prefix (· ≠ (0 : Byte)) (l := q.content)).eq_of_length heq
      have := List.takeWhile_eq_self_iff.mp hall 0 h0
      simp at this
    rw [if_neg hne]
  have hmem : 0 ∈ q.content ++ b.contianer.elems.drop b.wtIndex := List.mem_append_left _ h0
  rw [CharVector.loadCString, hsplit, if_pos hmem, hstop]

theorem Represents.retrieveString_spec (h : b.Represents q) (h0 : 0 ∈ q.content) :
    Yields (retrieveString B) b (q.pop (q.content.idxOf 0 + 1))
      (q.content.takeWhile (· ≠ 0)) := by
  have hpos : q.content.idxOf 0 + 1 ≤ q.content.length := List.idxOf_lt_length_iff.mpr h0
  rcases h.discard_spec (B := B) hpos with ⟨b', hrun, hrep⟩
  refine ⟨b', ?_, hrep⟩
  have hne : q.content.idxOf 0 + 1 ≠ 0 := Nat.succ_ne_zero _
  simp only [retrieveString, EStateM.run_bind, h.run_findChar, if_pos h0, if_pos hne,
    EStateM.run_get, h.loadCString_eq h0, run_orThrow_ok, hrun, EStateM.run_pure]

/-- Without a NUL among the readable bytes nothing is retrieved. -/
theorem Represents.retrieveString_spec_of_notMem (h : b.Represents q) (h0 : 0 ∉ q.content) :
    (retrieveString B).run b = .ok [] b := by
  simp only [retrieveString, EStateM.run_bind, h.run_findChar, if_neg h0, ne_eq, not_true_eq_false,
    if_false, EStateM.run_pure]

theorem Represents.appendBuffer_spec {another : ByteBuffer} {qa : ByteFifo}
    (h : b.Represents q) (ha : another.Represents qa) :
    Yields (appendBuffer B another) b (q.push qa.content) (q.push qa.content).content.length ∨
      Throws (appendBuffer B another) b ∧ CharVector.maxSize < qa.content.length + b.wtIndex := by
  have hlen := ha.length_eq
  have hrd := ha.rd_le_wt
  have hwt : another.wtIndex ≤ another.contianer.size := ha.wt_le_storage
  have hload : another.contianer.load another.rdIndex (another.rdIndex + qa.content.length) =
      .ok qa.content := by
    have hend : another.rdIndex + qa.content.length = another.wtIndex := by omega
    rw [hend, CharVector.load_eq_ok hrd hwt]
    exact congrArg Except.ok ha.content_eq
  have hmax : qa.content.length ≤ CharVector.maxSize := by
    have := another.contianer.size_le_maxSize
    omega
  have hrun : (appendBuffer B another).run b = (append B qa.content).run b := by
    simp only [appendBuffer, ha.run_readableBytes, EStateM.run_bind, hload, run_orThrow_ok]
  rcases h.append_spec (B := B) hmax with ⟨b', hb', hrep⟩ | ⟨hthrow, hlarge⟩
  · exact Or.inl ⟨b', hrun.trans hb', hrep⟩
  · exact Or.inr ⟨hrun.trans hthrow, hlarge⟩

/-! ## A buffer appended to itself -/

/-- What the pointer to the readable bytes shows once `make_space` has moved them down. -/
def sourceBehindMove (b : ByteBuffer) : List Byte :=
  b.content.drop (b.rdIndex - resverIndex) ++
    b.content.drop (b.content.length - (b.rdIndex - resverIndex))

theorem length_sourceBehindMove (b : ByteBuffer) :
    b.sourceBehindMove.length = b.content.length := by
  simp only [sourceBehindMove, List.length_append, List.length_drop]
  omega

/-- `append(*this)` behind `make_space`, with the bytes that the pointer shows then. -/
theorem appendSelf_of_load {b₁ : ByteBuffer} {data : List Byte} (h : b.Inv) (h₁ : b₁.Represents q)
    (hspace : (makeSpace B b.content.length).run b = .ok () b₁)
    (hcap : b₁.contianer.capacity = b.contianer.capacity)
    (hload : b₁.contianer.load b.rdIndex (b.rdIndex + b.content.length) = .ok data)
    (hlen : data.length = b.content.length) (hroom : b₁.wtIndex + data.length ≤ b₁.storage) :
    Yields (appendSelf B) b (q.push data) (q.push data).content.length := by
  have hspace : (ensureWriteSpace B b.content.length).run b = .ok () b₁ := hspace
  rcases h₁.store_hasWritten_spec (B := B) hroom with ⟨b₂, hstore, b₃, hwritten, hrep₃⟩
  refine ⟨b₃, ?_, hrep₃⟩
  rw [hlen] at hwritten
  rw [appendSelf, run_bind_ok (EStateM.run_get b), run_bind_ok h.run_readableBytes,
    run_bind_ok hspace, run_bind_ok (EStateM.run_get b₁), if_pos hcap, hload,
    run_bind_ok (run_orThrow_ok _ _), run_bind_ok hstore, run_bind_ok hwritten,
    hrep₃.run_readableBytes]

/-- With enough free bytes the readable ones are moved before they are copied. -/
theorem Represents.appendSelf_move_spec (h : b.Represents q) (hn : b.content.length ≤ b.freeBytes) :
    Yields (appendSelf B) b (q.push b.sourceBehindMove) (q.push b.sourceBehindMove).content.length := by
  have hlen := length_content h.toInv
  have hresver : resverIndex ≤ b.rdIndex := h.resver_le_rd
  have hrd := h.rd_le_wt
  have hwt : b.wtIndex ≤ b.contianer.size := h.wt_le_storage
  rcases h.toInv.run_makeSpace_move (B := B) hn with ⟨v, hrun, helems, hcap⟩
  have hfits := h.content_fits
  have hsize : v.size = b.contianer.size := CharVector.size_of_stored hfits helems
  have hend : b.rdIndex + b.content.length = b.wtIndex := by omega
  -- The pointer shows the old place of bytes that were moved.
  have hsource : window v.elems b.rdIndex b.wtIndex = b.sourceBehindMove := by
    rw [helems, sourceBehindMove, hlen]
    exact window_overlay_window hresver hrd hwt
  refine appendSelf_of_load h.toInv ?_ hrun hcap ?_ (length_sourceBehindMove b) ?_
  · exact h.of_window
      { resver_le_rd := Nat.le_refl _
        rd_le_wt := Nat.le_add_right _ _
        wt_le_storage := by
          show resverIndex + b.content.length ≤ v.size
          omega }
      (by
        show window v.elems resverIndex (resverIndex + b.content.length) = b.content
        rw [helems, window_overlay hfits]) rfl
  · rw [hend, CharVector.load_eq_ok hrd (hsize ▸ hwt), hsource]
  · rw [length_sourceBehindMove]
    show resverIndex + b.content.length + b.content.length ≤ v.size
    unfold freeBytes storage at hn
    omega

/-- Without, the container grows: the bytes stay where they are if its memory does, .. -/
theorem Represents.appendSelf_grow_spec (h : b.Represents q) (hn : b.freeBytes < b.content.length)
    (hcap : b.content.length + b.wtIndex ≤ b.contianer.capacity) :
    Yields (appendSelf B) b (q.push b.content) (q.push b.content).content.length := by
  have hlen := length_content h.toInv
  have hrd := h.rd_le_wt
  have hwt : b.wtIndex ≤ b.contianer.size := h.wt_le_storage
  have hmax : b.content.length + b.wtIndex ≤ CharVector.maxSize :=
    Nat.le_trans hcap b.contianer.capacity_le_max
  rcases h.toInv.run_makeSpace_grow (B := B) hn hmax with ⟨v, hrun, helems, hgrown⟩
  have hwrap : b.content.length + b.wtIndex < SizeT.modulus :=
    Nat.lt_of_le_of_lt hmax (by decide)
  rcases h.makeSpace_spec (B := B) hwrap with ⟨b₁, hrun₁, hrep₁, hroom⟩ | ⟨-, hlarge⟩
  · cases hrun.symm.trans hrun₁
    have hsize : b.contianer.size ≤ v.size := by
      rw [CharVector.size, CharVector.size, helems, List.length_append]
      exact Nat.le_add_right _ _
    have hend : b.rdIndex + b.content.length = b.wtIndex := by omega
    refine appendSelf_of_load h.toInv hrep₁ hrun ?_ ?_ rfl hroom
    · exact hgrown.trans ((CharVector.grownCapacity_eq_iff _ hmax).mpr hcap)
    · rw [hend, CharVector.load_eq_ok hrd (Nat.le_trans hwt hsize), helems,
        window_append_left hwt]
      rfl
  · omega

/-- .. and if it does not, the pointer shows freed memory. -/
theorem Inv.appendSelf_realloc (h : b.Inv) (hn : b.freeBytes < b.content.length)
    (hcap : b.contianer.capacity < b.content.length + b.wtIndex)
    (hmax : b.content.length + b.wtIndex ≤ CharVector.maxSize) :
    ∃ b', (appendSelf B).run b = .error .overrun b' := by
  rcases h.run_makeSpace_grow (B := B) hn hmax with ⟨v, hrun, -, hgrown⟩
  have hspace : (ensureWriteSpace B b.content.length).run b = .ok () { b with contianer := v } := hrun
  have hne : ¬ v.capacity = b.contianer.capacity := by
    rw [hgrown, CharVector.grownCapacity_eq_iff _ hmax]
    omega
  refine ⟨{ b with contianer := v }, ?_⟩
  rw [appendSelf, run_bind_ok (EStateM.run_get b), run_bind_ok h.run_readableBytes,
    run_bind_ok hspace, run_bind_ok (EStateM.run_get _), if_neg hne,
    run_bind_error (run_orThrow_error _ _)]

theorem Inv.appendSelf_throw (h : b.Inv) (hn : b.freeBytes < b.content.length)
    (hmax : CharVector.maxSize < b.content.length + b.wtIndex) : Throws (appendSelf B) b := by
  have hlen := length_content h
  have hwt := h.wt_le_storage
  have hsize : b.storage ≤ CharVector.maxSize := b.contianer.size_le_maxSize
  have hwrap : b.content.length + b.wtIndex < SizeT.modulus :=
    add_wtIndex_lt_modulus h (by omega)
  have hthrow : (ensureWriteSpace B b.content.length).run b = .error .lengthError b :=
    h.run_makeSpace_throw hn hmax hwrap
  rw [Throws, appendSelf, run_bind_ok (EStateM.run_get b), run_bind_ok h.run_readableBytes,
    run_bind_error hthrow]

end ByteBuffer

end Net
end Muradin
