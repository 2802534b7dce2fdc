import Muradin.Net.ByteBuffer.Defs

/-!
# Fifo — a byte buffer as a queue of bytes

What a byte buffer is for: a queue of bytes with a byte order.  `Represents b q` says that the
indices of `b` are in the documented layout and that the bytes between them are the queue `q`.
Each member function has one specification lemma over that relation; callers use these and never
look at indices again.

A function that needs memory either does what its lemma says or throws `std::length_error` and
leaves the buffer as it was.
-/

namespace Muradin
namespace Net

open Lib Cpp

/-! ## The abstract queue -/

/-- A queue of bytes and the byte order of the integers in it. -/
structure ByteFifo where
  content : List Byte
  byteorder : ByteOrder
  deriving DecidableEq

namespace ByteFifo

def push (q : ByteFifo) (data : List Byte) : ByteFifo :=
  { q with content := q.content ++ data }

/-- Drop the first `n` bytes. -/
def pop (q : ByteFifo) (n : Nat) : ByteFifo :=
  { q with content := q.content.drop n }

/-- Drop the last `n` bytes. -/
def unpush (q : ByteFifo) (n : Nat) : ByteFifo :=
  { q with content := q.content.take (q.content.length - n) }

def clear (q : ByteFifo) : ByteFifo :=
  { q with content := [] }

@[simp] theorem content_push (q : ByteFifo) (data : List Byte) :
    (q.push data).content = q.content ++ data := rfl

@[simp] theorem content_pop (q : ByteFifo) (n : Nat) : (q.pop n).content = q.content.drop n := rfl

@[simp] theorem content_clear (q : ByteFifo) : q.clear.content = [] := rfl

@[simp] theorem byteorder_push (q : ByteFifo) (data : List Byte) :
    (q.push data).byteorder = q.byteorder := rfl

@[simp] theorem byteorder_pop (q : ByteFifo) (n : Nat) : (q.pop n).byteorder = q.byteorder := rfl

@[simp] theorem byteorder_clear (q : ByteFifo) : q.clear.byteorder = q.byteorder := rfl

@[simp] theorem push_nil (q : ByteFifo) : q.push [] = q := by
  simp [push]

@[simp] theorem pop_zero (q : ByteFifo) : q.pop 0 = q := by
  simp [pop]

theorem push_push (q : ByteFifo) (xs ys : List Byte) : (q.push xs).push ys = q.push (xs ++ ys) := by
  simp [push]

theorem pop_pop (q : ByteFifo) (m n : Nat) : (q.pop m).pop n = q.pop (m + n) := by
  simp [pop, List.drop_drop]

theorem pop_of_length_le {q : ByteFifo} {n : Nat} (h : q.content.length ≤ n) : q.pop n = q.clear := by
  simp [pop, clear, List.drop_eq_nil_of_le h]

theorem unpush_of_length_le {q : ByteFifo} {n : Nat} (h : q.content.length ≤ n) :
    q.unpush n = q.clear := by
  simp [unpush, clear, Nat.sub_eq_zero_of_le h]

end ByteFifo

namespace ByteBuffer

/-! ## The documented layout -/

/-- The readable bytes. -/
def content (b : ByteBuffer) : List Byte :=
  window b.contianer.elems b.rdIndex b.wtIndex

/-- The layout documented in `bytebuffer.h`. -/
structure Inv (b : ByteBuffer) : Prop where
  resver_le_rd : resverIndex ≤ b.rdIndex
  rd_le_wt : b.rdIndex ≤ b.wtIndex
  wt_le_storage : b.wtIndex ≤ b.storage

/-- `b` is in the documented layout and its readable bytes are the queue `q`. -/
structure Represents (b : ByteBuffer) (q : ByteFifo) : Prop extends Inv b where
  content_eq : b.content = q.content
  byteorder_eq : b.byteorder = q.byteorder

variable {b : ByteBuffer} {q : ByteFifo} {B : Build}

/-- The queue that a buffer holds. -/
def toFifo (b : ByteBuffer) : ByteFifo :=
  { content := b.content, byteorder := b.byteorder }

theorem Inv.represents (h : b.Inv) : b.Represents b.toFifo :=
  { h with content_eq := rfl, byteorder_eq := rfl }

theorem Represents.toFifo_eq (h : b.Represents q) : b.toFifo = q := by
  cases q
  simp [toFifo, h.content_eq, h.byteorder_eq]

theorem length_content (h : b.Inv) : b.content.length = b.wtIndex - b.rdIndex :=
  length_window h.wt_le_storage

theorem Represents.length_eq (h : b.Represents q) :
    q.content.length = b.wtIndex - b.rdIndex := by
  rw [← h.content_eq, length_content h.toInv]

theorem Inv.wt_lt_modulus (h : b.Inv) : b.wtIndex < SizeT.modulus :=
  Nat.lt_of_le_of_lt h.wt_le_storage b.contianer.size_lt_modulus

/-- The queue of a buffer whose storage was changed outside the readable bytes only. -/
theorem Represents.of_window {b' : ByteBuffer} (h : b.Represents q) (hinv : b'.Inv)
    (hwin : b'.content = b.content) (horder : b'.byteorder = b.byteorder) : b'.Represents q :=
  { hinv with
    content_eq := hwin.trans h.content_eq
    byteorder_eq := horder.trans h.byteorder_eq }

theorem construct_represents (order : ByteOrder) {size : Nat} (h : size + 8 ≤ CharVector.maxSize) :
    ∃ b, construct order size = .ok b ∧ b.Represents { content := [], byteorder := order } ∧
      b.storage = size + 8 := by
  have hadd : SizeT.add size resverIndex = size + 8 :=
    SizeT.add_eq (Nat.lt_of_le_of_lt h (by decide))
  rcases CharVector.ofSize_eq_ok h with ⟨v, hv, helems, -⟩
  have hsize : v.size = size + 8 := by simp [CharVector.size, helems]
  refine ⟨{ byteorder := order, contianer := v, rdIndex := 8, wtIndex := 8 }, ?_, ?_, hsize⟩
  · simp only [construct, hadd, hv]
    rfl
  -- Both indices are behind the reserved bytes.
  · exact
      { resver_le_rd := Nat.le_refl _
        rd_le_wt := Nat.le_refl _
        wt_le_storage := by
          show 8 ≤ v.size
          omega
        content_eq := by simp [content]
        byteorder_eq := rfl }

/-! ## Sizes -/

theorem Inv.run_readableBytes (h : b.Inv) :
    (readableBytes B).run b = .ok b.content.length b := by
  simp [readableBytes, h.rd_le_wt, SizeT.sub_eq h.rd_le_wt h.wt_lt_modulus, length_content h]

theorem Represents.run_readableBytes (h : b.Represents q) :
    (readableBytes B).run b = .ok q.content.length b := by
  rw [h.toInv.run_readableBytes, h.content_eq]

theorem Inv.run_writeableBytes (h : b.Inv) :
    (writeableBytes B).run b = .ok (b.storage - b.wtIndex) b := by
  have hcap : b.wtIndex ≤ b.contianer.capacity :=
    Nat.le_trans h.wt_le_storage b.contianer.size_le_capacity
  have hsub : SizeT.sub b.contianer.size b.wtIndex = b.storage - b.wtIndex :=
    SizeT.sub_eq h.wt_le_storage b.contianer.size_lt_modulus
  simp [writeableBytes, hcap, hsub]

theorem Inv.run_discardableBytes (h : b.Inv) :
    (discardableBytes B).run b = .ok (b.rdIndex - resverIndex) b := by
  have hrd : b.rdIndex < SizeT.modulus := Nat.lt_of_le_of_lt h.rd_le_wt h.wt_lt_modulus
  unfold discardableBytes
  simp only [EStateM.run_bind, EStateM.run_get, EStateM.run_pure]
  rw [run_cassert_of h.resver_le_rd, SizeT.sub_eq h.resver_le_rd hrd]

/-! ## Space -/

/-- The free bytes before and behind the readable ones together. -/
def freeBytes (b : ByteBuffer) : Nat :=
  (b.rdIndex - resverIndex) + (b.storage - b.wtIndex)

theorem Inv.freeBytes_lt (h : b.Inv) : b.freeBytes < SizeT.modulus := by
  have := b.contianer.size_lt_modulus
  have := h.rd_le_wt
  have := h.wt_le_storage
  unfold freeBytes storage at *
  omega

/-- The readable bytes fit in front, behind the reserved ones. -/
theorem Inv.content_fits (h : b.Inv) : resverIndex + b.content.length ≤ b.contianer.size := by
  have hlen := length_content h
  have hresver : resverIndex ≤ b.rdIndex := h.resver_le_rd
  have hrd := h.rd_le_wt
  have hwt : b.wtIndex ≤ b.contianer.size := h.wt_le_storage
  omega

/-- With enough free bytes the readable ones are moved to the front. -/
theorem Inv.run_makeSpace_move (h : b.Inv) {n : Nat} (hn : n ≤ b.freeBytes) :
    ∃ v, (makeSpace B n).run b =
        .ok () { b with contianer := v, rdIndex := resverIndex, wtIndex := resverIndex + b.content.length } ∧
      v.elems = overlay b.contianer.elems resverIndex b.content ∧
      v.capacity = b.contianer.capacity := by
  have hadd := SizeT.add_eq h.freeBytes_lt
  have hlen := length_content h
  have hresver : resverIndex ≤ b.rdIndex := h.resver_le_rd
  have hrd := h.rd_le_wt
  have hwt : b.wtIndex ≤ b.contianer.size := h.wt_le_storage
  have hmod := h.wt_lt_modulus
  have hfits := h.content_fits
  rcases CharVector.store_eq_ok hfits with ⟨v, hv, helems, hcap⟩
  refine ⟨v, ?_, helems, hcap⟩
  have hwt' : SizeT.add resverIndex b.content.length = resverIndex + b.content.length := SizeT.add_eq (by omega)
  have hsize : v.size = b.contianer.size := CharVector.size_of_stored hfits helems
  have hinv : ({ b with contianer := v, rdIndex := resverIndex, wtIndex := resverIndex + b.content.length } :
      ByteBuffer).Inv :=
    { resver_le_rd := Nat.le_refl _
      rd_le_wt := Nat.le_add_right _ _
      wt_le_storage := by
        show resverIndex + b.content.length ≤ v.size
        omega }
  have hsame : ({ b with contianer := v, rdIndex := resverIndex, wtIndex := resverIndex + b.content.length } :
      ByteBuffer).content.length = b.content.length := by
    rw [length_content hinv]
    simp
  -- The content is read before it is overwritten, as `std::copy` downwards does.
  have hload : b.contianer.load b.rdIndex b.wtIndex = .ok b.content :=
    CharVector.load_eq_ok hrd hwt
  have hnot : ¬ SizeT.add (b.rdIndex - resverIndex) (b.storage - b.wtIndex) < n := by
    rw [hadd]
    exact Nat.not_lt.mpr hn
  simp [makeSpace, h.run_discardableBytes, h.run_writeableBytes, hnot, h.run_readableBytes, hload,
    hv, hwt', hinv.run_readableBytes, hsame]

/-- Without, the container grows behind the write index. -/
theorem Inv.run_makeSpace_grow (h : b.Inv) {n : Nat} (hn : b.freeBytes < n)
    (hmax : n + b.wtIndex ≤ CharVector.maxSize) :
    ∃ v, (makeSpace B n).run b = .ok () { b with contianer := v } ∧
      v.elems = b.contianer.elems ++ List.replicate (n + b.wtIndex - b.storage) 0 ∧
      v.capacity = b.contianer.grownCapacity (n + b.wtIndex) := by
  have hadd := SizeT.add_eq h.freeBytes_lt
  have hwt := h.wt_le_storage
  have hsum : SizeT.add n b.wtIndex = n + b.wtIndex :=
    SizeT.add_eq (Nat.lt_of_le_of_lt hmax (by decide))
  have hgrow : b.contianer.size < n + b.wtIndex := by
    unfold freeBytes storage at *
    omega
  rcases CharVector.resize_grow hgrow hmax with ⟨v, hv, helems, hcap⟩
  refine ⟨v, ?_, helems, hcap⟩
  have hlt : SizeT.add (b.rdIndex - resverIndex) (b.storage - b.wtIndex) < n := by
    rw [hadd]
    exact hn
  simp [makeSpace, h.run_discardableBytes, h.run_writeableBytes, hlt, hsum, hv]

/-- A request for more than `max_size()` throws before anything is changed. -/
theorem Inv.run_makeSpace_throw (h : b.Inv) {n : Nat} (hn : b.freeBytes < n)
    (hmax : CharVector.maxSize < n + b.wtIndex) (hwrap : n + b.wtIndex < SizeT.modulus) :
    (makeSpace B n).run b = .error .lengthError b := by
  have hadd := SizeT.add_eq h.freeBytes_lt
  have hsum : SizeT.add n b.wtIndex = n + b.wtIndex := SizeT.add_eq hwrap
  have hlt : SizeT.add (b.rdIndex - resverIndex) (b.storage - b.wtIndex) < n := by
    rw [hadd]
    exact hn
  simp [makeSpace, h.run_discardableBytes, h.run_writeableBytes, hlt, hsum,
    CharVector.resize_eq_error hmax]

end ByteBuffer

end Net
end Muradin
