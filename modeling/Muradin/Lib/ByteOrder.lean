import Mathlib.Data.BitVec
import Mathlib.Data.List.Basic

/-!
# ByteOrder — machine words as byte sequences

`bytesLsb n v` are the `n` low bytes of the word `v`, least significant first; `bytesMsb` is the
other order.  `ofBytesLsb` and `ofBytesMsb` read them back.  A byte swap is any function that
reverses the bytes of a word, and everything the codecs need about one follows from that.
-/

namespace Muradin
namespace Lib

abbrev Byte := BitVec 8

instance : LawfulBEq Byte := inferInstance

variable {w : Nat}

/-! ## Words to bytes and back -/

/-- The `n` low bytes of `v`, least significant first. -/
def bytesLsb (n : Nat) (v : BitVec w) : List Byte :=
  (List.range n).map fun i => v.extractLsb' (8 * i) 8

/-- The `n` low bytes of `v`, most significant first. -/
def bytesMsb (n : Nat) (v : BitVec w) : List Byte :=
  (bytesLsb n v).reverse

/-- The word whose bytes, least significant first, are the given ones. -/
def ofBytesLsb (w : Nat) : List Byte → BitVec w
  | [] => 0
  | b :: bs => b.setWidth w ||| (ofBytesLsb w bs <<< 8)

/-- The word whose bytes, most significant first, are the given ones. -/
def ofBytesMsb (w : Nat) (bs : List Byte) : BitVec w :=
  ofBytesLsb w bs.reverse

@[simp] theorem length_bytesLsb (n : Nat) (v : BitVec w) : (bytesLsb n v).length = n := by
  simp [bytesLsb]

@[simp] theorem length_bytesMsb (n : Nat) (v : BitVec w) : (bytesMsb n v).length = n := by
  simp [bytesMsb]

theorem getD_bytesLsb {n i : Nat} (v : BitVec w) (h : i < n) :
    (bytesLsb n v).getD i 0 = v.extractLsb' (8 * i) 8 := by
  simp [bytesLsb, List.getD_eq_getElem?_getD, h]

/-- Bit `k` of a word is bit `k % 8` of its byte number `k / 8`. -/
theorem getLsbD_ofBytesLsb (bs : List Byte) (k : Nat) :
    (ofBytesLsb w bs).getLsbD k = (decide (k < w) && (bs.getD (k / 8) 0).getLsbD (k % 8)) := by
  induction bs generalizing k with
  | nil => simp [ofBytesLsb]
  | cons b bs ih =>
      by_cases hk : k < 8
      · simp [ofBytesLsb, hk, Nat.div_eq_of_lt hk, Nat.mod_eq_of_lt hk]
      · have hdiv : k / 8 = (k - 8) / 8 + 1 := by omega
        have hmod : k % 8 = (k - 8) % 8 := by omega
        have hb : b.getLsbD k = false := BitVec.getLsbD_of_ge b k (by omega)
        simp only [ofBytesLsb, BitVec.getLsbD_or, BitVec.getLsbD_setWidth, hb, Bool.and_false,
          Bool.false_or, BitVec.getLsbD_shiftLeft, hk, decide_false, Bool.not_false,
          ih, hdiv, hmod, List.getD_cons_succ]
        by_cases hw : k < w
        · have : k - 8 < w := by omega
          simp [hw, this]
        · simp [hw]

theorem ofBytesLsb_bytesLsb {n : Nat} (v : BitVec w) (h : w ≤ 8 * n) :
    ofBytesLsb w (bytesLsb n v) = v := by
  apply BitVec.eq_of_getLsbD_eq
  intro k hk
  have hdiv : k / 8 < n := by omega
  have hmod : k % 8 < 8 := Nat.mod_lt _ (by decide)
  have hsum : 8 * (k / 8) + k % 8 = k := Nat.div_add_mod k 8
  rw [getLsbD_ofBytesLsb, getD_bytesLsb v hdiv, BitVec.getLsbD_extractLsb']
  simp [hk, hmod, hsum]

theorem ofBytesMsb_bytesMsb {n : Nat} (v : BitVec w) (h : w ≤ 8 * n) :
    ofBytesMsb w (bytesMsb n v) = v := by
  rw [ofBytesMsb, bytesMsb, List.reverse_reverse, ofBytesLsb_bytesLsb v h]

theorem bytesLsb_injective {n : Nat} (h : w ≤ 8 * n) {v v' : BitVec w}
    (heq : bytesLsb n v = bytesLsb n v') : v = v' := by
  rw [← ofBytesLsb_bytesLsb v h, heq, ofBytesLsb_bytesLsb v' h]

theorem bytesMsb_injective {n : Nat} (h : w ≤ 8 * n) {v v' : BitVec w}
    (heq : bytesMsb n v = bytesMsb n v') : v = v' := by
  rw [← ofBytesMsb_bytesMsb v h, heq, ofBytesMsb_bytesMsb v' h]

/-! ## Byte swaps -/

/-- `swap` reverses the `n` bytes of a word. -/
def IsByteSwap (n : Nat) (swap : BitVec w → BitVec w) : Prop :=
  ∀ v, bytesLsb n (swap v) = bytesMsb n v

/-- It is enough to say where each bit goes. -/
theorem isByteSwap_of_getLsbD {n : Nat} {swap : BitVec w → BitVec w}
    (h : ∀ v i j, i < n → j < 8 →
      (swap v).getLsbD (8 * i + j) = v.getLsbD (8 * (n - 1 - i) + j)) :
    IsByteSwap n swap := by
  intro v
  apply List.ext_getElem (by simp)
  intro i hi _
  have hin : i < n := by simpa using hi
  apply BitVec.eq_of_getLsbD_eq
  intro j hj
  simp [bytesMsb, bytesLsb, h v i j hin hj, hj]

theorem IsByteSwap.bytesMsb {n : Nat} {swap : BitVec w → BitVec w} (h : IsByteSwap n swap)
    (v : BitVec w) : bytesMsb n (swap v) = bytesLsb n v := by
  rw [Lib.bytesMsb, h v, Lib.bytesMsb, List.reverse_reverse]

theorem IsByteSwap.involutive {n : Nat} {swap : BitVec w → BitVec w} (h : IsByteSwap n swap)
    (hw : w ≤ 8 * n) (v : BitVec w) : swap (swap v) = v := by
  apply bytesLsb_injective hw
  rw [h (swap v), h.bytesMsb]

end Lib
end Muradin
