import Muradin.Cpp.Method
import Muradin.Lib.ByteOrder
import Muradin.Lib.Window

/-!
# CharVector — `std::vector<char>`

The elements and the capacity of a `std::vector<char>`; the size never exceeds the capacity, and
the capacity never exceeds `max_size()`.  Growth follows libstdc++: a vector that has to reallocate
at least doubles its size.  Reads and stores through raw pointers are checked against the size, so
that an access outside the elements is the fault `overrun`; a copy of no bytes accesses none.
-/

namespace Muradin
namespace Cpp

open Lib

/-- `std::vector<char>`. -/
structure CharVector where
  elems : List Byte
  capacity : Nat
  length_le_capacity : elems.length ≤ capacity
  capacity_le_max : capacity ≤ 2 ^ 63 - 1
  deriving DecidableEq

namespace CharVector

/-- `max_size()`: the largest value of `ptrdiff_t`. -/
def maxSize : Nat := 2 ^ 63 - 1

/-- `size()`. -/
def size (v : CharVector) : Nat := v.elems.length

theorem size_le_capacity (v : CharVector) : v.size ≤ v.capacity := v.length_le_capacity

theorem size_le_maxSize (v : CharVector) : v.size ≤ maxSize :=
  Nat.le_trans v.length_le_capacity v.capacity_le_max

theorem size_lt_modulus (v : CharVector) : v.size < SizeT.modulus :=
  Nat.lt_of_le_of_lt v.size_le_maxSize (by decide)

/-- `vector(n)`: `n` zero bytes. -/
def ofSize (n : Nat) : Except Fault CharVector :=
  if h : n ≤ maxSize then
    .ok
      { elems := List.replicate n 0
        capacity := n
        length_le_capacity := by simp
        capacity_le_max := h }
  else
    .error .lengthError

/-- The capacity after growing to `n` elements. -/
def grownCapacity (v : CharVector) (n : Nat) : Nat :=
  if n ≤ v.capacity then v.capacity else min maxSize (v.size + max v.size (n - v.size))

theorem le_grownCapacity (v : CharVector) {n : Nat} (h : n ≤ maxSize) :
    n ≤ v.grownCapacity n := by
  unfold grownCapacity
  split <;> omega

/-- Growing keeps the capacity exactly when it is enough. -/
theorem grownCapacity_eq_iff (v : CharVector) {n : Nat} (h : n ≤ maxSize) :
    v.grownCapacity n = v.capacity ↔ n ≤ v.capacity := by
  constructor
  · intro heq
    exact heq ▸ v.le_grownCapacity h
  · intro hle
    exact if_pos hle

theorem grownCapacity_le (v : CharVector) (n : Nat) : v.grownCapacity n ≤ maxSize := by
  unfold grownCapacity
  split
  · exact v.capacity_le_max
  · omega

/-- `resize(n)`: drop elements at the end, or add zero bytes there. -/
def resize (v : CharVector) (n : Nat) : Except Fault CharVector :=
  if hn : n ≤ v.size then
    .ok
      { v with
        elems := v.elems.take n
        length_le_capacity := by
          have := v.length_le_capacity
          simp only [List.length_take]
          omega }
  else if h : n ≤ maxSize then
    .ok
      { elems := v.elems ++ List.replicate (n - v.size) 0
        capacity := v.grownCapacity n
        length_le_capacity := by
          have hcap : n ≤ v.grownCapacity n := v.le_grownCapacity h
          have hlen : v.elems.length + (n - v.size) = n := by
            have : v.size = v.elems.length := rfl
            omega
          simpa [hlen] using hcap
        capacity_le_max := v.grownCapacity_le n }
  else
    .error .lengthError

/-- Copy `bs` to the elements from position `pos` on. -/
def store (v : CharVector) (pos : Nat) (bs : List Byte) : Except Fault CharVector :=
  if bs = [] then
    .ok v
  else if h : pos + bs.length ≤ v.size then
    .ok
      { v with
        elems := overlay v.elems pos bs
        length_le_capacity := by
          rw [length_overlay h]
          exact v.length_le_capacity }
  else
    .error .overrun

/-- The elements in the pointer range `[lo, hi)`. -/
def load (v : CharVector) (lo hi : Nat) : Except Fault (List Byte) :=
  if lo = hi ∨ lo ≤ hi ∧ hi ≤ v.size then .ok (window v.elems lo hi) else .error .overrun

/-- The C string that starts at position `pos`: the bytes up to the next NUL. -/
def loadCString (v : CharVector) (pos : Nat) : Except Fault (List Byte) :=
  if 0 ∈ v.elems.drop pos then .ok ((v.elems.drop pos).takeWhile (· ≠ 0)) else .error .overrun

end CharVector

/-- The bytes of an object in memory: no object is larger than `PTRDIFF_MAX`. -/
abbrev Block := { bytes : List Byte // bytes.length ≤ CharVector.maxSize }

namespace CharVector

/-! ## What the operations do when they succeed -/

theorem ofSize_eq_ok {n : Nat} (h : n ≤ maxSize) :
    ∃ v, ofSize n = .ok v ∧ v.elems = List.replicate n 0 ∧ v.capacity = n := by
  simp [ofSize, h]

theorem ofSize_eq_error {n : Nat} (h : maxSize < n) : ofSize n = .error .lengthError := by
  simp [ofSize, Nat.not_le.mpr h]

/-- Growing keeps the elements and adds zero bytes behind them. -/
theorem resize_grow {v : CharVector} {n : Nat} (hn : v.size < n) (hmax : n ≤ maxSize) :
    ∃ u, v.resize n = .ok u ∧ u.elems = v.elems ++ List.replicate (n - v.size) 0 ∧
      u.capacity = v.grownCapacity n := by
  simp [resize, Nat.not_le.mpr hn, hmax]

theorem resize_eq_ok {v : CharVector} {n : Nat} (h : n ≤ maxSize) :
    ∃ u, v.resize n = .ok u ∧ u.size = n := by
  rcases Nat.lt_or_ge v.size n with hlt | hle
  · rcases resize_grow hlt h with ⟨u, hu, helems, -⟩
    refine ⟨u, hu, ?_⟩
    have hsize : v.elems.length = v.size := rfl
    rw [size, helems, List.length_append, List.length_replicate]
    omega
  · refine ⟨_, dif_pos hle, ?_⟩
    show (v.elems.take n).length = n
    exact List.length_take_of_le hle

theorem resize_eq_error {v : CharVector} {n : Nat} (h : maxSize < n) :
    v.resize n = .error .lengthError := by
  have : ¬ n ≤ v.size := by
    have := v.size_le_maxSize
    omega
  simp [resize, this, Nat.not_le.mpr h]

theorem store_nil (v : CharVector) (pos : Nat) : v.store pos [] = .ok v :=
  if_pos rfl

theorem store_eq_ok {v : CharVector} {pos : Nat} {bs : List Byte} (h : pos + bs.length ≤ v.size) :
    ∃ u, v.store pos bs = .ok u ∧ u.elems = overlay v.elems pos bs ∧ u.capacity = v.capacity := by
  by_cases hnil : bs = []
  · subst hnil
    exact ⟨v, v.store_nil pos, (overlay_nil v.elems pos).symm, rfl⟩
  · simp [store, hnil, h]

theorem store_eq_error {v : CharVector} {pos : Nat} {bs : List Byte} (hne : bs ≠ [])
    (h : v.size < pos + bs.length) : v.store pos bs = .error .overrun := by
  simp [store, hne, Nat.not_le.mpr h]

/-- What is stored over other elements leaves the size. -/
theorem size_of_stored {v u : CharVector} {pos : Nat} {bs : List Byte}
    (h : pos + bs.length ≤ v.size) (helems : u.elems = overlay v.elems pos bs) :
    u.size = v.size := by
  rw [size, helems, length_overlay h]
  rfl

theorem load_eq_ok {v : CharVector} {lo hi : Nat} (h : lo ≤ hi) (hhi : hi ≤ v.size) :
    v.load lo hi = .ok (window v.elems lo hi) := by
  exact if_pos (Or.inr ⟨h, hhi⟩)

end CharVector

end Cpp
end Muradin
