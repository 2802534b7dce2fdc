import Mathlib.Data.List.Basic

/-!
# Window — ranges of a list and stores into it

A contiguous storage is a list; a half-open range `[lo, hi)` of it is `window xs lo hi`, and
`overlay xs pos ys` is the storage after `ys` has been stored from position `pos` on.  At the end: a
list that is a prefix of itself behind another one (`getElem?_of_prefix_append`).
-/

namespace Muradin
namespace Lib

universe u

variable {α : Type u}

/-- The elements of `xs` at positions `[lo, hi)`. -/
def window (xs : List α) (lo hi : Nat) : List α :=
  (xs.take hi).drop lo

/-- `xs` after `ys` has been stored at positions `[pos, pos + ys.length)`. -/
def overlay (xs : List α) (pos : Nat) (ys : List α) : List α :=
  xs.take pos ++ ys ++ xs.drop (pos + ys.length)

/-! ## Windows -/

theorem length_window {xs : List α} {lo hi : Nat} (h : hi ≤ xs.length) :
    (window xs lo hi).length = hi - lo := by
  simp [window, h]

@[simp] theorem window_self (xs : List α) (lo : Nat) : window xs lo lo = [] := by
  simp [window]

theorem window_append_window {xs : List α} {lo mid hi : Nat} (h₁ : lo ≤ mid) (h₂ : mid ≤ hi) :
    window xs lo mid ++ window xs mid hi = window xs lo hi := by
  apply List.ext_getElem?
  intro i
  simp only [window, List.getElem?_append, List.length_drop, List.length_take,
    List.getElem?_drop, List.getElem?_take]
  grind

theorem drop_window (xs : List α) (lo hi n : Nat) :
    (window xs lo hi).drop n = window xs (lo + n) hi := by
  simp [window, List.drop_drop]

theorem take_window {xs : List α} {lo hi n : Nat} (h : lo + n ≤ hi) :
    (window xs lo hi).take n = window xs lo (lo + n) := by
  rw [window, List.take_drop, List.take_take, Nat.min_eq_left h]
  rfl

/-- A window only looks at the elements before its end. -/
theorem window_append_left {xs ys : List α} {lo hi : Nat} (h : hi ≤ xs.length) :
    window (xs ++ ys) lo hi = window xs lo hi := by
  rw [window, List.take_append_of_le_length h]
  rfl

theorem window_take {xs : List α} {lo hi n : Nat} (h : hi ≤ n) :
    window (xs.take n) lo hi = window xs lo hi := by
  rw [window, List.take_take, Nat.min_eq_left h]
  rfl

/-! ## Stores -/

@[simp] theorem overlay_nil (xs : List α) (pos : Nat) : overlay xs pos [] = xs := by
  simp [overlay]

theorem length_overlay {xs ys : List α} {pos : Nat} (h : pos + ys.length ≤ xs.length) :
    (overlay xs pos ys).length = xs.length := by
  simp only [overlay, List.length_append, List.length_take, List.length_drop]
  omega

/-- What was stored is read back. -/
theorem window_overlay {xs ys : List α} {pos : Nat} (h : pos + ys.length ≤ xs.length) :
    window (overlay xs pos ys) pos (pos + ys.length) = ys := by
  have hpos : (xs.take pos).length = pos := by simp; omega
  have hend : (xs.take pos ++ ys).length = pos + ys.length := by simp; omega
  have htake : (overlay xs pos ys).take (pos + ys.length) = xs.take pos ++ ys := by
    rw [overlay, List.take_append_of_le_length (Nat.le_of_eq hend.symm),
      List.take_of_length_le (Nat.le_of_eq hend)]
  have hdrop : (xs.take pos ++ ys).drop (xs.take pos).length = ys := List.drop_left
  rw [window, htake]
  rwa [hpos] at hdrop

/-- A store leaves the elements before it alone. -/
theorem window_overlay_of_le {xs ys : List α} {pos lo hi : Nat} (h : hi ≤ pos)
    (hpos : pos ≤ xs.length) : window (overlay xs pos ys) lo hi = window xs lo hi := by
  have hlen : (xs.take pos).length = pos := by simp [hpos]
  rw [overlay, List.append_assoc, window_append_left (by rw [hlen]; exact h), window_take h]

/-- A store leaves the elements behind it alone. -/
theorem window_overlay_of_ge {xs ys : List α} {pos lo hi : Nat} (h : pos + ys.length ≤ lo)
    (hpos : pos + ys.length ≤ xs.length) : window (overlay xs pos ys) lo hi = window xs lo hi := by
  have hlen : (xs.take pos ++ ys).length = pos + ys.length := by simp; omega
  apply List.ext_getElem?
  intro i
  simp only [window, overlay, List.getElem?_drop, List.getElem?_take]
  split
  · rw [List.getElem?_append_right (by omega), hlen, List.getElem?_drop]
    congr 1
    omega
  · rfl

/-- A range that was moved down to `pos`, seen at its old place: the moved elements that lie there,
and behind them the end of the old ones. -/
theorem window_overlay_window {xs : List α} {pos lo hi : Nat} (hpos : pos ≤ lo) (hlo : lo ≤ hi)
    (hhi : hi ≤ xs.length) :
    window (overlay xs pos (window xs lo hi)) lo hi =
      (window xs lo hi).drop (lo - pos) ++ (window xs lo hi).drop (hi - lo - (lo - pos)) := by
  have hlen : (window xs lo hi).length = hi - lo := length_window hhi
  have hfits : pos + (window xs lo hi).length ≤ xs.length := by omega
  rcases Nat.le_total lo (pos + (hi - lo)) with hover | hapart
  · -- The ranges overlap: the old place is cut where the moved range ends.
    have hfirst : window (overlay xs pos (window xs lo hi)) lo (pos + (hi - lo)) =
        (window xs lo hi).drop (lo - pos) := by
      have hmoved := window_overlay hfits
      rw [hlen] at hmoved
      rw [← hmoved, drop_window, Nat.add_sub_cancel' hpos, hmoved]
    have hsecond : window (overlay xs pos (window xs lo hi)) (pos + (hi - lo)) hi =
        (window xs lo hi).drop (hi - lo - (lo - pos)) := by
      rw [window_overlay_of_ge (by omega) hfits, drop_window]
      congr 1
      omega
    rw [← hfirst, ← hsecond, window_append_window hover (by omega)]
  · rw [window_overlay_of_ge (by omega) hfits, List.drop_eq_nil_of_le (by omega)]
    have hzero : hi - lo - (lo - pos) = 0 := by omega
    rw [hzero, List.nil_append, List.drop_zero]

/-! ## Periods -/

/-- What is a prefix of itself behind `bs` repeats `bs`. -/
theorem getElem?_of_prefix_append {xs bs : List α} (h : xs <+: bs ++ xs) (hbs : 0 < bs.length)
    {i : Nat} (hi : i < xs.length) : xs[i]? = bs[i % bs.length]? := by
  have hsame : ∀ j, j < xs.length → xs[j]? = (bs ++ xs)[j]? := by
    intro j hj
    have hj' : j < (bs ++ xs).length := Nat.lt_of_lt_of_le hj h.length_le
    rw [List.getElem?_eq_getElem hj, List.getElem?_eq_getElem hj', h.getElem hj]
  -- On the position: one period ahead of it the list is the same.
  induction i using Nat.strongRecOn with
  | ind i ih =>
      rw [hsame i hi]
      by_cases hlt : i < bs.length
      · rw [List.getElem?_append_left hlt, Nat.mod_eq_of_lt hlt]
      · have hle : bs.length ≤ i := Nat.le_of_not_lt hlt
        rw [List.getElem?_append_right hle, ih (i - bs.length) (by omega) (by omega),
          ← Nat.mod_eq_sub_mod hle]

end Lib
end Muradin
