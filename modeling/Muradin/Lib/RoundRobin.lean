import Mathlib.Data.Int.CardIntervalMod

/-!
# RoundRobin — a cursor that goes around `n` places

The cursor stands behind the place of the last turn and is set back when there is none left.

* `places_eq` — the places of any number of turns, modulo `n`;
* `count_places` — how often each place has its turn;
* `count_window_le` — in no window of the turns is a place two of them behind another.
-/

namespace Muradin
namespace Lib
namespace RoundRobin

/-- The place of the next turn; the cursor is then behind it. -/
def place (n cursor : Nat) : Nat :=
  if n ≤ cursor then 0 else cursor

/-- The places of the next `k` turns. -/
def places (n : Nat) : Nat → Nat → List Nat
  | _, 0 => []
  | cursor, k + 1 => place n cursor :: places n (place n cursor + 1) k

/-- The cursor behind `k` turns. -/
def after (n : Nat) : Nat → Nat → Nat
  | cursor, 0 => cursor
  | cursor, k + 1 => after n (place n cursor + 1) k

variable {n cursor : Nat}

/-- One turn more. -/
theorem places_succ (n cursor k : Nat) :
    places n cursor (k + 1) = places n cursor k ++ [place n (after n cursor k)] := by
  induction k generalizing cursor with
  | zero => rfl
  | succ k ih =>
      rw [places, ih]
      rfl

theorem after_succ (n cursor k : Nat) :
    after n cursor (k + 1) = place n (after n cursor k) + 1 := by
  induction k generalizing cursor with
  | zero => rfl
  | succ k ih =>
      rw [after, ih]
      rfl

theorem place_lt (hn : 0 < n) (cursor : Nat) : place n cursor < n := by
  unfold place
  split
  · exact hn
  · next hlt => exact Nat.lt_of_not_le hlt

/-- A cursor that is at most at the end stands for its place modulo `n`. -/
theorem place_eq_mod (hcursor : cursor ≤ n) : place n cursor = cursor % n := by
  unfold place
  split
  · next hle =>
      obtain rfl : cursor = n := Nat.le_antisymm hcursor hle
      exact (Nat.mod_self cursor).symm
  · next hlt => exact (Nat.mod_eq_of_lt (Nat.lt_of_not_le hlt)).symm

theorem places_eq (hn : 0 < n) (hcursor : cursor ≤ n) (k : Nat) :
    places n cursor k = (List.range k).map fun j => (cursor + j) % n := by
  -- On the turns: the cursor behind the first one stands for the next place.
  induction k generalizing cursor with
  | zero => rfl
  | succ k ih =>
      have hnext : place n cursor + 1 ≤ n := place_lt hn cursor
      rw [places, ih hnext, List.range_succ_eq_map, List.map_cons, List.map_map]
      refine congrArg₂ List.cons (place_eq_mod hcursor) ?_
      refine List.map_congr_left fun j _ => ?_
      show (place n cursor + 1 + j) % n = (cursor + (j + 1)) % n
      rw [place_eq_mod hcursor, Nat.add_assoc, Nat.mod_add_mod, Nat.add_comm 1 j]

/-- The turns of place `i` are the numbers of this remainder. -/
theorem count_map_mod {i : Nat} (hi : i < n) (cursor k : Nat) :
    ((List.range k).map fun j => (cursor + j) % n).count i =
      Nat.count (fun j => cursor + j ≡ i [MOD n]) k := by
  induction k with
  | zero => rfl
  | succ k ih =>
      rw [List.range_succ, List.map_append, List.count_append, ih, Nat.count_succ]
      simp [Nat.ModEq, Nat.mod_eq_of_lt hi, List.count_singleton]

theorem count_places (hn : 0 < n) (hcursor : cursor ≤ n) {i : Nat} (hi : i < n) (k : Nat) :
    (cursor / n + if i < cursor % n then 1 else 0) + (places n cursor k).count i =
      (cursor + k) / n + if i < (cursor + k) % n then 1 else 0 := by
  have hcount : ∀ m, Nat.count (· ≡ i [MOD n]) m = m / n + if i < m % n then 1 else 0 := by
    intro m
    rw [Nat.count_modEq_card m hn, Nat.mod_eq_of_lt hi]
  rw [places_eq hn hcursor, count_map_mod hi, ← hcount, ← hcount, Nat.count_add]

/-- However the turns begin, no place is two of them behind another. -/
theorem count_places_le (hn : 0 < n) (hcursor : cursor ≤ n) {i j : Nat} (hi : i < n) (hj : j < n)
    (k : Nat) : (places n cursor k).count i ≤ (places n cursor k).count j + 1 := by
  have hcounti := count_places hn hcursor hi k
  have hcountj := count_places hn hcursor hj k
  split at hcounti <;> split at hcounti <;> split at hcountj <;> split at hcountj <;> omega

/-! ## Windows -/

theorem take_places (n cursor k m : Nat) :
    (places n cursor k).take m = places n cursor (min m k) := by
  induction m generalizing cursor k with
  | zero => rw [List.take_zero, Nat.zero_min, places]
  | succ m ih =>
      cases k with
      | zero => rfl
      | succ k => rw [places, List.take_succ_cons, ih, Nat.add_min_add_right, places]

/-- Behind some turns the cursor goes on from where it is. -/
theorem exists_drop_places (hn : 0 < n) (hcursor : cursor ≤ n) (k m : Nat) :
    ∃ cursor', cursor' ≤ n ∧ (places n cursor k).drop m = places n cursor' (k - m) := by
  induction m generalizing cursor k with
  | zero => exact ⟨cursor, hcursor, rfl⟩
  | succ m ih =>
      cases k with
      | zero => exact ⟨cursor, hcursor, by simp [places]⟩
      | succ k =>
          rw [places, List.drop_succ_cons, Nat.add_sub_add_right]
          exact ih (place_lt hn cursor) k

/-- In no window of the turns is a place two of them behind another. -/
theorem count_window_le (hn : 0 < n) (hcursor : cursor ≤ n) {i j : Nat} (hi : i < n) (hj : j < n)
    (k start len : Nat) :
    (((places n cursor k).drop start).take len).count i ≤
      (((places n cursor k).drop start).take len).count j + 1 := by
  rcases exists_drop_places hn hcursor k start with ⟨cursor', hcursor', hdrop⟩
  rw [hdrop, take_places]
  exact count_places_le hn hcursor' hi hj _

end RoundRobin
end Lib
end Muradin
