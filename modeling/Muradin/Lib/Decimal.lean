import Muradin.Lib.ByteOrder

/-!
# Decimal — numbers as text

Bytes of ASCII text, and the decimal conversions of `printf`.

* `decimal` — `%u`: no leading zeros;
* `padded` — `%0wd` of a number that is not negative, and `fixed` the same at exactly `w` digits;
* `fixed_lt_iff` — text of one width is ordered as the numbers are;
* `append_lt_append_iff` — text made of fields of one width is ordered field by field;
* `readInt_decimalInt`, `readInt_paddedInt` — `%d` and `%0wd` of a number with its sign can be read
  back.
-/

namespace Muradin
namespace Lib

/-! ## Text -/

def charByte (c : Char) : Byte :=
  BitVec.ofNat 8 c.toNat

/-- A literal of ASCII characters. -/
def text (s : String) : List Byte :=
  s.toList.map charByte

/-- What `c_str()` shows to a C function: the bytes before the first zero. -/
def cStr (s : List Byte) : List Byte :=
  s.takeWhile fun b => b ≠ 0

/-- Text whose first parts are as long is ordered by these, and then by the rest. -/
theorem append_lt_append_iff {a b c d : List Byte} (h : a.length = b.length) :
    a ++ c < b ++ d ↔ a < b ∨ a = b ∧ c < d := by
  induction a generalizing b with
  | nil =>
      obtain rfl : b = [] := List.length_eq_zero_iff.mp h.symm
      simp
  | cons x a ih =>
      cases b with
      | nil => cases h
      | cons y b =>
          have hrest : a.length = b.length := Nat.succ.inj h
          simp only [List.cons_append, List.cons_lt_cons_iff, ih hrest, List.cons.injEq]
          constructor
          · rintro (hlt | ⟨rfl, hlt | ⟨rfl, hlt⟩⟩)
            · exact Or.inl (Or.inl hlt)
            · exact Or.inl (Or.inr ⟨rfl, hlt⟩)
            · exact Or.inr ⟨⟨rfl, rfl⟩, hlt⟩
          · rintro ((hlt | ⟨rfl, hlt⟩) | ⟨⟨rfl, rfl⟩, hlt⟩)
            · exact Or.inl hlt
            · exact Or.inr ⟨rfl, Or.inl hlt⟩
            · exact Or.inr ⟨rfl, Or.inr ⟨rfl, hlt⟩⟩

/-! ## Digits -/

def digit (d : Nat) : Byte :=
  charByte d.digitChar

def IsDigit (b : Byte) : Prop :=
  0x30 ≤ b.toNat ∧ b.toNat ≤ 0x39

instance (b : Byte) : Decidable (IsDigit b) :=
  inferInstanceAs (Decidable (_ ∧ _))

def digitVal (b : Byte) : Nat :=
  b.toNat - 0x30

theorem toNat_digit {d : Nat} (h : d < 10) : (digit d).toNat = 0x30 + d := by
  rw [digit, charByte, BitVec.toNat_ofNat, Nat.toNat_digitChar_of_lt_ten h]
  exact Nat.mod_eq_of_lt (by omega)

theorem isDigit_digit {d : Nat} (h : d < 10) : IsDigit (digit d) := by
  rw [IsDigit, toNat_digit h]
  omega

@[simp] theorem digitVal_digit {d : Nat} (h : d < 10) : digitVal (digit d) = d := by
  rw [digitVal, toNat_digit h]
  omega

theorem digitVal_lt {b : Byte} (h : IsDigit b) : digitVal b < 10 := by
  obtain ⟨hlow, hhigh⟩ := h
  rw [digitVal]
  omega

theorem digit_digitVal {b : Byte} (h : IsDigit b) : digit (digitVal b) = b := by
  apply BitVec.eq_of_toNat_eq
  rw [toNat_digit (digitVal_lt h), digitVal]
  have hlow := h.1
  omega

theorem digit_lt_iff {d e : Nat} (hd : d < 10) (he : e < 10) : digit d < digit e ↔ d < e := by
  rw [BitVec.lt_def, toNat_digit hd, toNat_digit he]
  omega

theorem digit_inj {d e : Nat} (hd : d < 10) (he : e < 10) (h : digit d = digit e) : d = e := by
  rw [← digitVal_digit hd, ← digitVal_digit he, h]

/-! ## Without leading zeros -/

/-- `%u` -/
def decimal (n : Nat) : List Byte :=
  (Nat.toDigits 10 n).map charByte

theorem decimal_of_lt {n : Nat} (h : n < 10) : decimal n = [digit n] := by
  rw [decimal, Nat.toDigits_of_lt_base h]
  rfl

theorem decimal_of_le {n : Nat} (h : 10 ≤ n) : decimal n = decimal (n / 10) ++ [digit (n % 10)] := by
  rw [decimal, Nat.toDigits_of_base_le (by decide) h, List.map_append]
  rfl

/-- A number is written from its first digit on. -/
theorem decimal_induction {P : Nat → Prop} (single : ∀ n, n < 10 → P n)
    (more : ∀ n, 10 ≤ n → P (n / 10) → P n) (n : Nat) : P n := by
  induction n using Nat.strong_induction_on with
  | _ n ih =>
      by_cases h : n < 10
      · exact single n h
      · exact more n (Nat.le_of_not_lt h) (ih (n / 10) (by omega))

theorem isDigit_of_mem_decimal {n : Nat} {b : Byte} (h : b ∈ decimal n) : IsDigit b := by
  induction n using decimal_induction with
  | single n hn =>
      rw [decimal_of_lt hn, List.mem_singleton] at h
      rw [h]
      exact isDigit_digit hn
  | more n hn ih =>
      rw [decimal_of_le hn] at h
      rcases List.mem_append.mp h with hfirst | hlast
      · exact ih hfirst
      · rw [List.mem_singleton.mp hlast]
        exact isDigit_digit (Nat.mod_lt n (by decide))

theorem decimal_ne_nil (n : Nat) : decimal n ≠ [] := by
  simp [decimal]

theorem length_decimal_le {n w : Nat} (hw : 0 < w) : (decimal n).length ≤ w ↔ n < 10 ^ w := by
  rw [decimal, List.length_map]
  exact Nat.length_toDigits_le_iff (by decide) hw

/-! ## Of a fixed width -/

/-- `%0wd` -/
def padded (w n : Nat) : List Byte :=
  List.replicate (w - (decimal n).length) (digit 0) ++ decimal n

/-- The last `w` digits of `n`. -/
def fixed : Nat → Nat → List Byte
  | 0, _ => []
  | w + 1, n => fixed w (n / 10) ++ [digit (n % 10)]

@[simp] theorem length_fixed (w n : Nat) : (fixed w n).length = w := by
  induction w generalizing n with
  | zero => rfl
  | succ w ih => rw [fixed, List.length_append, ih, List.length_singleton]

theorem fixed_zero (w : Nat) : fixed w 0 = List.replicate w (digit 0) := by
  induction w with
  | zero => rfl
  | succ w ih => rw [fixed, Nat.zero_div, ih, Nat.zero_mod, List.replicate_succ']

theorem quot_lt {w n : Nat} (h : n < 10 ^ (w + 1)) : n / 10 < 10 ^ w := by
  rwa [Nat.div_lt_iff_lt_mul (by decide), ← Nat.pow_succ]

/-- A number that fits is padded to exactly the width. -/
theorem padded_eq_fixed {w n : Nat} (h : n < 10 ^ (w + 1)) : padded (w + 1) n = fixed (w + 1) n := by
  induction w generalizing n with
  | zero =>
      have hn : n < 10 := by simpa using h
      rw [padded, decimal_of_lt hn, fixed, Nat.mod_eq_of_lt hn]
      rfl
  | succ w ih =>
      by_cases hn : n < 10
      · rw [padded, decimal_of_lt hn, fixed, Nat.mod_eq_of_lt hn, Nat.div_eq_of_lt hn, fixed_zero]
        rfl
      · have hle : 10 ≤ n := Nat.le_of_not_lt hn
        rw [fixed, ← ih (quot_lt h), padded, padded, decimal_of_le hle, List.length_append,
          List.length_singleton, Nat.add_sub_add_right, List.append_assoc]

/-- Numbers that fit are told apart by their text, .. -/
theorem fixed_inj {w m n : Nat} (hm : m < 10 ^ w) (hn : n < 10 ^ w) :
    fixed w m = fixed w n ↔ m = n := by
  induction w generalizing m n with
  | zero =>
      simp only [Nat.pow_zero] at hm hn
      simp only [fixed, true_iff]
      omega
  | succ w ih =>
      constructor
      · intro heq
        obtain ⟨hquot, hlast⟩ := List.append_inj heq (by simp)
        have hquot := (ih (quot_lt hm) (quot_lt hn)).mp hquot
        have hlast := digit_inj (Nat.mod_lt m (by decide)) (Nat.mod_lt n (by decide))
          (List.singleton_inj.mp hlast)
        omega
      · intro heq
        rw [heq]

/-- .. and ordered as it is. -/
theorem fixed_lt_iff {w m n : Nat} (hm : m < 10 ^ w) (hn : n < 10 ^ w) :
    fixed w m < fixed w n ↔ m < n := by
  induction w generalizing m n with
  | zero =>
      simp only [Nat.pow_zero] at hm hn
      simp only [fixed, List.lt_irrefl, false_iff]
      omega
  | succ w ih =>
      have hlast : ∀ x y : Byte, ([x] < [y] ↔ x < y) := by simp [List.cons_lt_cons_iff]
      rw [fixed, fixed, append_lt_append_iff (by simp), ih (quot_lt hm) (quot_lt hn),
        fixed_inj (quot_lt hm) (quot_lt hn), hlast,
        digit_lt_iff (Nat.mod_lt m (by decide)) (Nat.mod_lt n (by decide))]
      omega

/-- Text that begins with a number of a fixed width, .. -/
theorem fixed_append_lt_iff {w m n : Nat} (hm : m < 10 ^ w) (hn : n < 10 ^ w) {c d : List Byte} :
    fixed w m ++ c < fixed w n ++ d ↔ m < n ∨ m = n ∧ c < d := by
  rw [append_lt_append_iff (by simp), fixed_lt_iff hm hn, fixed_inj hm hn]

/-- .. or with the same characters. -/
theorem same_append_lt_iff (s : List Byte) {c d : List Byte} : s ++ c < s ++ d ↔ c < d := by
  rw [append_lt_append_iff rfl]
  simp [List.lt_irrefl]

/-! ## Reading back -/

/-- The number that the digits stand for. -/
def readNat (bs : List Byte) : Nat :=
  bs.foldl (fun n b => n * 10 + digitVal b) 0

theorem readNat_concat (bs : List Byte) (b : Byte) :
    readNat (bs ++ [b]) = readNat bs * 10 + digitVal b := by
  rw [readNat, List.foldl_append]
  rfl

theorem readNat_decimal (n : Nat) : readNat (decimal n) = n := by
  induction n using decimal_induction with
  | single n hn =>
      rw [decimal_of_lt hn]
      show 0 * 10 + digitVal (digit n) = n
      rw [digitVal_digit hn, Nat.zero_mul, Nat.zero_add]
  | more n hn ih =>
      rw [decimal_of_le hn, readNat_concat, ih, digitVal_digit (Nat.mod_lt n (by decide))]
      omega

theorem readNat_padded (w n : Nat) : readNat (padded w n) = n := by
  have hzeros : ∀ k bs, readNat (List.replicate k (digit 0) ++ bs) = readNat bs := by
    intro k bs
    induction k with
    | zero => rfl
    | succ k ih => exact ih
  rw [padded, hzeros, readNat_decimal]

theorem isDigit_of_mem_padded {w n : Nat} {b : Byte} (h : b ∈ padded w n) : IsDigit b := by
  rcases List.mem_append.mp h with hzero | hmem
  · rw [List.eq_of_mem_replicate hzero]
    exact isDigit_digit (by decide)
  · exact isDigit_of_mem_decimal hmem

/-! ## With a sign -/

/-- `'-'` -/
def minus : Byte := charByte '-'

/-- `%d` -/
def decimalInt (n : Int) : List Byte :=
  if n < 0 then minus :: decimal n.natAbs else decimal n.natAbs

/-- `%0wd`: the sign is one of the `w` characters. -/
def paddedInt (w : Nat) (n : Int) : List Byte :=
  if n < 0 then minus :: padded (w - 1) n.natAbs else padded w n.natAbs

def readInt (bs : List Byte) : Int :=
  if bs.head? = some minus then -(readNat bs.tail : Int) else readNat bs

theorem not_isDigit_minus : ¬ IsDigit minus := by
  decide

/-- Digits have no sign before them. -/
theorem readInt_of_digits {bs : List Byte} (h : ∀ b ∈ bs, IsDigit b) : readInt bs = readNat bs := by
  rw [readInt, if_neg]
  intro hminus
  exact not_isDigit_minus (h minus (List.mem_of_mem_head? hminus))

theorem readInt_signed {n : Int} {pos neg : List Byte} (hpos : ∀ b ∈ pos, IsDigit b)
    (hread : readNat pos = n.natAbs) (hread' : readNat neg = n.natAbs) :
    readInt (if n < 0 then minus :: neg else pos) = n := by
  split
  · next hlt =>
      show (if some minus = some minus then -(readNat neg : Int) else _) = n
      rw [if_pos rfl, hread']
      omega
  · rw [readInt_of_digits hpos, hread]
    omega

theorem readInt_decimalInt (n : Int) : readInt (decimalInt n) = n :=
  readInt_signed (fun _ => isDigit_of_mem_decimal) (readNat_decimal _) (readNat_decimal _)

theorem readInt_paddedInt (w : Nat) (n : Int) : readInt (paddedInt w n) = n :=
  readInt_signed (fun _ => isDigit_of_mem_padded) (readNat_padded _ _) (readNat_padded _ _)

/-- The characters of a number. -/
theorem mem_decimalInt {n : Int} {b : Byte} (h : b ∈ decimalInt n) : b = minus ∨ IsDigit b := by
  unfold decimalInt at h
  split at h
  · rcases List.mem_cons.mp h with rfl | h
    · exact Or.inl rfl
    · exact Or.inr (isDigit_of_mem_decimal h)
  · exact Or.inr (isDigit_of_mem_decimal h)

theorem mem_paddedInt {w : Nat} {n : Int} {b : Byte} (h : b ∈ paddedInt w n) :
    b = minus ∨ IsDigit b := by
  unfold paddedInt at h
  split at h
  · rcases List.mem_cons.mp h with rfl | h
    · exact Or.inl rfl
    · exact Or.inr (isDigit_of_mem_padded h)
  · exact Or.inr (isDigit_of_mem_padded h)

theorem length_decimalInt_le {n : Int} {w : Nat} (hw : 0 < w) (h : n.natAbs < 10 ^ w) :
    (decimalInt n).length ≤ w + 1 := by
  have hle := (length_decimal_le hw).mpr h
  unfold decimalInt
  split
  · exact Nat.succ_le_succ hle
  · exact Nat.le_succ_of_le hle

theorem length_paddedInt_le {n : Int} {w : Nat} (hw : 0 < w) (h : n.natAbs < 10 ^ w) :
    (paddedInt w n).length ≤ w + 1 := by
  have hle := (length_decimal_le hw).mpr h
  unfold paddedInt padded
  split
  · simp only [List.length_cons, List.length_append, List.length_replicate]
    omega
  · simp only [List.length_append, List.length_replicate]
    omega

end Lib
end Muradin
