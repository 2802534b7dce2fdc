import Mathlib.Data.List.Basic

/-!
# BaseName — the last component of a path

A path is a list with some elements that separate its components.  The base name is the longest
suffix without a separator.

* `isBaseName_append`, `IsBaseName.cut` — what is cut off is nothing, or ends in a separator;
* `IsBaseName.or_iff` — when the base name for some separators is the one for more of them;
* `IsBaseName.trans` — cutting at some separators and then at others is cutting at all of them.
-/

namespace Muradin
namespace Lib

universe u

variable {α : Type u} {p q : α → Prop} {path mid base : List α}

/-- `base` is the longest suffix of `path` without a separator. -/
structure IsBaseName (p : α → Prop) (path base : List α) : Prop where
  suffix : base <:+ path
  clean : ∀ c ∈ base, ¬ p c
  longest : ∀ t, t <:+ path → (∀ c ∈ t, ¬ p c) → t <:+ base

/-! ## What is cut off -/

/-- A path without a separator is its own base name. -/
theorem isBaseName_self (h : ∀ c ∈ path, ¬ p c) : IsBaseName p path path :=
  { suffix := List.suffix_refl path
    clean := h
    longest := fun _ ht _ => ht }

/-- What stands behind the last separator is the base name. -/
theorem isBaseName_append {dir : List α} {sep : α} (hsep : p sep) (h : ∀ c ∈ base, ¬ p c) :
    IsBaseName p (dir ++ sep :: base) base := by
  have hsuffix : base <:+ dir ++ sep :: base := ⟨dir ++ [sep], by simp⟩
  refine { suffix := hsuffix, clean := h, longest := ?_ }
  intro t ht hclean
  rcases List.suffix_or_suffix_of_suffix ht hsuffix with hle | hge
  · exact hle
  · -- A longer suffix would contain the separator.
    rcases hge with ⟨front, rfl⟩
    rcases List.eq_nil_or_concat front with rfl | ⟨front, last, rfl⟩
    · exact List.suffix_refl base
    · rcases ht with ⟨dir', hdir⟩
      have hcut : (dir' ++ front ++ [last]) ++ base = (dir ++ [sep]) ++ base := by
        simpa using hdir
      have hlast : last = sep := by
        simpa using congrArg List.getLast? (List.append_cancel_right hcut)
      exact absurd (hlast ▸ hsep) (hclean last (by simp))

/-- The base name is the path, or stands behind a separator. -/
theorem IsBaseName.cut (h : IsBaseName p path base) :
    path = base ∨ ∃ dir sep, p sep ∧ path = dir ++ sep :: base := by
  rcases h.suffix with ⟨front, rfl⟩
  rcases List.eq_nil_or_concat front with rfl | ⟨dir, sep, rfl⟩
  · exact Or.inl rfl
  · right
    refine ⟨dir, sep, ?_, by simp⟩
    by_contra hsep
    -- The base name would not be the longest suffix.
    have hclean : ∀ c ∈ sep :: base, ¬ p c := by
      intro c hc
      rcases List.mem_cons.mp hc with rfl | hc
      · exact hsep
      · exact h.clean c hc
    have hlonger : sep :: base <:+ base := h.longest (sep :: base) ⟨dir, by simp⟩ hclean
    exact Nat.not_succ_le_self base.length hlonger.length_le

/-! ## More separators -/

theorem IsBaseName.congr (h : IsBaseName p path base) (hpq : ∀ c, p c ↔ q c) :
    IsBaseName q path base :=
  { suffix := h.suffix
    clean := fun c hc hqc => h.clean c hc ((hpq c).mpr hqc)
    longest := fun t ht hclean => h.longest t ht fun c hc hpc => hclean c hc ((hpq c).mp hpc) }

/-- The base name for the separators of `p` is the one for those of `q` too, exactly if it has none
of these. -/
theorem IsBaseName.or_iff (h : IsBaseName p path base) :
    IsBaseName (fun c => p c ∨ q c) path base ↔ ∀ c ∈ base, ¬ q c := by
  constructor
  · exact fun h' c hc hq => h'.clean c hc (Or.inr hq)
  · intro hq
    refine { suffix := h.suffix, clean := ?_, longest := ?_ }
    · rintro c hc (hpc | hqc)
      · exact h.clean c hc hpc
      · exact hq c hc hqc
    · exact fun t ht hclean => h.longest t ht fun c hc hpc => hclean c hc (Or.inl hpc)

/-- Cutting at the separators of `p` and then at those of `q` is cutting at both. -/
theorem IsBaseName.trans (h : IsBaseName p path mid) (h' : IsBaseName q mid base) :
    IsBaseName (fun c => p c ∨ q c) path base := by
  refine { suffix := h'.suffix.trans h.suffix, clean := ?_, longest := ?_ }
  · rintro c hc (hpc | hqc)
    · exact h.clean c (h'.suffix.mem hc) hpc
    · exact h'.clean c hc hqc
  · intro t ht hclean
    have hmid : t <:+ mid := h.longest t ht fun c hc hpc => hclean c hc (Or.inl hpc)
    exact h'.longest t hmid fun c hc hqc => hclean c hc (Or.inr hqc)

end Lib
end Muradin
