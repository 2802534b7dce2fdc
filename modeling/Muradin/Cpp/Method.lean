import Mathlib.Data.BitVec

/-!
# Method — member functions, faults and `size_t`

A C++ member function is a `Method σ α`: it reads and updates the object, and either returns or
stops with a `Fault` in whatever state the object was in by then.  Which `assert`s are compiled in
is the `Build`: the Debug build is the repository's default, the Release build passes `-DNDEBUG`.

`size_t` values are natural numbers below `2 ^ 64`; `SizeT.add` and `SizeT.sub` wrap.
-/

namespace Muradin
namespace Cpp

/-! ## Faults and builds -/

/-- The ways in which a call does not return. -/
inductive Fault
  /-- a failed `assert` of a Debug build (the process aborts) -/
  | assertion
  /-- `std::length_error` -/
  | lengthError
  /-- an access outside the storage of an object -/
  | overrun
  /-- an empty `boost::function` was called -/
  | badFunctionCall
  /-- a member function of a destroyed object was called -/
  | dangling
  deriving DecidableEq, Repr

inductive Build
  | debug
  | release
  deriving DecidableEq, Repr

abbrev Method (σ α : Type) := EStateM Fault σ α

variable {σ τ α β : Type}

@[simp] theorem run_throw (e : Fault) (s : σ) :
    EStateM.run (throw e : Method σ α) s = .error e s := rfl

@[simp] theorem run_map (f : α → β) (m : Method σ α) (s : σ) :
    EStateM.run (f <$> m) s =
      match m.run s with
      | .ok a s => .ok (f a) s
      | .error e s => .error e s := by
  show EStateM.map f m s = _
  unfold EStateM.map EStateM.run
  cases m s <;> rfl

theorem run_map_ok {f : α → β} {m : Method σ α} {a : α} {s t : σ} (h : m.run s = .ok a t) :
    (f <$> m).run s = .ok (f a) t := by
  rw [run_map, h]

theorem run_map_error {f : α → β} {m : Method σ α} {e : Fault} {s t : σ}
    (h : m.run s = .error e t) : (f <$> m).run s = .error e t := by
  rw [run_map, h]

theorem run_bind_ok {m : Method σ α} {k : α → Method σ β} {a : α} {s t : σ}
    (h : m.run s = .ok a t) : (m >>= k).run s = (k a).run t := by
  rw [EStateM.run_bind, h]

theorem run_bind_error {m : Method σ α} {k : α → Method σ β} {e : Fault} {s t : σ}
    (h : m.run s = .error e t) : (m >>= k).run s = .error e t := by
  rw [EStateM.run_bind, h]

/-- `assert(p)`. -/
def cassert (B : Build) (p : Prop) [Decidable p] : Method σ Unit :=
  if B = .debug ∧ ¬ p then throw .assertion else pure ()

@[simp] theorem run_cassert_of {B : Build} {p : Prop} [Decidable p] (h : p) (s : σ) :
    EStateM.run (cassert B p) s = .ok () s := by
  simp [cassert, h]

@[simp] theorem run_cassert_release {p : Prop} [Decidable p] (s : σ) :
    EStateM.run (cassert .release p) s = .ok () s := by
  simp [cassert]

theorem run_cassert_debug {p : Prop} [Decidable p] (h : ¬ p) (s : σ) :
    EStateM.run (cassert .debug p) s = .error .assertion s := by
  simp [cassert, h]

/-- The result of a call that does not touch the object. -/
def orThrow : Except Fault α → Method σ α
  | .ok a => pure a
  | .error e => throw e

@[simp] theorem run_orThrow_ok (a : α) (s : σ) :
    EStateM.run (orThrow (.ok a)) s = .ok a s := rfl

@[simp] theorem run_orThrow_error (e : Fault) (s : σ) :
    EStateM.run (orThrow (.error e : Except Fault α)) s = .error e s := rfl

/-- Call a member function of a data member. -/
def onField (get : σ → τ) (put : τ → σ → σ) (m : Method τ α) : Method σ α := fun s =>
  match m.run (get s) with
  | .ok a t => .ok a (put t s)
  | .error e t => .error e (put t s)

theorem run_onField_ok {get : σ → τ} {put : τ → σ → σ} {m : Method τ α} {s : σ} {a : α} {t : τ}
    (h : m.run (get s) = .ok a t) : (onField get put m).run s = .ok a (put t s) := by
  simp [onField, EStateM.run, show m (get s) = .ok a t from h]

theorem run_onField_error {get : σ → τ} {put : τ → σ → σ} {m : Method τ α} {s : σ} {e : Fault}
    {t : τ} (h : m.run (get s) = .error e t) :
    (onField get put m).run s = .error e (put t s) := by
  simp [onField, EStateM.run, show m (get s) = .error e t from h]

/-- The object a call leaves behind, whether it returned or not. -/
def stateOf : EStateM.Result Fault σ α → σ
  | .ok _ s => s
  | .error _ s => s

@[simp] theorem stateOf_ok (a : α) (s : σ) : stateOf (.ok a s) = s := rfl

@[simp] theorem stateOf_error (e : Fault) (s : σ) :
    stateOf (.error e s : EStateM.Result Fault σ α) = s := rfl

/-! ## Frames -/

/-- A call leaves the part `f` of the object alone, whether it returns or not. -/
def Keeps {ρ : Type} (f : σ → ρ) (m : Method σ α) : Prop :=
  ∀ s, f (stateOf (m.run s)) = f s

namespace Keeps

variable {ρ : Type} {f : σ → ρ} {m : Method σ α}

theorem pure (f : σ → ρ) (a : α) : Keeps f (Pure.pure a : Method σ α) := by
  intro s
  rfl

theorem throw (f : σ → ρ) (e : Fault) : Keeps f (MonadExcept.throw e : Method σ α) := by
  intro s
  rfl

theorem get (f : σ → ρ) : Keeps f (MonadState.get : Method σ σ) := by
  intro s
  rfl

theorem modify {g : σ → σ} (h : ∀ s, f (g s) = f s) : Keeps f (modify g : Method σ Unit) := by
  intro s
  exact h s

theorem bind {k : α → Method σ β} (hm : Keeps f m) (hk : ∀ a, Keeps f (k a)) :
    Keeps f (m >>= k) := by
  intro s
  have hs := hm s
  rw [EStateM.run_bind]
  cases hrun : m.run s with
  | ok a t =>
      rw [hrun] at hs
      exact (hk a t).trans hs
  | error e t =>
      rw [hrun] at hs
      exact hs

theorem map {g : α → β} (hm : Keeps f m) : Keeps f (g <$> m) := by
  intro s
  have hs := hm s
  rw [run_map]
  cases hrun : m.run s with
  | ok a t => simpa [hrun] using hs
  | error e t => simpa [hrun] using hs

theorem ite {p : Prop} [Decidable p] {m₁ m₂ : Method σ α} (h₁ : Keeps f m₁) (h₂ : Keeps f m₂) :
    Keeps f (if p then m₁ else m₂) := by
  split
  · exact h₁
  · exact h₂

theorem cassert (f : σ → ρ) (B : Build) (p : Prop) [Decidable p] : Keeps f (cassert B p) :=
  ite (throw f _) (pure f _)

theorem orThrow (f : σ → ρ) (r : Except Fault α) : Keeps f (orThrow r) := by
  cases r with
  | ok a => exact pure f a
  | error e => exact throw f e

/-- A call of a data member's function leaves the rest of the object alone. -/
theorem onField {get : σ → τ} {put : τ → σ → σ} (h : ∀ t s, f (put t s) = f s)
    (m : Method τ α) : Keeps f (onField get put m) := by
  intro s
  cases hrun : m.run (get s) with
  | ok a t => simpa [run_onField_ok hrun] using h t s
  | error e t => simpa [run_onField_error hrun] using h t s

end Keeps

/-! ## Relations -/

/-- A call takes the object along `R`, whether it returns or not. -/
def Relates (R : σ → σ → Prop) (m : Method σ α) : Prop :=
  ∀ s, R s (stateOf (m.run s))

namespace Relates

variable {R : σ → σ → Prop} {m : Method σ α}

theorem of_keeps {ρ : Type} {f : σ → ρ} (h : Keeps f m) (hR : ∀ s t, f t = f s → R s t) :
    Relates R m := by
  intro s
  exact hR s _ (h s)

/-- A call that changes nothing takes the object along every reflexive relation. -/
theorem of_same (hrefl : ∀ s, R s s) (h : Keeps (fun s => s) m) : Relates R m := by
  refine of_keeps h ?_
  intro s t heq
  exact heq ▸ hrefl s

theorem modify {g : σ → σ} (h : ∀ s, R s (g s)) : Relates R (modify g : Method σ Unit) := by
  intro s
  exact h s

theorem bind (htrans : ∀ s t u, R s t → R t u → R s u) {k : α → Method σ β} (hm : Relates R m)
    (hk : ∀ a, Relates R (k a)) : Relates R (m >>= k) := by
  intro s
  have hfirst := hm s
  rw [EStateM.run_bind]
  cases hrun : m.run s with
  | ok a t =>
      rw [hrun] at hfirst
      exact htrans s t _ hfirst (hk a t)
  | error e t =>
      rw [hrun] at hfirst
      exact hfirst

theorem ite {p : Prop} [Decidable p] {m₁ m₂ : Method σ α} (h₁ : Relates R m₁)
    (h₂ : Relates R m₂) : Relates R (if p then m₁ else m₂) := by
  split
  · exact h₁
  · exact h₂

theorem onField {get : σ → τ} {put : τ → σ → σ} (h : ∀ s t, R s (put t s)) (m : Method τ α) :
    Relates R (onField get put m) := by
  intro s
  cases hrun : m.run (get s) with
  | ok a t => simpa [run_onField_ok hrun] using h s t
  | error e t => simpa [run_onField_error hrun] using h s t

end Relates

/-! ## Results -/

/-- Whenever a call returns, its result meets `P`. -/
def Returns (P : α → Prop) (m : Method σ α) : Prop :=
  ∀ s a t, m.run s = .ok a t → P a

namespace Returns

variable {P : α → Prop} {m : Method σ α}

theorem pure {a : α} (h : P a) : Returns P (Pure.pure a : Method σ α) := by
  intro s b t hrun
  cases hrun
  exact h

theorem throw (P : α → Prop) (e : Fault) : Returns P (MonadExcept.throw e : Method σ α) := by
  intro s b t hrun
  cases hrun

/-- The rest of a call may use what is known of the first result. -/
theorem bind_of {Q : α → Prop} {P : β → Prop} {k : α → Method σ β} (hm : Returns Q m)
    (hk : ∀ a, Q a → Returns P (k a)) : Returns P (m >>= k) := by
  intro s b t hrun
  rw [EStateM.run_bind] at hrun
  cases hfirst : m.run s with
  | ok a u =>
      rw [hfirst] at hrun
      exact hk a (hm s a u hfirst) u b t hrun
  | error e u =>
      rw [hfirst] at hrun
      cases hrun

theorem bind {P : β → Prop} {k : α → Method σ β} (hk : ∀ a, Returns P (k a)) :
    Returns P (m >>= k) :=
  bind_of (Q := fun _ => True) (fun _ _ _ _ => trivial) fun a _ => hk a

theorem ite_of {p : Prop} [Decidable p] {m₁ m₂ : Method σ α} (h₁ : p → Returns P m₁)
    (h₂ : ¬ p → Returns P m₂) : Returns P (if p then m₁ else m₂) := by
  split
  · next h => exact h₁ h
  · next h => exact h₂ h

theorem ite {p : Prop} [Decidable p] {m₁ m₂ : Method σ α} (h₁ : Returns P m₁)
    (h₂ : Returns P m₂) : Returns P (if p then m₁ else m₂) :=
  ite_of (fun _ => h₁) fun _ => h₂

end Returns

/-! ## Faults that a call can stop with -/

/-- Whenever a call stops, its fault meets `P`. -/
def Raises (P : Fault → Prop) (m : Method σ α) : Prop :=
  ∀ s e t, m.run s = .error e t → P e

namespace Raises

variable {P : Fault → Prop} {m : Method σ α}

theorem pure (P : Fault → Prop) (a : α) : Raises P (Pure.pure a : Method σ α) := by
  intro s e t hrun
  cases hrun

theorem get (P : Fault → Prop) : Raises P (MonadState.get : Method σ σ) := by
  intro s e t hrun
  cases hrun

theorem modify (P : Fault → Prop) (f : σ → σ) : Raises P (modify f : Method σ Unit) := by
  intro s e t hrun
  cases hrun

theorem set (P : Fault → Prop) (s : σ) : Raises P (MonadStateOf.set s : Method σ PUnit) := by
  intro s e t hrun
  cases hrun

theorem throw {e : Fault} (h : P e) : Raises P (MonadExcept.throw e : Method σ α) := by
  intro s e' t hrun
  cases hrun
  exact h

theorem bind {k : α → Method σ β} (hm : Raises P m) (hk : ∀ a, Raises P (k a)) :
    Raises P (m >>= k) := by
  intro s e t hrun
  rw [EStateM.run_bind] at hrun
  cases hfirst : m.run s with
  | ok a u =>
      rw [hfirst] at hrun
      exact hk a u e t hrun
  | error e' u =>
      rw [hfirst] at hrun
      cases hrun
      exact hm s e t hfirst

theorem map {f : α → β} (hm : Raises P m) : Raises P (f <$> m) := by
  intro s e t hrun
  rw [run_map] at hrun
  cases hfirst : m.run s with
  | ok a u =>
      rw [hfirst] at hrun
      cases hrun
  | error e' u =>
      rw [hfirst] at hrun
      cases hrun
      exact hm s e t hfirst

theorem ite {p : Prop} [Decidable p] {m₁ m₂ : Method σ α} (h₁ : Raises P m₁)
    (h₂ : Raises P m₂) : Raises P (if p then m₁ else m₂) := by
  split
  · exact h₁
  · exact h₂

theorem cassert (h : P .assertion) (B : Build) (p : Prop) [Decidable p] :
    Raises P (cassert B p : Method σ Unit) :=
  ite (throw h) (pure P ())

theorem orThrow {r : Except Fault α} (h : ∀ e, r = .error e → P e) :
    Raises P (orThrow r : Method σ α) := by
  cases r with
  | ok a => exact pure P a
  | error e => exact throw (h e rfl)

theorem onField {get : σ → τ} {put : τ → σ → σ} {m : Method τ α} (hm : Raises P m) :
    Raises P (onField get put m) := by
  intro s e t hrun
  cases hfirst : m.run (get s) with
  | ok a u =>
      rw [run_onField_ok hfirst] at hrun
      cases hrun
  | error e' u =>
      rw [run_onField_error hfirst] at hrun
      cases hrun
      exact hm _ e u hfirst

end Raises

/-! ## `size_t` -/

namespace SizeT

/-- One more than the largest `size_t`. -/
def modulus : Nat := 2 ^ 64

def add (a b : Nat) : Nat := (a + b) % modulus

def sub (a b : Nat) : Nat := (a + (modulus - b)) % modulus

theorem add_eq {a b : Nat} (h : a + b < modulus) : add a b = a + b :=
  Nat.mod_eq_of_lt h

theorem sub_eq {a b : Nat} (h : b ≤ a) (ha : a < modulus) : sub a b = a - b := by
  unfold sub
  have : a + (modulus - b) = (a - b) + modulus := by omega
  rw [this, Nat.add_mod_right, Nat.mod_eq_of_lt (by omega)]

end SizeT

end Cpp
end Muradin
