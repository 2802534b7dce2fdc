import Mathlib.Algebra.Ring.Nat
import Mathlib.Data.List.Infix

/-!
# Machine — runs of a partial step function

A machine is a partial step function `step : σ → α → Option σ`: the label says which step is
taken and every choice of the environment inside it, `none` says that the label is not enabled.

* `run step s as` takes the labels of `as` one after the other;
* `Along step ok s as` says that every step of that run meets `ok`, judged in the state before it;
* `invariant_run` and `invariant_along` are the induction rules (one step, then a whole run);
* `rel_run` and `view_run` relate the two ends of a run;
* `summary_run` relates a run to what is folded over its labels, `along_iff_flag` to a flag,
  `along_iff_kept` to a condition that a step keeps exactly if it meets `ok`;
* `erase_run` follows a run in another machine that takes some of its steps only;
* `potential_run` bounds what a run spends by what its labels bring;
* `prefixes_iff_along` and `prefixes_run_iff_along` turn a one-step equivalence into one about whole
  runs.
-/

namespace Muradin
namespace Lib

universe u v w

variable {σ : Type u} {α : Type v} {τ : Type w}

/-! ## Runs -/

/-- Take the labels of `as` one after the other from `s`. -/
def run (step : σ → α → Option σ) : σ → List α → Option σ
  | s, [] => some s
  | s, a :: as => (step s a).bind fun s' => run step s' as

/-- Every step of the run from `s` over `as` meets `ok` in the state before the step. -/
def Along (step : σ → α → Option σ) (ok : σ → α → Prop) : σ → List α → Prop
  | _, [] => True
  | s, a :: as => ok s a ∧ ∀ s', step s a = some s' → Along step ok s' as

variable {step : σ → α → Option σ} {ok : σ → α → Prop} {I P : σ → Prop}

@[simp] theorem run_nil (s : σ) : run step s [] = some s := rfl

@[simp] theorem along_nil (s : σ) : Along step ok s [] := trivial

theorem run_cons {s s' : σ} {a : α} {as : List α} :
    run step s (a :: as) = some s' ↔ ∃ t, step s a = some t ∧ run step t as = some s' := by
  simp [run, Option.bind_eq_some_iff]

theorem run_append (s : σ) (as bs : List α) :
    run step s (as ++ bs) = (run step s as).bind fun t => run step t bs := by
  induction as generalizing s with
  | nil => rfl
  | cons a as ih =>
      cases h : step s a with
      | none => simp [run, h]
      | some t => simpa [run, h] using ih t

theorem run_append_eq_some {s s' : σ} {as bs : List α} :
    run step s (as ++ bs) = some s' ↔
      ∃ t, run step s as = some t ∧ run step t bs = some s' := by
  rw [run_append, Option.bind_eq_some_iff]

theorem run_concat {s s' : σ} {as : List α} {a : α} :
    run step s (as ++ [a]) = some s' ↔ ∃ t, run step s as = some t ∧ step t a = some s' := by
  rw [run_append_eq_some]
  simp [run]

/-- A run on fixed labels is found by evaluating it. -/
theorem exists_run_of_any {Q : σ → Prop} [DecidablePred Q] {s : σ} {as : List α}
    (h : (run step s as).any (fun t => decide (Q t)) = true) :
    ∃ t, run step s as = some t ∧ Q t := by
  rcases (Option.any_eq_true _ _).mp h with ⟨t, ht, hQ⟩
  exact ⟨t, ht, of_decide_eq_true hQ⟩

/-- `Along` is decided by running the machine. -/
instance decidableAlong [∀ s a, Decidable (ok s a)] :
    (s : σ) → (as : List α) → Decidable (Along step ok s as)
  | _, [] => .isTrue trivial
  | s, a :: as =>
      match h : step s a with
      | none => decidable_of_iff (ok s a) (by simp [Along, h])
      | some t =>
          have := decidableAlong t as
          decidable_of_iff (ok s a ∧ Along step ok t as) (by simp [Along, h])

theorem along_cons {s : σ} {a : α} {as : List α} :
    Along step ok s (a :: as) ↔ ok s a ∧ ∀ s', step s a = some s' → Along step ok s' as :=
  Iff.rfl

/-- Behind a step that is taken the rest of the run is a run from the next state. -/
theorem run_cons_of {s u : σ} {a : α} (hu : step s a = some u) (as : List α) :
    run step s (a :: as) = run step u as := by
  rw [run, hu, Option.bind_some]

theorem along_cons_of {s u : σ} {a : α} (hu : step s a = some u) (as : List α) :
    Along step ok s (a :: as) ↔ ok s a ∧ Along step ok u as := by
  rw [along_cons]
  refine and_congr_right fun _ => ⟨fun hall => hall u hu, ?_⟩
  -- The step is a function: there is no other next state.
  intro hrest v hv
  obtain rfl : v = u := Option.some.inj (hv.symm.trans hu)
  exact hrest

/-- What every step meets, every run meets. -/
theorem along_of_forall (h : ∀ s a, ok s a) (s : σ) (as : List α) : Along step ok s as := by
  induction as generalizing s with
  | nil => exact trivial
  | cons a as ih => exact ⟨h s a, fun s' _ => ih s'⟩

/-- A condition on the labels alone holds along every run over them. -/
theorem along_of_forall_mem {p : α → Prop} {as : List α} (h : ∀ a ∈ as, p a) (s : σ) :
    Along step (fun _ a => p a) s as := by
  induction as generalizing s with
  | nil => exact trivial
  | cons a as ih =>
      exact ⟨h a (List.mem_cons_self ..), fun s' _ => ih (fun b hb => h b (List.mem_cons_of_mem _ hb)) s'⟩

/-- A run over labels that meet a condition is a run of the machine that has only these. -/
theorem run_restrict {p : α → Prop} [DecidablePred p] {as : List α} (h : ∀ a ∈ as, p a) (s : σ) :
    run (fun s a => if p a then step s a else none) s as = run step s as := by
  induction as generalizing s with
  | nil => rfl
  | cons a as ih =>
      have hrest := ih fun b hb => h b (List.mem_cons_of_mem _ hb)
      simp only [run, if_pos (h a (List.mem_cons_self ..)), hrest]

theorem Along.append {s : σ} {as bs : List α} (h : Along step ok s (as ++ bs)) :
    Along step ok s as ∧ ∀ t, run step s as = some t → Along step ok t bs := by
  induction as generalizing s with
  | nil =>
      refine ⟨trivial, ?_⟩
      intro t ht
      cases ht
      exact h
  | cons a as ih =>
      obtain ⟨hok, hrest⟩ := h
      refine ⟨⟨hok, fun s' hs' => (ih (hrest s' hs')).1⟩, ?_⟩
      intro t ht
      obtain ⟨u, hu, hut⟩ := run_cons.mp ht
      exact (ih (hrest u hu)).2 t hut

/-- Two conditions that agree on the steps of a run hold along it together. -/
theorem along_congr {ok' : σ → α → Prop} (hI : ∀ s a s', I s → step s a = some s' → I s')
    (hok : ∀ s a s', I s → step s a = some s' → (ok s a ↔ ok' s a))
    {s s' : σ} {as : List α} (hs : I s) (hrun : run step s as = some s') :
    Along step ok s as ↔ Along step ok' s as := by
  induction as generalizing s with
  | nil => exact Iff.rfl
  | cons a as ih =>
      obtain ⟨u, hu, hus⟩ := run_cons.mp hrun
      -- The first step agrees by `hok`, the rest by induction from the next state.
      rw [along_cons_of hu, along_cons_of hu, hok s a u hs hu, ih (hI s a u hs hu) hus]

/-! ## Invariants -/

/-- What one step meeting `ok` preserves, a run whose steps all meet `ok` preserves. -/
theorem invariant_along (hstep : ∀ s a s', I s → ok s a → step s a = some s' → I s')
    {s s' : σ} {as : List α} (hs : I s) (hok : Along step ok s as)
    (hrun : run step s as = some s') : I s' := by
  -- On the labels: the rest of the run starts from the next state.
  induction as generalizing s with
  | nil =>
      cases hrun
      exact hs
  | cons a as ih =>
      obtain ⟨t, ht, hts⟩ := run_cons.mp hrun
      exact ih (hstep s a t hs hok.1 ht) (hok.2 t ht) hts

/-- What every step preserves, every run preserves. -/
theorem invariant_run (hstep : ∀ s a s', I s → step s a = some s' → I s')
    {s s' : σ} {as : List α} (hs : I s) (hrun : run step s as = some s') : I s' := by
  induction as generalizing s with
  | nil =>
      cases hrun
      exact hs
  | cons a as ih =>
      obtain ⟨t, ht, hts⟩ := run_cons.mp hrun
      exact ih (hstep s a t hs ht) hts

/-- What relates the two ends of every step, reflexively and transitively, relates the two ends of
every run. -/
theorem rel_run {R : σ → σ → Prop} (hrefl : ∀ s, R s s) (htrans : ∀ s t u, R s t → R t u → R s u)
    (hstep : ∀ s a s', I s → step s a = some s' → I s' ∧ R s s')
    {s s' : σ} {as : List α} (hs : I s) (hrun : run step s as = some s') : R s s' := by
  induction as generalizing s with
  | nil =>
      cases hrun
      exact hrefl _
  | cons a as ih =>
      obtain ⟨t, ht, hts⟩ := run_cons.mp hrun
      obtain ⟨hI, hR⟩ := hstep s a t hs ht
      exact htrans s t s' hR (ih hI hts)

/-- A view that every step extends by what its label emits is extended by a run by what its labels
emit, in order. -/
theorem view_run {γ : Type w} (view : σ → List γ) (emit : α → List γ)
    (hstep : ∀ s a s', I s → step s a = some s' → I s' ∧ view s' = view s ++ emit a)
    {s s' : σ} {as : List α} (hs : I s) (hrun : run step s as = some s') :
    view s' = view s ++ as.flatMap emit := by
  induction as generalizing s with
  | nil =>
      cases hrun
      simp
  | cons a as ih =>
      obtain ⟨t, ht, hts⟩ := run_cons.mp hrun
      obtain ⟨hI, hview⟩ := hstep s a t hs ht
      rw [ih hI hts, hview, List.flatMap_cons, List.append_assoc]

/-- What is spent one by one is counted. -/
theorem sum_map_toNat (p : α → Bool) (as : List α) :
    (as.map fun a => (p a).toNat).sum = as.countP p := by
  induction as with
  | nil => rfl
  | cons a as ih =>
      rw [List.map_cons, List.sum_cons, ih, List.countP_cons, Nat.add_comm]
      cases p a <;> rfl

/-- If every step pays for what it spends out of a potential and of what its label brings, so does a
run. -/
theorem potential_run (potential : σ → Nat) (spent brought : α → Nat)
    (hstep : ∀ s a s', I s → step s a = some s' →
      I s' ∧ potential s' + spent a ≤ potential s + brought a)
    {s s' : σ} {as : List α} (hs : I s) (hrun : run step s as = some s') :
    potential s' + (as.map spent).sum ≤ potential s + (as.map brought).sum := by
  induction as generalizing s with
  | nil =>
      cases hrun
      simp
  | cons a as ih =>
      obtain ⟨t, ht, hts⟩ := run_cons.mp hrun
      obtain ⟨hI, hpaid⟩ := hstep s a t hs ht
      have hrest := ih hI hts
      simp only [List.map_cons, List.sum_cons]
      omega

/-- If a step keeps `P` exactly when it meets `ok`, then `P` holds in every state of a run exactly
when every step of the run meets `ok`. `I` is whatever the one-step equivalence needs to know. -/
theorem prefixes_iff_along (hI : ∀ s a s', I s → step s a = some s' → I s')
    (hP : ∀ s a s', I s → P s → step s a = some s' → (P s' ↔ ok s a))
    {s s' : σ} {as : List α} (hs : I s) (hPs : P s) (hrun : run step s as = some s') :
    (∀ bs t, bs <+: as → run step s bs = some t → P t) ↔ Along step ok s as := by
  induction as generalizing s with
  | nil =>
      refine ⟨fun _ => trivial, ?_⟩
      rintro - bs t hbs ht
      obtain rfl := List.prefix_nil.mp hbs
      cases ht
      exact hPs
  | cons a as ih =>
      obtain ⟨u, hu, hus⟩ := run_cons.mp hrun
      have hIu : I u := hI s a u hs hu
      rw [along_cons_of hu]
      constructor
      · intro hall
        -- The prefix of one label shows that the step is taken, the longer ones are the rest.
        have hPu : P u := hall [a] u ⟨as, rfl⟩ (run_cons_of hu [])
        refine ⟨(hP s a u hs hPs hu).mp hPu, (ih hIu hPu hus).mp ?_⟩
        intro bs t hbs ht
        exact hall (a :: bs) t (List.cons_prefix_cons.mpr ⟨rfl, hbs⟩) ((run_cons_of hu bs).trans ht)
      · rintro ⟨hok, hrest⟩ bs t hbs ht
        have hPu : P u := (hP s a u hs hPs hu).mpr hok
        cases bs with
        | nil =>
            cases ht
            exact hPs
        | cons b bs =>
            obtain ⟨rfl, hbs'⟩ := List.cons_prefix_cons.mp hbs
            rw [run_cons_of hu] at ht
            exact (ih hIu hPu hus).mpr hrest bs t hbs' ht

/-- The same for a machine whose steps are promised only in the states that meet `P`: every prefix
of `as` is a run that ends in `P` exactly when every step meets `ok`. -/
theorem prefixes_run_iff_along {pre : σ → α → Prop}
    (hstep : ∀ s a, P s → pre s a → ∃ s', step s a = some s' ∧ (P s' ↔ ok s a))
    {s : σ} {as : List α} (hPs : P s) (hpre : Along step (fun s a => P s → pre s a) s as) :
    (∀ bs, bs <+: as → ∃ t, run step s bs = some t ∧ P t) ↔ Along step ok s as := by
  induction as generalizing s with
  | nil =>
      refine ⟨fun _ => trivial, ?_⟩
      rintro - bs hbs
      obtain rfl := List.prefix_nil.mp hbs
      exact ⟨s, rfl, hPs⟩
  | cons a as ih =>
      obtain ⟨u, hu, hPu⟩ := hstep s a hPs (hpre.1 hPs)
      have hrest := hpre.2 u hu
      rw [along_cons_of hu]
      constructor
      · intro hall
        -- As above, but here the one-label prefix also shows that the state is the same.
        rcases hall [a] ⟨as, rfl⟩ with ⟨v, hv, hPv⟩
        obtain rfl : v = u := Option.some.inj (hv.symm.trans (run_cons_of hu []))
        refine ⟨hPu.mp hPv, (ih hPv hrest).mp ?_⟩
        intro bs hbs
        rcases hall (a :: bs) (List.cons_prefix_cons.mpr ⟨rfl, hbs⟩) with ⟨t, ht, hPt⟩
        exact ⟨t, (run_cons_of hu bs).symm.trans ht, hPt⟩
      · rintro ⟨hok, hoks⟩ bs hbs
        cases bs with
        | nil => exact ⟨s, rfl, hPs⟩
        | cons b bs =>
            obtain ⟨rfl, hbs'⟩ := List.cons_prefix_cons.mp hbs
            rw [run_cons_of hu]
            exact (ih (hPu.mpr hok) hrest).mpr hoks bs hbs'

/-- A flag that a step sets exactly if it does not meet `ok` is still false at the end of a run
exactly if every step of the run meets `ok`. -/
theorem along_iff_flag {flag : σ → Bool}
    (hflag : ∀ s a s', step s a = some s' → (flag s' = false ↔ flag s = false ∧ ok s a))
    {s s' : σ} {as : List α} (hrun : run step s as = some s') :
    flag s' = false ↔ flag s = false ∧ Along step ok s as := by
  induction as generalizing s with
  | nil =>
      cases hrun
      simp
  | cons a as ih =>
      obtain ⟨t, ht, hts⟩ := run_cons.mp hrun
      -- The flag of the next state, and then that of the rest of the run.
      rw [ih hts, hflag s a t ht, along_cons_of ht, and_assoc]

/-- If `P` holds behind a step exactly if it held before and the step meets `ok`, it holds behind a
run exactly if it held before and every step meets `ok`. -/
theorem along_iff_kept
    (hstep : ∀ s a s', I s → step s a = some s' → I s' ∧ (P s' ↔ P s ∧ ok s a))
    {s s' : σ} {as : List α} (hs : I s) (hrun : run step s as = some s') :
    P s' ↔ P s ∧ Along step ok s as := by
  induction as generalizing s with
  | nil =>
      cases hrun
      simp
  | cons a as ih =>
      obtain ⟨t, ht, hts⟩ := run_cons.mp hrun
      obtain ⟨hI, hP⟩ := hstep s a t hs ht
      rw [ih hI hts, hP, along_cons_of ht, and_assoc]

/-! ## Projections -/

/-- If every step is followed, under `R`, by the step that `only` makes of it, or by none where it
makes none, a run is followed by the run of the steps that are left. -/
theorem erase_run {β : Type v} {step' : τ → β → Option τ} {R : σ → τ → Prop} (only : α → Option β)
    (hstep : ∀ s a s' t, R s t → step s a = some s' →
      match only a with
      | some b => ∃ t', step' t b = some t' ∧ R s' t'
      | none => R s' t)
    {s s' : σ} {t : τ} {as : List α} (hR : R s t) (hrun : run step s as = some s') :
    ∃ t', run step' t (as.filterMap only) = some t' ∧ R s' t' := by
  induction as generalizing s t with
  | nil =>
      cases hrun
      exact ⟨t, rfl, hR⟩
  | cons a as ih =>
      obtain ⟨u, hu, hus⟩ := run_cons.mp hrun
      have hfollow := hstep s a u t hR hu
      cases honly : only a with
      | none =>
          rw [honly] at hfollow
          rw [List.filterMap_cons_none honly]
          exact ih hfollow hus
      | some b =>
          rw [honly] at hfollow
          obtain ⟨v, hv, hRv⟩ := hfollow
          obtain ⟨t', ht', hRt'⟩ := ih hRv hus
          refine ⟨t', ?_, hRt'⟩
          rw [List.filterMap_cons_some honly, run_cons_of hv, ht']

end Lib
end Muradin
