import Muradin.Lib.Machine

/-!
# Monitor — data behind a mutex, with one condition variable

A thread that updates the data does so with the mutex locked, unlocks it, and then notifies one
thread that waits.  A thread that waits tests its condition with the mutex locked, and blocks until
it is notified while the condition does not hold.  What is done with the mutex locked is one step.

* `Awake` — a blocked thread whose condition holds has an update that is still to notify;
* `awake_next_iff` — which steps keep that;
* `noneAsleep_iff_along` — the runs of such steps are the ones that let no thread sleep whose
  condition holds.
-/

namespace Muradin
namespace Lib

universe u v w

/-- The data, and the threads that are inside a call. -/
structure Monitor (Tid : Type u) (Cond : Type v) (Data : Type w) where
  data : Data
  /-- blocked, with what they wait for -/
  blocked : List (Tid × Cond)
  /-- notified, and still to test their condition again -/
  notified : List (Tid × Cond)
  /-- behind an update, and still to notify -/
  updating : List Tid
  deriving DecidableEq

namespace Monitor

variable {Tid : Type u} {Cond : Type v} {Data : Type w} {Upd : Type}

/-- A monitor that no thread has entered. -/
def construct (data : Data) : Monitor Tid Cond Data :=
  { data
    blocked := []
    notified := []
    updating := [] }

inductive Act (Tid : Type u) (Cond : Type v) (Upd : Type)
  /-- lock, update the data, unlock -/
  | update (t : Tid) (upd : Upd)
  /-- `notify_one` behind the update of `t`: one blocked thread is woken, if there is any -/
  | notifyOne (t : Tid) (woken : Option (Tid × Cond))
  /-- lock, test the condition for the first time -/
  | wait (t : Tid) (cond : Cond)
  /-- lock again and test the condition again -/
  | recheck (waiter : Tid × Cond)

/-- No notification is in progress. -/
def Quiet (s : Monitor Tid Cond Data) : Prop :=
  s.updating = [] ∧ s.notified = []

def Act.IsRecheck : Act Tid Cond Upd → Prop
  | .recheck _ => True
  | _ => False

/-- The thread is in no call. -/
def Outside (s : Monitor Tid Cond Data) (t : Tid) : Prop :=
  t ∉ s.updating ∧ t ∉ s.blocked.map (·.1) ∧ t ∉ s.notified.map (·.1)

/-! ## Sleeping threads -/

variable (holds : Cond → Data → Prop)

/-- Without a notification in progress, no thread is blocked whose condition holds. -/
def NoneAsleep (s : Monitor Tid Cond Data) : Prop :=
  s.Quiet → ∀ waiter ∈ s.blocked, ¬ holds waiter.2 s.data

/-- Without an update that is still to notify, no thread is blocked whose condition holds. -/
def Awake (s : Monitor Tid Cond Data) : Prop :=
  s.updating = [] → ∀ waiter ∈ s.blocked, ¬ holds waiter.2 s.data

theorem awake_construct (data : Data) : (construct data : Monitor Tid Cond Data).Awake holds :=
  fun _ => nofun

variable {holds} in
theorem Awake.noneAsleep {s : Monitor Tid Cond Data} (h : s.Awake holds) : s.NoneAsleep holds :=
  fun hquiet => h hquiet.1

/-! ## Steps -/

variable [DecidableEq Tid] [DecidableEq Cond]

/-- The threads that stay blocked when `woken` is woken. -/
def leftBlocked (s : Monitor Tid Cond Data) (woken : Option (Tid × Cond)) : List (Tid × Cond) :=
  match woken with
  | some waiter => s.blocked.erase waiter
  | none => s.blocked

def Enabled (s : Monitor Tid Cond Data) : Act Tid Cond Upd → Prop
  | .update t _ => s.Outside t
  | .notifyOne t (some waiter) => t ∈ s.updating ∧ waiter ∈ s.blocked
  | .notifyOne t none => t ∈ s.updating ∧ s.blocked = []
  | .wait t _ => s.Outside t
  | .recheck waiter => waiter ∈ s.notified

/-- The last notification to come does not leave a thread blocked whose condition holds. -/
def KeepsAwake (s : Monitor Tid Cond Data) : Act Tid Cond Upd → Prop
  | .notifyOne t woken =>
      s.updating.erase t = [] → ∀ waiter ∈ s.leftBlocked woken, ¬ holds waiter.2 s.data
  | _ => True

variable [∀ cond data, Decidable (holds cond data)] (apply : Upd → Data → Data)

/-- The test of the loop around the wait. -/
def test (s : Monitor Tid Cond Data) (waiter : Tid × Cond) : Monitor Tid Cond Data :=
  if holds waiter.2 s.data then s else { s with blocked := waiter :: s.blocked }

def next (s : Monitor Tid Cond Data) : Act Tid Cond Upd → Monitor Tid Cond Data
  | .update t upd => { s with data := apply upd s.data, updating := t :: s.updating }
  | .notifyOne t woken =>
      { s with
        blocked := s.leftBlocked woken
        notified := woken.toList ++ s.notified
        updating := s.updating.erase t }
  | .wait t cond => s.test holds (t, cond)
  | .recheck waiter => { s with notified := s.notified.erase waiter }.test holds waiter

instance (s : Monitor Tid Cond Data) (t : Tid) : Decidable (s.Outside t) :=
  inferInstanceAs (Decidable (_ ∧ _))

instance (s : Monitor Tid Cond Data) : (a : Act Tid Cond Upd) → Decidable (s.Enabled a)
  | .update t _ => inferInstanceAs (Decidable (s.Outside t))
  | .notifyOne _ (some _) => inferInstanceAs (Decidable (_ ∧ _))
  | .notifyOne _ none => inferInstanceAs (Decidable (_ ∧ _ = []))
  | .wait t _ => inferInstanceAs (Decidable (s.Outside t))
  | .recheck _ => inferInstanceAs (Decidable (_ ∈ _))

def step (s : Monitor Tid Cond Data) (a : Act Tid Cond Upd) : Option (Monitor Tid Cond Data) :=
  if s.Enabled a then some (s.next holds apply a) else none

variable {holds apply} {s s' : Monitor Tid Cond Data} {a : Act Tid Cond Upd}

theorem step_eq_some :
    s.step holds apply a = some s' ↔ s.Enabled a ∧ s.next holds apply a = s' := by
  simp [step]

/-! ## What keeps the threads awake -/

instance (s : Monitor Tid Cond Data) : (a : Act Tid Cond Upd) → Decidable (s.KeepsAwake holds a)
  | .notifyOne _ _ => inferInstanceAs (Decidable (_ = [] → _))
  | .update _ _ | .wait _ _ | .recheck _ => inferInstanceAs (Decidable True)

omit [DecidableEq Tid] [DecidableEq Cond] in
/-- A test blocks a thread only while its condition does not hold. -/
theorem Awake.test (h : s.Awake holds) (waiter : Tid × Cond) : (s.test holds waiter).Awake holds := by
  unfold Monitor.test
  split
  · exact h
  · next hnot =>
      intro hupdating waiter' hmem
      rcases List.mem_cons.mp hmem with rfl | hold
      · exact hnot
      · exact h hupdating waiter' hold

/-- A step keeps the threads awake exactly if no last notification leaves one behind. -/
theorem awake_next_iff (h : s.Awake holds) (a : Act Tid Cond Upd) :
    (s.next holds apply a).Awake holds ↔ s.KeepsAwake holds a := by
  cases a with
  | update t upd =>
      refine iff_of_true ?_ trivial
      intro hnone
      cases hnone
  | notifyOne t woken => exact Iff.rfl
  | wait t cond => exact iff_of_true (h.test (t, cond)) trivial
  | recheck waiter =>
      have h' : ({ s with notified := s.notified.erase waiter } : Monitor Tid Cond Data).Awake holds :=
        h
      exact iff_of_true (h'.test waiter) trivial

theorem Awake.of_rechecks {as : List (Act Tid Cond Upd)} (h : s.Awake holds)
    (has : ∀ a ∈ as, a.IsRecheck) (hrun : run (step holds apply) s as = some s') :
    s'.Awake holds := by
  induction as generalizing s with
  | nil =>
      cases hrun
      exact h
  | cons a as ih =>
      obtain ⟨t, ht, hts⟩ := run_cons.mp hrun
      rcases step_eq_some.mp ht with ⟨-, rfl⟩
      have ha : a.IsRecheck := has a List.mem_cons_self
      refine ih ((awake_next_iff h a).mpr ?_) (fun b hb => has b (List.mem_cons_of_mem a hb)) hts
      cases a with
      | recheck waiter => trivial
      | _ => cases ha

variable (holds apply) in
/-- The notified threads can test their conditions again, one after the other: nobody is woken by
that. -/
theorem exists_rechecks (s : Monitor Tid Cond Data) :
    ∃ (as : List (Act Tid Cond Upd)) (t : Monitor Tid Cond Data), (∀ a ∈ as, a.IsRecheck) ∧
      run (step holds apply) s as = some t ∧ t.notified = [] ∧ t.updating = s.updating ∧
      t.data = s.data ∧ ∀ waiter ∈ s.blocked, waiter ∈ t.blocked := by
  cases s with
  | mk data blocked notified updating =>
      -- On the notified threads: the first of them tests and is one of them no more.
      induction notified generalizing blocked with
      | nil => exact ⟨[], _, nofun, rfl, rfl, rfl, rfl, fun _ hmem => hmem⟩
      | cons waiter notified ih =>
          obtain ⟨as, t, has, hrun, hnone, hupdating, hdata, hblocked⟩ :=
            ih (if holds waiter.2 data then blocked else waiter :: blocked)
          have hstep : step holds apply ⟨data, blocked, waiter :: notified, updating⟩
              (.recheck waiter) = some ⟨data, if holds waiter.2 data then blocked
                else waiter :: blocked, notified, updating⟩ := by
            refine step_eq_some.mpr ⟨List.mem_cons_self, ?_⟩
            rw [next, List.erase_cons_head, Monitor.test]
            split <;> rfl
          refine ⟨.recheck waiter :: as, t, ?_, ?_, hnone, hupdating, hdata, ?_⟩
          · intro a ha
            rcases List.mem_cons.mp ha with rfl | ha
            · trivial
            · exact has a ha
          · rw [run_cons_of hstep]
            exact hrun
          · intro waiter' hmem
            apply hblocked
            split
            · exact hmem
            · exact List.mem_cons_of_mem waiter hmem

/-- No thread is found asleep, now or when the notified threads test again, exactly in the states that
are `Awake`. -/
theorem forall_rechecks_iff :
    (∀ (as : List (Act Tid Cond Upd)) (t : Monitor Tid Cond Data), (∀ a ∈ as, a.IsRecheck) →
      run (step holds apply) s as = some t → t.NoneAsleep holds) ↔ s.Awake holds := by
  constructor
  · intro hall hupdating waiter hmem
    obtain ⟨as, t, has, hrun, hnone, hsame, hdata, hblocked⟩ :=
      exists_rechecks holds apply s
    have hasleep := hall as t has hrun ⟨hsame.trans hupdating, hnone⟩ waiter (hblocked waiter hmem)
    rwa [hdata] at hasleep
  · intro h as t has hrun
    exact (h.of_rechecks has hrun).noneAsleep

/-! ## Runs -/

/-- No thread is found asleep at any point of a run exactly if no last notification of the run leaves
a thread blocked whose condition holds. -/
theorem noneAsleep_iff_along {data : Data} {as : List (Act Tid Cond Upd)}
    (hrun : run (step holds apply) (construct data) as = some s) :
    (∀ bs t, bs <+: as → run (step holds apply) (construct data) bs = some t →
      ∀ cs u, (∀ c ∈ cs, c.IsRecheck) → run (step holds apply) t cs = some u →
        u.NoneAsleep holds) ↔
      Along (step holds apply) (KeepsAwake holds) (construct data) as := by
  have hstep : ∀ (t : Monitor Tid Cond Data) (a : Act Tid Cond Upd) t', True → t.Awake holds →
      t.step holds apply a = some t' → (t'.Awake holds ↔ t.KeepsAwake holds a) := by
    rintro t a t' - h hs
    rcases step_eq_some.mp hs with ⟨-, rfl⟩
    exact awake_next_iff h a
  rw [← prefixes_iff_along (I := fun _ => True) (fun _ _ _ _ _ => trivial) hstep trivial
    (awake_construct holds data) hrun]
  refine forall_congr' fun bs => forall_congr' fun t => forall_congr' fun _ => ?_
  exact forall_congr' fun _ => forall_rechecks_iff

end Monitor

end Lib
end Muradin
