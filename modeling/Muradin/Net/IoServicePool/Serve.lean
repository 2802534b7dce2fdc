import Muradin.Net.IoServicePool.Start

/-!
# Serve — which service `next_service` returns

`tcp_server::on_new_conn` asks the pool for the service of every new connection, behind `run()`.  The
index that `next_service` keeps is the cursor of a `RoundRobin`.

* `Turns` — what was returned so far are the places of the cursor;
* `served_of_run` — the `k`-th call returns the service of thread `k` modulo `m_size`, and no thread
  gets two connections more than another.
-/

namespace Muradin
namespace Net

open Lib

namespace IoServicePool

variable {Task : Type} {s s' : IoServicePool Task} {a : Act Task}

/-- `next_service` has gone around. -/
structure Turns (s : IoServicePool Task) : Prop where
  served : s.served = RoundRobin.places s.size 0 s.served.length
  index : s.serviceIndex = RoundRobin.after s.size 0 s.served.length
  inRange : s.outOfRange = false

theorem turns_construct (size : Nat) : (construct size : IoServicePool Task).Turns :=
  { served := rfl
    index := rfl
    inRange := rfl }

/-- Behind `run()`, `next_service` returns the place of its cursor. -/
theorem Inv.nextService_eq (h : s.Inv) (hpc : s.pc.started = true) (hsize : 0 < s.size) :
    s.nextService =
      { s with
        serviceIndex := RoundRobin.place s.size s.serviceIndex + 1
        served := s.served ++ [RoundRobin.place s.size s.serviceIndex] } := by
  have hservices : s.services = List.range s.size := by
    rw [h.services, (h.full hpc).2]
  have hlt : RoundRobin.place s.size s.serviceIndex < s.size := RoundRobin.place_lt hsize _
  have hget : s.services[RoundRobin.place s.size s.serviceIndex]? =
      some (RoundRobin.place s.size s.serviceIndex) := by
    rw [hservices, List.getElem?_range hlt]
  rw [RoundRobin.place] at hget ⊢
  rw [nextService, hget]

theorem Turns.nextService (ht : s.Turns) (h : s.Inv) (hpc : s.pc.started = true)
    (hsize : 0 < s.size) : s.nextService.Turns := by
  rw [h.nextService_eq hpc hsize]
  have hlength : (s.served ++ [RoundRobin.place s.size s.serviceIndex]).length =
      s.served.length + 1 := List.length_append
  refine { served := ?_, index := ?_, inRange := ht.inRange }
  · show s.served ++ [_] = RoundRobin.places s.size 0 (s.served ++ [_]).length
    rw [hlength, RoundRobin.places_succ, ← ht.served, ← ht.index]
  · show RoundRobin.place s.size s.serviceIndex + 1 =
      RoundRobin.after s.size 0 (s.served ++ [_]).length
    rw [hlength, RoundRobin.after_succ, ← ht.index]

theorem Turns.of_turnState (ht : s.Turns) (hsame : s'.turnState = s.turnState) : s'.Turns := by
  simp only [turnState, Prod.mk.injEq] at hsame
  obtain ⟨hsize, hserved, hindex, hrange⟩ := hsame
  exact
    { served := by rw [hserved, hsize]; exact ht.served
      index := by rw [hindex, hserved, hsize]; exact ht.index
      inRange := hrange.trans ht.inRange }

theorem Turns.next (ht : s.Turns) (h : s.Inv) (hsize : 0 < s.size) (hen : s.Enabled a) :
    (s.next a).Turns := by
  cases a with
  | owner => exact ht.of_turnState (turnState_ownerNext s)
  | quit => exact ht.of_turnState rfl
  | nextService => exact ht.nextService h hen hsize
  | thread i a => exact ht.of_turnState rfl
  | io i a => exact ht.of_turnState rfl

/-- In every run of a pool of at least one thread: `next_service` reads within `m_services`, the `k`-th
call returns the service of thread `k` modulo `m_size`, and in no window of the calls one thread is
returned twice more than another. -/
theorem served_of_run {size : Nat} (hsize : 0 < size) {as : List (Act Task)}
    (hrun : run IoServicePool.step (construct size) as = some s) :
    s.outOfRange = false ∧ s.served = (List.range s.served.length).map (· % size) ∧
      ∀ i j start len, i < size → j < size →
        ((s.served.drop start).take len).count i ≤ ((s.served.drop start).take len).count j + 1 := by
  have hinv : s.Inv ∧ s.size = size ∧ s.Turns := by
    refine invariant_run (I := fun s => s.Inv ∧ s.size = size ∧ s.Turns) ?_
      ⟨inv_construct size, rfl, turns_construct size⟩ hrun
    rintro s a s' ⟨h, hs, ht⟩ hstep
    refine ⟨h.step hstep, (size_step hstep).trans hs, ?_⟩
    rcases step_eq_some.mp hstep with ⟨hen, rfl⟩
    exact ht.next h (hs ▸ hsize) hen
  obtain ⟨-, hs, ht⟩ := hinv
  have hserved : s.served = RoundRobin.places size 0 s.served.length := hs ▸ ht.served
  refine ⟨ht.inRange, ?_, ?_⟩
  · have hplaces := RoundRobin.places_eq hsize (Nat.zero_le size) s.served.length
    simp only [Nat.zero_add] at hplaces
    exact hserved.trans hplaces
  · intro i j start len hi hj
    rw [hserved]
    exact RoundRobin.count_window_le hsize (Nat.zero_le size) hi hj _ start len

/-- Three connections of a pool of two. -/
theorem served_of_run_startTwo :
    ∃ s, run IoServicePool.step (construct 2)
        (startTwo ++ [.nextService, .nextService, .nextService]) = some s ∧
      s.served = [0, 1, 0] ∧ s.outOfRange = false := by
  have hrun : run IoServicePool.step (construct 2)
    (startTwo ++ [.nextService, .nextService, .nextService]) = some _ := rfl
  exact ⟨_, hrun, rfl, (served_of_run (by decide) hrun).1⟩

end IoServicePool

end Net
end Muradin
