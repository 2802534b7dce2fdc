import Muradin.Net.TcpServer.Steps

/-!
# CrossWrite — `write` on another thread than the loop's

`write` binds the pointer and the size of its `buffer` into the task, not the bytes.  What
`write_in_loop` sends or appends is what the memory holds when the loop reads it, which is at the
`::send` for the bytes that are sent and later still for the bytes that are appended.

`handed_of_run` says which runs hand over what `write` was given: nobody changes the memory before
it was read.
-/

namespace Muradin
namespace Net

open Lib Cpp Events

namespace Call

/-- What a call is going to read of the memory of a write. -/
def reads (mem : Nat → Byte) : Call → List Byte
  | .writeInLoop data => data.read mem
  | .cacheOutput data n => (data.read mem).take n
  | _ => []

/-- What `write` was given for it. -/
def given : Call → List Byte
  | .writeInLoop data => data.expected
  | .cacheOutput data n => data.expected.take n
  | _ => []

/-- The calls that a call makes read no more than it. -/
theorem reads_of_mayMake {c c' : Call} {mem : Nat → Byte} (h : c.MayMake c')
    (hreads : c.reads mem = c.given) : c'.reads mem = c'.given := by
  cases c with
  | writeInLoop data =>
      have hreads : data.read mem = data.expected := hreads
      rcases h with ⟨n, rfl⟩ | ⟨err, bytes, rfl⟩
      -- What is left over is a part of the same memory.
      · rw [reads, given, hreads]
      · rfl
  | handleRead => rcases h with rfl | rfl | ⟨err, rfl⟩ <;> rfl
  | handleClose => rcases h with rfl | rfl <;> rfl
  | handleWrite =>
      rcases h with ⟨err, bytes, rfl⟩
      rfl
  | handleError =>
      rcases h with ⟨err, rfl⟩
      rfl
  | testHup | testErr | testIn | testOut | connCb | readCb _ | writeCb _ _ | errCb _ =>
      obtain rfl := h
      rfl
  | _ => cases h

end Call

namespace System

variable {Tid : Type}

/-- The loop sent and appended what `write` was given. -/
def HandsGiven (s : System Tid) : Prop :=
  ∀ p ∈ s.handed, p.1 = p.2

/-- A store to the memory changes nothing that is still to be read for a write. -/
def KeepsUnread (s : System Tid) : Act Tid → Prop
  | .poke addr val =>
      ∀ c ∈ s.ahead, c.reads (Function.update s.mem addr val) = c.reads s.mem
  | _ => True

instance (s : System Tid) : (a : Act Tid) → Decidable (s.KeepsUnread a)
  | .poke _ _ => inferInstanceAs (Decidable (∀ c ∈ s.ahead, _))
  | .io _ | .start | .poll _ _ | .processWork | .workDone | .runNext | .call _ | .user _ | .copy _
  | .give _ _ | .release _ | .write _ _ _ | .shutdownMark _ | .shutdownQueue _ =>
      inferInstanceAs (Decidable True)

/-! ## The invariant -/

structure HandingInv (s : System Tid) : Prop where
  /-- The memory still holds what is to be read. -/
  unread : ∀ c ∈ s.ahead, c.reads s.mem = c.given
  handed : s.HandsGiven

theorem handingInv_of_accepted {s : System Tid} (h : s.Accepted) : s.HandingInv := by
  have hhanded : s.handed = [] := by
    rw [h.new]
    rfl
  refine { unread := ?_, handed := ?_ }
  · intro c hc
    exact absurd hc (h.not_mem_ahead c)
  · intro p hp
    rw [hhanded] at hp
    cases hp

/-- What the next call reads is what `write` was given. -/
theorem handing_given {s : System Tid} (h : s.HandingInv) : ∀ p ∈ s.handing, p.1 = p.2 := by
  intro p hp
  unfold handing at hp
  split at hp
  · next data rest hstack =>
      have hread : data.read s.mem = data.expected :=
        h.unread (.writeInLoop data) (List.mem_append_left _ (by simp [hstack]))
      split at hp
      · obtain rfl := List.mem_singleton.mp hp
        exact hread.symm
      · cases hp
  · next data n rest hstack =>
      have hread : (data.read s.mem).take n = data.expected.take n :=
        h.unread (.cacheOutput data n) (List.mem_append_left _ (by simp [hstack]))
      obtain rfl := List.mem_singleton.mp hp
      exact hread.symm
  · cases hp

variable [DecidableEq Tid] {S : Setup} {s s' : System Tid} {a : Act Tid}

/-! ## One step -/

/-- A store keeps what is unread; no other step changes the memory. -/
theorem reads_next (hok : s.KeepsUnread a) {c : Call} (hc : c ∈ s.ahead) :
    c.reads (s.next S a).mem = c.reads s.mem := by
  cases ha : a.OfHolder with
  | false =>
      rcases next_of_not_ofHolder S s ha with ⟨_, _, _, _, _, _, hnext⟩
      rw [hnext]
  | true =>
      cases a with
      | poke addr val => exact hok c hc
      | _ => first | rfl | cases ha

/-- What a step brings is to be read as `write` was given it. -/
theorem brings_given (h : s.HandingInv) {c : Call} (hbrings : s.Brings S a c) :
    c.reads (s.next S a).mem = c.given := by
  cases a with
  | start =>
      rw [Brings] at hbrings
      cases hpc : s.startPc <;> rw [hpc] at hbrings <;> cases hbrings <;> rfl
  | processWork =>
      rcases Loop.mem_dispatchCalls.mp hbrings with rfl | rfl | rfl | rfl <;> rfl
  | call env =>
      rcases hbrings with ⟨-, c₀, calls, conn, hhead, hrun, hc⟩
      have hmake : c₀.MayMake c := Connection.exec_mayMake c₀ _ _ _ hrun c hc
      have hmem : (s.next S (.call env)).mem = s.mem := by
        rcases next_of_not_ofHolder (a := .call env) S s rfl with ⟨_, _, _, _, _, _, hnext⟩
        rw [hnext]
      rw [hmem]
      exact Call.reads_of_mayMake hmake
        (h.unread c₀ (List.mem_append_left _ (List.mem_of_mem_head? hhead)))
  | user op =>
      rcases hbrings with ⟨data, rfl⟩ | rfl
      · rfl
      · rfl
  | write t ptr len =>
      -- The task takes along what the memory holds now.
      obtain rfl := hbrings
      rfl
  | shutdownQueue t =>
      obtain rfl := hbrings
      rfl
  | _ => cases hbrings

theorem handed_next (h : s.HandingInv) : (s.next S a).HandsGiven := by
  cases a with
  | start =>
      rw [next, startNext]
      cases s.startPc <;> exact h.handed
  | poll selfReady events => cases events <;> exact h.handed
  | processWork =>
      rw [next]
      split <;> exact h.handed
  | call env =>
      rw [next]
      split
      · exact h.handed
      · intro p hp
        -- Only what this call reads is new.
        rcases List.mem_append.mp hp with hold | hnew
        · exact h.handed p hold
        · exact handing_given h p hnew
  | _ => exact h.handed

theorem HandingInv.step (h : s.HandingInv) (hok : s.KeepsUnread a) (hs : s.step S a = some s') :
    s'.HandingInv := by
  rcases step_eq_some.mp hs with ⟨hen, rfl⟩
  have hmem : (s.next S a).settle.mem = (s.next S a).mem := settle_of_same (fun _ => rfl) _
  have hahead : (s.next S a).settle.ahead = (s.next S a).ahead := settle_of_same (fun _ => rfl) _
  have hhanded : (s.next S a).settle.handed = (s.next S a).handed := settle_of_same (fun _ => rfl) _
  refine { unread := ?_, handed := ?_ }
  · rw [hmem, hahead]
    intro c hc
    rcases mem_ahead_next hen hc with hold | hbrings
    · rw [reads_next hok hold]
      exact h.unread c hold
    · exact brings_given h hbrings
  · rw [HandsGiven, hhanded]
    exact handed_next h

/-! ## Runs -/

/-- When nobody changes the memory of a write before it was read, the loop sends and appends what
`write` was given. -/
theorem handed_of_run {s₀ : System Tid} {as : List (Act Tid)} (hnew : s₀.Accepted)
    (hrun : run (step S) s₀ as = some s) (halong : Along (step S) KeepsUnread s₀ as) :
    s.HandsGiven := by
  have hinv : s.HandingInv :=
    invariant_along (I := HandingInv) (fun _ _ _ h hok hs => h.step hok hs)
      (handingInv_of_accepted hnew) halong hrun
  exact hinv.handed

/-- The loop comes to its queue and calls the `write_in_loop` of a write, which sends one byte. -/
def runWrite : List (Act Bool) :=
  [.io .testQuit, .poll false none, .io .dispatched, .io .swapPending, .runNext,
    .call { sent := some 1 }]

/-- The other thread, which got its copy from the connection callback, writes one byte of its memory
and reuses the memory when it was sent. -/
def reusedBehindSend : List (Act Bool) :=
  startSteps ++ startTasksDoing [.copy true] ++ [.write true 0 1, .io (.wakeMeUp true)] ++ runWrite ++
    [.poke 0 1, .call {}, .user .returns, .io .taskReturns]

theorem handed_of_run_reusedBehindSend :
    ∃ s, run (step debugSetup) acceptedByOther reusedBehindSend = some s ∧
      s.handed.length = 1 ∧ s.HandsGiven := by
  have hany : (run (step debugSetup) acceptedByOther reusedBehindSend).any
      (fun s => decide (s.handed.length = 1)) = true := by
    decide +kernel
  have halong : Along (step debugSetup) KeepsUnread acceptedByOther reusedBehindSend := by
    decide +kernel
  rcases exists_run_of_any hany with ⟨s, hrun, hlength⟩
  exact ⟨s, hrun, hlength, handed_of_run accepted_acceptedByOther hrun halong⟩

/-- The memory held 0 when `write` returned; it is reused before the loop runs the task, and 1 is
sent. -/
theorem reused_memory_is_sent :
    ¬ ∀ (s₀ s : System Bool) (as : List (Act Bool)), s₀.Accepted →
      run (step debugSetup) s₀ as = some s → s.HandsGiven := by
  intro h
  have hany : (run (step debugSetup) acceptedByOther (startSteps ++ startTasksDoing [.copy true] ++
      [.write true 0 1, .io (.wakeMeUp true), .poke 0 1] ++ runWrite)).any (fun s =>
        decide (s.handed = [([0], [1])] ∧ s.loop.conn.accepted = [1])) = true := by
    decide +kernel
  rcases exists_run_of_any hany with ⟨s, hrun, hhanded, -⟩
  have hsame := h _ _ _ accepted_acceptedByOther hrun ([0], [1]) (by simp [hhanded])
  exact absurd hsame (by decide)

end System

end Net
end Muradin
