import Muradin.Net.PollerEpoll

/-!
# Complaints — what the poller logs

`assert_channel` looks at `m_channel_map`, `epoll_ctl` at the kernel's table, and both log.  The two
tests agree, also where several channels have one descriptor (`Matches`), so a call is logged about
exactly if it does not fit what is registered, or if the kernel refuses it; `wait_for_evt` logs about
no channel.

* `quiet_iff` — a log that is still empty tells that every call has fitted.
-/

namespace Muradin
namespace Net

open Lib

variable {Fd Chan : Type}

namespace PollerEpoll

variable {fdOf : Chan → Fd} {p : PollerEpoll Fd Chan}

theorem log_complain (c : Complaint Chan) : (p.complain c).log ≠ [] := by
  simp [complain]

/-- `assert_channel` logs nothing exactly if the channel is there as it is wanted. -/
theorem log_assertChannel (channel : Chan) (needExist : Bool) :
    (p.assertChannel fdOf channel needExist).log = [] ↔
      p.log = [] ∧ (p.channelMap (fdOf channel)).isSome = needExist := by
  unfold assertChannel findChannel
  cases p.channelMap (fdOf channel) <;> cases needExist <;> simp [complain]

/-! ## The descriptors of the map and of the table -/

/-- The map has the descriptors of the table, and every pointer is registered under its channel's
descriptor. -/
structure Matches (fdOf : Chan → Fd) (p : PollerEpoll Fd Chan) : Prop where
  agree : ∀ fd, (p.channelMap fd).isSome = (p.registered fd).isSome
  keyed : ∀ fd evt, p.registered fd = some evt → fdOf evt.ptr = fd

theorem matches_construct : (construct : PollerEpoll Fd Chan).Matches fdOf :=
  { agree := fun _ => rfl
    keyed := nofun }

theorem Matches.of_maps {q : PollerEpoll Fd Chan} (h : p.Matches fdOf) (hmaps : q.maps = p.maps) :
    q.Matches fdOf := by
  obtain ⟨htable, hmap⟩ := Prod.mk.inj hmaps
  exact { agree := hmap ▸ htable ▸ h.agree, keyed := htable ▸ h.keyed }

/-- The table is written at the descriptor of a channel, and the map is so too or has it already. -/
theorem Matches.write [DecidableEq Fd] {q : PollerEpoll Fd Chan} (h : p.Matches fdOf)
    (channel : Chan) (entry : Option (EpollEvent Chan)) (hentry : ∀ evt ∈ entry, evt.ptr = channel)
    {map : Fd → Option Chan} (hself : (map (fdOf channel)).isSome = entry.isSome)
    (hother : ∀ fd, fd ≠ fdOf channel → map fd = p.channelMap fd)
    (hmaps : q.maps = (Function.update p.registered (fdOf channel) entry, map)) :
    q.Matches fdOf := by
  obtain ⟨htable, hmap⟩ := Prod.mk.inj hmaps
  refine { agree := ?_, keyed := ?_ }
  · intro fd
    rw [htable, hmap]
    by_cases hfd : fd = fdOf channel
    · rw [hfd, Function.update_self]
      exact hself
    · rw [Function.update_of_ne hfd, hother fd hfd]
      exact h.agree fd
  · intro fd evt hevt
    rw [htable] at hevt
    by_cases hfd : fd = fdOf channel
    · rw [hfd, Function.update_self] at hevt
      rw [hentry evt hevt, hfd]
    · rw [Function.update_of_ne hfd] at hevt
      exact h.keyed fd evt hevt

theorem Matches.addChannel [DecidableEq Fd] (h : p.Matches fdOf) (channel : Chan)
    (evtStatus : Events) (ok : Bool) : (p.addChannel fdOf channel evtStatus ok).Matches fdOf := by
  have hmaps := maps_addChannel fdOf p channel evtStatus ok
  split at hmaps
  · refine h.write channel (some { events := evtStatus, ptr := channel }) ?_ ?_ ?_ hmaps
    · rintro evt ⟨⟩
      rfl
    · rw [Function.update_self]
      rfl
    · exact fun fd hfd => Function.update_of_ne hfd _ _
  · exact h.of_maps hmaps

theorem Matches.delChannel [DecidableEq Fd] (h : p.Matches fdOf) (channel : Chan) (ok : Bool) :
    (p.delChannel fdOf channel ok).Matches fdOf := by
  have hmaps := maps_delChannel fdOf p channel ok
  split at hmaps
  · refine h.write channel none ?_ ?_ ?_ hmaps
    · rintro evt ⟨⟩
    · rw [Function.update_self]
      rfl
    · exact fun fd hfd => Function.update_of_ne hfd _ _
  · exact h.of_maps hmaps

/-- The kernel replaces a pointer that is there: the map stays as it is. -/
theorem Matches.updateEvtCode [DecidableEq Fd] (h : p.Matches fdOf) (channel : Chan)
    (evtStatus : Events) (ok : Bool) :
    (p.updateEvtCode fdOf channel evtStatus ok).Matches fdOf := by
  have hmaps := maps_updateEvtCode fdOf p channel evtStatus ok
  split at hmaps
  · next happlies =>
      refine h.write channel (some { events := evtStatus, ptr := channel }) ?_ ?_ ?_ hmaps
      · rintro evt ⟨⟩
        rfl
      · rw [h.agree, happlies.2]
        rfl
      · exact fun fd _ => rfl
  · exact h.of_maps hmaps

/-! ## One call -/

/-- A call that wants the channel to be there or not, and whose `op` applies in the same case. -/
theorem log_eq_nil_iff {q : PollerEpoll Fd Chan} (op : EpollOp Chan) {channel : Chan}
    {needExist ok : Bool} (h : p.Matches fdOf)
    (happlies : op.Applies (p.registered (fdOf channel)) = true ↔
      (p.registered (fdOf channel)).isSome = needExist)
    (hlog : q.log =
      if ok ∧ op.Applies (p.registered (fdOf channel)) then
        (p.assertChannel fdOf channel needExist).log
      else
        ((p.assertChannel fdOf channel needExist).complain .epollCtlFail).log) :
    q.log = [] ↔ p.log = [] ∧ ok ∧ (p.registered (fdOf channel)).isSome = needExist := by
  have hassert : (p.assertChannel fdOf channel needExist).log = [] ↔
      p.log = [] ∧ (p.channelMap (fdOf channel)).isSome = needExist :=
    log_assertChannel channel needExist
  rw [h.agree] at hassert
  rw [hlog, ← happlies]
  split
  · next hfits => rw [hassert, ← happlies, and_iff_right hfits.1]
  · next hfails =>
      constructor
      · intro hnil
        exact absurd hnil (log_complain _)
      · rintro ⟨-, hfits⟩
        exact absurd hfits hfails

variable [DecidableEq Fd]

theorem log_addChannel (h : p.Matches fdOf) (channel : Chan) (evtStatus : Events) (ok : Bool) :
    (p.addChannel fdOf channel evtStatus ok).log = [] ↔
      p.log = [] ∧ ok ∧ (p.registered (fdOf channel)).isSome = false := by
  refine log_eq_nil_iff (.add { events := evtStatus, ptr := channel }) h ?_ ?_
  · cases p.registered (fdOf channel) <;> simp [EpollOp.Applies]
  · rw [addChannel, registered_assertChannel, epollCtl]
    by_cases hfits : ok ∧ EpollOp.Applies (p.registered (fdOf channel))
        (.add { events := evtStatus, ptr := channel })
    · rw [if_pos hfits, if_pos hfits]
    · rw [if_neg hfits, if_neg hfits]

theorem log_delChannel (h : p.Matches fdOf) (channel : Chan) (ok : Bool) :
    (p.delChannel fdOf channel ok).log = [] ↔
      p.log = [] ∧ ok ∧ (p.registered (fdOf channel)).isSome = true := by
  refine log_eq_nil_iff .del h Iff.rfl ?_
  rw [delChannel, registered_assertChannel, epollCtl]
  by_cases hfits : ok ∧ EpollOp.Applies (p.registered (fdOf channel)) .del
  · rw [if_pos hfits, if_pos hfits]
  · rw [if_neg hfits, if_neg hfits]

theorem log_updateEvtCode (h : p.Matches fdOf) (channel : Chan) (evtStatus : Events) (ok : Bool) :
    (p.updateEvtCode fdOf channel evtStatus ok).log = [] ↔
      p.log = [] ∧ ok ∧ (p.registered (fdOf channel)).isSome = true := by
  refine log_eq_nil_iff (.mod { events := evtStatus, ptr := channel }) h Iff.rfl ?_
  rw [updateEvtCode, registered_assertChannel, epollCtl]
  by_cases hfits : ok ∧ EpollOp.Applies (p.registered (fdOf channel))
      (.mod { events := evtStatus, ptr := channel })
  · rw [if_pos hfits, if_pos hfits]
  · rw [if_neg hfits, if_neg hfits]

end PollerEpoll

/-! ## Runs -/

namespace Polling

variable [DecidableEq Fd] [DecidableEq Chan] {fdOf : Chan → Fd} {s s' : Polling Fd Chan}
  {a : Act Fd Chan}

/-- The call finds its descriptor as it wants it, and the kernel does not refuse it. -/
def Fits (fdOf : Chan → Fd) (s : Polling Fd Chan) : Act Fd Chan → Prop
  | .addChannel channel ok => ok ∧ (s.poller.registered (fdOf channel)).isSome = false
  | .delChannel channel ok => ok ∧ (s.poller.registered (fdOf channel)).isSome = true
  | .updateEvtCode channel ok => ok ∧ (s.poller.registered (fdOf channel)).isSome = true
  | .setEvtStatus _ _ => True
  | .waitForEvt ready => ready ≠ none

/-- Every channel that is reported has a descriptor that is found. -/
theorem poller_waitForEvt (h : s.poller.Matches fdOf) (ready : List (Fd × Events)) :
    (s.next fdOf (.waitForEvt (some ready))).poller = s.poller := by
  refine poller_foldl_takeEvt (s := { s with activeChannels := [] }) ?_
  intro evt hevt
  rcases exists_registered_of_mem_epollWait hevt with ⟨fd, evt', htable, hptr⟩
  show (s.poller.channelMap (fdOf evt.ptr)).isSome
  rw [← hptr, h.keyed fd evt' htable, h.agree, htable]
  rfl

theorem matches_next (h : s.poller.Matches fdOf) (a : Act Fd Chan) :
    (s.next fdOf a).poller.Matches fdOf := by
  cases a with
  | addChannel channel ok => exact h.addChannel channel _ ok
  | delChannel channel ok => exact h.delChannel channel ok
  | updateEvtCode channel ok => exact h.updateEvtCode channel _ ok
  | setEvtStatus channel status => exact h
  | waitForEvt ready => exact h.of_maps (waitForEvt_maps { s with activeChannels := [] } ready)

/-- The step lemma. -/
theorem log_next (h : s.poller.Matches fdOf) (a : Act Fd Chan) :
    (s.next fdOf a).poller.log = [] ↔ s.poller.log = [] ∧ s.Fits fdOf a := by
  cases a with
  | addChannel channel ok => exact PollerEpoll.log_addChannel h channel _ ok
  | delChannel channel ok => exact PollerEpoll.log_delChannel h channel ok
  | updateEvtCode channel ok => exact PollerEpoll.log_updateEvtCode h channel _ ok
  | setEvtStatus channel status => exact (and_iff_left trivial).symm
  | waitForEvt ready =>
      cases ready with
      | none =>
          constructor
          · intro hnil
            exact absurd hnil (PollerEpoll.log_complain _)
          · rintro ⟨-, hready⟩
            exact absurd rfl hready
      | some ready =>
          rw [poller_waitForEvt h ready]
          exact (and_iff_left (Option.some_ne_none ready)).symm

/-- Behind every sequence of calls the log is empty exactly if each call has fitted: channels were
added where nothing was registered, deleted and updated where something was, and the kernel has
refused nothing. -/
theorem quiet_iff {evtStatus : Chan → Events} {as : List (Act Fd Chan)}
    (hrun : run (step fdOf) (construct evtStatus) as = some s) :
    s.poller.log = [] ↔ Along (step fdOf) (Fits fdOf) (construct evtStatus) as := by
  have hiff : s.poller.log = [] ↔
      (construct evtStatus : Polling Fd Chan).poller.log = [] ∧
        Along (step fdOf) (Fits fdOf) (construct evtStatus) as := by
    refine along_iff_kept (I := fun s : Polling Fd Chan => s.poller.Matches fdOf)
      (P := fun s => s.poller.log = []) ?_ PollerEpoll.matches_construct hrun
    intro s a s' h hs
    rcases step_eq_some.mp hs with ⟨-, rfl⟩
    exact ⟨matches_next h a, log_next h a⟩
  rw [hiff]
  exact and_iff_right rfl

/-- A channel on the descriptor 7 is added, updated, reported and deleted, and then another one with
the same descriptor is added. -/
def reusedDescriptor : List (Act Nat Bool) :=
  [.addChannel false true, .setEvtStatus false Events.epollIn, .updateEvtCode false true,
    .waitForEvt (some [(7, Events.epollIn)]), .delChannel false true, .addChannel true true]

theorem quiet_iff_reusedDescriptor :
    ∃ s, run (step fun _ => 7) (construct fun _ => 0) reusedDescriptor = some s ∧
      s.poller.log = [] ∧ Along (step fun _ => 7) (Fits fun _ => 7) (construct fun _ => 0)
        reusedDescriptor := by
  have hany : (run (step fun _ => 7) (construct fun _ => 0) reusedDescriptor).any
      (fun s => decide (s.poller.log = [])) = true := by
    decide +kernel
  rcases exists_run_of_any hany with ⟨s, hrun, hlog⟩
  exact ⟨s, hrun, hlog, (quiet_iff hrun).mp hlog⟩

end Polling

end Net
end Muradin
