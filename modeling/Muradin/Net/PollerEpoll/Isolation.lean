import Muradin.Net.PollerEpoll

/-!
# Isolation — one channel among the others

`only channel` leaves of a sequence of calls those for one channel, and of what `epoll_wait` reports
what it reports for its descriptor.

* `isolated_of_run` — with descriptors of their own, a channel is registered, found and reported as if
  it were the only one.
-/

namespace Muradin
namespace Net

open Lib

variable {Fd Chan : Type}

namespace PollerEpoll

/-! ## The two entries at a descriptor -/

/-- What the kernel and `m_channel_map` have at the descriptor of a channel. -/
def slot (fdOf : Chan → Fd) (p : PollerEpoll Fd Chan) (channel : Chan) :
    Option (EpollEvent Chan) × Option Chan :=
  (p.registered (fdOf channel), p.channelMap (fdOf channel))

variable {fdOf : Chan → Fd} {p q : PollerEpoll Fd Chan} {channel : Chan}

theorem slot_eq_of_maps {table : Registrations Fd Chan} {map : Fd → Option Chan}
    (hmaps : q.maps = (table, map)) (channel : Chan) :
    q.slot fdOf channel = (table (fdOf channel), map (fdOf channel)) := by
  obtain ⟨htable, hmap⟩ := Prod.mk.inj hmaps
  rw [slot, htable, hmap]

variable [DecidableEq Fd]

theorem slot_addChannel (evtStatus : Events) (ok : Bool) :
    (p.addChannel fdOf channel evtStatus ok).slot fdOf channel =
      if ok ∧ (p.slot fdOf channel).1.isNone then
        (some { events := evtStatus, ptr := channel }, some channel)
      else
        p.slot fdOf channel := by
  have hmaps := maps_addChannel fdOf p channel evtStatus ok
  have hentry : (p.slot fdOf channel).1 = p.registered (fdOf channel) := rfl
  split at hmaps
  · next hfits =>
      rw [slot_eq_of_maps hmaps, Function.update_self, Function.update_self, hentry, if_pos hfits]
  · next hfails => rw [slot_eq_of_maps hmaps, hentry, if_neg hfails, slot]

theorem slot_delChannel (ok : Bool) :
    (p.delChannel fdOf channel ok).slot fdOf channel =
      if ok ∧ (p.slot fdOf channel).1.isSome then (none, none) else p.slot fdOf channel := by
  have hmaps := maps_delChannel fdOf p channel ok
  have hentry : (p.slot fdOf channel).1 = p.registered (fdOf channel) := rfl
  split at hmaps
  · next hfits =>
      rw [slot_eq_of_maps hmaps, Function.update_self, Function.update_self, hentry, if_pos hfits]
  · next hfails => rw [slot_eq_of_maps hmaps, hentry, if_neg hfails, slot]

theorem slot_updateEvtCode (evtStatus : Events) (ok : Bool) :
    (p.updateEvtCode fdOf channel evtStatus ok).slot fdOf channel =
      if ok ∧ (p.slot fdOf channel).1.isSome then
        (some { events := evtStatus, ptr := channel }, (p.slot fdOf channel).2)
      else
        p.slot fdOf channel := by
  have hmaps := maps_updateEvtCode fdOf p channel evtStatus ok
  have hentry : (p.slot fdOf channel).1 = p.registered (fdOf channel) := rfl
  split at hmaps
  · next hfits => rw [slot_eq_of_maps hmaps, Function.update_self, hentry, if_pos hfits, slot]
  · next hfails => rw [slot_eq_of_maps hmaps, hentry, if_neg hfails, slot]

/-- A call for another channel. -/
theorem slot_of_other {other : Chan} (hfd : fdOf other ≠ fdOf channel)
    {entry : Option (EpollEvent Chan)} {map : Fd → Option Chan}
    (hmap : map (fdOf other) = p.channelMap (fdOf other))
    (hmaps : q.maps = (Function.update p.registered (fdOf channel) entry, map)) :
    q.slot fdOf other = p.slot fdOf other := by
  rw [slot_eq_of_maps hmaps, Function.update_of_ne hfd, hmap, slot]

end PollerEpoll

namespace Polling

variable [DecidableEq Fd] [DecidableEq Chan]

/-! ## The calls for one channel -/

/-- What is left of a call for one channel. -/
def Act.only (fdOf : Chan → Fd) (channel : Chan) : Act Fd Chan → Option (Act Fd Chan)
  | .addChannel ch ok => if ch = channel then some (.addChannel ch ok) else none
  | .delChannel ch ok => if ch = channel then some (.delChannel ch ok) else none
  | .updateEvtCode ch ok => if ch = channel then some (.updateEvtCode ch ok) else none
  | .setEvtStatus ch status => if ch = channel then some (.setEvtStatus ch status) else none
  | .waitForEvt ready => some (.waitForEvt (ready.map (·.filter fun r => r.1 = fdOf channel)))

/-- Both pollers and their loops have the same of one channel, and the second loop reports no
other. -/
structure SameAt (fdOf : Chan → Fd) (channel : Chan) (s t : Polling Fd Chan) : Prop where
  slot : t.poller.slot fdOf channel = s.poller.slot fdOf channel
  evtStatus : t.evtStatus channel = s.evtStatus channel
  active : t.activeChannels = s.activeChannels.filter (· = channel)

variable {fdOf : Chan → Fd} {channel : Chan} {s s' t : Polling Fd Chan} {a : Act Fd Chan}

/-- A call for another channel is not seen. -/
theorem SameAt.other (h : SameAt fdOf channel s t) (hinj : Function.Injective fdOf)
    (hnone : a.only fdOf channel = none) : SameAt fdOf channel (s.next fdOf a) t := by
  have hfd : ∀ {ch}, ch ≠ channel → fdOf channel ≠ fdOf ch :=
    fun hne heq => hne (hinj heq).symm
  cases a with
  | addChannel ch ok =>
      have hne : ch ≠ channel := by simpa [Act.only] using hnone
      refine { h with slot := h.slot.trans ?_ }
      have hmaps := PollerEpoll.maps_addChannel fdOf s.poller ch (s.evtStatus ch) ok
      split at hmaps
      · exact (PollerEpoll.slot_of_other (hfd hne) (Function.update_of_ne (hfd hne) _ _) hmaps).symm
      · exact (PollerEpoll.slot_eq_of_maps hmaps channel).symm
  | delChannel ch ok =>
      have hne : ch ≠ channel := by simpa [Act.only] using hnone
      refine { h with slot := h.slot.trans ?_ }
      have hmaps := PollerEpoll.maps_delChannel fdOf s.poller ch ok
      split at hmaps
      · exact (PollerEpoll.slot_of_other (hfd hne) (Function.update_of_ne (hfd hne) _ _) hmaps).symm
      · exact (PollerEpoll.slot_eq_of_maps hmaps channel).symm
  | updateEvtCode ch ok =>
      have hne : ch ≠ channel := by simpa [Act.only] using hnone
      refine { h with slot := h.slot.trans ?_ }
      have hmaps := PollerEpoll.maps_updateEvtCode fdOf s.poller ch (s.evtStatus ch) ok
      split at hmaps
      · exact (PollerEpoll.slot_of_other (hfd hne) rfl hmaps).symm
      · exact (PollerEpoll.slot_eq_of_maps hmaps channel).symm
  | setEvtStatus ch status =>
      have hne : ch ≠ channel := by simpa [Act.only] using hnone
      refine { h with evtStatus := h.evtStatus.trans ?_ }
      exact (Function.update_of_ne hne.symm status s.evtStatus).symm
  | waitForEvt ready => simp [Act.only] at hnone

/-! ## `wait_for_evt` -/

omit [DecidableEq Fd] [DecidableEq Chan] in
/-- A registered pointer is the channel whose descriptor it is registered for. -/
theorem ptr_eq_iff (h : s.poller.Mirrors fdOf) (hinj : Function.Injective fdOf) {fd : Fd}
    {evt : EpollEvent Chan} (hevt : s.poller.registered fd = some evt) :
    evt.ptr = channel ↔ fd = fdOf channel := by
  have hentry : s.poller.channelMap fd = some evt.ptr := by
    rw [h.agree, hevt]
    rfl
  have hkey : fdOf evt.ptr = fd := h.keyed fd evt.ptr hentry
  rw [← hkey]
  exact hinj.eq_iff.symm

/-- What is stored for a channel is what is stored for its descriptor. -/
theorem epollWait_filter (h : s.poller.Mirrors fdOf) (hinj : Function.Injective fdOf)
    (hsame : t.poller.registered (fdOf channel) = s.poller.registered (fdOf channel))
    (ready : List (Fd × Events)) :
    epollWait t.poller.registered (ready.filter fun r => r.1 = fdOf channel) =
      (epollWait s.poller.registered ready).filter fun evt => evt.ptr = channel := by
  induction ready with
  | nil => rfl
  | cons r ready ih =>
      by_cases hfd : r.1 = fdOf channel
      · have hentry : t.poller.registered r.1 = s.poller.registered r.1 := by rw [hfd, hsame]
        rw [List.filter_cons_of_pos (by simpa using hfd)]
        cases hevt : s.poller.registered r.1 with
        | none =>
            rw [hevt] at hentry
            simpa [epollWait, hevt, hentry] using ih
        | some evt =>
            rw [hevt] at hentry
            have hptr : evt.ptr = channel := (ptr_eq_iff h hinj hevt).mpr hfd
            simpa [epollWait, hevt, hentry, hptr] using ih
      · rw [List.filter_cons_of_neg (by simpa using hfd)]
        cases hevt : s.poller.registered r.1 with
        | none => simpa [epollWait, hevt] using ih
        | some evt =>
            have hptr : ¬ evt.ptr = channel := fun heq => hfd ((ptr_eq_iff h hinj hevt).mp heq)
            simpa [epollWait, hevt, hptr] using ih

omit [DecidableEq Fd] in
theorem slot_takeEvt (evt : EpollEvent Chan) :
    (s.takeEvt fdOf evt).poller.slot fdOf channel = s.poller.slot fdOf channel :=
  PollerEpoll.slot_eq_of_maps (PollerEpoll.maps_assertChannel fdOf s.poller evt.ptr true) channel

omit [DecidableEq Fd] in
/-- The loop of `wait_for_evt` over all events, and over those of one channel. -/
theorem SameAt.foldl_takeEvt (evts : List (EpollEvent Chan)) (h : SameAt fdOf channel s t) :
    SameAt fdOf channel (evts.foldl (takeEvt fdOf) s)
      ((evts.filter fun evt => evt.ptr = channel).foldl (takeEvt fdOf) t) := by
  induction evts generalizing s t with
  | nil => exact h
  | cons evt evts ih =>
      by_cases hptr : evt.ptr = channel
      · rw [List.filter_cons_of_pos (by simpa using hptr)]
        refine ih { slot := ?_, evtStatus := ?_, active := ?_ }
        · rw [slot_takeEvt, slot_takeEvt, h.slot]
        · subst hptr
          simp [takeEvt]
        · simp [takeEvt, h.active, hptr]
      · rw [List.filter_cons_of_neg (by simpa using hptr)]
        refine ih { slot := ?_, evtStatus := ?_, active := ?_ }
        · rw [slot_takeEvt, h.slot]
        · rw [h.evtStatus]
          exact (Function.update_of_ne (Ne.symm hptr) _ _).symm
        · simp [takeEvt, h.active, hptr]

/-! ## Runs -/

/-- A call for the channel, and a wait, do the same on both sides. -/
theorem SameAt.own (h : SameAt fdOf channel s t) (hmirrors : s.poller.Mirrors fdOf)
    (hinj : Function.Injective fdOf) {b : Act Fd Chan} (honly : a.only fdOf channel = some b)
    (hen : s.Enabled a) :
    t.Enabled b ∧ SameAt fdOf channel (s.next fdOf a) (t.next fdOf b) := by
  cases a with
  | addChannel ch ok =>
      obtain ⟨rfl, rfl⟩ : ch = channel ∧ Act.addChannel ch ok = b := by simpa [Act.only] using honly
      refine ⟨trivial, { h with slot := ?_ }⟩
      show (t.poller.addChannel fdOf ch (t.evtStatus ch) ok).slot fdOf ch =
        (s.poller.addChannel fdOf ch (s.evtStatus ch) ok).slot fdOf ch
      rw [PollerEpoll.slot_addChannel, PollerEpoll.slot_addChannel, h.slot, h.evtStatus]
  | delChannel ch ok =>
      obtain ⟨rfl, rfl⟩ : ch = channel ∧ Act.delChannel ch ok = b := by simpa [Act.only] using honly
      refine ⟨trivial, { h with slot := ?_ }⟩
      show (t.poller.delChannel fdOf ch ok).slot fdOf ch =
        (s.poller.delChannel fdOf ch ok).slot fdOf ch
      rw [PollerEpoll.slot_delChannel, PollerEpoll.slot_delChannel, h.slot]
  | updateEvtCode ch ok =>
      obtain ⟨rfl, rfl⟩ : ch = channel ∧ Act.updateEvtCode ch ok = b := by
        simpa [Act.only] using honly
      refine ⟨trivial, { h with slot := ?_ }⟩
      show (t.poller.updateEvtCode fdOf ch (t.evtStatus ch) ok).slot fdOf ch =
        (s.poller.updateEvtCode fdOf ch (s.evtStatus ch) ok).slot fdOf ch
      rw [PollerEpoll.slot_updateEvtCode, PollerEpoll.slot_updateEvtCode, h.slot, h.evtStatus]
  | setEvtStatus ch status =>
      obtain ⟨rfl, rfl⟩ : ch = channel ∧ Act.setEvtStatus ch status = b := by
        simpa [Act.only] using honly
      refine ⟨trivial, { h with evtStatus := ?_ }⟩
      show Function.update t.evtStatus ch status ch = Function.update s.evtStatus ch status ch
      rw [Function.update_self, Function.update_self]
  | waitForEvt ready =>
      obtain rfl : Act.waitForEvt (ready.map (·.filter fun r => r.1 = fdOf channel)) = b := by
        simpa [Act.only] using honly
      have hclear : SameAt fdOf channel { s with activeChannels := [] }
          { t with activeChannels := [] } :=
        { h with active := rfl }
      cases ready with
      | none => exact ⟨trivial, { hclear with }⟩
      | some ready =>
          have hsame : t.poller.registered (fdOf channel) = s.poller.registered (fdOf channel) :=
            congrArg Prod.fst h.slot
          refine ⟨⟨?_, ?_⟩, ?_⟩
          · exact Nat.le_trans (List.length_filter_le _ _) hen.1
          · intro r hr
            obtain ⟨hmem, hfd⟩ := List.mem_filter.mp hr
            have hfd : r.1 = fdOf channel := by simpa using hfd
            rw [hfd, hsame, ← hfd]
            exact hen.2 r hmem
          · have hfold := hclear.foldl_takeEvt (epollWait s.poller.registered ready)
            rw [← epollWait_filter hmirrors hinj hsame] at hfold
            exact hfold

/-- On descriptors of their own, behind every sequence of calls, a channel is registered, found in
`m_channel_map` and reported exactly as behind the calls for it alone: what is done for other
channels, and reported of them, is not seen. -/
theorem isolated_of_run (hinj : Function.Injective fdOf) {evtStatus : Chan → Events}
    {as : List (Act Fd Chan)} (hrun : run (step fdOf) (construct evtStatus) as = some s)
    (channel : Chan) :
    ∃ t, run (step fdOf) (construct evtStatus) (as.filterMap (Act.only fdOf channel)) = some t ∧
      t.poller.registered (fdOf channel) = s.poller.registered (fdOf channel) ∧
      t.poller.channelMap (fdOf channel) = s.poller.channelMap (fdOf channel) ∧
      t.evtStatus channel = s.evtStatus channel ∧
      t.activeChannels = s.activeChannels.filter (· = channel) := by
  have hstart : SameAt fdOf channel (construct evtStatus : Polling Fd Chan)
      (construct evtStatus) :=
    { slot := rfl
      evtStatus := rfl
      active := rfl }
  have hfollow : ∃ t, run (step fdOf) (construct evtStatus)
      (as.filterMap (Act.only fdOf channel)) = some t ∧
        s.poller.Mirrors fdOf ∧ SameAt fdOf channel s t := by
    refine erase_run (R := fun s t => s.poller.Mirrors fdOf ∧ SameAt fdOf channel s t)
      (Act.only fdOf channel) ?_ ⟨PollerEpoll.mirrors_construct, hstart⟩ hrun
    rintro s a s' t ⟨hmirrors, h⟩ hs
    rcases step_eq_some.mp hs with ⟨hen, rfl⟩
    have hmirrors' := mirrors_next hinj hmirrors a
    split
    · next b honly =>
        obtain ⟨hen', hnext⟩ := h.own hmirrors hinj honly hen
        exact ⟨t.next fdOf b, step_eq_some.mpr ⟨hen', rfl⟩, hmirrors', hnext⟩
    · next hnone => exact ⟨hmirrors', h.other hinj hnone⟩
  obtain ⟨t, ht, -, hsame⟩ := hfollow
  exact ⟨t, ht, congrArg Prod.fst hsame.slot, congrArg Prod.snd hsame.slot, hsame.evtStatus,
    hsame.active⟩

/-- The channel on the descriptor 7 among the calls for the one on 9. -/
theorem isolated_of_run_twoChannels :
    ∃ s t, run (step fdOfBool) (construct fun _ => 0) twoChannels = some s ∧
      run (step fdOfBool) (construct fun _ => 0)
        (twoChannels.filterMap (Act.only fdOfBool false)) = some t ∧
      t.poller.registered 7 = s.poller.registered 7 ∧
      t.activeChannels = s.activeChannels.filter (· = false) := by
  have hinj : ∀ ch ch', fdOfBool ch = fdOfBool ch' → ch = ch' := by decide
  have hany : (run (step fdOfBool) (construct fun _ => 0) twoChannels).any (fun s =>
      decide (s.activeChannels = [false])) = true := by
    decide +kernel
  rcases exists_run_of_any hany with ⟨s, hrun, -⟩
  rcases isolated_of_run hinj hrun false with ⟨t, ht, hregistered, -, -, hactive⟩
  exact ⟨s, t, hrun, ht, hregistered, hactive⟩

end Polling

end Net
end Muradin
