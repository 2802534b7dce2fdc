import Mathlib.Logic.Function.Basic
import Muradin.Lib.Machine
import Muradin.Net.EvtChannel

/-!
# PollerEpoll — `net/ep_poller.h` and `net/ep_poller.cpp` over the kernel's table

`poller_epoll` keeps `m_channel_map` beside what the kernel has registered for its descriptor, and
writes the two by separate steps: `epoll_ctl` first, and the map only if that succeeded.  The kernel
gives back `data.ptr`, which is used as a channel.

* `channelMap_mirrors` — the map and the table agree behind every sequence of calls;
* `view_addChannel`, `view_delChannel`, `view_updateEvtCode` — seen from one channel, a poller is the
  `EpPoller` that the connections use.

A descriptor that is closed leaves the table by itself; no function of the poller closes one.
-/

namespace Muradin
namespace Net

open Lib

variable {Fd Chan : Type}

/-! ## The kernel -/

/-- `struct epoll_event`. -/
structure EpollEvent (Chan : Type) where
  events : Events
  ptr : Chan
  deriving DecidableEq, Repr

/-- What the kernel has registered. -/
abbrev Registrations (Fd Chan : Type) := Fd → Option (EpollEvent Chan)

inductive EpollOp (Chan : Type)
  | add (evt : EpollEvent Chan)
  | del
  | mod (evt : EpollEvent Chan)

namespace EpollOp

/-- `ADD` wants a descriptor that is not registered, `MOD` and `DEL` one that is. -/
def Applies (entry : Option (EpollEvent Chan)) : EpollOp Chan → Bool
  | .add _ => entry.isNone
  | .del => entry.isSome
  | .mod _ => entry.isSome

/-- The entry behind a call that succeeds. -/
def entry : EpollOp Chan → Option (EpollEvent Chan)
  | .add evt => some evt
  | .del => none
  | .mod evt => some evt

end EpollOp

/-- `::epoll_ctl(m_fd, op, fd, &evt)`: the table behind a call that returns 0.  With `ok = false` the
call fails for another reason than the table. -/
def epollCtl [DecidableEq Fd] (ok : Bool) (op : EpollOp Chan) (fd : Fd)
    (table : Registrations Fd Chan) : Option (Registrations Fd Chan) :=
  if ok ∧ op.Applies (table fd) then some (Function.update table fd op.entry) else none

/-- The events that `::epoll_wait` stores for the descriptors that are ready. -/
def epollWait (table : Registrations Fd Chan) (ready : List (Fd × Events)) :
    List (EpollEvent Chan) :=
  ready.filterMap fun r => (table r.1).map fun evt => { evt with events := r.2 }

/-! ## The poller -/

/-- What is logged as an error. -/
inductive Complaint (Chan : Type)
  | notExists (channel : Chan)
  | alreadyExists (channel : Chan)
  | epollCtlFail
  | epollWaitFail
  deriving DecidableEq, Repr

/-- `poller_epoll`, with the table that its `m_fd` stands for. -/
structure PollerEpoll (Fd Chan : Type) where
  registered : Registrations Fd Chan
  channelMap : Fd → Option Chan
  log : List (Complaint Chan)

namespace PollerEpoll

/-- `kMaxPollEvt`. -/
def kMaxPollEvt : Nat := 256

/-- The constructor. -/
def construct : PollerEpoll Fd Chan :=
  { registered := fun _ => none
    channelMap := fun _ => none
    log := [] }

def complain (p : PollerEpoll Fd Chan) (c : Complaint Chan) : PollerEpoll Fd Chan :=
  { p with log := p.log ++ [c] }

def findChannel (p : PollerEpoll Fd Chan) (fd : Fd) : Option Chan :=
  p.channelMap fd

variable (fdOf : Chan → Fd)

/-- `assert_channel(channel, need_exist)`, which only logs. -/
def assertChannel (p : PollerEpoll Fd Chan) (channel : Chan) (needExist : Bool) :
    PollerEpoll Fd Chan :=
  match p.findChannel (fdOf channel), needExist with
  | none, true => p.complain (.notExists channel)
  | some _, false => p.complain (.alreadyExists channel)
  | _, _ => p

variable [DecidableEq Fd]

def addChannel (p : PollerEpoll Fd Chan) (channel : Chan) (evtStatus : Events) (ok : Bool) :
    PollerEpoll Fd Chan :=
  let p := p.assertChannel fdOf channel false
  match epollCtl ok (.add { events := evtStatus, ptr := channel }) (fdOf channel) p.registered with
  | some table =>
      { p with
        registered := table
        channelMap := Function.update p.channelMap (fdOf channel) (some channel) }
  | none => p.complain .epollCtlFail

def delChannel (p : PollerEpoll Fd Chan) (channel : Chan) (ok : Bool) : PollerEpoll Fd Chan :=
  let p := p.assertChannel fdOf channel true
  match epollCtl ok .del (fdOf channel) p.registered with
  | some table =>
      { p with
        registered := table
        channelMap := Function.update p.channelMap (fdOf channel) none }
  | none => p.complain .epollCtlFail

def updateEvtCode (p : PollerEpoll Fd Chan) (channel : Chan) (evtStatus : Events) (ok : Bool) :
    PollerEpoll Fd Chan :=
  let p := p.assertChannel fdOf channel true
  match epollCtl ok (.mod { events := evtStatus, ptr := channel }) (fdOf channel) p.registered with
  | some table => { p with registered := table }
  | none => p.complain .epollCtlFail

/-! ## What the calls do to the map and the table -/

/-- The two maps of a poller. -/
def maps (p : PollerEpoll Fd Chan) : Registrations Fd Chan × (Fd → Option Chan) :=
  (p.registered, p.channelMap)

omit [DecidableEq Fd] in
@[simp] theorem maps_complain (p : PollerEpoll Fd Chan) (c : Complaint Chan) :
    (p.complain c).maps = p.maps := rfl

omit [DecidableEq Fd] in
theorem maps_assertChannel (p : PollerEpoll Fd Chan) (channel : Chan) (needExist : Bool) :
    (p.assertChannel fdOf channel needExist).maps = p.maps := by
  unfold assertChannel
  split <;> rfl

omit [DecidableEq Fd] in
theorem registered_assertChannel (p : PollerEpoll Fd Chan) (channel : Chan) (needExist : Bool) :
    (p.assertChannel fdOf channel needExist).registered = p.registered :=
  congrArg Prod.fst (maps_assertChannel fdOf p channel needExist)

omit [DecidableEq Fd] in
theorem channelMap_assertChannel (p : PollerEpoll Fd Chan) (channel : Chan) (needExist : Bool) :
    (p.assertChannel fdOf channel needExist).channelMap = p.channelMap :=
  congrArg Prod.snd (maps_assertChannel fdOf p channel needExist)

/-- `add_channel` writes both maps, or leaves both. -/
theorem maps_addChannel (p : PollerEpoll Fd Chan) (channel : Chan) (evtStatus : Events)
    (ok : Bool) :
    (p.addChannel fdOf channel evtStatus ok).maps =
      if ok ∧ (p.registered (fdOf channel)).isNone then
        (Function.update p.registered (fdOf channel) (some { events := evtStatus, ptr := channel }),
          Function.update p.channelMap (fdOf channel) (some channel))
      else
        p.maps := by
  rw [addChannel, registered_assertChannel, epollCtl]
  by_cases h : ok ∧ (p.registered (fdOf channel)).isNone
  · rw [if_pos h, EpollOp.Applies, if_pos h]
    dsimp only [maps]
    rw [channelMap_assertChannel]
    rfl
  · rw [if_neg h, EpollOp.Applies, if_neg h]
    exact maps_assertChannel fdOf p channel false

theorem maps_delChannel (p : PollerEpoll Fd Chan) (channel : Chan) (ok : Bool) :
    (p.delChannel fdOf channel ok).maps =
      if ok ∧ (p.registered (fdOf channel)).isSome then
        (Function.update p.registered (fdOf channel) none,
          Function.update p.channelMap (fdOf channel) none)
      else
        p.maps := by
  rw [delChannel, registered_assertChannel, epollCtl]
  by_cases h : ok ∧ (p.registered (fdOf channel)).isSome
  · rw [if_pos h, EpollOp.Applies, if_pos h]
    dsimp only [maps]
    rw [channelMap_assertChannel]
    rfl
  · rw [if_neg h, EpollOp.Applies, if_neg h]
    exact maps_assertChannel fdOf p channel true

/-- `update_evt_code` leaves `m_channel_map` alone. -/
theorem maps_updateEvtCode (p : PollerEpoll Fd Chan) (channel : Chan) (evtStatus : Events)
    (ok : Bool) :
    (p.updateEvtCode fdOf channel evtStatus ok).maps =
      if ok ∧ (p.registered (fdOf channel)).isSome then
        (Function.update p.registered (fdOf channel) (some { events := evtStatus, ptr := channel }),
          p.channelMap)
      else
        p.maps := by
  rw [updateEvtCode, registered_assertChannel, epollCtl]
  by_cases h : ok ∧ (p.registered (fdOf channel)).isSome
  · rw [if_pos h, EpollOp.Applies, if_pos h]
    dsimp only [maps]
    rw [channelMap_assertChannel]
    rfl
  · rw [if_neg h, EpollOp.Applies, if_neg h]
    exact maps_assertChannel fdOf p channel true

/-! ## The map and the table -/

/-- The map is the table with the pointers alone, and has every channel under its own descriptor. -/
structure Mirrors (p : PollerEpoll Fd Chan) : Prop where
  agree : ∀ fd, p.channelMap fd = (p.registered fd).map (·.ptr)
  keyed : ∀ fd channel, p.channelMap fd = some channel → fdOf channel = fd

variable {fdOf}

omit [DecidableEq Fd] in
theorem mirrors_construct : (construct : PollerEpoll Fd Chan).Mirrors fdOf :=
  { agree := fun _ => rfl
    keyed := nofun }

omit [DecidableEq Fd] in
theorem Mirrors.of_maps {p q : PollerEpoll Fd Chan} (h : p.Mirrors fdOf)
    (hmaps : q.maps = p.maps) : q.Mirrors fdOf := by
  obtain ⟨htable, hmap⟩ := Prod.mk.inj hmaps
  exact { agree := hmap ▸ htable ▸ h.agree, keyed := hmap ▸ h.keyed }

/-- Both maps are written at the descriptor of a channel, and with no other channel. -/
theorem Mirrors.write {p q : PollerEpoll Fd Chan} (h : p.Mirrors fdOf) (channel : Chan)
    (entry : Option (EpollEvent Chan)) (hentry : ∀ evt ∈ entry, evt.ptr = channel)
    (hmaps : q.maps = (Function.update p.registered (fdOf channel) entry,
      Function.update p.channelMap (fdOf channel) (entry.map (·.ptr)))) :
    q.Mirrors fdOf := by
  obtain ⟨htable, hmap⟩ := Prod.mk.inj hmaps
  refine { agree := ?_, keyed := ?_ }
  · intro fd
    rw [htable, hmap]
    by_cases hfd : fd = fdOf channel
    · rw [hfd, Function.update_self, Function.update_self]
    · rw [Function.update_of_ne hfd, Function.update_of_ne hfd]
      exact h.agree fd
  · intro fd ch hch
    rw [hmap] at hch
    by_cases hfd : fd = fdOf channel
    · rw [hfd, Function.update_self] at hch
      obtain ⟨evt, hevt, rfl⟩ := Option.map_eq_some_iff.mp hch
      rw [hentry evt hevt, hfd]
    · rw [Function.update_of_ne hfd] at hch
      exact h.keyed fd ch hch

theorem Mirrors.addChannel {p : PollerEpoll Fd Chan} (h : p.Mirrors fdOf) (channel : Chan)
    (evtStatus : Events) (ok : Bool) : (p.addChannel fdOf channel evtStatus ok).Mirrors fdOf := by
  have hmaps := maps_addChannel fdOf p channel evtStatus ok
  split at hmaps
  · refine h.write channel (some { events := evtStatus, ptr := channel }) ?_ hmaps
    rintro evt ⟨⟩
    rfl
  · exact h.of_maps hmaps

theorem Mirrors.delChannel {p : PollerEpoll Fd Chan} (h : p.Mirrors fdOf) (channel : Chan)
    (ok : Bool) : (p.delChannel fdOf channel ok).Mirrors fdOf := by
  have hmaps := maps_delChannel fdOf p channel ok
  split at hmaps
  · refine h.write channel none ?_ hmaps
    rintro evt ⟨⟩
  · exact h.of_maps hmaps

omit [DecidableEq Fd] in
/-- With descriptors of their own, the entry at the descriptor of a channel is the channel's. -/
theorem Mirrors.entry_own {p : PollerEpoll Fd Chan} (h : p.Mirrors fdOf)
    (hinj : Function.Injective fdOf) {channel : Chan} {evt : EpollEvent Chan}
    (hevt : p.registered (fdOf channel) = some evt) : p.channelMap (fdOf channel) = some channel := by
  have hentry : p.channelMap (fdOf channel) = some evt.ptr := by
    rw [h.agree, hevt]
    rfl
  have hptr : evt.ptr = channel := hinj (h.keyed _ _ hentry)
  rw [hentry, hptr]

theorem Mirrors.updateEvtCode {p : PollerEpoll Fd Chan} (h : p.Mirrors fdOf)
    (hinj : Function.Injective fdOf) (channel : Chan) (evtStatus : Events) (ok : Bool) :
    (p.updateEvtCode fdOf channel evtStatus ok).Mirrors fdOf := by
  have hmaps := maps_updateEvtCode fdOf p channel evtStatus ok
  split at hmaps
  · next happlies =>
      -- The kernel replaces the pointer: the map already has the same one.
      obtain ⟨evt, hevt⟩ := Option.isSome_iff_exists.mp happlies.2
      have hown : p.channelMap (fdOf channel) = some channel := h.entry_own hinj hevt
      refine h.write channel (some { events := evtStatus, ptr := channel }) ?_ (hmaps.trans ?_)
      · rintro evt ⟨⟩
        rfl
      · have hsame : Function.update p.channelMap (fdOf channel) (some channel) = p.channelMap :=
          Function.update_eq_self_iff.mpr hown.symm
        rw [Option.map_some, hsame]
  · exact h.of_maps hmaps

/-! ## One channel -/

/-- The poller at the descriptor of a channel. -/
def view (fdOf : Chan → Fd) (p : PollerEpoll Fd Chan) (channel : Chan) : EpPoller :=
  { inChannelMap := (p.channelMap (fdOf channel)).isSome
    registered := (p.registered (fdOf channel)).map (·.events) }

omit [DecidableEq Fd] in
theorem view_eq_of_maps {p q : PollerEpoll Fd Chan} (hmaps : q.maps = p.maps) (channel : Chan) :
    q.view fdOf channel = p.view fdOf channel := by
  obtain ⟨htable, hmap⟩ := Prod.mk.inj hmaps
  rw [view, htable, hmap]
  rfl

/-- A call for one channel is not seen from another. -/
theorem view_of_other {p q : PollerEpoll Fd Chan} {channel other : Chan}
    {entry : Option (EpollEvent Chan)} {map : Fd → Option Chan} (hfd : fdOf other ≠ fdOf channel)
    (hmap : map (fdOf other) = p.channelMap (fdOf other))
    (hmaps : q.maps = (Function.update p.registered (fdOf channel) entry, map)) :
    q.view fdOf other = p.view fdOf other := by
  obtain ⟨htable, hmap'⟩ := Prod.mk.inj hmaps
  rw [view, htable, hmap', hmap, Function.update_of_ne hfd]
  rfl

theorem view_addChannel_of_other {p : PollerEpoll Fd Chan} {channel other : Chan}
    (hfd : fdOf other ≠ fdOf channel) (evtStatus : Events) (ok : Bool) :
    (p.addChannel fdOf channel evtStatus ok).view fdOf other = p.view fdOf other := by
  have hmaps := maps_addChannel fdOf p channel evtStatus ok
  split at hmaps
  · exact view_of_other hfd (Function.update_of_ne hfd _ _) hmaps
  · exact view_eq_of_maps hmaps other

theorem view_delChannel_of_other {p : PollerEpoll Fd Chan} {channel other : Chan}
    (hfd : fdOf other ≠ fdOf channel) (ok : Bool) :
    (p.delChannel fdOf channel ok).view fdOf other = p.view fdOf other := by
  have hmaps := maps_delChannel fdOf p channel ok
  split at hmaps
  · exact view_of_other hfd (Function.update_of_ne hfd _ _) hmaps
  · exact view_eq_of_maps hmaps other

theorem view_updateEvtCode_of_other {p : PollerEpoll Fd Chan} {channel other : Chan}
    (hfd : fdOf other ≠ fdOf channel) (evtStatus : Events) (ok : Bool) :
    (p.updateEvtCode fdOf channel evtStatus ok).view fdOf other = p.view fdOf other := by
  have hmaps := maps_updateEvtCode fdOf p channel evtStatus ok
  split at hmaps
  · exact view_of_other hfd rfl hmaps
  · exact view_eq_of_maps hmaps other

theorem view_addChannel (p : PollerEpoll Fd Chan) (channel : Chan) (evtStatus : Events)
    (ok : Bool) :
    (p.addChannel fdOf channel evtStatus ok).view fdOf channel =
      (p.view fdOf channel).addChannel evtStatus ok := by
  have hmaps := maps_addChannel fdOf p channel evtStatus ok
  have hisNone : (p.view fdOf channel).registered.isNone = (p.registered (fdOf channel)).isNone :=
    Option.isNone_map
  split at hmaps
  · next happlies =>
      obtain ⟨htable, hmap⟩ := Prod.mk.inj hmaps
      rw [view, htable, hmap, Function.update_self, Function.update_self, EpPoller.addChannel,
        hisNone, happlies.1, happlies.2]
      rfl
  · next hfails =>
      rw [view_eq_of_maps hmaps, EpPoller.addChannel, hisNone, if_neg]
      simpa [and_comm] using hfails

/-- `DEL` and `MOD` of a registered descriptor do not fail. -/
theorem view_delChannel (p : PollerEpoll Fd Chan) (channel : Chan) :
    (p.delChannel fdOf channel true).view fdOf channel = (p.view fdOf channel).delChannel := by
  have hmaps := maps_delChannel fdOf p channel true
  have hisSome : (p.view fdOf channel).registered.isSome = (p.registered (fdOf channel)).isSome :=
    Option.isSome_map
  split at hmaps
  · next happlies =>
      obtain ⟨htable, hmap⟩ := Prod.mk.inj hmaps
      rw [view, htable, hmap, Function.update_self, Function.update_self, EpPoller.delChannel,
        hisSome, if_pos happlies.2]
      rfl
  · next hfails =>
      rw [view_eq_of_maps hmaps, EpPoller.delChannel, hisSome, if_neg]
      simpa using hfails

theorem view_updateEvtCode (p : PollerEpoll Fd Chan) (channel : Chan) (evtStatus : Events) :
    (p.updateEvtCode fdOf channel evtStatus true).view fdOf channel =
      (p.view fdOf channel).updateEvtCode evtStatus := by
  have hmaps := maps_updateEvtCode fdOf p channel evtStatus true
  have hisSome : (p.view fdOf channel).registered.isSome = (p.registered (fdOf channel)).isSome :=
    Option.isSome_map
  split at hmaps
  · next happlies =>
      obtain ⟨htable, hmap⟩ := Prod.mk.inj hmaps
      rw [view, htable, hmap, Function.update_self, EpPoller.updateEvtCode, hisSome,
        if_pos happlies.2]
      rfl
  · next hfails =>
      rw [view_eq_of_maps hmaps, EpPoller.updateEvtCode, hisSome, if_neg]
      simpa using hfails

end PollerEpoll

/-! ## The poller and its channels -/

/-- A poller, `m_last_evt_status` of the channels, and the `active_channels` of the loop. -/
structure Polling (Fd Chan : Type) where
  poller : PollerEpoll Fd Chan
  evtStatus : Chan → Events
  activeChannels : List Chan

namespace Polling

def construct (evtStatus : Chan → Events) : Polling Fd Chan :=
  { poller := PollerEpoll.construct
    evtStatus
    activeChannels := [] }

inductive Act (Fd Chan : Type)
  | addChannel (channel : Chan) (ok : Bool)
  | delChannel (channel : Chan) (ok : Bool)
  | updateEvtCode (channel : Chan) (ok : Bool)
  /-- the channel changes its `m_last_evt_status` -/
  | setEvtStatus (channel : Chan) (status : Events)
  /-- `active_channels.clear()` and `wait_for_evt(active_channels)`; `epoll_wait` reports these
  descriptors, or fails -/
  | waitForEvt (ready : Option (List (Fd × Events)))

variable (fdOf : Chan → Fd) [DecidableEq Chan]

/-- The body of the loop of `wait_for_evt`. -/
def takeEvt (s : Polling Fd Chan) (evt : EpollEvent Chan) : Polling Fd Chan :=
  { poller := s.poller.assertChannel fdOf evt.ptr true
    evtStatus := Function.update s.evtStatus evt.ptr evt.events
    activeChannels := s.activeChannels ++ [evt.ptr] }

def waitForEvt (s : Polling Fd Chan) : Option (List (Fd × Events)) → Polling Fd Chan
  | some ready => (epollWait s.poller.registered ready).foldl (takeEvt fdOf) s
  | none => { s with poller := s.poller.complain .epollWaitFail }

variable [DecidableEq Fd]

/-- `epoll_wait` reports registered descriptors, as many as fit. -/
def Enabled (s : Polling Fd Chan) : Act Fd Chan → Prop
  | .waitForEvt (some ready) =>
      ready.length ≤ PollerEpoll.kMaxPollEvt ∧ ∀ r ∈ ready, (s.poller.registered r.1).isSome
  | _ => True

def next (s : Polling Fd Chan) : Act Fd Chan → Polling Fd Chan
  | .addChannel channel ok =>
      { s with poller := s.poller.addChannel fdOf channel (s.evtStatus channel) ok }
  | .delChannel channel ok => { s with poller := s.poller.delChannel fdOf channel ok }
  | .updateEvtCode channel ok =>
      { s with poller := s.poller.updateEvtCode fdOf channel (s.evtStatus channel) ok }
  | .setEvtStatus channel status =>
      { s with evtStatus := Function.update s.evtStatus channel status }
  | .waitForEvt ready => { s with activeChannels := [] }.waitForEvt fdOf ready

instance (s : Polling Fd Chan) : (a : Act Fd Chan) → Decidable (s.Enabled a)
  | .waitForEvt (some _) => inferInstanceAs (Decidable (_ ∧ _))
  | .waitForEvt none | .addChannel _ _ | .delChannel _ _ | .updateEvtCode _ _
  | .setEvtStatus _ _ => inferInstanceAs (Decidable True)

def step (s : Polling Fd Chan) (a : Act Fd Chan) : Option (Polling Fd Chan) :=
  if s.Enabled a then some (s.next fdOf a) else none

/-! ## `wait_for_evt` -/

variable {fdOf}

omit [DecidableEq Chan] [DecidableEq Fd] in
/-- What `epoll_wait` stores are registered pointers. -/
theorem exists_registered_of_mem_epollWait {table : Registrations Fd Chan}
    {ready : List (Fd × Events)} {evt : EpollEvent Chan} (h : evt ∈ epollWait table ready) :
    ∃ fd evt', table fd = some evt' ∧ evt'.ptr = evt.ptr := by
  rcases List.mem_filterMap.mp h with ⟨r, -, hr⟩
  rcases Option.map_eq_some_iff.mp hr with ⟨evt', htable, rfl⟩
  exact ⟨r.1, evt', htable, rfl⟩

omit [DecidableEq Fd] in
/-- The loop of `wait_for_evt` appends the pointers and leaves the poller's maps alone. -/
theorem foldl_takeEvt (evts : List (EpollEvent Chan)) (s : Polling Fd Chan) :
    (evts.foldl (takeEvt fdOf) s).poller.maps = s.poller.maps ∧
      (evts.foldl (takeEvt fdOf) s).activeChannels = s.activeChannels ++ evts.map (·.ptr) := by
  induction evts generalizing s with
  | nil => simp
  | cons evt evts ih =>
      obtain ⟨hmaps, hactive⟩ := ih (s.takeEvt fdOf evt)
      refine ⟨hmaps.trans (PollerEpoll.maps_assertChannel fdOf s.poller evt.ptr true), ?_⟩
      rw [List.foldl_cons, hactive, List.map_cons]
      exact List.append_assoc _ _ _

omit [DecidableEq Fd] in
theorem waitForEvt_maps (s : Polling Fd Chan) (ready : Option (List (Fd × Events))) :
    (s.waitForEvt fdOf ready).poller.maps = s.poller.maps := by
  cases ready with
  | some ready => exact (foldl_takeEvt _ s).1
  | none => rfl

/-! ## Runs -/

variable {s s' : Polling Fd Chan} {a : Act Fd Chan}

theorem step_eq_some : s.step fdOf a = some s' ↔ s.Enabled a ∧ s.next fdOf a = s' := by
  simp [step]

theorem mirrors_next (hinj : Function.Injective fdOf) (h : s.poller.Mirrors fdOf)
    (a : Act Fd Chan) : (s.next fdOf a).poller.Mirrors fdOf := by
  cases a with
  | addChannel channel ok => exact h.addChannel channel _ ok
  | delChannel channel ok => exact h.delChannel channel ok
  | updateEvtCode channel ok => exact h.updateEvtCode hinj channel _ ok
  | setEvtStatus channel status => exact h
  | waitForEvt ready => exact h.of_maps (waitForEvt_maps { s with activeChannels := [] } ready)

/-- A channel that is reported has its entry of `m_channel_map`. -/
theorem activeChannels_waitForEvt (h : s.poller.Mirrors fdOf) (ready : Option (List (Fd × Events)))
    {channel : Chan} (hmem : channel ∈ (s.next fdOf (.waitForEvt ready)).activeChannels) :
    s.poller.channelMap (fdOf channel) = some channel := by
  cases ready with
  | none => cases hmem
  | some ready =>
      have hmem : channel ∈ ((epollWait s.poller.registered ready).foldl (takeEvt fdOf)
        { s with activeChannels := [] }).activeChannels := hmem
      rw [(foldl_takeEvt _ _).2, List.nil_append] at hmem
      rcases List.mem_map.mp hmem with ⟨evt, hevt, rfl⟩
      rcases exists_registered_of_mem_epollWait hevt with ⟨fd, evt', htable, hptr⟩
      have hentry : s.poller.channelMap fd = some evt.ptr := by
        rw [h.agree, htable, Option.map_some, hptr]
      rw [h.keyed fd evt.ptr hentry]
      exact hentry

omit [DecidableEq Fd] in
/-- A descriptor that is found is not complained about. -/
theorem poller_takeEvt {evt : EpollEvent Chan}
    (hfound : (s.poller.channelMap (fdOf evt.ptr)).isSome) :
    (s.takeEvt fdOf evt).poller = s.poller := by
  obtain ⟨channel, hchannel⟩ := Option.isSome_iff_exists.mp hfound
  have hfind : s.poller.findChannel (fdOf evt.ptr) = some channel := hchannel
  simp [takeEvt, PollerEpoll.assertChannel, hfind]

omit [DecidableEq Fd] in
theorem poller_foldl_takeEvt {evts : List (EpollEvent Chan)}
    (hfound : ∀ evt ∈ evts, (s.poller.channelMap (fdOf evt.ptr)).isSome) :
    (evts.foldl (takeEvt fdOf) s).poller = s.poller := by
  induction evts generalizing s with
  | nil => rfl
  | cons evt evts ih =>
      have hquiet : (s.takeEvt fdOf evt).poller = s.poller :=
        poller_takeEvt (hfound evt List.mem_cons_self)
      rw [List.foldl_cons, ih, hquiet]
      intro evt' hevt'
      rw [hquiet]
      exact hfound evt' (List.mem_cons_of_mem evt hevt')

/-! ## One channel -/

/-- `MOD` and `DEL` of this call fail only where the descriptor is not registered. -/
def Act.Reliable : Act Fd Chan → Prop
  | .delChannel _ ok => ok = true
  | .updateEvtCode _ ok => ok = true
  | _ => True

/-- What a call is for the poller of one channel. -/
def onView (s : Polling Fd Chan) (channel : Chan) (v : EpPoller) : Act Fd Chan → EpPoller
  | .addChannel ch ok => if ch = channel then v.addChannel (s.evtStatus ch) ok else v
  | .delChannel ch _ => if ch = channel then v.delChannel else v
  | .updateEvtCode ch _ => if ch = channel then v.updateEvtCode (s.evtStatus ch) else v
  | .setEvtStatus _ _ => v
  | .waitForEvt _ => v

/-- Seen from one channel, the poller takes the steps of its `EpPoller`. -/
theorem view_next (hinj : Function.Injective fdOf) (ha : a.Reliable) (channel : Chan) :
    (s.next fdOf a).poller.view fdOf channel =
      s.onView channel (s.poller.view fdOf channel) a := by
  have hother : ∀ {ch}, ch ≠ channel → fdOf channel ≠ fdOf ch :=
    fun hne heq => hne (hinj heq).symm
  cases a with
  | addChannel ch ok =>
      rw [onView]
      split
      · next heq => exact heq ▸ PollerEpoll.view_addChannel s.poller ch _ ok
      · next hne => exact PollerEpoll.view_addChannel_of_other (hother hne) _ ok
  | delChannel ch ok =>
      obtain rfl : ok = true := ha
      rw [onView]
      split
      · next heq => exact heq ▸ PollerEpoll.view_delChannel s.poller ch
      · next hne => exact PollerEpoll.view_delChannel_of_other (hother hne) true
  | updateEvtCode ch ok =>
      obtain rfl : ok = true := ha
      rw [onView]
      split
      · next heq => exact heq ▸ PollerEpoll.view_updateEvtCode s.poller ch _
      · next hne => exact PollerEpoll.view_updateEvtCode_of_other (hother hne) _ true
  | setEvtStatus ch status => rfl
  | waitForEvt ready =>
      exact PollerEpoll.view_eq_of_maps (waitForEvt_maps { s with activeChannels := [] } ready)
        channel

/-! ## Every sequence of calls -/

theorem mirrors_run (hinj : Function.Injective fdOf) {evtStatus : Chan → Events}
    {as : List (Act Fd Chan)} (hrun : run (step fdOf) (construct evtStatus) as = some s) :
    s.poller.Mirrors fdOf := by
  refine invariant_run (I := fun s => s.poller.Mirrors fdOf) ?_ PollerEpoll.mirrors_construct hrun
  intro s a s' h hs
  rcases step_eq_some.mp hs with ⟨-, rfl⟩
  exact mirrors_next hinj h a

/-- Behind every sequence of calls `m_channel_map` is the kernel's table of pointers, keyed by the
descriptors of the channels, and `wait_for_evt` reports channels of the map only. -/
theorem channelMap_mirrors (hinj : Function.Injective fdOf) {evtStatus : Chan → Events}
    {as : List (Act Fd Chan)} (hrun : run (step fdOf) (construct evtStatus) as = some s) :
    (∀ fd, s.poller.channelMap fd = (s.poller.registered fd).map (·.ptr)) ∧
      (∀ fd channel, s.poller.channelMap fd = some channel → fdOf channel = fd) ∧
      ∀ ready s', s.step fdOf (.waitForEvt ready) = some s' →
        ∀ channel ∈ s'.activeChannels,
          s'.poller.channelMap (fdOf channel) = some channel := by
  have h : s.poller.Mirrors fdOf := mirrors_run hinj hrun
  refine ⟨h.agree, h.keyed, ?_⟩
  intro ready s' hs channel hmem
  rcases step_eq_some.mp hs with ⟨-, rfl⟩
  have hmap : (s.next fdOf (.waitForEvt ready)).poller.channelMap = s.poller.channelMap :=
    congrArg Prod.snd (waitForEvt_maps { s with activeChannels := [] } ready)
  rw [hmap]
  exact activeChannels_waitForEvt h ready hmem

/-- Two channels on the descriptors 7 and 9: calls that apply, that come too early or too often, and
one that the kernel refuses. -/
def twoChannels : List (Act Nat Bool) :=
  [.updateEvtCode true true, .addChannel false true, .addChannel false true, .addChannel true false,
    .addChannel true true, .setEvtStatus false Events.epollIn, .updateEvtCode false true,
    .delChannel true false, .delChannel true true, .delChannel true true,
    .waitForEvt (some [(7, Events.epollIn)])]

def fdOfBool (channel : Bool) : Nat :=
  if channel then 9 else 7

theorem channelMap_mirrors_twoChannels :
    ∃ s, run (step fdOfBool) (construct fun _ => 0) twoChannels = some s ∧
      s.activeChannels = [false] ∧ s.poller.channelMap 9 = none ∧
      ∀ fd, s.poller.channelMap fd = (s.poller.registered fd).map (·.ptr) := by
  have hinj : ∀ ch ch', fdOfBool ch = fdOfBool ch' → ch = ch' := by decide
  have hany : (run (step fdOfBool) (construct fun _ => 0) twoChannels).any (fun s =>
      decide (s.activeChannels = [false] ∧ s.poller.channelMap 9 = none)) = true := by
    decide +kernel
  rcases exists_run_of_any hany with ⟨s, hrun, hactive, hremoved⟩
  exact ⟨s, hrun, hactive, hremoved, (channelMap_mirrors hinj hrun).1⟩

end Polling

end Net
end Muradin
