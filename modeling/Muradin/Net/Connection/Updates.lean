import Muradin.Net.Connection.Interest

/-!
# Updates — relations that the calls of the loop thread keep

`Updates R` says that `R` holds across each of the small updates that the calls are made of; then it
holds across every call (`Updates.exec`), but for those that register the channel or end the
connection.
-/

namespace Muradin
namespace Net

open Lib Cpp Events

namespace Connection

variable {B : Build} {cbs : Callbacks} {env : Env} {mem : Nat → Byte}
  {R : Connection → Connection → Prop}

/-- The work of the loop thread and the notes of the callbacks go along `R`. -/
structure Updates (R : Connection → Connection → Prop) : Prop extends Works R where
  notes : ∀ c notes, R c { c with notes := notes }

namespace Updates

theorem deliver (h : Updates R) (isSet : Bool) (note : Connection → Note) :
    Relates R (deliver isSet note) :=
  .ite (h.bind (.modify fun c => h.notes c _) fun _ => h.pure _)
    (.of_same h.refl (Keeps.throw _ _))

/-- The calls that neither register the channel nor end the connection. -/
theorem exec (h : Updates R) {c : Call} (hc : c.Registers = false) :
    Relates R (exec B cbs env mem c) := by
  cases hcb : c.IsCallback with
  | false => exact h.toWorks.exec hc hcb
  | true =>
      cases c with
      | connCb => exact h.deliver _ _
      | readCb err => exact h.deliver _ _
      | writeCb err bytes => exact h.deliver _ _
      | errCb err => exact h.deliver _ _
      | closeCb => cases hc
      | _ => cases hcb

end Updates

/-! ## `m_last_evt_status` -/

/-- `m_last_evt_status` of the channel. -/
def evtStatus (conn : Connection) : Events :=
  conn.channle.lastEvtStatus

theorem evtStatus_setWriteInterest (c : Connection) :
    (c.setWriteInterest true).evtStatus =
      if c.channle.progressInWrite then c.evtStatus else c.evtStatus ||| epollOut := by
  unfold setWriteInterest
  cases c.channle.progressInWrite <;> rfl

/-- The mask is the same, or `EPOLLOUT` was added to it. -/
def AddsOut (c d : Connection) : Prop :=
  d.evtStatus = c.evtStatus ∨ d.evtStatus = c.evtStatus ||| epollOut

theorem AddsOut.trans {c d e : Connection} (hcd : c.AddsOut d) (hde : d.AddsOut e) :
    c.AddsOut e := by
  rcases hcd with hsame | hout
  · rwa [AddsOut, hsame] at hde
  · -- Adding `EPOLLOUT` twice is adding it once.
    rw [AddsOut, hout, BitVec.or_assoc, BitVec.or_self] at hde
    exact Or.inr (hde.elim id id)

theorem updates_addsOut : Updates AddsOut :=
  { refl := fun _ => Or.inl rfl
    trans := fun _ _ _ => AddsOut.trans
    readCache := fun _ _ => Or.inl rfl
    writeCache := fun _ _ => Or.inl rfl
    accepted := fun _ _ => Or.inl rfl
    written := fun _ _ => Or.inl rfl
    notes := fun _ _ => Or.inl rfl
    writeShutdown := fun _ _ => Or.inl rfl
    progress := fun _ => Or.inl rfl
    interest := by
      intro c
      rw [AddsOut, evtStatus_setWriteInterest]
      split
      · exact Or.inl rfl
      · exact Or.inr rfl }

/-- `handle_close` clears the mask, and no other call takes events out of it. -/
theorem exec_addsOut {c : Call} (hc : c ≠ .handleClose) :
    Relates AddsOut (exec B cbs env mem c) := by
  cases hregisters : c.Registers with
  | false => exact updates_addsOut.exec hregisters
  | true =>
      have hkeeps : Keeps evtStatus (exec B cbs env mem c) := by
        cases c with
        | addChannel => exact Keeps.bind (Keeps.modify fun _ => rfl) fun _ => Keeps.pure _ _
        | updateChannel => exact Keeps.bind (Keeps.modify fun _ => rfl) fun _ => Keeps.pure _ _
        | closeCb => exact keeps_closeCb (fun _ _ => rfl) (fun _ _ => rfl) fun _ _ => rfl
        | handleClose => contradiction
        | _ => cases hregisters
      exact .of_keeps hkeeps fun _ _ hsame => Or.inl hsame

/-! ## The registration -/

/-- The descriptor is registered in `epoll`, or not, as before. -/
def SameRegistered (c d : Connection) : Prop :=
  d.poller.registered.isSome = c.poller.registered.isSome

theorem isSome_updateEvtCode (p : EpPoller) (evtStatus : Events) :
    (p.updateEvtCode evtStatus).registered.isSome = p.registered.isSome := by
  unfold EpPoller.updateEvtCode
  split
  · rename_i hsome
    rw [hsome]
    rfl
  · rfl

theorem updates_sameRegistered : Updates SameRegistered :=
  { refl := fun _ => rfl
    trans := fun _ _ _ hcd hde => Eq.trans hde hcd
    readCache := fun _ _ => rfl
    writeCache := fun _ _ => rfl
    accepted := fun _ _ => rfl
    written := fun _ _ => rfl
    notes := fun _ _ => rfl
    writeShutdown := fun _ _ => rfl
    progress := fun _ => rfl
    interest := by
      intro c
      rw [SameRegistered, setWriteInterest]
      split
      · rfl
      · exact isSome_updateEvtCode _ _ }

/-- Only `add_channel` and `del_channel` change whether the descriptor is registered. -/
theorem exec_sameRegistered {c : Call} (hadd : c ≠ .addChannel) (hclose : c ≠ .closeCb) :
    Relates SameRegistered (exec B cbs env mem c) := by
  cases hregisters : c.Registers with
  | false => exact updates_sameRegistered.exec hregisters
  | true =>
      cases c with
      | updateChannel =>
          intro conn
          exact isSome_updateEvtCode _ _
      | handleClose =>
          intro conn
          exact (isSome_updateEvtCode _ _).trans (isSome_updateEvtCode _ _)
      | addChannel => contradiction
      | closeCb => contradiction
      | _ => cases hregisters

end Connection

end Net
end Muradin
