import Mathlib.Algebra.BigOperators.Ring.List
import Muradin.Example.PingPong.System

/-!
# Progress — the two programs of `example/asio/pingpong` as long as nothing fails

* `goes_on` — a step can be taken, so that the two never wait for each other;
* `steps_le` — a run of many steps has brought many bytes back: every byte costs a bounded number of
  steps on its way round.
-/

namespace Muradin
namespace Example
namespace PingPong

open Lib

/-! ## The client -/

namespace ClientSession

variable {Endpoint : Type} {s s' : ClientSession Endpoint}

/-- Nothing fails, and nothing is closed. -/
def Act.Smooth : Act → Prop
  | .handleConnect err optionSet => err = false ∧ optionSet = true
  | .transfer t => t.isFailure = false
  | .handleRead _ | .handleWrite _ => True
  | .closeSocket => False

instance : (a : Act) → Decidable a.Smooth
  | .handleConnect _ _ => inferInstanceAs (Decidable (_ ∧ _))
  | .transfer _ => inferInstanceAs (Decidable (_ = _))
  | .handleRead _ | .handleWrite _ => inferInstanceAs (Decidable True)
  | .closeSocket => inferInstanceAs (Decidable False)

theorem transfer_of {t : Transfer} {b : Blocks} (hclosed : s.closed = false)
    (h : s.toBlocks.transfer t = some b) : s.step (.transfer t) = some (s.withBlocks b) := by
  have hanswers : s.Answers t := by
    cases t with
    | readSome i bytes => exact hclosed
    | writeSome i n => exact hclosed
    | readFails i => exact trivial
    | writeFails i => exact trivial
  rw [ClientSession.step, if_pos hanswers, h]
  rfl

theorem handleRead_of {i : Nat} {r : Option Nat × Blocks} (h : s.takeRead i = some r) :
    s.step (.handleRead i) = some ((s.withBlocks r.2).handleRead r.1) := by
  rw [ClientSession.step, h]
  rfl

theorem handleWrite_of {i : Nat} {r : Option Nat × Blocks} (h : s.takeWrite i = some r) :
    s.step (.handleWrite i) = some ((s.withBlocks r.2).handleWrite r.1) := by
  rw [ClientSession.step, h]
  rfl

structure Goes (s : ClientSession Endpoint) : Prop where
  inv : s.Inv true
  size : 0 < s.blockSize
  closed : s.closed = false
  connecting : s.connected = false → s.connecting = true
  going : s.connected = true → s.Going

/-- What is left to do with the bytes that the session has. -/
def work (s : ClientSession Endpoint) : Nat :=
  if s.connected = true then s.cost 8 else 8 * s.blockSize + 2

theorem work_of_connected (h : s.connected = true) : s.work = s.cost 8 :=
  if_pos h

theorem not_isWriteFails_of_smooth {a : Act} (ha : a.Smooth) : a.isWriteFails = false := by
  cases a with
  | transfer t =>
      cases t with
      | writeFails i => cases ha
      | _ => rfl
  | _ => rfl

theorem Goes.inv_step (h : s.Goes) {a : Act} (ha : a.Smooth) (hs : s.step a = some s') :
    s'.Inv true := by
  have hinv := h.inv.step hs
  rwa [not_isWriteFails_of_smooth ha] at hinv

/-- The first block is sent. -/
theorem Goes.handleConnect (h : s.Goes) (hs : s.step (.handleConnect false true) = some s') :
    s'.Goes ∧ s'.work + 1 ≤ s.work ∧ s'.sent = s.sent := by
  have hinv := h.inv_step (a := .handleConnect false true) ⟨rfl, rfl⟩ hs
  rw [ClientSession.step] at hs
  split at hs
  · next hconnecting =>
      cases hs
      have hconnected : s.connected = false := by
        refine Bool.eq_false_iff.mpr fun hc => ?_
        cases hconnecting.symm.trans (h.inv.once hc)
      obtain ⟨hcount, hnone, -, -, -, -⟩ := h.inv.fresh hconnected
      have hnone : s.reads.length + s.writes.length = 0 := hnone
      have hreads : s.reads = [] := List.length_eq_zero_iff.mp (by omega)
      have hwrites : s.writes = [] := List.length_eq_zero_iff.mp (by omega)
      have hone : s.unsentCount + 1 = 1 := by omega
      refine ⟨?_, ?_, rfl⟩
      · exact
          { inv := hinv
            size := h.size
            closed := h.closed
            connecting := fun hfresh => absurd hfresh.symm Bool.false_ne_true
            going := fun _ => Blocks.going_asyncBoth _ hone hreads hwrites }
      · have hblock : (window (s.memory s.writeData) 0 s.blockSize).length = s.blockSize := by
          rw [length_window (Nat.le_of_eq (h.inv.blocks.size _).symm), Nat.sub_zero]
        have hstored : s.storedNow = 0 := by
          rw [Blocks.storedNow, hreads]
          rfl
        have hcost : (({ s.toBlocks with unsentCount := s.unsentCount + 1 }.asyncWrite
            s.blockSize).asyncReadSome).cost 8 =
              (8 + 2) * s.storedNow +
                8 * (window (s.memory s.writeData) 0 s.blockSize).length + 1 :=
          Blocks.cost_asyncBoth _ hone hwrites
        have hwork : (s.handleConnect false true).work =
            (({ s.toBlocks with unsentCount := s.unsentCount + 1 }.asyncWrite
              s.blockSize).asyncReadSome).cost 8 := rfl
        rw [hwork, hcost, hblock, hstored, work, if_neg (by simp [hconnected])]
        omega
  · cases hs

/-- Behind the first block there are only the blocks to look at. -/
theorem Goes.of_blocks (h : s.Goes) (hconnected : s.connected = true) {b : Blocks}
    {bytesWritten bytesRead : Nat}
    (hinv : Inv true { s.withBlocks b with bytesWritten, bytesRead })
    (hsize : b.blockSize = s.blockSize) (hgoing : b.Going) {brought : Nat}
    (hcost : b.cost 8 + 6 * b.sent.length + 1 ≤ s.cost 8 + 6 * s.sent.length + brought) :
    Goes { s.withBlocks b with bytesWritten, bytesRead } ∧
      work { s.withBlocks b with bytesWritten, bytesRead } + 6 * b.sent.length + 1 ≤
        s.work + 6 * s.sent.length + brought := by
  constructor
  · exact
      { inv := hinv
        size := by
          show 0 < b.blockSize
          rw [hsize]
          exact h.size
        closed := h.closed
        connecting := h.connecting
        going := fun _ => hgoing }
  · rw [work_of_connected hconnected, work_of_connected (by exact hconnected)]
    exact hcost

theorem Goes.step (h : s.Goes) {a : Act} (ha : a.Smooth) (hs : s.step a = some s') :
    s'.Goes ∧ s'.work + 6 * s'.sent.length + 1 ≤
      s.work + 6 * s.sent.length + 11 * a.stores.length := by
  have hinv := h.inv_step ha hs
  cases a with
  | handleConnect err optionSet =>
      obtain ⟨rfl, rfl⟩ := ha
      obtain ⟨hgoes, hwork, hsent⟩ := h.handleConnect hs
      refine ⟨hgoes, ?_⟩
      rw [hsent]
      omega
  | transfer t =>
      rw [ClientSession.step] at hs
      split at hs
      · rcases Option.map_eq_some_iff.mp hs with ⟨b, hb, rfl⟩
        have hconnected := h.inv.busy (Blocks.operations_transfer hb).2
        have hgoing := (h.going hconnected).transfer ha hb
        have hcost := h.inv.blocks.cost_transfer h.size (by decide : 6 < 8) ha hb
        exact h.of_blocks hconnected hinv (Blocks.blockSize_transfer hb) hgoing hcost
      · cases hs
  | handleRead i =>
      rcases Option.map_eq_some_iff.mp hs with ⟨⟨outcome, b⟩, hb, rfl⟩
      have hconnected := h.inv.busy (Blocks.busy_takeRead hb)
      obtain ⟨n, rfl, hgoing⟩ := (h.going hconnected).readDone hb
      have hcost : (b.readDone n).cost 8 + 1 ≤ s.cost 8 := h.inv.blocks.cost_readDone h.size hb
      obtain ⟨-, hsent, hsize⟩ := Blocks.takeRead_same hb
      obtain ⟨-, hsent', hsize'⟩ := b.readDone_same n
      refine h.of_blocks hconnected hinv (hsize'.trans hsize) hgoing ?_
      show (b.readDone n).cost 8 + 6 * (b.readDone n).sent.length + 1 ≤ _ + _ + 11 * 0
      rw [hsent', hsent]
      omega
  | handleWrite i =>
      rcases Option.map_eq_some_iff.mp hs with ⟨⟨outcome, b⟩, hb, rfl⟩
      have hconnected := h.inv.busy (Blocks.busy_takeWrite hb)
      obtain ⟨n, rfl, hgoing⟩ := (h.going hconnected).writeDone h.inv.blocks hb
      have hpos := h.inv.blocks.takeWrite_pos h.size hb
      have hcost : b.writeDone.cost 8 + 1 ≤ s.cost 8 := h.inv.blocks.cost_writeDone h.size hb
      obtain ⟨-, hsent, hsize⟩ := Blocks.takeWrite_same hb
      obtain ⟨-, hsent', hsize'⟩ := b.writeDone_same
      rw [ClientSession.handleWrite, if_pos hpos] at hinv ⊢
      refine h.of_blocks hconnected hinv (hsize'.trans hsize) hgoing ?_
      show b.writeDone.cost 8 + 6 * b.writeDone.sent.length + 1 ≤ _ + _ + 11 * 0
      rw [hsent', hsent]
      omega
  | closeSocket => cases ha

end ClientSession

/-! ## The server -/

namespace ServerSession

variable {s s' : ServerSession}

def Act.Smooth : Act → Prop
  | .start optionSet => optionSet = true
  | .transfer t => t.isFailure = false
  | .handleRead _ | .handleWrite _ | .destroy => True

instance : (a : Act) → Decidable a.Smooth
  | .start _ | .transfer _ => inferInstanceAs (Decidable (_ = _))
  | .handleRead _ | .handleWrite _ | .destroy => inferInstanceAs (Decidable True)

theorem transfer_of {t : Transfer} {b : Blocks} (h : s.toBlocks.transfer t = some b) :
    s.step (.transfer t) = some (s.withBlocks b) := by
  rw [ServerSession.step, h]
  rfl

theorem handleRead_of {i : Nat} {r : Option Nat × Blocks} (h : s.takeRead i = some r) :
    s.step (.handleRead i) = some ((s.withBlocks r.2).call (handleRead · r.1)) := by
  rw [ServerSession.step, h]
  rfl

theorem handleWrite_of {i : Nat} {r : Option Nat × Blocks} (h : s.takeWrite i = some r) :
    s.step (.handleWrite i) = some ((s.withBlocks r.2).call (handleWrite · r.1)) := by
  rw [ServerSession.step, h]
  rfl

structure Goes (s : ServerSession) : Prop where
  inv : s.Inv true
  size : 0 < s.blockSize
  going : s.started = true → s.Going

def work (s : ServerSession) : Nat :=
  if s.started = true then s.cost 3 else 1

theorem work_of_started (h : s.started = true) : s.work = s.cost 3 :=
  if_pos h

theorem not_isWriteFails_of_smooth {a : Act} (ha : a.Smooth) : a.isWriteFails = false := by
  cases a with
  | transfer t =>
      cases t with
      | writeFails i => cases ha
      | _ => rfl
  | _ => rfl

theorem Goes.inv_step (h : s.Goes) {a : Act} (ha : a.Smooth) (hs : s.step a = some s') :
    s'.Inv true := by
  have hinv := h.inv.step hs
  rwa [not_isWriteFails_of_smooth ha] at hinv

/-- The session is not deleted. -/
theorem Goes.posted (h : s.Goes) : s.posted = 0 := by
  cases hstarted : s.started with
  | true => exact (h.inv.busy (h.going hstarted).operations_pos).2.1
  | false =>
      have hlives := h.inv.lives
      rw [if_neg (by simp [hstarted])] at hlives
      omega

theorem Goes.step (h : s.Goes) {a : Act} (ha : a.Smooth) (hs : s.step a = some s') :
    s'.Goes ∧ s'.work + s'.sent.length + 1 ≤ s.work + s.sent.length + 6 * a.stores.length := by
  have hinv := h.inv_step ha hs
  have hblocks := toBlocks_step h.inv hs
  have hsize : 0 < s'.blockSize := by
    rw [(stream_step h.inv hs).2.2]
    exact h.size
  -- A session that goes on has started.
  have hgoes : s'.Going → s'.Goes ∧ s'.work = s'.cost 3 := by
    intro hgoing
    have hstarted := (hinv.busy hgoing.operations_pos).1
    exact ⟨⟨hinv, hsize, fun _ => hgoing⟩, work_of_started hstarted⟩
  cases a with
  | start optionSet =>
      cases ha
      have hblocks : s'.toBlocks = s.asyncReadSome := hblocks
      have hfresh : s.started = false := by
        rw [ServerSession.step] at hs
        split at hs
        · assumption
        · cases hs
      obtain ⟨hcount, hreads, hwrites, -⟩ := h.inv.fresh hfresh
      have hgoing : s'.Going := by
        rw [hblocks]
        exact Blocks.going_asyncReadSome hcount hreads hwrites
      refine ⟨(hgoes hgoing).1, ?_⟩
      rw [(hgoes hgoing).2, hblocks, Blocks.cost_asyncReadSome,
        Blocks.cost_of_idle hcount hreads hwrites, work, if_neg (by simp [hfresh])]
      show 0 + s.sent.length + 1 ≤ 1 + s.sent.length + 6 * 0
      omega
  | transfer t =>
      have hstarted := (h.inv.busy (Blocks.operations_transfer hblocks).2).1
      have hgoing : s'.Going := (h.going hstarted).transfer ha hblocks
      have hcost := h.inv.blocks.cost_transfer h.size (by decide : 1 < 3) ha hblocks
      refine ⟨(hgoes hgoing).1, ?_⟩
      rw [(hgoes hgoing).2, work_of_started hstarted]
      show _ + _ + 1 ≤ _ + _ + 6 * t.stores.length
      omega
  | handleRead i =>
      rcases hblocks with ⟨outcome, b, hb, hblocks⟩
      have hstarted := (h.inv.busy (Blocks.busy_takeRead hb)).1
      obtain ⟨n, rfl, hgoing⟩ := (h.going hstarted).readDone hb
      have hblocks : s'.toBlocks = b.readDone n := hblocks
      have hcost : (b.readDone n).cost 3 + 1 ≤ s.cost 3 := h.inv.blocks.cost_readDone h.size hb
      obtain ⟨-, hsent, -⟩ := Blocks.takeRead_same hb
      obtain ⟨-, hsent', -⟩ := b.readDone_same n
      rw [← hblocks] at hgoing
      refine ⟨(hgoes hgoing).1, ?_⟩
      rw [(hgoes hgoing).2, work_of_started hstarted, hblocks, hsent', hsent]
      omega
  | handleWrite i =>
      rcases hblocks with ⟨outcome, b, hb, hblocks⟩
      have hstarted := (h.inv.busy (Blocks.busy_takeWrite hb)).1
      obtain ⟨n, rfl, hgoing⟩ := (h.going hstarted).writeDone h.inv.blocks hb
      have hblocks : s'.toBlocks = b.writeDone := hblocks
      have hcost : b.writeDone.cost 3 + 1 ≤ s.cost 3 := h.inv.blocks.cost_writeDone h.size hb
      obtain ⟨-, hsent, -⟩ := Blocks.takeWrite_same hb
      obtain ⟨-, hsent', -⟩ := b.writeDone_same
      rw [← hblocks] at hgoing
      refine ⟨(hgoes hgoing).1, ?_⟩
      rw [(hgoes hgoing).2, work_of_started hstarted, hblocks, hsent', hsent]
      omega
  | destroy =>
      have hposted := h.posted
      rw [ServerSession.step] at hs
      split at hs
      · omega
      · cases hs

end ServerSession

/-! ## Both -/

namespace System

variable {Endpoint : Type} {s s' : System Endpoint} {size serverSize : Nat}

def Act.Smooth : Act → Prop
  | .client a => a.Smooth
  | .server a => a.Smooth

instance : (a : Act) → Decidable a.Smooth
  | .client a => inferInstanceAs (Decidable a.Smooth)
  | .server a => inferInstanceAs (Decidable a.Smooth)

/-- The bytes that a step brings back to the client. -/
def Act.back : Act → List Byte
  | .client a => a.stores
  | .server _ => []

structure Goes (size : Nat) (s : System Endpoint) : Prop where
  linked : Linked size true true s
  client : s.client.Goes
  server : s.server.Goes

/-- What is left to do until every byte is with the client again. -/
def work (s : System Endpoint) : Nat :=
  s.client.work + 6 * s.toServer.length + s.server.work + s.toClient.length

theorem length_drop_prefix {xs ys : List Byte} (h : xs <+: ys) :
    (ys.drop xs.length).length + xs.length = ys.length := by
  have hle := h.length_le
  rw [List.length_drop]
  omega

theorem Goes.step (h : Goes size s) {a : Act} (ha : a.Smooth) (hs : s.step a = some s') :
    Goes size s' ∧ s'.work + 1 ≤ s.work + 10 * a.back.length := by
  cases a with
  | client a =>
      have hlinked := h.linked.client_step hs
      rw [ClientSession.not_isWriteFails_of_smooth ha] at hlinked
      rcases step_client hs with ⟨hstores, client, hclient, rfl⟩
      obtain ⟨hgoes, hwork⟩ := h.client.step ha hclient
      have hin := length_drop_prefix hstores
      have hout := length_drop_prefix (ClientSession.stream_step hclient).2.1
      refine ⟨⟨hlinked, hgoes, h.server⟩, ?_⟩
      show client.work + 6 * (s.toServer ++ client.sent.drop s.client.sent.length).length +
        s.server.work + (s.toClient.drop a.stores.length).length + 1 ≤
        s.client.work + 6 * s.toServer.length + s.server.work + s.toClient.length +
          10 * a.stores.length
      rw [List.length_append]
      omega
  | server a =>
      have hlinked := h.linked.server_step hs
      rw [ServerSession.not_isWriteFails_of_smooth ha] at hlinked
      rcases step_server hs with ⟨hstores, server, hserver, rfl⟩
      obtain ⟨hgoes, hwork⟩ := h.server.step ha hserver
      have hin := length_drop_prefix hstores
      have hout := length_drop_prefix (ServerSession.stream_step h.server.inv hserver).2.1
      refine ⟨⟨hlinked, h.client, hgoes⟩, ?_⟩
      show s.client.work + 6 * (s.toServer.drop a.stores.length).length + server.work +
        (s.toClient ++ server.sent.drop s.server.sent.length).length + 1 ≤
        s.client.work + 6 * s.toServer.length + s.server.work + s.toClient.length + 10 * 0
      rw [List.length_append]
      omega

/-! ### Who can take a step -/

theorem step_client_of {a : ClientSession.Act} {client : ClientSession Endpoint}
    (hstores : a.stores <+: s.toClient) (h : s.client.step a = some client) :
    s.step (.client a) = some { s with
      client
      toClient := s.toClient.drop a.stores.length
      toServer := s.toServer ++ client.sent.drop s.client.sent.length } := by
  rw [step, if_pos hstores, h]
  rfl

theorem step_server_of {a : ServerSession.Act} {server : ServerSession}
    (hstores : a.stores <+: s.toServer) (h : s.server.step a = some server) :
    s.step (.server a) = some { s with
      server
      toServer := s.toServer.drop a.stores.length
      toClient := s.toClient ++ server.sent.drop s.server.sent.length } := by
  rw [step, if_pos hstores, h]
  rfl

/-- Either the client can take a step, or it has nothing and there is nothing to read. -/
theorem client_goes_on (h : s.client.Goes) :
    (∃ a s', a.Smooth ∧ s.step (.client a) = some s') ∨
      s.client.connected = true ∧ s.client.waiting = [] ∧ s.toClient = [] := by
  cases hconnected : s.client.connected with
  | false =>
      have hclient : s.client.step (.handleConnect false true) =
          some (s.client.handleConnect false true) := by
        rw [ClientSession.step, if_pos (h.connecting hconnected)]
      exact Or.inl
        ⟨.handleConnect false true, _, ⟨rfl, rfl⟩, step_client_of List.nil_prefix hclient⟩
  | true =>
  have hcan := (h.going hconnected).exists_step h.inv.blocks h.size
  rcases hcan with ⟨b, hb⟩ | ⟨r, hr⟩ | ⟨r, hr⟩ | ⟨hnone, hread⟩
  · have hclient := ClientSession.transfer_of h.closed hb
    exact Or.inl ⟨.transfer (.writeSome 0 1), _, rfl, step_client_of List.nil_prefix hclient⟩
  · have hclient := ClientSession.handleWrite_of hr
    exact Or.inl ⟨.handleWrite 0, _, trivial, step_client_of List.nil_prefix hclient⟩
  · have hclient := ClientSession.handleRead_of hr
    exact Or.inl ⟨.handleRead 0, _, trivial, step_client_of List.nil_prefix hclient⟩
  · rcases hbytes : s.toClient with _ | ⟨byte, bytes⟩
    · exact Or.inr ⟨rfl, hnone, rfl⟩
    · rcases hread byte with ⟨b, hb⟩
      have hclient := ClientSession.transfer_of h.closed hb
      exact Or.inl ⟨.transfer (.readSome 0 [byte]), _, rfl,
        step_client_of ⟨bytes, hbytes.symm⟩ hclient⟩

/-- And so can the server. -/
theorem server_goes_on (h : s.server.Goes) :
    (∃ a s', a.Smooth ∧ s.step (.server a) = some s') ∨
      s.server.waiting = [] ∧ s.toServer = [] := by
  cases hstarted : s.server.started with
  | false =>
      have hserver : s.server.step (.start true) = some (s.server.start true) := by
        rw [ServerSession.step, if_pos hstarted]
      exact Or.inl ⟨.start true, _, rfl, step_server_of List.nil_prefix hserver⟩
  | true =>
  have hcan := (h.going hstarted).exists_step h.inv.blocks h.size
  rcases hcan with ⟨b, hb⟩ | ⟨r, hr⟩ | ⟨r, hr⟩ | ⟨hnone, hread⟩
  · have hserver := ServerSession.transfer_of hb
    exact Or.inl ⟨.transfer (.writeSome 0 1), _, rfl, step_server_of List.nil_prefix hserver⟩
  · have hserver := ServerSession.handleWrite_of hr
    exact Or.inl ⟨.handleWrite 0, _, trivial, step_server_of List.nil_prefix hserver⟩
  · have hserver := ServerSession.handleRead_of hr
    exact Or.inl ⟨.handleRead 0, _, trivial, step_server_of List.nil_prefix hserver⟩
  · rcases hbytes : s.toServer with _ | ⟨byte, bytes⟩
    · exact Or.inr ⟨hnone, rfl⟩
    · rcases hread byte with ⟨b, hb⟩
      have hserver := ServerSession.transfer_of hb
      exact Or.inl ⟨.transfer (.readSome 0 [byte]), _, rfl,
        step_server_of ⟨bytes, hbytes.symm⟩ hserver⟩

theorem Goes.exists_step (h : Goes size s) : ∃ a s', a.Smooth ∧ s.step a = some s' := by
  rcases client_goes_on h.client with ⟨a, s', ha, hs⟩ | ⟨hconnected, hnone, hclientBytes⟩
  · exact ⟨.client a, s', ha, hs⟩
  rcases server_goes_on h.server with ⟨a, s', ha, hs⟩ | ⟨hnone', hserverBytes⟩
  · exact ⟨.server a, s', ha, hs⟩
  -- Neither of them has a byte, and none is in between.
  have hall := h.linked.conserved
  rw [if_pos hconnected, hnone, hnone', hclientBytes, hserverBytes] at hall
  have hsize := h.client.size
  rw [h.linked.blockSize] at hsize
  simp only [List.length_nil] at hall
  omega

/-! ### Runs -/

variable {memory : Vector Byte size} {serverMemory : Block → Vector Byte serverSize}
  {endpoint : Endpoint} {rest : List Endpoint} {as : List Act}

theorem goes_construct (hsize : 0 < size) (hserverSize : 0 < serverSize) :
    Goes size (construct memory serverMemory endpoint rest) where
  linked := linked_construct memory serverMemory endpoint rest
  client :=
    { inv := ClientSession.inv_start memory endpoint rest
      size := hsize
      closed := rfl
      connecting := fun _ => rfl
      going := nofun }
  server :=
    { inv := ServerSession.inv_construct serverMemory
      size := hserverSize
      going := nofun }

/-- As long as nothing fails, the two programs are never stuck: a step can be taken in which nothing
fails. -/
theorem goes_on (hsize : 0 < size) (hserverSize : 0 < serverSize) (hsmooth : ∀ a ∈ as, a.Smooth)
    (hrun : run step (construct memory serverMemory endpoint rest) as = some s) :
    ∃ a s', a.Smooth ∧ s.step a = some s' := by
  have hgoes : Goes size s :=
    invariant_along (fun _ _ _ h ha hs => (h.step ha hs).1) (goes_construct hsize hserverSize)
      (along_of_forall_mem hsmooth _) hrun
  exact hgoes.exists_step

theorem goes_on_firstByte :
    ∃ s, run step (construct (Vector.replicate 2 0) (fun _ => Vector.replicate 1 0) 1 [])
        firstByte = some s ∧ s.client.received.length = 1 ∧ ∃ a s', a.Smooth ∧ s.step a = some s' := by
  have hany : (run step (construct (Vector.replicate 2 0) (fun _ => Vector.replicate 1 0) 1 [])
      firstByte).any (fun s => decide (s.client.received.length = 1)) = true := by
    decide +kernel
  rcases exists_run_of_any hany with ⟨s, hrun, hlength⟩
  exact ⟨s, hrun, hlength, goes_on (by decide) (by decide) (by decide) hrun⟩

theorem received_step {a : Act} (hs : s.step a = some s') :
    s'.client.received = s.client.received ++ a.back := by
  cases a with
  | client a =>
      rcases step_client hs with ⟨-, client, hclient, rfl⟩
      exact (ClientSession.stream_step hclient).1
  | server a =>
      rcases step_server hs with ⟨-, server, -, rfl⟩
      exact (List.append_nil _).symm

/-- And they get on: a byte that comes back to the client has cost at most ten steps, and the bytes
that have not come back at most eight for each byte of the block, and three more. -/
theorem steps_le (hsize : 0 < size) (hserverSize : 0 < serverSize) (hsmooth : ∀ a ∈ as, a.Smooth)
    (hrun : run step (construct memory serverMemory endpoint rest) as = some s) :
    as.length ≤ 10 * s.client.received.length + 8 * size + 3 := by
  have hreceived : s.client.received = as.flatMap Act.back :=
    view_run (I := fun _ => True) (fun s : System Endpoint => s.client.received) Act.back
      (fun _ _ _ _ hs => ⟨trivial, received_step hs⟩) trivial hrun
  have hstep : ∀ (s : System Endpoint) a s', Goes size s →
      (if a.Smooth then s.step a else none) = some s' →
        Goes size s' ∧ s'.work + 1 ≤ s.work + 10 * a.back.length := by
    intro s a s' h hs
    split at hs
    · next ha => exact h.step ha hs
    · cases hs
  rw [← run_restrict hsmooth] at hrun
  have hpaid := potential_run work (fun _ => 1) (fun a => 10 * a.back.length) hstep
    (goes_construct hsize hserverSize) hrun
  have hstart : (construct memory serverMemory endpoint rest).work = 8 * size + 3 := rfl
  rw [hstart, List.map_const', List.sum_replicate_nat, List.sum_map_mul_left] at hpaid
  rw [hreceived, List.length_flatMap]
  omega

theorem steps_le_firstByte :
    ∃ s, run step (construct (Vector.replicate 2 0) (fun _ => Vector.replicate 1 0) 1 [])
        firstByte = some s ∧ s.client.received.length = 1 ∧
      firstByte.length ≤ 10 * s.client.received.length + 8 * 2 + 3 := by
  have hany : (run step (construct (Vector.replicate 2 0) (fun _ => Vector.replicate 1 0) 1 [])
      firstByte).any (fun s => decide (s.client.received.length = 1)) = true := by
    decide
  rcases exists_run_of_any hany with ⟨s, hrun, hlength⟩
  exact ⟨s, hrun, hlength, steps_le (by decide) (by decide) (by decide) hrun⟩

end System

end PingPong
end Example
end Muradin
