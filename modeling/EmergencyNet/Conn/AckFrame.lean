import EmergencyNet.Conn.Moves

/-!
# What an acknowledgement frame touches

An acknowledgement should concern the data packet it acknowledges and nothing else.  The
receive functions look for the first queued packet with the acknowledged pair, whatever its
type; a pending acknowledgement or a time synchronisation packet with the same pair stands
in front of the data packet or is taken in its place.

## Main definitions

* `PacketBuffer.AckTouchesOnly` — an acknowledgement touched only the packet it acknowledges.
* `PacketBuffer.AckFindsData` — the packet found is of the right type, or nothing depends
  on it.

## Main results

* `ackTouchesOnly_iff` — **an acknowledgement frame touches only the packet it acknowledges
  exactly when the packet found is of the right type or nothing depends on it.**
* `not_ackTouchesOnly_pendingAck` — a run in which a pending acknowledgement is freed instead.
-/

namespace EmergencyNet

namespace PacketBuffer

variable {pb pb' : PacketBuffer} {t : MsgType} {hdr : Header} {i j : ℕ}

/-- `pb'` is `pb` after the sender of `hdr` has acknowledged a packet of list `t` with the
pair of `hdr`; `pb` itself when there is none. -/
def AckTouchesOnly (t : MsgType) (hdr : Header) (pb pb' : PacketBuffer) : Prop :=
  (∃ i ∈ pb.prioHeads t, originatorSeqnoCmp hdr (pb.item i).p = true ∧
    pb' = pb.acked i hdr.sender) ∨
  (∀ i ∈ pb.prioHeads t, originatorSeqnoCmp hdr (pb.item i).p = false) ∧ pb' = pb

/-- Nothing depends on whether the packet in slot `j` is found in place of one of list `t`: the
acknowledgement would leave both as they are. -/
def NothingDepends (t : MsgType) (hdr : Header) (pb : PacketBuffer) (j : ℕ) : Prop :=
  pb.Unmoved j hdr.sender ∧
    ((∀ i ∈ pb.prioHeads t, originatorSeqnoCmp hdr (pb.item i).p = false) ∨
      ∃ i ∈ pb.prioHeads t, originatorSeqnoCmp hdr (pb.item i).p = true ∧
        pb.Unmoved i hdr.sender)

/-- The first queued packet with the acknowledged pair is on list `t`, or nothing depends on
it. -/
def AckFindsData (t : MsgType) (hdr : Header) (pb : PacketBuffer) : Prop :=
  ∀ j, pb.find (originatorSeqnoCmp hdr) = some j → j ∈ pb.prioHeads t ∨ pb.NothingDepends t hdr j

/-- An acknowledgement that finds no packet touches none. -/
theorem ackTouchesOnly_of_find_none (h : pb.find (originatorSeqnoCmp hdr) = none) :
    pb.AckTouchesOnly t hdr pb :=
  .inr ⟨find_eq_none.mp h t, rfl⟩

/-- **The packet found is touched in place of the right one exactly when something depends on
it.** -/
theorem ackTouchesOnly_acked (h : pb.find (originatorSeqnoCmp hdr) = some j) :
    pb.AckTouchesOnly t hdr (pb.acked j hdr.sender) ↔
      j ∈ pb.prioHeads t ∨ pb.NothingDepends t hdr j := by
  obtain ⟨⟨t', ht'⟩, hcmp⟩ := mem_of_find h
  constructor
  · rintro (⟨i, hi, hcmpi, heq⟩ | ⟨hnone, heq⟩)
    · by_cases hji : j = i
      · exact .inl (hji ▸ hi)
      · obtain ⟨hj, hi'⟩ := (acked_eq_acked hi ht' hji).mp heq
        exact .inr ⟨hj, .inr ⟨i, hi, hcmpi, hi'⟩⟩
    · exact .inr ⟨(acked_eq_self ht').mp heq, .inl hnone⟩
  · rintro (hj | ⟨hj, hnone | ⟨i, hi, hcmpi, hi'⟩⟩)
    · exact .inl ⟨j, hj, hcmp, rfl⟩
    · exact .inr ⟨hnone, acked_of_unmoved hj⟩
    · exact .inl ⟨i, hi, hcmpi, by rw [acked_of_unmoved hj, acked_of_unmoved hi']⟩

end PacketBuffer

namespace EcNode

variable {σ : Type*} {cb : EcCallbacks σ} {s : EcNode σ} {pb : Packetbuf} {a : Arrival}
  {c : Ec} {t : MsgType} {hdr : Header}

/-- The branch for acknowledgements touches only the packet that is acknowledged exactly when
it finds it. -/
theorem ackTouchesOnly_ackRecv (timer : Timer) :
    c.sq.AckTouchesOnly t hdr (ackRecv timer hdr c).sq ↔ c.sq.AckFindsData t hdr := by
  obtain ⟨hnone, heq⟩ | ⟨j, hsome, hsq, -⟩ := ackRecv_cases timer hdr c
  · rw [heq]
    refine ⟨fun _ j hj => ?_, fun _ => PacketBuffer.ackTouchesOnly_of_find_none hnone⟩
    rw [hnone] at hj
    cases hj
  · rw [hsq, PacketBuffer.ackTouchesOnly_acked hsome]
    refine ⟨fun h j' hj' => ?_, fun h => h j hsome⟩
    rw [hsome] at hj'
    cases hj'
    exact h

theorem neighborRecv_ack {ns : NeighborSet} (ha : receivePacket (cb.addr s.app) pb = some a)
    (hfor : a.isForUs = true) (hns : cb.ns s.app = some ns) (hsender : pb.p.hdr.sender ∈ ns.addrs)
    (hack : pb.p.hdr.isPacketFlagSet PacketFlags.ack = true) :
    s.neighborRecv cb pb = .ok (s.onConn (ackRecv .neighborData pb.p.hdr)) := by
  simp only [neighborRecv, ha, hfor, hns, hsender, hack, if_true]

theorem broadcastRecv_ack (ha : receivePacket (cb.addr s.app) pb = some a)
    (hfor : a.isForUs = true) (hack : pb.p.hdr.isPacketFlagSet PacketFlags.ack = true) :
    s.broadcastRecv cb pb = .ok (s.onConn (ackRecv .multicastUnicastData pb.p.hdr)) := by
  simp only [broadcastRecv, ha, hfor, hack, if_true]

/-- **An acknowledgement frame touches only the packet it acknowledges exactly when the packet
found is of the right type or nothing depends on it**, on either channel. -/
theorem ackTouchesOnly_iff (ha : receivePacket (cb.addr s.app) pb = some a)
    (hfor : a.isForUs = true) (hack : pb.p.hdr.isPacketFlagSet PacketFlags.ack = true) :
    (∀ ns, cb.ns s.app = some ns → pb.p.hdr.sender ∈ ns.addrs →
      ((∃ s', s.neighborRecv cb pb = .ok s' ∧
        s.conn.sq.AckTouchesOnly .neighborData pb.p.hdr s'.conn.sq) ↔
          s.conn.sq.AckFindsData .neighborData pb.p.hdr)) ∧
    ((∃ s', s.broadcastRecv cb pb = .ok s' ∧
        s.conn.sq.AckTouchesOnly .multicastUnicastData pb.p.hdr s'.conn.sq) ↔
          s.conn.sq.AckFindsData .multicastUnicastData pb.p.hdr) := by
  constructor
  · intro ns hns hsender
    rw [neighborRecv_ack ha hfor hns hsender hack]
    simp only [Except.ok.injEq, exists_eq_left']
    exact ackTouchesOnly_ackRecv .neighborData
  · rw [broadcastRecv_ack ha hfor hack]
    simp only [Except.ok.injEq, exists_eq_left']
    exact ackTouchesOnly_ackRecv .multicastUnicastData

/-! ### A pending acknowledgement in front of the data -/

/-- Node `1.0` with the one neighbour `2.0`. -/
def pairApp : Application Unit (List Effect) := .scripted ⟨1, 0⟩ (.single ⟨2, 0⟩)

/-- Node `1.0` forwards packet 5 of node `9.0`, and its neighbour `2.0` forwards it, too. -/
def forwardRun : List (NodeEvent (List Effect)) :=
  [.process [.call (.reliableBroadcastNs (some (.single ⟨2, 0⟩)) ⟨⟨9, 0⟩, ⟨1, 0⟩, 1, 5, []⟩)],
    .receive .neighbor ((Frame.mk (initBroadcastPacket 0 1 ⟨9, 0⟩ ⟨2, 0⟩ 5) []).received [])]

/-- The acknowledgement of neighbour `2.0`. -/
def forwardAck : Packetbuf :=
  (Frame.mk (initUnicastPacket PacketFlags.ack 0 ⟨9, 0⟩ ⟨2, 0⟩ 5) (unicastBody ⟨1, 0⟩ [])).received []

/-- The node after the run, and after the acknowledgement. -/
theorem run_forward : ∃ s s' : EcNode Unit,
    Machine.run (advance pairApp) forwardRun ⟨.opened, ()⟩ = some s ∧
      s.neighborRecv pairApp.toEcCallbacks forwardAck = .ok s' ∧
      s.conn.sq.prioHeads .neighborAck = [1] ∧ s.conn.sq.prioHeads .neighborData = [0] ∧
      s'.conn.sq.prioHeads .neighborAck = [] := by
  have h : ((Machine.run (advance pairApp) forwardRun (⟨.opened, ()⟩ : EcNode Unit)).bind fun s =>
      (s.neighborRecv pairApp.toEcCallbacks forwardAck).toOption.map fun s' =>
        (s.conn.sq.prioHeads .neighborAck, s.conn.sq.prioHeads .neighborData,
          s'.conn.sq.prioHeads .neighborAck)) = some ([1], [0], []) := by decide +kernel
  obtain ⟨s, hrun, h⟩ := Option.bind_eq_some_iff.mp h
  obtain ⟨s', hrecv, h⟩ := Option.map_eq_some_iff.mp h
  simp only [Prod.mk.injEq] at h
  exact ⟨s, s', hrun, toOption_eq_some.mp hrecv, h⟩

/-- **An acknowledgement can free a pending acknowledgement instead of the packet it
acknowledges.** -/
theorem not_ackTouchesOnly_pendingAck : ∃ s s' : EcNode Unit,
    (connMachine pairApp).Reachable s ∧ s.neighborRecv pairApp.toEcCallbacks forwardAck = .ok s' ∧
      ¬ s.conn.sq.AckTouchesOnly .neighborData forwardAck.p.hdr s'.conn.sq := by
  obtain ⟨s, s', hrun, hrecv, hack, hdata, hack'⟩ := run_forward
  refine ⟨s, s', connMachine_reachable_of_run rfl hrun, hrecv, ?_⟩
  rintro (⟨i, hi, -, heq⟩ | ⟨-, heq⟩)
  · rw [hdata, List.mem_singleton] at hi
    have hmem : 1 ∈ (s.conn.sq.acked i forwardAck.p.hdr.sender).prioHeads .neighborAck := by
      rw [PacketBuffer.mem_acked, hack, hi]
      exact ⟨List.mem_singleton.mpr rfl, fun h => absurd h (by decide)⟩
    rw [← heq, hack'] at hmem
    cases hmem
  · rw [heq, hack] at hack'
    cases hack'

/-- Before the neighbour has forwarded the packet, its acknowledgement finds the data. -/
theorem ackTouchesOnly_forward : ∃ s s' : EcNode Unit,
    (connMachine pairApp).Reachable s ∧ s.neighborRecv pairApp.toEcCallbacks forwardAck = .ok s' ∧
      s.conn.sq.AckTouchesOnly .neighborData forwardAck.p.hdr s'.conn.sq := by
  have h : ((Machine.run (advance pairApp) (forwardRun.take 1) (⟨.opened, ()⟩ : EcNode Unit)).map
      fun s => (s.conn.sq.find (originatorSeqnoCmp forwardAck.p.hdr),
        s.conn.sq.prioHeads .neighborData)) = some (some 0, [0]) := by decide +kernel
  obtain ⟨s, hrun, h⟩ := Option.map_eq_some_iff.mp h
  simp only [Prod.mk.injEq] at h
  obtain ⟨hfind, hdata⟩ := h
  have hfinds : s.conn.sq.AckFindsData .neighborData forwardAck.p.hdr := by
    intro j hj
    rw [hfind, Option.some.injEq] at hj
    rw [hdata, ← hj]
    exact .inl List.mem_cons_self
  have harrive : receivePacket ⟨1, 0⟩ forwardAck = some ⟨true, false, true, [], 0⟩ := by
    decide +kernel
  have hrecv : receivePacket (pairApp.addr s.app) forwardAck = _ := harrive
  have hiff := ackTouchesOnly_iff hrecv rfl (by decide)
  obtain ⟨s', hs', htouch⟩ :=
    (hiff.1 (.single ⟨2, 0⟩) rfl (List.mem_singleton.mpr rfl)).mpr hfinds
  exact ⟨s, s', connMachine_reachable_of_run rfl hrun, hs', htouch⟩

end EcNode

end EmergencyNet
