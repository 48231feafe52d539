import EmergencyNet.Net.PacketQueues

/-!
# Enqueuing on a full buffer

`allocate_buffered_packet` hands the slot it gets to `add_buffered_packet_tail` without a look
at it, and that function writes to the slot first of all.  So the functions that enqueue a
packet never come to their own test of whether there was a slot.

## Main definitions

* `NewPacket` — the arguments of the functions that enqueue a packet.
* `LinkedPackets.HasLists` — the packets the seven lists lead to.
* `LinkedPackets.EnqueuesCleanly` — what such a call should do, with and without a free slot.

## Main results

* `LinkedPackets.holdsLists_of_reachable` — after every sequence of calls the memory holds
  seven lists, also when `packet_buffer_init` has left used slots on none.
* `LinkedPackets.enqueuesCleanly_iff` — **a packet is enqueued as it should be if and only if a
  slot is free and the packet fits into it.**
-/

namespace EmergencyNet

/-- What a function that enqueues a packet is given, next to the size of the header and to
`fields`, which stand between the header proper and the data. -/
structure NewPacket where
  hdrSize : ℕ
  hdr : Header
  fields : List UInt8
  data : List UInt8
  ns : Option NeighborSet
  t : MsgType

/-- The packet a call enqueues, if it is `packet_buffer_packet`,
`packet_buffer_broadcast_packet` or `packet_buffer_unicast_packet`. -/
def PacketOp.newPacket : PacketOp → Option NewPacket
  | .packet hdr data ns t | .broadcastPacket hdr data ns t =>
    some ⟨broadcastPacketHdrSize, hdr, [], data, ns, t⟩
  | .unicastPacket hdr destination data ns t =>
    some ⟨unicastPacketHdrSize, hdr, destination.bytes, data, ns, t⟩
  | _ => none

/-- The packet in a slot is the new one. -/
structure NewPacket.Is (x : NewPacket) (bp : BufferedPacket) : Prop where
  hdr : bp.p.hdr = x.hdr
  payload : memRead bp.p.data (x.fields ++ x.data).length = x.fields ++ x.data
  dataLen : bp.dataLen.toNat = x.data.length
  timesSent : bp.timesSent = 0
  unackedNs : ∀ ns, x.ns = some ns → bp.unackedNs.addrs.Perm ns.addrs

theorem NewPacket.is_written (x : NewPacket) (old : BufferedPacket)
    (hlen : x.hdrSize + x.data.length < maxPacketSize) :
    x.Is (PacketBuffer.written x.hdr x.fields x.data x.ns old) where
  hdr := rfl
  payload := memRead_memWrite _ _
  dataLen := by
    unfold maxPacketSize at hlen
    show (UInt8.ofNat x.data.length).toNat = _
    rw [UInt8.toNat_ofNat']
    omega
  timesSent := rfl
  unackedNs := by
    intro ns hns
    unfold PacketBuffer.written
    rw [hns]
    exact ns.addrs.reverse_perm

namespace LinkedPackets

section Calls

variable {n : ℕ} {m m' : LinkedPackets} {q : QueueBuffer LinkedPacket n}
  {heads : MsgType → List ℕ} {content : ℕ → BufferedPacket} {i : ℕ} {op : PacketOp}

/-! ### The functions that enqueue a packet -/

/-- The three functions are one, on their arguments. -/
theorem run_eq_put {x : NewPacket} (hx : op.newPacket = some x) (m : LinkedPackets) :
    op.run m = (m.put x.hdrSize x.hdr x.fields x.data x.ns x.t).map
      fun r => (.handle (some r.1), r.2) := by
  cases op <;> cases hx <;> rfl

/-- Without a free slot the call does not come to an end: the write to the slot goes through a
`NULL` pointer. -/
theorem put_of_full (hfull : m.buffer.unusedHead = none) {hdrSize : ℕ} {hdr : Header}
    {fields data : List UInt8} {ns : Option NeighborSet} {t : MsgType} :
    m.put hdrSize hdr fields data ns t = none := by
  have halloc : m.buffer.allocFront = some (none, m.buffer) := by
    rw [LinkedQueue.allocFront, LinkedQueue.allocateBufferSpaceFront, hfull]
  rw [put, allocateBufferedPacket, halloc]
  rfl

/-- A packet that is too large fails the assertion on its size. -/
theorem put_of_too_large {hdrSize : ℕ} {hdr : Header} {fields data : List UInt8}
    {ns : Option NeighborSet} {t : MsgType} (hlen : maxPacketSize ≤ hdrSize + data.length) :
    m.put hdrSize hdr fields data ns t = none := by
  simp only [put, if_neg (not_lt.mpr hlen), Option.bind_eq_none_iff]
  exact fun _ _ _ _ => trivial

/-! ### All sequences of calls -/

/-- A packet on a list has its place there. -/
theorem HoldsLists.has (h : m.HoldsLists q heads content) (hi : m.Has i) :
    ∃ t l₁ l₂, heads t = l₁ ++ i :: l₂ := by
  obtain ⟨t, l, hl, hi⟩ := hi
  rw [hl.unique (h.lists t)] at hi
  exact ⟨t, List.append_of_mem hi⟩

/-- `packet_buffer_init` drops all packets, and leaves their slots in use. -/
theorem HoldsLists.init (h : m.HoldsLists q heads content) :
    m.init.HoldsLists q (fun _ => []) content := ⟨h.pool, fun _ => rfl, Apart.nil, h.shows⟩

/-- The memory holds seven lists of packets in slots that are in use. -/
def Sound (m : LinkedPackets) : Prop :=
  ∃ n, ∃ q : QueueBuffer LinkedPacket n, ∃ heads content, m.HoldsLists q heads content

/-- What enqueuing does to the lists. -/
theorem HoldsLists.enqueue (h : m.HoldsLists q heads content) {x : NewPacket}
    (hx : op.newPacket = some x) (hroom : m.buffer.unusedHead ≠ none)
    (hlen : x.hdrSize + x.data.length < maxPacketSize) :
    ∃ s m' q', op.run m = some (.handle (some s), m') ∧ (∀ t, s ∉ heads t) ∧
      q'.used = s :: q.used ∧
      m'.HoldsLists (n := n) q' (addTail heads x.t s) (Function.update content s
        (PacketBuffer.written x.hdr x.fields x.data x.ns (content s))) := by
  have hunused : q.unused ≠ [] := fun hnil => hroom (h.pool.unusedHead_eq_none.mpr hnil)
  obtain ⟨s, m', q', hrun, hfresh, -, hused, hlists⟩ := h.put x.hdr x.fields x.ns x.t hunused hlen
  refine ⟨s, m', q', ?_, fun t hmem => hfresh (h.mem_used hmem), hused, hlists⟩
  rw [run_eq_put hx, hrun, Option.map_some]

/-- **Every call that may be made keeps the seven lists.** -/
theorem Sound.step (h : m.Sound) (hstep : packetMachine.step op m m') : m'.Sound := by
  obtain ⟨n, q, heads, content, h⟩ := h
  obtain ⟨hop, r, hrun⟩ := hstep
  -- the three functions that enqueue, which `Allows` calls with a free slot only
  have hput : ∀ x : NewPacket, op.newPacket = some x → m.buffer.unusedHead ≠ none →
      x.hdrSize + x.data.length < maxPacketSize → m'.Sound := by
    intro x hx hroom hlen
    obtain ⟨s, m₁, q', hput, -, -, hlists⟩ := h.enqueue hx hroom hlen
    cases hput.symm.trans hrun
    exact ⟨n, q', _, _, hlists⟩
  cases op with
  | init =>
    cases hrun
    exact ⟨n, q, _, content, h.init⟩
  | initWithStruct numPackets =>
    obtain ⟨m₁, q', hinit, href⟩ := refines_initWithStruct numPackets h.shows
    rw [PacketOp.run, hinit] at hrun
    cases hrun
    exact ⟨_, q', _, content, href.holdsLists⟩
  | packet hdr data ns t | broadcastPacket hdr data ns t =>
    exact hput ⟨broadcastPacketHdrSize, hdr, [], data, ns, t⟩ rfl hop.1 hop.2
  | unicastPacket hdr destination data ns t =>
    exact hput ⟨unicastPacketHdrSize, hdr, destination.bytes, data, ns, t⟩ rfl hop.1 hop.2
  | hasRoomForPackets numPackets | getFirstPacketFromType t | numUnackedNeighbors bp
  | allNeighborsAcked bp =>
    cases hrun
    exact ⟨n, q, heads, content, h⟩
  | findBufferedPacket comparer =>
    rw [PacketOp.run, h.find] at hrun
    cases hrun
    exact ⟨n, q, heads, content, h⟩
  | clearPriority t =>
    obtain ⟨m₁, q', hclear, -, hlists⟩ := h.clearPriority t
    rw [PacketOp.run, hclear] at hrun
    cases hrun
    exact ⟨n, q', _, content, hlists⟩
  | free bp =>
    obtain ⟨t, l₁, l₂, hi⟩ := h.has hop
    obtain ⟨m₁, q', hfree, -, -, hlists⟩ := h.free hi
    rw [PacketOp.run, hfree] at hrun
    cases hrun
    exact ⟨n, q', _, content, hlists⟩
  | neighborAcked bp addr =>
    obtain ⟨m₁, q', hacked, hlists⟩ := h.onPacket ((h.shows bp).neighborAcked addr)
    rw [PacketOp.run, hacked] at hrun
    cases hrun
    exact ⟨n, q', heads, _, hlists⟩
  | unackedNeighbors bp =>
    rw [PacketOp.run, (h.shows bp).unackedNeighbors] at hrun
    cases hrun
    exact ⟨n, q, heads, content, h⟩
  | incrementTimesSent bp =>
    obtain ⟨m₁, q', hincremented, hlists⟩ := h.onPacket (f := fun x => some x.incrementTimesSent)
      ⟨_, rfl, rfl, (h.shows bp).incrementTimesSent⟩
    rw [PacketOp.run, hincremented] at hrun
    cases hrun
    exact ⟨n, q', heads, _, hlists⟩

/-- After every sequence of calls the memory holds seven lists of packets. -/
theorem holdsLists_of_reachable (h : packetMachine.Reachable m) : m.Sound := by
  refine h.invariant (I := Sound) ?_ fun m op m' hm _ hstep => hm.step hstep
  rintro m ⟨numPackets, m₀, hshows, hm⟩
  choose content hcontent using hshows
  obtain ⟨m₁, q, hinit, href⟩ := refines_initWithStruct numPackets hcontent
  cases hm.symm.trans hinit
  exact ⟨_, q, _, content, href.holdsLists⟩

/-! ### What enqueuing should do -/

/-- The lists of the seven types lead through the slots `heads`, which hold the packets
`content`. -/
def HasLists (m : LinkedPackets) (heads : MsgType → List ℕ) (content : ℕ → BufferedPacket) : Prop :=
  ∀ t, LinkedFrom m.link (m.prioHeads t) (heads t) ∧ ∀ i ∈ heads t, (m.item i).Shows (content i)

/-- What a call that enqueues a packet should do: when all slots are in use, return `NULL` and
change nothing; otherwise put the packet last on its list, in a slot that was on no list, and
leave the packets on the lists as they are. -/
def EnqueuesCleanly (m : LinkedPackets) (op : PacketOp) (x : NewPacket) : Prop :=
  if m.buffer.unusedHead = none then op.run m = some (.handle none, m)
  else ∃ s m', op.run m = some (.handle (some s), m') ∧
    m'.buffer.size.toNat = m.buffer.size.toNat + 1 ∧
    ∀ heads content, m.HasLists heads content → (∀ t, s ∉ heads t) ∧
      ∃ bp, x.Is bp ∧ m'.HasLists (addTail heads x.t s) (Function.update content s bp)

theorem HoldsLists.hasLists (h : m.HoldsLists q heads content) : m.HasLists heads content :=
  fun t => ⟨h.lists t, fun i _ => h.shows i⟩

/-- Packets on the lists may be shown by other contents; those of the other slots stay. -/
theorem HoldsLists.of_hasLists (h : m.HoldsLists q heads content)
    {heads' : MsgType → List ℕ} {content' : ℕ → BufferedPacket} (h' : m.HasLists heads' content') :
    heads' = heads ∧ ∃ content₁, m.HoldsLists q heads content₁ ∧
      ∀ t, ∀ i ∈ heads t, content₁ i = content' i := by
  classical
  have hheads : heads' = heads := funext fun t => (h' t).1.unique (h.lists t)
  subst hheads
  refine ⟨rfl, fun i => if ∃ t, i ∈ heads' t then content' i else content i,
    ⟨h.pool, h.lists, h.apart, fun i => ?_⟩, fun t i hi => if_pos ⟨t, hi⟩⟩
  split
  · next hmem =>
    obtain ⟨t, hi⟩ := hmem
    exact (h' t).2 i hi
  · exact h.shows i

/-- **A packet is enqueued as it should be if and only if a slot is free and the packet fits
into it.** -/
theorem enqueuesCleanly_iff (h : packetMachine.Reachable m) {x : NewPacket}
    (hx : op.newPacket = some x) : m.EnqueuesCleanly op x ↔
      m.buffer.unusedHead ≠ none ∧ x.hdrSize + x.data.length < maxPacketSize := by
  obtain ⟨n, q, heads, content, hlists⟩ := holdsLists_of_reachable h
  constructor
  · intro hclean
    unfold EnqueuesCleanly at hclean
    split at hclean
    · next hfull =>
      rw [run_eq_put hx, put_of_full hfull] at hclean
      cases hclean
    · next hroom =>
      refine ⟨hroom, ?_⟩
      by_contra hlen
      obtain ⟨s, m', hrun, -⟩ := hclean
      rw [run_eq_put hx, put_of_too_large (not_lt.mp hlen)] at hrun
      cases hrun
  · rintro ⟨hroom, hlen⟩
    obtain ⟨s, m', q', hrun, hfresh, hused, hlists'⟩ := hlists.enqueue hx hroom hlen
    rw [EnqueuesCleanly, if_neg hroom]
    refine ⟨s, m', hrun, ?_, fun heads₁ content₁ hhas => ?_⟩
    · have hsize : m.buffer.size.toNat = q.used.length := hlists.pool.queueSize
      have hsize' : m'.buffer.size.toNat = q'.used.length := hlists'.pool.queueSize
      rw [hsize', hused, hsize, List.length_cons]
    · -- the same call, seen with the contents the lists are given with
      obtain ⟨rfl, content₂, hlists₂, hsame⟩ := hlists.of_hasLists hhas
      obtain ⟨s₂, m₂, q₂, hrun₂, -, -, hlists₂'⟩ := hlists₂.enqueue hx hroom hlen
      cases hrun₂.symm.trans hrun
      refine ⟨hfresh, _, x.is_written (content₂ s) hlen, fun t => ?_⟩
      refine ⟨(hlists₂'.hasLists t).1, fun i hi => ?_⟩
      have hshows := (hlists₂'.hasLists t).2 i hi
      by_cases his : i = s
      · rw [his, Function.update_self] at hshows ⊢
        exact hshows
      · rw [Function.update_of_ne his] at hshows ⊢
        rcases mem_addTail.mp hi with hi | ⟨-, heq⟩
        · exact hsame t i hi ▸ hshows
        · exact absurd heq his

end Calls

/-! ### A buffer that fills up -/

/-- A buffer of one slot, which a first packet fills. -/
theorem reachable_oneSlot : ∃ m, packetMachine.Reachable m ∧ m.buffer.unusedHead = none := by
  let op : PacketOp := .packet default [] none .neighborData
  have hrun : ((blank.initWithStruct 1).bind fun m => (advance op m).map fun m' =>
      decide (m'.buffer.unusedHead = none)) = some true := by
    decide +kernel
  obtain ⟨m, hinit, hput⟩ := Option.bind_eq_some_iff.mp hrun
  obtain ⟨m', hm', hslots⟩ := Option.map_eq_some_iff.mp hput
  have hstart : packetMachine.Reachable m :=
    .init ⟨1, blank, fun _ => ⟨.zero, blankPacket_shows⟩, hinit⟩
  exact ⟨m', hstart.next (e := op) trivial (step_of_advance hm'), of_decide_eq_true hslots⟩

/-- On a full buffer the call does not return. -/
theorem not_enqueuesCleanly_full : ∃ m, packetMachine.Reachable m ∧
    m.buffer.unusedHead = none ∧ (PacketOp.packet default [] none .neighborData).run m = none ∧
      ¬ m.EnqueuesCleanly (.packet default [] none .neighborData)
        ⟨broadcastPacketHdrSize, default, [], [], none, .neighborData⟩ := by
  obtain ⟨m, hreach, hfull⟩ := reachable_oneSlot
  have hrun : (PacketOp.packet default [] none .neighborData).run m = none := by
    rw [run_eq_put (x := ⟨broadcastPacketHdrSize, default, [], [], none, .neighborData⟩) rfl,
      put_of_full hfull, Option.map_none]
  refine ⟨m, hreach, hfull, hrun, fun h => ?_⟩
  rw [EnqueuesCleanly, if_pos hfull, hrun] at h
  cases h

/-- A buffer of three slots is filled with packets of two types, and the one in the middle, which
one of its receivers has acknowledged, is freed. -/
def recycled : List PacketOp :=
  [.packet ⟨0, 0, ⟨1, 0⟩, ⟨1, 0⟩, 0⟩ [2, 7] (some someNeighbors) .neighborData,
    .packet ⟨0, 1, ⟨1, 0⟩, ⟨1, 0⟩, 0⟩ [2, 8, 9] (some someNeighbors) .neighborData,
    .broadcastPacket ⟨1, 2, ⟨1, 0⟩, ⟨1, 0⟩, 0⟩ [0] none .broadcastData,
    .incrementTimesSent 1, .neighborAcked 1 ⟨3, 0⟩, .free 1]

/-- A packet to a node, which the neighbours have to acknowledge, goes into the slot that is left
as it should. -/
theorem enqueuesCleanly_recycled : ∃ m, packetMachine.Reachable m ∧ m.buffer.size = 2 ∧
    m.buffer.unusedHead = some 1 ∧ (m.item 1).unackedNeighbors = some [⟨2, 0⟩] ∧
    m.EnqueuesCleanly
      (.unicastPacket ⟨4, 5, ⟨1, 0⟩, ⟨1, 0⟩, 0⟩ ⟨9, 0⟩ [6, 6] (some someNeighbors)
        .multicastUnicastData)
      ⟨unicastPacketHdrSize, ⟨4, 5, ⟨1, 0⟩, ⟨1, 0⟩, 0⟩, [9, 0], [6, 6], some someNeighbors,
        .multicastUnicastData⟩ := by
  have hrun : ((blank.initWithStruct 3).bind fun m₀ => (Machine.run advance recycled m₀).map fun m =>
      decide (m.buffer.size = 2 ∧ m.buffer.unusedHead = some 1 ∧
        (m.item 1).unackedNeighbors = some [⟨2, 0⟩])) = some true := by decide +kernel
  obtain ⟨m₀, hinit, hm₀⟩ := Option.bind_eq_some_iff.mp hrun
  obtain ⟨m, hm, hfacts⟩ := Option.map_eq_some_iff.mp hm₀
  obtain ⟨hsize, hslot, hstale⟩ := of_decide_eq_true hfacts
  have hreach : packetMachine.Reachable m :=
    Machine.Reachable.of_run (fun _ _ _ => step_of_advance) _
      (.init ⟨3, blank, fun _ => ⟨.zero, blankPacket_shows⟩, hinit⟩) hm
  refine ⟨m, hreach, hsize, hslot, hstale, (enqueuesCleanly_iff hreach rfl).mpr ⟨?_, by decide⟩⟩
  rw [hslot]
  exact Option.some_ne_none 1

end LinkedPackets

end EmergencyNet
