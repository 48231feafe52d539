import EmergencyNet.Conn.AckFrame
import EmergencyNet.Conn.CodeMoves
import EmergencyNet.Conn.Slots

/-!
# Packets that wait for acknowledgements

A packet on the list of neighbour data or of multicast and unicast data waits for
acknowledgements.  It was enqueued for somebody, an acknowledgement takes one neighbour off
its set, and when the set becomes empty the packet is freed.  So it waits for somebody as
long as it is on its list, and the callbacks that send it find at least one address.

## Main definitions

* `Ec.Addressed` — every packet to be acknowledged was enqueued for somebody.
* `AwaitsSomeone`, `Ec.Awaited` — the packets that wait, and what they wait for.
* `BufferedPacket.StillWaits`, `Ec.Spares` — what happens to a packet while it waits.
* `Frame.ListsIds` — a multicast frame names those its packet waits for, as many as it says.

## Main results

* `Move.awaited` — **a move keeps everybody waiting for somebody.**
* `EcNode.step_addressed` — application code enqueues packets for somebody.
* `EcNode.awaited_of_reachable` — **a packet that waits for acknowledgements waits for some of
  its receivers, and the two senders never assert.**
-/

namespace EmergencyNet

variable {σ ε : Type*} {env : MoveEnv} {c c' c₁ : Ec} {t : MsgType} {i j : ℕ}
  {ns : Option NeighborSet} {a : SendArgs} {x : Action}

/-! ### Receivers -/

/-- The packets of the list stay until they have been acknowledged. -/
def MsgType.IsAwaited (t : MsgType) : Prop := t = .neighborData ∨ t = .multicastUnicastData

instance (t : MsgType) : Decidable t.IsAwaited := by unfold MsgType.IsAwaited; infer_instance

/-- There is a set of receivers with somebody in it. -/
def HasReceivers (ns : Option NeighborSet) : Prop := ∃ s, ns = some s ∧ s.addrs ≠ []

/-- If the action enqueues a packet that is to be acknowledged, it does so for somebody. -/
def Action.ToSomeone (x : Action) : Prop :=
  ∀ t i ns a, x = .enqueue t i ns a → t.IsAwaited → HasReceivers ns

/-- Every packet to be acknowledged was enqueued for somebody. -/
def Ec.Addressed (c : Ec) : Prop := ∀ x ∈ c.trace, x.ToSomeone

/-- What is known of a packet that waits for acknowledgements and was enqueued for `ns`. -/
structure AwaitsSomeone (bp : BufferedPacket) (ns : Option NeighborSet) : Prop where
  flags : bp.p.hdr.flags = PacketFlags.broadcast
  somebody : bp.unackedNs.addrs ≠ []
  among : ∃ s, ns = some s ∧ bp.unackedNs.addrs.Subperm s.addrs

/-- Every packet that waits for acknowledgements waits for some of those it was enqueued for. -/
def Ec.Awaited : Ec → Prop := Ec.Slots fun t _ bp ns _ _ => t.IsAwaited → AwaitsSomeone bp ns

theorem Action.toSomeone_of_not_awaited (ht : ¬ t.IsAwaited) :
    (Action.enqueue t i ns a).ToSomeone := by
  intro t' i' ns' a' heq ht'
  cases heq
  exact absurd ht' ht

/-- An action that enqueues nothing. -/
theorem Action.toSomeone_of_slot (hx : ∀ t i ns a, x ≠ .enqueue t i ns a) : x.ToSomeone :=
  fun t i ns a heq _ => absurd heq (hx t i ns a)

theorem Ec.Addressed.cons (h : c.Addressed) (hx : x.ToSomeone) (htrace : c'.trace = x :: c.trace) :
    c'.Addressed := by
  intro y hy
  rw [htrace] at hy
  rcases List.mem_cons.mp hy with rfl | hy
  · exact hx
  · exact h y hy

theorem Ec.Addressed.of_trace (h : c.Addressed) (htrace : c'.trace = c.trace) : c'.Addressed :=
  fun x hx => h x (htrace ▸ hx)

/-! ### What moves leave waiting -/

/-- Nothing has happened to a packet but that neighbours were taken off its set, not all. -/
structure BufferedPacket.StillWaits (bp bp' : BufferedPacket) : Prop where
  packet : bp'.p = bp.p
  unacked : bp'.unackedNs.addrs.Subperm bp.unackedNs.addrs
  somebody : bp.unackedNs.addrs ≠ [] → bp'.unackedNs.addrs ≠ []

namespace BufferedPacket.StillWaits

theorem refl (bp : BufferedPacket) : bp.StillWaits bp := ⟨rfl, List.Subperm.refl _, id⟩

theorem trans {bp bp₁ bp' : BufferedPacket} (h : bp.StillWaits bp₁) (h' : bp₁.StillWaits bp') :
    bp.StillWaits bp' :=
  ⟨h'.packet.trans h.packet, h'.unacked.trans h.unacked, h'.somebody ∘ h.somebody⟩

theorem neighborAcked {addr : Rimeaddr} (bp : BufferedPacket)
    (hne : bp.unackedNs.addrs.erase addr ≠ []) : bp.StillWaits (bp.neighborAcked addr) :=
  ⟨rfl, List.erase_sublist.subperm, fun _ => hne⟩

theorem incrementTimesSent (bp : BufferedPacket) : bp.StillWaits bp.incrementTimesSent :=
  ⟨rfl, List.Subperm.refl _, id⟩

end BufferedPacket.StillWaits

namespace Ec

/-- A change that leaves the packets on the lists with somebody to wait for. -/
abbrev Spares : Ec → Ec → Prop := Keeps BufferedPacket.StillWaits fun _ _ => True

theorem Spares.of_count (hsq : c'.sq = c.sq.modify i .incrementTimesSent)
    (htrace : c'.trace = x :: c.trace) (hslot : x.slot = none) : c.Spares c' := by
  refine Keeps.of_modify (l := [x]) .refl (.incrementTimesSent _) hsq htrace (fun y hy => ?_) ?_
  · rw [List.mem_singleton.mp hy, hslot]
  · exact fun _ _ _ _ _ => trivial

theorem Spares.of_drops {limit : UInt8} (h : Drops t limit c c') : c.Spares c' :=
  Keeps.of_drops .refl .trans (fun _ _ _ => trivial) h

theorem Spares.of_sendNeighborData {radio : Bool} (h : c.sendNeighborData radio = .ok c') :
    c.Spares c' := by
  obtain ⟨c₁, hdrops, -, hsent⟩ := sendNeighborData_cases h
  have hc₁ : c.Spares c₁ := .of_drops hdrops
  cases hsent with
  | emptied => exact hc₁
  | refused => exact hc₁.trans .trans (.of_same .refl (same_ctimerSet _))
  | @sent i j f =>
    exact hc₁.trans .trans (Spares.of_count (x := .frame .neighbor i f) rfl rfl rfl)

theorem Awaited.spares (h : c.Awaited) (hs : c.Spares c') : c'.Awaited := by
  refine Slots.keeps h hs fun hwaits hstill _ ht => ?_
  obtain ⟨s, hns, hsub⟩ := (hwaits ht).among
  refine ⟨?_, hstill.somebody (hwaits ht).somebody, s, hns, hstill.unacked.trans hsub⟩
  rw [hstill.packet]
  exact (hwaits ht).flags

end Ec

/-- **A move keeps everybody waiting for somebody**, as long as packets are enqueued for
somebody. -/
theorem Move.awaited (h : Move env c c') (hto : c'.Addressed) (hc : c.Awaited) : c'.Awaited := by
  cases h with
  | quiet h => exact hc.spares (.of_same .refl h)
  | @data _ t i ns a ht _ _ _ hsq _ htrace =>
    refine Ec.Slots.enqueued hc hsq htrace (fun ht => ?_) id
    have hx : Action.enqueue t i ns a ∈ c'.trace := htrace ▸ List.mem_cons_self
    obtain ⟨s, rfl, hne⟩ := hto _ hx t i ns a rfl ht
    -- the neighbours are copied in reverse
    exact ⟨rfl, fun hnil => hne (List.reverse_eq_nil_iff.mp hnil), s, rfl,
      (List.reverse_perm s.addrs).subperm⟩
  | store _ _ hsq _ htrace => exact hc.spares (.of_action .refl hsq htrace rfl fun _ => trivial)
  | control ht _ hsq _ htrace =>
    refine Ec.Slots.enqueued hc hsq htrace (fun hawaited => ?_) id
    rcases ht with rfl | rfl <;> rcases hawaited with h | h <;> cases h
  | confirm ht _ _ _ hsq _ htrace =>
    refine Ec.Slots.enqueued hc hsq htrace (fun hawaited => ?_) id
    rcases ht with rfl | rfl <;> rcases hawaited with h | h <;> cases h
  | acked _ _ =>
    exact hc.spares (.of_ackRecv _ _ .refl .neighborAcked fun _ _ _ => trivial)
  | @once _ t ch i body _ _ _ hsq _ htrace =>
    refine hc.spares (.of_free (l := [_]) .refl hsq htrace (fun x hx => ?_) fun _ _ _ _ => trivial)
    rw [List.mem_singleton.mp hx]
    rfl
  | neighborData _ h => exact hc.spares (.of_sendNeighborData h)
  | targeted _ _ hsq _ htrace => exact hc.spares (Ec.Spares.of_count hsq htrace rfl)
  | meshed _ hsq _ htrace => exact hc.spares (Ec.Spares.of_count hsq htrace rfl)
  | dropped _ hsq _ htrace =>
    refine hc.spares (.of_free (l := []) .refl hsq htrace (fun x hx => ?_) fun _ _ _ _ => trivial)
    exact absurd hx List.not_mem_nil

theorem Moves.awaited (h : Moves env c c') (hto : c'.Addressed) (hc : c.Awaited) : c'.Awaited := by
  induction h with
  | refl => exact hc
  | @tail c₁ c' _ hmove ih =>
    have hto₁ : c₁.Addressed := fun x hx => hto x (Moves.mem_trace (.single hmove) hx)
    exact hmove.awaited hto (ih hto₁)

/-! ### What application code enqueues -/

/-- If the code calls `ec_reliable_multicast`, it names a receiver. -/
def Effect.ToSomeone : Effect → Prop
  | .call (.reliableMulticast receivers _) => receivers.addrs ≠ []
  | _ => True

instance (e : Effect) : Decidable e.ToSomeone := by
  unfold Effect.ToSomeone
  split <;> infer_instance

/-- The application code an event runs calls `ec_reliable_multicast` with a receiver only. -/
def EcNode.MulticastsToSomeone (A : Application σ ε) (s : EcNode σ) (ev : NodeEvent ε) : Prop :=
  ∀ r ∈ s.upcall A ev, ∀ e ∈ r.2, e.ToSomeone

instance (A : Application σ ε) (s : EcNode σ) (ev : NodeEvent ε) :
    Decidable (s.MulticastsToSomeone A ev) := by
  unfold EcNode.MulticastsToSomeone
  infer_instance

/-- Surroundings in which no data packet is handed over. -/
def MoveEnv.idle : MoveEnv := { MoveEnv.any with sends := fun _ => False }

namespace Ec.Addressed

theorem drops {limit : UInt8} (hc : c.Addressed) (h : Ec.Drops t limit c c') : c'.Addressed := by
  induction h with
  | refl => exact hc
  | tail _ hdrop ih =>
    obtain ⟨i, -, -, rfl⟩ := hdrop
    exact ih.cons (Action.toSomeone_of_slot fun _ _ _ _ heq => by cases heq) rfl

theorem ackRecv (hc : c.Addressed) (timer : Timer) (hdr : Header) :
    (EcNode.ackRecv timer hdr c).Addressed := by
  obtain ⟨-, heq⟩ | ⟨i, -, -, -, ⟨-, htrace⟩ | ⟨-, htrace⟩⟩ := EcNode.ackRecv_cases timer hdr c
  · rwa [heq]
  · exact hc.cons (Action.toSomeone_of_slot fun _ _ _ _ heq => by cases heq) htrace
  · exact hc.of_trace htrace

/-- What runs no application code enqueues no packet that is to be acknowledged. -/
theorem move (hc : c.Addressed) (h : Move .idle c c') : c'.Addressed := by
  cases h with
  | quiet h => exact hc.of_trace h.trace
  | data _ _ ha => exact absurd ha id
  | store ha => exact absurd ha id
  | control ht _ _ _ htrace =>
    refine hc.cons (Action.toSomeone_of_not_awaited fun hawaited => ?_) htrace
    rcases ht with rfl | rfl <;> rcases hawaited with h | h <;> cases h
  | confirm ht _ _ _ _ _ htrace =>
    refine hc.cons (Action.toSomeone_of_not_awaited fun hawaited => ?_) htrace
    rcases ht with rfl | rfl <;> rcases hawaited with h | h <;> cases h
  | acked => exact hc.ackRecv _ _
  | @once _ t ch i body _ _ _ _ _ htrace =>
    have hframe : (c.log (.frame ch i ⟨(c.sq.item i).p.hdr, body⟩)).Addressed :=
      hc.cons (Action.toSomeone_of_slot fun _ _ _ _ heq => by cases heq) rfl
    exact hframe.cons (Action.toSomeone_of_slot fun _ _ _ _ heq => by cases heq) htrace
  | neighborData _ h =>
    obtain ⟨c₁, hdrops, -, hsent⟩ := Ec.sendNeighborData_cases h
    have hc₁ : c₁.Addressed := hc.drops hdrops
    cases hsent with
    | emptied => exact hc₁
    | refused => exact hc₁.of_trace rfl
    | sent => exact hc₁.cons (Action.toSomeone_of_slot fun _ _ _ _ heq => by cases heq) rfl
  | targeted _ _ _ _ htrace | meshed _ _ _ htrace | dropped _ _ _ htrace =>
    exact hc.cons (Action.toSomeone_of_slot fun _ _ _ _ heq => by cases heq) htrace

theorem moves (hc : c.Addressed) (h : Moves .idle c c') : c'.Addressed := by
  induction h with
  | refl => exact hc
  | tail _ hmove ih => exact ih.move hmove

/-- Every data packet that is enqueued and has to be acknowledged has a receiver. -/
theorem codeMove (hc : c.Addressed)
    (h : CodeMove (fun t ns => t.IsAwaited → HasReceivers ns) c c') : c'.Addressed := by
  cases h with
  | same _ htrace => exact hc.of_trace htrace
  | recorded hx _ htrace =>
    refine hc.cons (Action.toSomeone_of_slot fun _ _ _ _ heq => ?_) htrace
    rcases hx with ⟨id, hx⟩ | ⟨k, r, hx⟩ <;> rw [hx] at heq <;> cases heq
  | @enqueued _ t i ns a _ _ hE _ htrace =>
    refine hc.cons (fun t' i' ns' a' heq ht => ?_) htrace
    cases heq
    exact hE ht
  | freed _ htrace =>
    exact hc.cons (Action.toSomeone_of_slot fun _ _ _ _ heq => by cases heq) htrace
  | acked timer hdr => exact hc.ackRecv timer hdr

theorem codeMoves (hc : c.Addressed)
    (h : CodeMoves (fun t ns => t.IsAwaited → HasReceivers ns) c c') : c'.Addressed := by
  induction h with
  | refl => exact hc
  | tail _ hmove ih => exact ih.codeMove hmove

end Ec.Addressed

namespace EcNode

variable {A : Application σ ε} {cb : EcCallbacks σ} {s s' s₁ : EcNode σ}

/-- A call that names a receiver, if it is a multicast, enqueues packets for somebody. -/
theorem meets_of_toSomeone {call : EcCall} (hto : (Effect.call call).ToSomeone) :
    call.Meets fun t ns => t.IsAwaited → HasReceivers ns := by
  cases call with
  | reliableBroadcastNs ns a => exact fun s _ hne _ => ⟨s, rfl, hne⟩
  | broadcast ns a =>
    intro hawaited
    rcases hawaited with h | h <;> cases h
  | reliableMulticast receivers a => exact fun _ => ⟨receivers, rfl, hto⟩
  | reliableUnicast destination a => exact fun _ => ⟨.single destination, rfl, List.cons_ne_nil _ _⟩
  | mesh _ _ _ | timesynchOn | timesynchOff | timesynchNetwork => trivial

/-- **Application code enqueues packets for somebody** when it names a receiver for each
multicast. -/
theorem step_addressed {ev : NodeEvent ε} (hto : s.MulticastsToSomeone A ev)
    (hc : s.conn.Addressed) (h : s.step A ev = .ok s') : s'.conn.Addressed := by
  by_cases hev : ∃ t radio, ev = .timer t radio
  · obtain ⟨t, radio, rfl⟩ := hev
    exact hc.moves (step_moves rfl (fun e he => by cases he) (fun _ _ _ _ _ => trivial) h)
  · push Not at hev
    refine hc.codeMoves (step_codeMoves hev (fun t ht hawaited => ?_) (fun r hr call hcall => ?_) h)
    · rcases hawaited with rfl | rfl <;> exact absurd (by simp [MsgType.IsData]) ht
    · exact meets_of_toSomeone (hto r hr _ hcall)

theorem step_awaited {ev : NodeEvent ε} (hto : s'.conn.Addressed) (hc : s.conn.Awaited)
    (h : s.step A ev = .ok s') : s'.conn.Awaited := by
  cases step_shape (ev.fits_any A s s') h with
  | moves h => exact h.awaited hto hc
  | @received k r c₁ _ _ h₁ h₂ =>
    have hstore : Ec.Spares c₁ (c₁.storePacketForDupeChecks r.id) := by
      unfold Ec.storePacketForDupeChecks
      split
      · exact .of_same .refl (.refl c₁)
      · exact .of_action .refl rfl rfl rfl fun _ => trivial
    have hlog : (s.conn.log (.deliver k r)).Awaited :=
      hc.spares (.of_action .refl rfl rfl rfl fun _ => trivial)
    -- what has been enqueued up to the callback's end stays in the history
    have hto₁ : c₁.Addressed := by
      intro x hx
      obtain ⟨l, hl⟩ := Ec.trace_store (c := c₁) r.id
      refine hto x (h₂.mem_trace ?_)
      rw [hl]
      exact List.mem_append_right l hx
    exact h₂.awaited hto ((h₁.awaited hto₁ hlog).spares hstore)

end EcNode

/-! ### What the senders write -/

/-- If the frame is a multicast, it lists the neighbours `bp` waits for, before data of packet `p`,
and they are as many as its first byte says. -/
def Frame.ListsIds (p : Packet) (bp : BufferedPacket) (f : Frame) : Prop :=
  f.hdr.packetType = PacketFlags.multicast →
    f.body = multicastBody bp.unackedNs.addrs (memRead p.data bp.dataLen.toNat) ∧
      (UInt8.ofNat bp.unackedNs.addrs.length).toNat = bp.unackedNs.addrs.length

/-- Every frame sent between `c` and `c'` lists the neighbours that the packet which is then first
on its list waits for. -/
def Ec.WritesIds (c c' : Ec) : Prop :=
  ∀ ch i f, .frame ch i f ∈ c'.trace → .frame ch i f ∈ c.trace ∨
    ∃ t j, t.IsAwaited ∧ c'.sq.first t = some j ∧ f.ListsIds (c.sq.item i).p (c'.sq.item j)

namespace Ec

/-- A frame for the neighbours a packet waits for. -/
theorem targetedFrame_lists {p : Packet} {bp : BufferedPacket} (hne : bp.unackedNs.addrs ≠ []) :
    ∃ f, targetedFrame p bp = some f ∧ f.ListsIds p bp := by
  have hle : bp.unackedNs.addrs.length ≤ maxNeighbors := bp.unackedNs.le
  unfold targetedFrame
  cases h : bp.unackedNs.addrs with
  | nil => exact absurd h hne
  | cons addr rest =>
    cases rest with
    | nil =>
      refine ⟨_, rfl, fun htype => ?_⟩
      change (PacketFlags.unicast ||| 0) &&& 0x30 = PacketFlags.multicast at htype
      exact absurd htype (by decide)
    | cons addr' rest =>
      refine ⟨_, rfl, fun _ => ⟨by rw [h], ?_⟩⟩
      -- there are few enough neighbours for a byte
      have hsmall : bp.unackedNs.addrs.length < 256 := lt_of_le_of_lt hle (by decide)
      exact UInt8.toNat_ofNat_of_lt' hsmall

theorem neighborDataFrame_lists {p : Packet} {bp : BufferedPacket}
    (hflags : p.hdr.flags = PacketFlags.broadcast) (hne : bp.unackedNs.addrs ≠ []) :
    ∃ f, neighborDataFrame p bp = some f ∧ f.ListsIds p bp := by
  have hset : p.hdr.isPacketFlagSet PacketFlags.broadcast = true := by
    rw [Header.isPacketFlagSet, hflags]
    decide
  unfold neighborDataFrame
  rw [if_pos hset]
  split
  · exact targetedFrame_lists hne
  · refine ⟨_, rfl, fun htype => ?_⟩
    change p.hdr.flags &&& 0x30 = _ at htype
    rw [hflags] at htype
    exact absurd htype (by decide)

theorem Drops.frames {limit : UInt8} {ch : Channel} {f : Frame} (h : Drops t limit c c')
    (hf : .frame ch i f ∈ c'.trace) : .frame ch i f ∈ c.trace := by
  induction h with
  | refl => exact hf
  | tail _ hdrop ih =>
    obtain ⟨j, -, -, rfl⟩ := hdrop
    rcases List.mem_cons.mp hf with heq | hf
    · cases heq
    · exact ih hf

/-- A frame that lists its addresses is sent at most, and counted. -/
theorem WritesIds.of_frame (ch : Channel) {f : Frame} (ht : t.IsAwaited)
    (hfirst : c'.sq.first t = some j) (hf : f.ListsIds (c.sq.item i).p (c'.sq.item j))
    (htrace : ∀ ch' i' f', .frame ch' i' f' ∈ c'.trace →
      Action.frame ch' i' f' = .frame ch i f ∨ .frame ch' i' f' ∈ c.trace) : c.WritesIds c' := by
  intro ch' i' f' hf'
  rcases htrace ch' i' f' hf' with heq | hmem
  · cases heq
    exact .inr ⟨t, j, ht, hfirst, hf⟩
  · exact .inl hmem

/-- Counting a packet changes nothing of what a frame for it lists. -/
theorem listsIds_modify {f : Frame} {p : Packet} {sq : PacketBuffer}
    (hf : f.ListsIds p (sq.item j)) :
    f.ListsIds p ((sq.modify j .incrementTimesSent).item j) := by
  rw [PacketBuffer.modify_item_self]
  exact hf

theorem WritesIds.of_trace (htrace : c'.trace = c.trace) : c.WritesIds c' :=
  fun _ _ _ hf => .inl (htrace ▸ hf)

/-- **The callback for neighbour data does not assert.** -/
theorem Awaited.sendNeighborData (h : c.Awaited) (radio : Bool) :
    ∃ c', c.sendNeighborData radio = .ok c' ∧ c.WritesIds c' := by
  unfold Ec.sendNeighborData
  cases hfirst : c.sq.first .neighborData with
  | none => exact ⟨c, rfl, .of_trace rfl⟩
  | some i =>
    obtain ⟨hdrops, hleft, hfirst₁⟩ := dropSpent_drops .neighborData maxTimesSentMesh _ c rfl
    simp only
    generalize dropSpent maxTimesSentMesh (c.sq.prioHeads .neighborData) c = res
      at hdrops hleft hfirst₁ ⊢
    obtain ⟨c₁, left⟩ := res
    cases left with
    | none => exact ⟨c₁, rfl, fun _ _ _ hf => .inl (hdrops.frames hf)⟩
    | some j =>
      -- the frame is built for `i`, first before the drops, with the receivers of `j`, first after
      have hi : i ∈ c.sq.prioHeads .neighborData := PacketBuffer.mem_of_first hfirst
      have hj : j ∈ c₁.sq.prioHeads .neighborData :=
        PacketBuffer.mem_of_first (hfirst₁.trans hleft.symm)
      have hc₁ : c₁.Awaited := h.spares (.of_drops hdrops)
      obtain ⟨_, _, _, -, hwaits⟩ := h _ i hi
      obtain ⟨_, _, _, -, hwaits₁⟩ := hc₁ _ j hj
      obtain ⟨f, hf, hlists⟩ :=
        neighborDataFrame_lists (hwaits (.inl rfl)).flags (hwaits₁ (.inl rfl)).somebody
      simp only [hf]
      cases radio with
      | false => exact ⟨_, rfl, fun _ _ _ hf => .inl (hdrops.frames hf)⟩
      | true =>
        exact ⟨_, rfl, .of_frame .neighbor (.inl rfl) (hfirst₁.trans hleft.symm)
          (listsIds_modify hlists) fun _ _ _ hx => (List.mem_cons.mp hx).imp_right hdrops.frames⟩

/-- **The callback for multicast and unicast data does not assert.** -/
theorem Awaited.sendMulticastUnicastData (h : c.Awaited) (radio : Bool) :
    ∃ c', c.sendMulticastUnicastData radio = .ok c' ∧ c.WritesIds c' := by
  unfold Ec.sendMulticastUnicastData
  cases hfirst : c.sq.first .multicastUnicastData with
  | none => exact ⟨c, rfl, .of_trace rfl⟩
  | some i =>
    obtain ⟨_, _, _, -, hwaits⟩ := h _ i (PacketBuffer.mem_of_first hfirst)
    obtain ⟨f, hf, hlists⟩ :=
      targetedFrame_lists (p := (c.sq.item i).p) (hwaits (.inr rfl)).somebody
    simp only [hf]
    cases radio with
    | false => exact ⟨_, rfl, .of_trace rfl⟩
    | true =>
      exact ⟨_, rfl, .of_frame .broadcast (.inr rfl) hfirst (listsIds_modify hlists)
        fun _ _ _ hx => List.mem_cons.mp hx⟩

end Ec

/-! ### Runs -/

namespace EcNode

variable {A : Application σ ε} {s s' : EcNode σ}

/-- In every state reached, everybody waits for somebody. -/
theorem awaited_of_reachableWhen (hs : (connMachine A).ReachableWhen (MulticastsToSomeone A) s) :
    s.conn.Addressed ∧ s.conn.Awaited := by
  refine hs.invariant (I := fun s => s.conn.Addressed ∧ s.conn.Awaited) ?_ ?_
  · intro s hinit
    rw [show s.conn = .opened from hinit]
    exact ⟨fun x hx => absurd hx List.not_mem_nil, Ec.Slots.opened⟩
  · rintro s ev s' ⟨hto, hc⟩ hok ⟨-, hstep⟩
    have hto' : s'.conn.Addressed := step_addressed hok hto hstep
    exact ⟨hto', step_awaited hto' hc hstep⟩

/-- The two timers whose callbacks send packets that wait. -/
theorem step_timer_awaited {t : Timer} {radio : Bool} (hc : s.conn.Awaited)
    (ht : t = .neighborData ∨ t = .multicastUnicastData) :
    ∃ s', s.step A (.timer t radio) = .ok s' ∧ s.conn.WritesIds s'.conn := by
  have htake : (s.conn.ctimerTake t).Awaited := hc.spares (.of_same .refl (Ec.same_ctimerTake t))
  rw [step]
  split
  · rcases ht with rfl | rfl
    · obtain ⟨c', hsend, hids⟩ := htake.sendNeighborData radio
      exact ⟨_, tryConn_eq_ok.mpr ⟨c', hsend, rfl⟩, hids⟩
    · obtain ⟨c', hsend, hids⟩ := htake.sendMulticastUnicastData radio
      exact ⟨_, tryConn_eq_ok.mpr ⟨c', hsend, rfl⟩, hids⟩
  · exact ⟨_, rfl, .of_trace rfl⟩

/-- **A packet that waits for acknowledgements waits for some of the receivers it was enqueued
for.**  So the two callbacks that send such packets do not assert, and a multicast frame lists those
its packet waits for, which are as many as it says. -/
theorem awaited_of_reachable (hs : (connMachine A).ReachableWhen (MulticastsToSomeone A) s) :
    (∀ t, t.IsAwaited → ∀ i ∈ s.conn.sq.prioHeads t, ∃ receivers a m,
      EnqueuedSince s.conn.trace t i (some receivers) a m ∧
        (s.conn.sq.item i).unackedNs.addrs ≠ [] ∧
        (s.conn.sq.item i).unackedNs.addrs.Subperm receivers.addrs) ∧
    ∀ t radio, t = .neighborData ∨ t = .multicastUnicastData →
      ∃ s', s.step A (.timer t radio) = .ok s' ∧ s.conn.WritesIds s'.conn := by
  obtain ⟨-, hc⟩ := awaited_of_reachableWhen hs
  refine ⟨fun t ht i hi => ?_, fun t radio ht => step_timer_awaited hc ht⟩
  obtain ⟨ns, a, m, hsince, hwaits⟩ := hc t i hi
  obtain ⟨-, hne, receivers, rfl, hsub⟩ := hwaits ht
  exact ⟨receivers, a, m, hsince, hne, hsub⟩

/-- Node `1.0` sends a packet to `2.0`, `3.0` and `4.0`, and `2.0` acknowledges it. -/
def partlyAckedRun : List (NodeEvent (List Effect)) :=
  [.process [.call (.reliableMulticast ⟨[⟨2, 0⟩, ⟨3, 0⟩, ⟨4, 0⟩], by decide⟩
    ⟨⟨1, 0⟩, ⟨1, 0⟩, 0, 5, []⟩)],
    .receive .broadcast ((Frame.mk (initUnicastPacket PacketFlags.ack 0 ⟨1, 0⟩ ⟨2, 0⟩ 5)
      (unicastBody ⟨1, 0⟩ [])).received [])]

/-- A packet that one of its three receivers has acknowledged waits for the other two. -/
theorem awaited_partlyAcked : ∃ s : EcNode Unit,
    (connMachine pairApp).ReachableWhen (MulticastsToSomeone pairApp) s ∧
      s.conn.sq.prioHeads .multicastUnicastData = [0] ∧
      (s.conn.sq.item 0).unackedNs.addrs = [⟨4, 0⟩, ⟨3, 0⟩] ∧
      ∃ s', s.step pairApp (.timer .multicastUnicastData true) = .ok s' ∧
        s.conn.WritesIds s'.conn := by
  have hrun : ((Machine.run (advance pairApp) partlyAckedRun (⟨.opened, ()⟩ : EcNode Unit)).map
      fun s => (s.conn.sq.prioHeads .multicastUnicastData, (s.conn.sq.item 0).unackedNs.addrs)) =
        some ([0], [⟨4, 0⟩, ⟨3, 0⟩]) := by decide +kernel
  obtain ⟨s, hrun, h⟩ := Option.map_eq_some_iff.mp hrun
  obtain ⟨hheads, hunacked⟩ := Prod.mk.inj h
  have hinit : (connMachine pairApp).init ⟨.opened, ()⟩ := rfl
  have hs : (connMachine pairApp).ReachableWhen (MulticastsToSomeone pairApp) s :=
    Machine.ReachableWhen.of_run (b := fun s ev => decide (s.MulticastsToSomeone pairApp ev))
      (fun _ _ => of_decide_eq_true) (fun _ _ _ => connMachine_step_of_advance) partlyAckedRun
      (.init hinit) (by decide +kernel) hrun
  exact ⟨s, hs, hheads, hunacked,
    (awaited_of_reachable hs).2 .multicastUnicastData true (.inr rfl)⟩

end EcNode

end EmergencyNet
