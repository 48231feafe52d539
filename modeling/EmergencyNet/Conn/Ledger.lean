import EmergencyNet.Conn.Duplicates
import EmergencyNet.Conn.Order

/-!
# What becomes of a packet that waits

A packet on a list of the sending queue was enqueued there last; since then its slot has been
neither freed nor used again.  A packet for the neighbours has been sent at least as often as it
was counted, and every neighbour it was enqueued for is still awaited or can answer for it.  So
a packet that is freed has been sent often enough, or all its neighbours can answer for it.

Who can answer for a packet is a parameter: the network says it of the nodes that have delivered
the packet and of the one it comes from.

## Main definitions

* `EnqueuedSince` — the packet in a slot, and what has happened since it was enqueued.
* `Departures` — the packets for the neighbours that were freed.
* `Ledger` — the invariant of a node.
* `Changes` — what may happen to a connection between an enqueue and a free.

## Main results

* `Ledger.free` — a packet that is freed had been sent often enough or nobody is awaited for it.
* `Move.ledger` — **a move keeps the ledger** when neighbour data is sent under the identity of
  the packet that is counted.
-/

namespace EmergencyNet

variable {c c' : Ec} {l m m' : List Action} {x : Action} {t t' : MsgType} {i j : ℕ}
  {ns ns' : Option NeighborSet} {a a' : SendArgs} {id : PacketId}

/-! ### Slots in the history -/

/-- The slot an action takes into use or frees. -/
def Action.slot : Action → Option ℕ
  | .enqueue _ i _ _ => some i
  | .free i => some i
  | _ => none

/-- The packet in slot `i` is the one that was enqueued as `a` on list `t`; the actions `m` since
then have left the slot alone. -/
structure EnqueuedSince (l : List Action) (t : MsgType) (i : ℕ) (ns : Option NeighborSet)
    (a : SendArgs) (m : List Action) : Prop where
  split : ∃ rest, l = m ++ .enqueue t i ns a :: rest
  alone : ∀ x ∈ m, x.slot ≠ some i

namespace EnqueuedSince

theorem cons (h : EnqueuedSince l t i ns a m) (hx : x.slot ≠ some i) :
    EnqueuedSince (x :: l) t i ns a (x :: m) := by
  obtain ⟨⟨rest, hrest⟩, halone⟩ := h
  refine ⟨⟨rest, by rw [hrest]; rfl⟩, fun y hy => ?_⟩
  rcases List.mem_cons.mp hy with rfl | hy
  · exact hx
  · exact halone y hy

theorem append {new : List Action} (h : EnqueuedSince l t i ns a m)
    (hnew : ∀ x ∈ new, x.slot ≠ some i) : EnqueuedSince (new ++ l) t i ns a (new ++ m) := by
  induction new with
  | nil => exact h
  | cons x new ih =>
    have hrest := ih fun y hy => hnew y (List.mem_cons_of_mem x hy)
    exact hrest.cons (hnew x List.mem_cons_self)

/-- Of two last packets of a slot neither has been enqueued before the other. -/
theorem eq_of_append {n rest rest' : List Action} (hm : m' = m ++ n)
    (hn : .enqueue t i ns a :: rest = n ++ .enqueue t' i ns' a' :: rest')
    (halone : ∀ x ∈ m', x.slot ≠ some i) : t = t' ∧ ns = ns' ∧ a = a' ∧ m = m' := by
  cases n with
  | nil =>
    rw [List.nil_append, List.cons.injEq, Action.enqueue.injEq] at hn
    obtain ⟨⟨rfl, -, rfl, rfl⟩, -⟩ := hn
    exact ⟨rfl, rfl, rfl, by rw [hm, List.append_nil]⟩
  | cons y n =>
    rw [List.cons_append, List.cons.injEq] at hn
    have hmem : Action.enqueue t i ns a ∈ m' := by
      rw [hm, hn.1]
      exact List.mem_append_right m List.mem_cons_self
    exact absurd rfl (halone _ hmem)

/-- The last packet enqueued in a slot is a single one. -/
theorem unique (h : EnqueuedSince l t i ns a m) (h' : EnqueuedSince l t' i ns' a' m') :
    t = t' ∧ ns = ns' ∧ a = a' ∧ m = m' := by
  obtain ⟨⟨rest, hrest⟩, halone⟩ := h
  obtain ⟨⟨rest', hrest'⟩, halone'⟩ := h'
  obtain ⟨n, hm, hn⟩ | ⟨n, hm, hn⟩ := List.append_eq_append_iff.mp (hrest.symm.trans hrest')
  · exact eq_of_append hm hn halone'
  · obtain ⟨ht, hns, ha, hmm⟩ := eq_of_append hm hn halone
    exact ⟨ht.symm, hns.symm, ha.symm, hmm.symm⟩

end EnqueuedSince

/-- The number of frames of data sent for a packet. -/
def timesTransmitted (id : PacketId) (l : List Action) : ℕ :=
  (dataFrames l).countP fun f => f.hdr.id == id

theorem timesTransmitted_append :
    timesTransmitted id (l ++ m) = timesTransmitted id l + timesTransmitted id m := by
  rw [timesTransmitted, dataFrames_append, List.countP_append, Nat.add_comm]
  rfl

theorem timesTransmitted_le_cons : timesTransmitted id m ≤ timesTransmitted id (x :: m) := by
  have happend : timesTransmitted id (x :: m) = timesTransmitted id [x] + timesTransmitted id m :=
    timesTransmitted_append (l := [x])
  omega

/-- Every packet for the neighbours that was freed had been sent `MAX_TIMES_SENT_MESH` times
since it was enqueued, or all neighbours it was enqueued for answer for it. -/
def Departures (vouch : Rimeaddr → PacketId → Prop) (l : List Action) : Prop :=
  ∀ l₁ i l₂ ns a m, l = l₁ ++ .free i :: l₂ → EnqueuedSince l₂ .neighborData i ns a m →
    ∃ s, ns = some s ∧
      (maxTimesSentMesh.toNat ≤ timesTransmitted a.id m ∨ ∀ n ∈ s.addrs, vouch n a.id)

theorem Departures.cons {vouch : Rimeaddr → PacketId → Prop} (h : Departures vouch l)
    (hx : ∀ i ns a m, x = .free i → EnqueuedSince l .neighborData i ns a m →
      ∃ s, ns = some s ∧
        (maxTimesSentMesh.toNat ≤ timesTransmitted a.id m ∨ ∀ n ∈ s.addrs, vouch n a.id)) :
    Departures vouch (x :: l) := by
  intro l₁ i l₂ ns a m hl hsince
  cases l₁ with
  | nil =>
    rw [List.nil_append, List.cons.injEq] at hl
    obtain ⟨hfree, rfl⟩ := hl
    exact hx i ns a m hfree hsince
  | cons y l₁ =>
    rw [List.cons_append, List.cons.injEq] at hl
    exact h l₁ i l₂ ns a m hl.2 hsince

theorem Departures.append {vouch : Rimeaddr → PacketId → Prop} (h : Departures vouch l)
    (hm : ∀ x ∈ m, x.slot = none) : Departures vouch (m ++ l) := by
  induction m with
  | nil => exact h
  | cons x m ih =>
    have hrest := ih fun y hy => hm y (List.mem_cons_of_mem x hy)
    refine Departures.cons hrest fun i ns a m' hx _ => ?_
    have hslot := hm x List.mem_cons_self
    rw [hx] at hslot
    cases hslot

/-! ### The ledger -/

/-- What is known of a packet for the neighbours, given what has happened since it was
enqueued. -/
structure Awaits (vouch : Rimeaddr → PacketId → Prop) (bp : BufferedPacket)
    (ns : Option NeighborSet) (a : SendArgs) (m : List Action) : Prop where
  flags : bp.p.hdr.flags = PacketFlags.broadcast
  id : bp.p.hdr.id = a.id
  counted : bp.timesSent.toNat ≤ timesTransmitted a.id m
  neighbors : ∃ s, ns = some s ∧ ∀ n ∈ s.addrs, n ∈ bp.unackedNs.addrs ∨ vouch n a.id

theorem Awaits.cons {vouch : Rimeaddr → PacketId → Prop} {bp : BufferedPacket}
    (h : Awaits vouch bp ns a m) : Awaits vouch bp ns a (x :: m) :=
  ⟨h.flags, h.id, h.counted.trans timesTransmitted_le_cons, h.neighbors⟩

/-- The invariant of a node with address `own`. -/
structure Ledger (vouch : Rimeaddr → PacketId → Prop) (own : Rimeaddr) (c : Ec) : Prop where
  slots : ∀ t, ∀ i ∈ c.sq.prioHeads t, ∃ ns a m, EnqueuedSince c.trace t i ns a m ∧
    (t = .neighborData → Awaits vouch (c.sq.item i) ns a m)
  departures : Departures vouch c.trace
  /-- Who acknowledges a packet answers for it. -/
  acks : ∀ t, ∀ i ∈ c.sq.prioHeads t,
    (c.sq.item i).p.hdr.isPacketFlagSet PacketFlags.ack = true →
      vouch (c.sq.item i).p.hdr.sender (c.sq.item i).p.hdr.id
  frames : ∀ ch i f, .frame ch i f ∈ c.trace → f.hdr.isPacketFlagSet PacketFlags.ack = true →
    vouch f.hdr.sender f.hdr.id
  /-- The node answers for the packets in its duplicate queue. -/
  dupes : ∀ id ∈ c.dq.toList, vouch own id

/-- What may happen to a connection between an enqueue and a free. -/
structure Changes (vouch : Rimeaddr → PacketId → Prop) (own : Rimeaddr) (c c' : Ec)
    (l : List Action) : Prop where
  lists : c'.sq.prioHeads = c.sq.prioHeads
  packet : ∀ i, (c'.sq.item i).p = (c.sq.item i).p
  trace : c'.trace = l ++ c.trace
  slots : ∀ x ∈ l, x.slot = none
  frames : ∀ ch i f, .frame ch i f ∈ l → f.hdr.isPacketFlagSet PacketFlags.ack = true →
    vouch f.hdr.sender f.hdr.id
  counted : ∀ i ∈ c.sq.prioHeads .neighborData, (c'.sq.item i).timesSent.toNat ≤
    (c.sq.item i).timesSent.toNat + timesTransmitted (c.sq.item i).p.hdr.id l
  unacked : ∀ i n, n ∈ (c.sq.item i).unackedNs.addrs →
    n ∈ (c'.sq.item i).unackedNs.addrs ∨ vouch n (c.sq.item i).p.hdr.id
  dupes : ∀ id ∈ c'.dq.toList, id ∈ c.dq.toList ∨ vouch own id

namespace Ledger

variable {vouch vouch' : Rimeaddr → PacketId → Prop} {own : Rimeaddr}

theorem mono (h : Ledger vouch own c) (hvouch : ∀ n id, vouch n id → vouch' n id) :
    Ledger vouch' own c := by
  refine ⟨fun t i hi => ?_, fun l₁ i l₂ ns a m hl hsince => ?_, fun t i hi hack => ?_,
    fun ch i f hf hack => ?_, fun id hid => ?_⟩
  · obtain ⟨ns, a, m, hsince, hawaits⟩ := h.slots t i hi
    refine ⟨ns, a, m, hsince, fun ht => ?_⟩
    obtain ⟨hflags, hid, hcounted, s, hs, hns⟩ := hawaits ht
    exact ⟨hflags, hid, hcounted, s, hs, fun n hn => (hns n hn).imp_right (hvouch n _)⟩
  · obtain ⟨s, hs, hsent⟩ := h.departures l₁ i l₂ ns a m hl hsince
    exact ⟨s, hs, hsent.imp_right fun hall n hn => hvouch n _ (hall n hn)⟩
  · exact hvouch _ _ (h.acks t i hi hack)
  · exact hvouch _ _ (h.frames ch i f hf hack)
  · exact hvouch _ _ (h.dupes id hid)

theorem opened : Ledger vouch own .opened := by
  refine ⟨fun t i hi => ?_, fun l₁ i l₂ ns a m hl => ?_, fun t i hi => ?_, fun ch i f hf => ?_,
    fun id hid => ?_⟩
  · exact absurd hi List.not_mem_nil
  · simp [Ec.opened] at hl
  · exact absurd hi List.not_mem_nil
  · exact absurd hf List.not_mem_nil
  · exact absurd hid List.not_mem_nil

theorem changes (h : Ledger vouch own c) (hc : Changes vouch own c c' l) : Ledger vouch own c' := by
  refine ⟨fun t i hi => ?_, ?_, fun t i hi => ?_, fun ch i f hf hack => ?_, fun id hid => ?_⟩
  · rw [hc.lists] at hi
    obtain ⟨ns, a, m, hsince, hawaits⟩ := h.slots t i hi
    have halone : ∀ x ∈ l, x.slot ≠ some i := fun x hx => by rw [hc.slots x hx]; simp
    refine ⟨ns, a, l ++ m, hc.trace ▸ hsince.append halone, fun ht => ?_⟩
    subst ht
    obtain ⟨hflags, hid, hcounted, s, hs, hns⟩ := hawaits rfl
    refine ⟨by rw [hc.packet]; exact hflags, by rw [hc.packet]; exact hid, ?_, s, hs, fun n hn => ?_⟩
    · have hcount := hc.counted i hi
      rw [hid] at hcount
      rw [timesTransmitted_append]
      omega
    · rcases hns n hn with hn | hn
      · exact hid ▸ hc.unacked i n hn
      · exact .inr hn
  · rw [hc.trace]
    exact h.departures.append hc.slots
  · rw [hc.lists] at hi
    rw [hc.packet]
    exact h.acks t i hi
  · rw [hc.trace] at hf
    rcases List.mem_append.mp hf with hf | hf
    · exact hc.frames ch i f hf hack
    · exact h.frames ch i f hf hack
  · rcases hc.dupes id hid with hid | hid
    · exact h.dupes id hid
    · exact hid

/-- A packet that is freed had been sent often enough if it was for the neighbours, or nobody is
awaited for it. -/
theorem free (h : Ledger vouch own c) (hi : i ∈ c.sq.prioHeads t)
    (hdone : t = .neighborData → maxTimesSentMesh ≤ (c.sq.item i).timesSent ∨
      (c.sq.item i).unackedNs.addrs = []) : Ledger vouch own (c.freePacket i) := by
  have hitem : ∀ j, (c.freePacket i).sq.item j = c.sq.item j := fun j => PacketBuffer.free_item
  obtain ⟨ns₀, a₀, m₀, hsince₀, hawaits₀⟩ := h.slots t i hi
  refine ⟨fun t' j hj => ?_, ?_, fun t' j hj => ?_, fun ch k f hf => ?_, h.dupes⟩
  · obtain ⟨hj, hne⟩ := PacketBuffer.mem_free.mp hj
    obtain ⟨ns, a, m, hsince, hawaits⟩ := h.slots t' j hj
    have hslot : (Action.free i).slot ≠ some j := fun heq => hne (Option.some.inj heq).symm
    refine ⟨ns, a, .free i :: m, hsince.cons hslot, fun ht => ?_⟩
    rw [hitem]
    exact (hawaits ht).cons
  · refine Departures.cons h.departures fun k ns a m hk hsince => ?_
    cases hk
    -- the packet that is freed is the one that was enqueued there last
    obtain ⟨rfl, rfl, rfl, rfl⟩ := hsince₀.unique hsince
    obtain ⟨-, -, hcounted, s, hs, hns⟩ := hawaits₀ rfl
    refine ⟨s, hs, ?_⟩
    rcases hdone rfl with hspent | hnil
    · exact .inl (le_trans (UInt8.le_iff_toNat_le.mp hspent) hcounted)
    · refine .inr fun n hn => (hns n hn).resolve_left ?_
      rw [hnil]
      exact List.not_mem_nil
  · rw [hitem]
    exact h.acks t' j (PacketBuffer.mem_free.mp hj).1
  · rcases List.mem_cons.mp hf with heq | hf
    · cases heq
    · exact h.frames ch k f hf

/-- A packet that is enqueued begins to be awaited. -/
theorem enqueued {bp : BufferedPacket} (h : Ledger vouch own c) (hsq : c.sq.Enqueued t i bp c'.sq)
    (hdq : c'.dq = c.dq) (htrace : c'.trace = .enqueue t i ns a :: c.trace)
    (hawaits : t = .neighborData → Awaits vouch bp ns a [])
    (hack : bp.p.hdr.isPacketFlagSet PacketFlags.ack = true → vouch bp.p.hdr.sender bp.p.hdr.id) :
    Ledger vouch own c' := by
  have hmem : ∀ {t' j}, j ∈ c'.sq.prioHeads t' → j = i ∧ t' = t ∨ j ≠ i ∧ j ∈ c.sq.prioHeads t' := by
    intro t' j hj
    rw [hsq.prioHeads, mem_addTail] at hj
    rcases hj with hj | ⟨ht, hj⟩
    · exact .inr ⟨fun heq => hsq.fresh t' (heq ▸ hj), hj⟩
    · exact .inl ⟨hj, ht⟩
  refine ⟨fun t' j hj => ?_, ?_, fun t' j hj hflag => ?_, fun ch k f hf => ?_, hdq ▸ h.dupes⟩
  · rw [htrace]
    rcases hmem hj with ⟨rfl, rfl⟩ | ⟨hne, hj⟩
    · have hsince : EnqueuedSince (.enqueue t' j ns a :: c.trace) t' j ns a [] :=
        ⟨⟨c.trace, rfl⟩, fun x hx => absurd hx List.not_mem_nil⟩
      exact ⟨ns, a, [], hsince, fun ht => hsq.item_self.symm ▸ hawaits ht⟩
    · obtain ⟨ns', a', m, hsince, hawaits'⟩ := h.slots t' j hj
      have hslot : (Action.enqueue t i ns a).slot ≠ some j :=
        fun heq => hne (Option.some.inj heq).symm
      refine ⟨ns', a', .enqueue t i ns a :: m, hsince.cons hslot, fun ht => ?_⟩
      rw [hsq.item_of_ne j hne]
      exact (hawaits' ht).cons
  · rw [htrace]
    refine Departures.cons h.departures fun k ns' a' m hk => ?_
    cases hk
  · rcases hmem hj with ⟨rfl, rfl⟩ | ⟨hne, hj⟩
    · rw [hsq.item_self] at hflag ⊢
      exact hack hflag
    · rw [hsq.item_of_ne j hne] at hflag ⊢
      exact h.acks t' j hj hflag
  · rw [htrace] at hf
    rcases List.mem_cons.mp hf with heq | hf
    · cases heq
    · exact h.frames ch k f hf

end Ledger

/-! ### Between an enqueue and a free -/

namespace Changes

variable {vouch : Rimeaddr → PacketId → Prop} {own : Rimeaddr}

theorem of_sq (hsq : c'.sq = c.sq) (htrace : c'.trace = l ++ c.trace)
    (hslots : ∀ x ∈ l, x.slot = none)
    (hframes : ∀ ch i f, .frame ch i f ∈ l → f.hdr.isPacketFlagSet PacketFlags.ack = true →
      vouch f.hdr.sender f.hdr.id)
    (hdupes : ∀ id ∈ c'.dq.toList, id ∈ c.dq.toList ∨ vouch own id) : Changes vouch own c c' l := by
  refine ⟨by rw [hsq], fun i => by rw [hsq], htrace, hslots, hframes, fun i _ => ?_, fun i n hn => ?_,
    hdupes⟩
  · rw [hsq]
    omega
  · rw [hsq]
    exact .inl hn

/-- One action that says nothing of a slot and sends no acknowledgement. -/
theorem of_action (hsq : c'.sq = c.sq) (hdq : c'.dq = c.dq) (htrace : c'.trace = x :: c.trace)
    (hslot : x.slot = none)
    (hframe : ∀ ch i f, x = .frame ch i f → f.hdr.isPacketFlagSet PacketFlags.ack = true →
      vouch f.hdr.sender f.hdr.id) : Changes vouch own c c' [x] := by
  refine of_sq hsq htrace (fun y hy => ?_) (fun ch i f hf => ?_) fun id hid => .inl (hdq ▸ hid)
  · rw [List.mem_singleton] at hy
    rw [hy, hslot]
  · exact hframe ch i f (List.mem_singleton.mp hf).symm

theorem of_same (h : c.Same c') : Changes vouch own c c' [] := by
  refine of_sq h.sq h.trace (fun x hx => ?_) (fun ch i f hf => ?_) fun id hid => .inl (h.dq ▸ hid)
  · exact absurd hx List.not_mem_nil
  · exact absurd hf List.not_mem_nil

/-- The count of the packet in slot `i` grows; if it is one for the neighbours, a frame has been
sent for it. -/
theorem count (hi : i ∈ c.sq.prioHeads t) (hsq : c'.sq = c.sq.modify i .incrementTimesSent)
    (hdq : c'.dq = c.dq) (htrace : c'.trace = x :: c.trace) (hslot : x.slot = none)
    (hframe : ∀ ch i f, x = .frame ch i f → f.hdr.isPacketFlagSet PacketFlags.ack = false)
    (hsent : t = .neighborData → 1 ≤ timesTransmitted (c.sq.item i).p.hdr.id [x]) :
    Changes vouch own c c' [x] := by
  have hitem : ∀ j, j ≠ i → c'.sq.item j = c.sq.item j := fun j hj => by
    rw [hsq, PacketBuffer.modify_item_of_ne _ hj]
  have hself : c'.sq.item i = (c.sq.item i).incrementTimesSent := by
    rw [hsq, PacketBuffer.modify_item_self]
  refine ⟨by rw [hsq]; rfl, fun j => ?_, htrace, fun y hy => ?_, fun ch k f hf hack => ?_,
    fun j hj => ?_, fun j n hn => .inl ?_, fun id hid => .inl (hdq ▸ hid)⟩
  · by_cases hji : j = i
    · rw [hji, hself]
      rfl
    · rw [hitem j hji]
  · rw [List.mem_singleton] at hy
    rw [hy, hslot]
  · rw [hframe ch k f (List.mem_singleton.mp hf).symm] at hack
    cases hack
  · by_cases hji : j = i
    · subst hji
      have hone := hsent (c.sq.unique _ _ j hi hj)
      rw [hself]
      change ((c.sq.item j).timesSent + 1).toNat ≤ _
      rw [UInt8.toNat_add]
      change ((c.sq.item j).timesSent.toNat + 1) % 256 ≤ _
      omega
    · rw [hitem j hji]
      omega
  · by_cases hji : j = i
    · rw [hji, hself]
      exact hji ▸ hn
    · rw [hitem j hji]
      exact hn

/-- A neighbour that answers for the packet in slot `i` is awaited no longer. -/
theorem erase {n : Rimeaddr} (hn : vouch n (c.sq.item i).p.hdr.id) :
    Changes vouch own c { c with sq := c.sq.modify i (.neighborAcked n) } [] := by
  have hkeep : ∀ j, ((c.sq.modify i (.neighborAcked n)).item j).p = (c.sq.item j).p ∧
      ((c.sq.modify i (.neighborAcked n)).item j).timesSent = (c.sq.item j).timesSent ∧
      ∀ m ∈ (c.sq.item j).unackedNs.addrs,
        m ∈ ((c.sq.modify i (.neighborAcked n)).item j).unackedNs.addrs ∨
          vouch m (c.sq.item j).p.hdr.id := by
    intro j
    by_cases hji : j = i
    · subst hji
      rw [PacketBuffer.modify_item_self]
      refine ⟨rfl, rfl, fun m hm => ?_⟩
      by_cases hmn : m = n
      · exact .inr (hmn ▸ hn)
      · exact .inl ((List.mem_erase_of_ne hmn).mpr hm)
    · rw [PacketBuffer.modify_item_of_ne _ hji]
      exact ⟨rfl, rfl, fun m hm => .inl hm⟩
  refine ⟨rfl, fun j => (hkeep j).1, rfl, fun x hx => absurd hx List.not_mem_nil,
    fun ch k f hf => absurd hf List.not_mem_nil, fun j _ => ?_, fun j m hm => (hkeep j).2.2 m hm,
    fun id hid => .inl hid⟩
  change ((c.sq.modify i (.neighborAcked n)).item j).timesSent.toNat ≤ _
  rw [(hkeep j).2.1]
  exact Nat.le_add_right _ _

end Changes

/-! ### Moves -/

theorem targetedFrame_hdr {p : Packet} {bp : BufferedPacket} {f : Frame}
    (h : Ec.targetedFrame p bp = some f) :
    f.hdr.id = p.hdr.id ∧ f.hdr.isPacketFlagSet PacketFlags.ack = false := by
  unfold Ec.targetedFrame at h
  simp only at h
  split at h
  · cases h
  · cases h
    exact ⟨rfl, by rw [isPacketFlagSet_initUnicastPacket]; decide⟩
  · cases h
    exact ⟨rfl, by rw [isPacketFlagSet_initMulticastPacket]; decide⟩

/-- A frame built from a packet that was handed over has its identity. -/
theorem neighborDataFrame_hdr {p : Packet} {bp : BufferedPacket} {f : Frame}
    (hflags : p.hdr.flags = PacketFlags.broadcast) (h : Ec.neighborDataFrame p bp = some f) :
    f.hdr.id = p.hdr.id ∧ f.hdr.isPacketFlagSet PacketFlags.ack = false := by
  unfold Ec.neighborDataFrame at h
  split at h
  · split at h
    · exact targetedFrame_hdr h
    · cases h
      refine ⟨rfl, ?_⟩
      rw [Header.isPacketFlagSet, hflags]
      decide
  · cases h

/-- The packet that is sent next is sent under its own identity. -/
def Ec.SendsOwnId (c : Ec) : Prop :=
  ∀ i ∈ c.sq.first .neighborData, ∀ j ∈ c.unspent .neighborData maxTimesSentMesh,
    (c.sq.item i).p.hdr.id = (c.sq.item j).p.hdr.id

instance (c : Ec) : Decidable c.SendsOwnId := by unfold Ec.SendsOwnId; infer_instance

/-- The surroundings of a node with address `own`: it sends packets it answers for, receives
acknowledgements from those that answer for what they acknowledge, and sends neighbour data
under its own identity. -/
def MoveEnv.answering (vouch : Rimeaddr → PacketId → Prop) (own : Rimeaddr) : MoveEnv where
  sends a := vouch own a.id
  acks hdr := vouch hdr.sender hdr.id
  addr addr := addr = own
  fires c radio := radio = true → c.SendsOwnId

section Moves

variable {vouch : Rimeaddr → PacketId → Prop} {own : Rimeaddr}

namespace Ledger

/-- Packets that have been sent often enough are dropped. -/
theorem drops (h : Ledger vouch own c) (hdrops : Ec.Drops .neighborData maxTimesSentMesh c c') :
    Ledger vouch own c' := by
  induction hdrops with
  | refl => exact h
  | tail _ hdrop ih =>
    obtain ⟨i, hi, hspent, rfl⟩ := hdrop
    exact ih.free hi fun _ => .inl hspent

theorem sendNeighborData (h : Ledger vouch own c) {radio : Bool}
    (hown : radio = true → c.SendsOwnId) (hsend : c.sendNeighborData radio = .ok c') :
    Ledger vouch own c' := by
  obtain ⟨c₁, hdrops, hfirst, hsent⟩ := Ec.sendNeighborData_cases hsend
  have hc₁ : Ledger vouch own c₁ := h.drops hdrops
  cases hsent with
  | emptied => exact hc₁
  | refused => exact hc₁.changes (.of_same (Ec.same_ctimerSet _))
  | @sent i j f hradio hhead hleft hframe =>
    have hi : i ∈ c.sq.prioHeads .neighborData := PacketBuffer.mem_of_first hhead
    have hj : j ∈ c₁.sq.prioHeads .neighborData := PacketBuffer.mem_of_first (hfirst.trans hleft)
    obtain ⟨ns, a, m, -, hawaits⟩ := h.slots _ i hi
    obtain ⟨hid, hdata⟩ := neighborDataFrame_hdr (hawaits rfl).flags hframe
    refine hc₁.changes (.count hj rfl rfl rfl rfl (fun ch k f' hf' => ?_) fun _ => ?_)
    · cases hf'
      exact hdata
    · -- the frame counts for the packet whose count grows
      have hids : f.hdr.id = (c₁.sq.item j).p.hdr.id := by
        rw [hdrops.item, ← hown hradio i hhead j hleft]
        exact hid
      change 1 ≤ ([f].filter Frame.isData).countP _
      rw [List.filter_singleton, Frame.isData, hdata]
      simp [hids]

theorem ackRecv (h : Ledger vouch own c) {timer : Timer} {hdr : Header}
    (hvouch : vouch hdr.sender hdr.id) : Ledger vouch own (EcNode.ackRecv timer hdr c) := by
  unfold EcNode.ackRecv
  cases hfind : c.sq.find (originatorSeqnoCmp hdr) with
  | none => exact h
  | some i =>
    obtain ⟨⟨t, hi⟩, hcmp⟩ := PacketBuffer.mem_of_find hfind
    have hid : (c.sq.item i).p.hdr.id = hdr.id := by simpa [originatorSeqnoCmp] using hcmp
    have herased : Ledger vouch own { c with sq := c.sq.modify i (.neighborAcked hdr.sender) } :=
      h.changes (.erase (hid ▸ hvouch))
    simp only
    split
    · next hall =>
      have hfree := herased.free (t := t) hi fun _ => .inr (List.isEmpty_iff.mp hall)
      exact hfree.changes (.of_same (Ec.same_ctimerSet timer))
    · exact herased

/-- A pair that is stored is one the node answers for. -/
theorem store (h : Ledger vouch own c) (hid : vouch own id) :
    Ledger vouch own (c.storePacketForDupeChecks id) := by
  unfold Ec.storePacketForDupeChecks
  split
  · exact h
  · have hchanges : Changes vouch own c ({ c with dq := Ec.dqPush c.dq id }.log (.store id))
        [.store id] := by
      refine .of_sq rfl rfl (fun x hx => ?_) (fun ch i f hf => ?_) fun id' hid' => ?_
      · rw [List.mem_singleton] at hx
        rw [hx]
        rfl
      · cases List.mem_singleton.mp hf
      · change id' ∈ (Ec.dqPush c.dq id).toList at hid'
        rw [Ec.toList_dqPush] at hid'
        rcases List.mem_cons.mp (List.mem_of_mem_take hid') with rfl | hmem
        · exact .inr hid
        · exact .inl hmem
    exact h.changes hchanges

end Ledger

/-- **A move keeps the ledger.** -/
theorem Move.ledger (h : Move (.answering vouch own) c c') (hc : Ledger vouch own c) :
    Ledger vouch own c' := by
  cases h with
  | quiet h => exact hc.changes (.of_same h)
  | @data _ t i ns a _ hns _ _ hsq hdq htrace =>
    refine hc.enqueued hsq hdq htrace (fun ht => ?_) fun hack => ?_
    · obtain ⟨s, rfl⟩ := Option.isSome_iff_exists.mp (hns ht)
      refine ⟨rfl, rfl, Nat.zero_le _, s, rfl, fun n hn => .inl ?_⟩
      exact List.mem_reverse.mpr hn
    · change (initBroadcastPacket 0 a.hops a.originator a.sender a.seqno).isPacketFlagSet _ = true
        at hack
      rw [isPacketFlagSet_initBroadcastPacket] at hack
      exact absurd hack (by decide)
  | @store _ a ha hnew hsq hdq htrace =>
    have hstore : Ledger vouch own (c.storePacketForDupeChecks a.id) := hc.store ha
    rw [Ec.store_of_not_isDupe hnew] at hstore
    exact hstore.changes (.of_same ⟨hsq, hdq, htrace⟩)
  | @control _ t i ns a bp ht hflags hsq hdq htrace =>
    refine hc.enqueued hsq hdq htrace (fun heq => ?_) fun hack => ?_
    · rcases ht with rfl | rfl <;> cases heq
    · rw [hflags] at hack
      cases hack
  | @confirm _ t i ns a bp addr ht hown hdr hdupe hhdr hsq hdq htrace =>
    -- an acknowledgement is enqueued only for a stored pair, and the node answers for those
    have hvouch : vouch own hdr.id := hc.dupes _ (Ec.isDupe_iff.mp hdupe)
    refine hc.enqueued hsq hdq htrace (fun heq => ?_) fun _ => ?_
    · rcases ht with rfl | rfl <;> cases heq
    · rw [hhdr, show addr = own from hown]
      exact hvouch
  | acked _ hhdr => exact hc.ackRecv hhdr
  | @once _ t ch i body ht _ hi hsq hdq htrace =>
    -- the frame is sent first, then its slot is freed
    have hlog : Ledger vouch own (c.log (.frame ch i ⟨(c.sq.item i).p.hdr, body⟩)) := by
      refine hc.changes (.of_action rfl rfl rfl rfl fun ch' k f hf hack => ?_)
      cases hf
      exact hc.acks t i hi hack
    have hfree := hlog.free (t := t) hi fun heq => by
      subst heq
      rcases ht with h | h | h | h <;> cases h
    exact hfree.changes (.of_same ⟨hsq, hdq, htrace⟩)
  | neighborData hfires h => exact hc.sendNeighborData hfires h
  | @targeted _ i f hi hf hsq hdq htrace =>
    refine hc.changes (.count hi hsq hdq htrace rfl (fun ch k f' hf' => ?_) fun heq => by cases heq)
    cases hf'
    exact (targetedFrame_hdr hf).2
  | meshed hi hsq hdq htrace =>
    exact hc.changes (.count hi hsq hdq htrace rfl (fun ch k f' hf' => by cases hf') fun heq => by
      cases heq)
  | dropped hi hsq hdq htrace =>
    have hfree := hc.free hi fun heq => by cases heq
    exact hfree.changes (.of_same ⟨hsq, hdq, htrace⟩)

theorem Moves.ledger (h : Moves (.answering vouch own) c c') (hc : Ledger vouch own c) :
    Ledger vouch own c' := by
  induction h with
  | refl => exact hc
  | tail _ hmove ih => exact hmove.ledger ih

end Moves

end EmergencyNet
