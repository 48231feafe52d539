import EmergencyNet.Conn.Ledger

/-!
# What is known of the packets that wait

A fact about the packet in a slot, the call that enqueued it there and what has happened since
then is an invariant of the connection when it holds of a packet that is just enqueued and is
kept by every change that leaves the packet on its list.

## Main definitions

* `Ec.Slots` — a fact holds of every packet on a list.
* `Ec.Keeps` — a change that enqueues nothing, and what it does to the packets it leaves.

## Main results

* `Ec.Slots.keeps`, `Ec.Slots.enqueued` — **the two ways such a fact is carried on.**
* `Ec.Keeps.of_ackRecv`, `of_free`, `of_modify`, `trans` — the changes of the connection.
-/

namespace EmergencyNet

variable {c c' c₁ : Ec} {t : MsgType} {i : ℕ} {ns : Option NeighborSet} {a : SendArgs} {x : Action}
  {l : List Action}

namespace Ec

/-- What is known of a packet: its list, its slot, the packet itself, what it was enqueued with,
and the actions since then. -/
abbrev SlotFact :=
  MsgType → ℕ → BufferedPacket → Option NeighborSet → SendArgs → List Action → Prop

/-- Every packet on a list was enqueued there last, and `P` is known of it. -/
def Slots (P : SlotFact) (c : Ec) : Prop :=
  ∀ t, ∀ i ∈ c.sq.prioHeads t,
    ∃ ns a m, EnqueuedSince c.trace t i ns a m ∧ P t i (c.sq.item i) ns a m

/-- The packets on the lists of `c'` are on those of `c`, `R` relates what they were to what they
are, and the actions in between leave their slots alone and meet `Q` for each of them. -/
structure Keeps (R : BufferedPacket → BufferedPacket → Prop) (Q : Action → ℕ → Prop)
    (c c' : Ec) : Prop where
  waiting : ∀ t, ∀ i ∈ c'.sq.prioHeads t, i ∈ c.sq.prioHeads t
  packet : ∀ t, ∀ i ∈ c'.sq.prioHeads t, R (c.sq.item i) (c'.sq.item i)
  trace : ∃ l, c'.trace = l ++ c.trace ∧
    ∀ x ∈ l, ∀ t, ∀ i ∈ c'.sq.prioHeads t, x.slot ≠ some i ∧ Q x i

namespace Keeps

variable {R : BufferedPacket → BufferedPacket → Prop} {Q : Action → ℕ → Prop}

/-- The packets themselves are left alone. -/
theorem of_item (hR : ∀ bp, R bp bp) (hitem : ∀ j, c'.sq.item j = c.sq.item j)
    (hwaiting : ∀ t, ∀ j ∈ c'.sq.prioHeads t, j ∈ c.sq.prioHeads t)
    (htrace : c'.trace = l ++ c.trace)
    (hl : ∀ x ∈ l, ∀ t, ∀ j ∈ c'.sq.prioHeads t, x.slot ≠ some j ∧ Q x j) : Keeps R Q c c' :=
  ⟨hwaiting, fun _ j _ => by rw [hitem j]; exact hR _, l, htrace, hl⟩

theorem of_sq (hR : ∀ bp, R bp bp) (hsq : c'.sq = c.sq) (htrace : c'.trace = c.trace) :
    Keeps R Q c c' := by
  refine of_item (l := []) hR (fun j => by rw [hsq]) (fun t j hj => hsq ▸ hj) htrace ?_
  intro x hx
  exact absurd hx List.not_mem_nil

theorem of_same (hR : ∀ bp, R bp bp) (h : c.Same c') : Keeps R Q c c' := of_sq hR h.sq h.trace

/-- One action is recorded that concerns no slot. -/
theorem of_action (hR : ∀ bp, R bp bp) (hsq : c'.sq = c.sq) (htrace : c'.trace = x :: c.trace)
    (hslot : x.slot = none) (hQ : ∀ j, Q x j) : Keeps R Q c c' := by
  refine of_item (l := [x]) hR (fun j => by rw [hsq]) (fun t j hj => hsq ▸ hj) htrace ?_
  intro y hy t j _
  rw [List.mem_singleton.mp hy, hslot]
  exact ⟨by simp, hQ j⟩

/-- The packet in slot `i` is freed, after actions that concern no slot. -/
theorem of_free (hR : ∀ bp, R bp bp) (hsq : c'.sq = c.sq.free i)
    (htrace : c'.trace = .free i :: (l ++ c.trace)) (hl : ∀ x ∈ l, x.slot = none)
    (hQ : ∀ x ∈ .free i :: l, ∀ j, j ≠ i → Q x j) : Keeps R Q c c' := by
  have hmem : ∀ {t j}, j ∈ c'.sq.prioHeads t → j ∈ c.sq.prioHeads t ∧ j ≠ i := fun hj =>
    PacketBuffer.mem_free.mp (hsq ▸ hj)
  refine of_item (l := .free i :: l) hR (fun j => ?_) (fun t j hj => (hmem hj).1) htrace ?_
  · rw [hsq]
    exact PacketBuffer.free_item
  · intro x hx t j hj
    refine ⟨?_, hQ x hx j (hmem hj).2⟩
    rcases List.mem_cons.mp hx with rfl | hx
    · exact fun heq => (hmem hj).2 (Option.some.inj heq).symm
    · rw [hl x hx]
      simp

/-- The packet in slot `i` is changed, and at most actions that concern no slot are recorded. -/
theorem of_modify {f : BufferedPacket → BufferedPacket} (hR : ∀ bp, R bp bp)
    (hf : R (c.sq.item i) (f (c.sq.item i))) (hsq : c'.sq = c.sq.modify i f)
    (htrace : c'.trace = l ++ c.trace) (hl : ∀ x ∈ l, x.slot = none)
    (hQ : ∀ x ∈ l, ∀ t, ∀ j ∈ c.sq.prioHeads t, Q x j) : Keeps R Q c c' := by
  have hheads : c'.sq.prioHeads = c.sq.prioHeads := by rw [hsq, PacketBuffer.modify_prioHeads]
  refine ⟨fun t j hj => hheads ▸ hj, fun t j _ => ?_, l, htrace, fun x hx t j hj => ?_⟩
  · rw [hsq]
    by_cases hji : j = i
    · rw [hji, PacketBuffer.modify_item_self]
      exact hf
    · rw [PacketBuffer.modify_item_of_ne _ hji]
      exact hR _
  · rw [hl x hx]
    exact ⟨by simp, hQ x hx t j (hheads ▸ hj)⟩

theorem trans (hR : ∀ {bp bp₁ bp'}, R bp bp₁ → R bp₁ bp' → R bp bp') (h : Keeps R Q c c₁)
    (h' : Keeps R Q c₁ c') : Keeps R Q c c' := by
  obtain ⟨l, hl, haction⟩ := h.trace
  obtain ⟨l', hl', haction'⟩ := h'.trace
  refine ⟨fun t i hi => h.waiting t i (h'.waiting t i hi), fun t i hi => ?_, l' ++ l, ?_,
    fun x hx t i hi => ?_⟩
  · exact hR (h.packet t i (h'.waiting t i hi)) (h'.packet t i hi)
  · rw [hl', hl, List.append_assoc]
  · rcases List.mem_append.mp hx with hx | hx
    · exact haction' x hx t i hi
    · exact haction x hx t i (h'.waiting t i hi)

/-- Packets that have been sent often enough are dropped. -/
theorem of_drops {limit : UInt8} (hR : ∀ bp, R bp bp)
    (htrans : ∀ {bp bp₁ bp'}, R bp bp₁ → R bp₁ bp' → R bp bp') (hQ : ∀ i j, j ≠ i → Q (.free i) j)
    (h : Drops t limit c c') : Keeps R Q c c' := by
  induction h with
  | refl => exact of_same hR (.refl c)
  | tail _ hdrop ih =>
    obtain ⟨i, -, -, rfl⟩ := hdrop
    refine ih.trans htrans (of_free (l := []) hR rfl rfl ?_ fun x hx j hj => ?_)
    · exact fun x hx => absurd hx List.not_mem_nil
    · rw [List.mem_singleton.mp hx]
      exact hQ i j hj

/-- An acknowledgement takes a neighbour off a set, and frees the packet when that was the last. -/
theorem of_ackRecv (timer : Timer) (hdr : Header) (hR : ∀ bp, R bp bp)
    (hacked : ∀ bp, bp.unackedNs.addrs.erase hdr.sender ≠ [] → R bp (bp.neighborAcked hdr.sender))
    (hQ : ∀ i j, j ≠ i → Q (.free i) j) : Keeps R Q c (EcNode.ackRecv timer hdr c) := by
  obtain ⟨-, heq⟩ | ⟨i, -, hsq, -, htrace⟩ := EcNode.ackRecv_cases timer hdr c
  · rw [heq]
    exact of_same hR (.refl c)
  · have hmem : ∀ {t j}, j ∈ (EcNode.ackRecv timer hdr c).sq.prioHeads t →
        j ∈ c.sq.prioHeads t ∧ (j = i → (c.sq.item i).unackedNs.addrs.erase hdr.sender ≠ []) :=
      fun hj => PacketBuffer.mem_acked.mp (hsq ▸ hj)
    refine ⟨fun t j hj => (hmem hj).1, fun t j hj => ?_, ?_⟩
    · rw [hsq]
      by_cases hji : j = i
      · rw [hji, PacketBuffer.acked_item_self]
        exact hacked _ ((hmem hj).2 hji)
      · rw [PacketBuffer.acked_item_of_ne hji]
        exact hR _
    · rcases htrace with ⟨hnil, htrace⟩ | ⟨-, htrace⟩
      · refine ⟨[.free i], htrace, fun x hx t j hj => ?_⟩
        have hne : j ≠ i := fun hji => (hmem hj).2 hji hnil
        rw [List.mem_singleton.mp hx]
        exact ⟨fun heq => hne (Option.some.inj heq).symm, hQ i j hne⟩
      · exact ⟨[], htrace, fun x hx => absurd hx List.not_mem_nil⟩

end Keeps

namespace Slots

variable {P : SlotFact}

theorem opened : Ec.opened.Slots P := fun _ _ hi => absurd hi List.not_mem_nil

/-- A fact that survives what happens to a packet is carried on. -/
theorem keeps {R : BufferedPacket → BufferedPacket → Prop} {Q : Action → ℕ → Prop}
    (h : c.Slots P) (hk : Keeps R Q c c')
    (hP : ∀ {t i bp bp' ns a m l}, P t i bp ns a m → R bp bp' → (∀ x ∈ l, Q x i) →
      P t i bp' ns a (l ++ m)) : c'.Slots P := by
  intro t i hi
  obtain ⟨l, htrace, hl⟩ := hk.trace
  obtain ⟨ns, a, m, hsince, hbp⟩ := h t i (hk.waiting t i hi)
  refine ⟨ns, a, l ++ m, ?_, hP hbp (hk.packet t i hi) fun x hx => (hl x hx t i hi).2⟩
  rw [htrace]
  exact hsince.append fun x hx => (hl x hx t i hi).1

/-- A packet that is enqueued begins to wait, and the others go on. -/
theorem enqueued {bp : BufferedPacket} (h : c.Slots P) (hsq : c.sq.Enqueued t i bp c'.sq)
    (htrace : c'.trace = .enqueue t i ns a :: c.trace) (hbp : P t i bp ns a [])
    (hP : ∀ {t' j bp' ns' a' m}, P t' j bp' ns' a' m → P t' j bp' ns' a' (.enqueue t i ns a :: m)) :
    c'.Slots P := by
  intro t' j hj
  rw [hsq.prioHeads, mem_addTail] at hj
  rw [htrace]
  rcases hj with hj | ⟨rfl, rfl⟩
  · have hne : j ≠ i := fun heq => hsq.fresh t' (heq ▸ hj)
    obtain ⟨ns', a', m, hsince, hwaits⟩ := h t' j hj
    have hslot : (Action.enqueue t i ns a).slot ≠ some j :=
      fun heq => hne (Option.some.inj heq).symm
    rw [hsq.item_of_ne j hne]
    exact ⟨ns', a', _, hsince.cons hslot, hP hwaits⟩
  · have hsince : EnqueuedSince (.enqueue t' j ns a :: c.trace) t' j ns a [] :=
      ⟨⟨c.trace, rfl⟩, fun x hx => absurd hx List.not_mem_nil⟩
    rw [hsq.item_self]
    exact ⟨ns, a, [], hsince, hbp⟩

end Slots

end Ec

end EmergencyNet
