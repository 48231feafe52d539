import EmergencyNet.Conn.AckFrame
import EmergencyNet.Conn.CodeMoves
import EmergencyNet.Conn.Slots

/-!
# How often a packet is sent

Neighbour data, multicast and unicast data, and mesh packets stay on their lists and are sent
again until they are acknowledged or given up.  The senders of neighbour data and of mesh
packets drop a packet that has been sent often enough before they send the next; the sender of
multicast and unicast data has no such limit.  So a packet is handed over at most
`MAX_TIMES_SENT_MESH` times as long as the last one is not run for a packet that was sent that
often already.

## Main definitions

* `handovers` — how often the packet in a slot was given to the radio or to the mesh.
* `Ec.HandedAtMost` — no packet on the three lists was handed over more often than that.
* `EcNode.RetriesWithin` — a multicast or unicast packet is sent while it was sent less often.

## Main results

* `EcNode.handedAtMost_of_reachable` — **no packet is handed over more than ten times in a run
  whose events meet the condition.**
* `EcNode.not_handedAtMost` — a unicast packet whose receiver is silent is sent eleven times.
-/

namespace EmergencyNet

variable {σ ε : Type*} {c c' c₁ : Ec} {t : MsgType} {i j : ℕ} {ns : Option NeighborSet}
  {a : SendArgs} {x : Action} {l m : List Action}

/-! ### Handing over -/

/-- The lists whose packets are sent until they are acknowledged or given up. -/
def MsgType.IsReliable (t : MsgType) : Prop :=
  t = .neighborData ∨ t = .multicastUnicastData ∨ t = .meshData

instance (t : MsgType) : Decidable t.IsReliable := by unfold MsgType.IsReliable; infer_instance

/-- The action gives the packet in slot `i` to the radio or to the mesh. -/
def Action.handsOver (i : ℕ) : Action → Bool
  | .frame _ j _ => j == i
  | .mesh j _ _ => j == i
  | _ => false

/-- How often the packet in slot `i` was given to the radio or to the mesh. -/
def handovers (i : ℕ) (l : List Action) : ℕ := l.countP (Action.handsOver i)

theorem handovers_append : handovers i (l ++ m) = handovers i l + handovers i m :=
  List.countP_append

theorem handovers_cons_le : handovers i (x :: m) ≤ handovers i m + 1 := by
  rw [handovers, List.countP_cons]
  split
  · exact le_rfl
  · exact Nat.le_succ _

theorem handovers_eq_zero (h : ∀ x ∈ l, x.handsOver i = false) : handovers i l = 0 := by
  rw [handovers, List.countP_eq_zero]
  intro x hx
  rw [h x hx]
  simp

/-- No packet that is sent until it is acknowledged or given up was handed over more than `n`
times since it was enqueued, and none was counted more often: a frame may be built from a packet
that was just dropped, and is counted for the next one. -/
def Ec.HandedAtMost (n : ℕ) : Ec → Prop := Ec.Slots fun t i bp _ _ m =>
  t.IsReliable → handovers i m ≤ n ∧ bp.timesSent.toNat ≤ n

/-! ### Counting -/

/-- A packet was handed over at most as often as it was counted, and not too often. -/
structure Tally (i : ℕ) (bp : BufferedPacket) (m : List Action) : Prop where
  counted : handovers i m ≤ bp.timesSent.toNat
  limited : bp.timesSent ≤ maxTimesSentMesh

/-- All packets that are sent until they are acknowledged or given up are counted. -/
def Ec.Tallied : Ec → Prop := Ec.Slots fun t i bp _ _ m => t.IsReliable → Tally i bp m

namespace Ec

/-- A change that sends nothing. -/
abbrev Unsent : Ec → Ec → Prop :=
  Keeps (fun bp bp' => bp'.timesSent = bp.timesSent) fun x i => x.handsOver i = false

theorem Unsent.trans (h : c.Unsent c₁) (h' : c₁.Unsent c') : c.Unsent c' :=
  Keeps.trans (fun heq heq' => heq'.trans heq) h h'

theorem Unsent.of_same (h : c.Same c') : c.Unsent c' := Keeps.of_same (fun _ => rfl) h

theorem Unsent.of_free (hsq : c'.sq = c.sq.free i) (htrace : c'.trace = .free i :: (l ++ c.trace))
    (hslot : ∀ x ∈ l, x.slot = none) (hl : ∀ x ∈ l, ∀ j, j ≠ i → x.handsOver j = false) :
    c.Unsent c' := by
  refine Keeps.of_free (fun _ => rfl) hsq htrace hslot fun x hx j hj => ?_
  rcases List.mem_cons.mp hx with rfl | hx
  · rfl
  · exact hl x hx j hj

theorem Unsent.of_drops {limit : UInt8} (h : Drops t limit c c') : c.Unsent c' :=
  Keeps.of_drops (fun _ => rfl) (fun heq heq' => heq'.trans heq) (fun _ _ _ => rfl) h

namespace Tallied

theorem unsent (h : c.Tallied) (hs : c.Unsent c') : c'.Tallied := by
  refine Slots.keeps h hs fun htally hcount hl ht => ?_
  obtain ⟨hcounted, hlimited⟩ := htally ht
  refine ⟨?_, by rw [hcount]; exact hlimited⟩
  rw [handovers_append, handovers_eq_zero hl, Nat.zero_add, hcount]
  exact hcounted

/-- A packet that is enqueued has not been sent. -/
theorem enqueued {bp : BufferedPacket} (h : c.Tallied) (hsq : c.sq.Enqueued t i bp c'.sq)
    (htrace : c'.trace = .enqueue t i ns a :: c.trace) (hbp : bp.timesSent = 0) : c'.Tallied := by
  refine Slots.enqueued h hsq htrace (fun _ => ⟨Nat.zero_le _, ?_⟩) fun htally ht => ?_
  · rw [hbp]
    decide
  · exact ⟨(htally ht).counted, (htally ht).limited⟩

/-- A packet that has been sent less often than the limit is handed over and counted. -/
theorem handed (h : c.Tallied) (hi : i ∈ c.sq.prioHeads t)
    (hless : (c.sq.item i).timesSent < maxTimesSentMesh)
    (hsq : c'.sq = c.sq.modify i .incrementTimesSent) (htrace : c'.trace = x :: c.trace)
    (hslot : x.slot = none) (hx : ∀ t, ∀ j ∈ c.sq.prioHeads t, j ≠ i → x.handsOver j = false) :
    c'.Tallied := by
  intro t' j hj
  rw [hsq, PacketBuffer.modify_prioHeads] at hj
  obtain ⟨ns, a, m, hsince, htally⟩ := h t' j hj
  have hnone : x.slot ≠ some j := by
    rw [hslot]
    simp
  refine ⟨ns, a, x :: m, htrace ▸ hsince.cons hnone, fun ht => ?_⟩
  obtain ⟨hcounted, hlimited⟩ := htally ht
  rw [hsq]
  by_cases hji : j = i
  · subst hji
    -- the count is small, so it does not overflow
    have hsmall : (c.sq.item j).timesSent.toNat < 10 := UInt8.lt_iff_toNat_lt.mp hless
    have hcount : ((c.sq.modify j .incrementTimesSent).item j).timesSent.toNat =
        (c.sq.item j).timesSent.toNat + 1 := by
      rw [PacketBuffer.modify_item_self]
      change ((c.sq.item j).timesSent + 1).toNat = _
      rw [UInt8.toNat_add]
      change ((c.sq.item j).timesSent.toNat + 1) % 256 = _
      omega
    refine ⟨?_, UInt8.le_iff_toNat_le.mpr ?_⟩
    · rw [hcount]
      exact handovers_cons_le.trans (Nat.succ_le_succ hcounted)
    · rw [hcount]
      exact hsmall
  · rw [PacketBuffer.modify_item_of_ne _ hji]
    refine ⟨?_, hlimited⟩
    have hnot : ∀ y ∈ [x], y.handsOver j = false := fun y hy => by
      rw [List.mem_singleton.mp hy]
      exact hx t' j hj hji
    change handovers j ([x] ++ m) ≤ _
    rw [handovers_append, handovers_eq_zero hnot, Nat.zero_add]
    exact hcounted

/-- Application code and receptions send nothing. -/
theorem codeMove {E : MayEnqueue} (h : c.Tallied) (hmove : CodeMove E c c') : c'.Tallied := by
  cases hmove with
  | same hsq htrace => exact h.unsent (.of_sq (fun _ => rfl) hsq htrace)
  | recorded hx hsq htrace =>
    rcases hx with ⟨id, rfl⟩ | ⟨k, r, rfl⟩
    · exact h.unsent (.of_action (fun _ => rfl) hsq htrace rfl fun _ => rfl)
    · exact h.unsent (.of_action (fun _ => rfl) hsq htrace rfl fun _ => rfl)
  | enqueued _ hsq htrace => exact h.enqueued hsq htrace rfl
  | freed hsq htrace =>
    refine h.unsent (Unsent.of_free (l := []) hsq htrace (fun x hx => ?_) fun x hx => ?_)
    · exact absurd hx List.not_mem_nil
    · exact absurd hx List.not_mem_nil
  | acked timer hdr =>
    exact h.unsent (.of_ackRecv timer hdr (fun _ => rfl) (fun _ _ => rfl) fun _ _ _ => rfl)

theorem codeMoves {E : MayEnqueue} (h : c.Tallied) (hmoves : CodeMoves E c c') : c'.Tallied := by
  induction hmoves with
  | refl => exact h
  | tail _ hmove ih => exact ih.codeMove hmove

/-! ### The senders -/

/-- A packet that is sent once leaves its list. -/
theorem sendOnce {ch : Channel} {timer : Timer} {body : BufferedPacket → List UInt8} {radio : Bool}
    (h : c.Tallied) : (sendOnce t ch timer body radio c).Tallied := by
  unfold Ec.sendOnce
  cases hfirst : c.sq.first t with
  | none => exact h
  | some i =>
    cases radio with
    | false => exact h.unsent (.of_same (same_ctimerSet timer))
    | true =>
      have hsent : c.Unsent ((c.log (.frame ch i ⟨(c.sq.item i).p.hdr,
          body (c.sq.item i)⟩)).freePacket i) := by
        refine Unsent.of_free (l := [.frame ch i _]) rfl rfl (fun x hx => ?_) fun x hx j hj => ?_
        · rw [List.mem_singleton.mp hx]
          rfl
        · rw [List.mem_singleton.mp hx]
          exact beq_eq_false_iff_ne.mpr hj.symm
      exact h.unsent (hsent.trans (.of_same (same_ite timer)))

theorem sendNeighborAck {radio : Bool} (h : c.Tallied) : (sendNeighborAck radio c).Tallied := by
  unfold Ec.sendNeighborAck
  exact h.sendOnce

theorem sendMulticastUnicastAck {radio : Bool} (h : c.Tallied) :
    (sendMulticastUnicastAck radio c).Tallied := by
  unfold Ec.sendMulticastUnicastAck
  exact h.sendOnce

theorem sendBroadcastData {radio : Bool} (h : c.Tallied) :
    (sendBroadcastData radio c).Tallied := by
  unfold Ec.sendBroadcastData
  exact h.sendOnce

theorem sendTimesynchData {radio : Bool} (h : c.Tallied) :
    (sendTimesynchData radio c).Tallied := by
  unfold Ec.sendTimesynchData
  exact h.sendOnce

end Tallied

theorem Tallied.sendNeighborData {radio : Bool} (h : c.Tallied)
    (hsend : c.sendNeighborData radio = .ok c') : c'.Tallied := by
  obtain ⟨c₁, hdrops, hfirst₁, hsent⟩ := sendNeighborData_cases hsend
  have hc₁ : c₁.Tallied := h.unsent (.of_drops hdrops)
  cases hsent with
  | emptied => exact hc₁
  | refused => exact hc₁.unsent (.of_same (same_ctimerSet _))
  | @sent i j f _ hfirst hleft _ =>
    have hj : j ∈ c₁.sq.prioHeads .neighborData := PacketBuffer.mem_of_first (hfirst₁.trans hleft)
    have hless : (c₁.sq.item j).timesSent < maxTimesSentMesh := by
      rw [hdrops.item]
      exact lt_of_unspent hleft
    refine hc₁.handed (x := .frame .neighbor i f) hj hless rfl rfl rfl fun t k hk hkj => ?_
    -- the frame is built from the first packet before any was dropped
    refine beq_eq_false_iff_ne.mpr fun hik => hkj ?_
    subst hik
    have ht : t = .neighborData :=
      c.sq.unique t _ i ((hdrops.heads t).subset hk) (PacketBuffer.mem_of_first hfirst)
    subst ht
    have hkeeps := PacketBuffer.first_of_sublist hfirst (hdrops.heads _) hk
    exact Option.some.inj (hkeeps.symm.trans (hfirst₁.trans hleft))

theorem Tallied.sendMulticastUnicastData {radio : Bool} (h : c.Tallied)
    (hless : radio = true → ∀ i ∈ c.sq.first .multicastUnicastData,
      (c.sq.item i).timesSent < maxTimesSentMesh)
    (hsend : c.sendMulticastUnicastData radio = .ok c') : c'.Tallied := by
  unfold Ec.sendMulticastUnicastData at hsend
  split at hsend
  · cases hsend
    exact h
  · next i hfirst =>
    split at hsend
    · cases hsend
    · next f _ =>
      cases radio with
      | false =>
        cases hsend
        exact h.unsent (.of_same (same_ctimerSet _))
      | true =>
        cases hsend
        refine h.handed (x := .frame .broadcast i f) (PacketBuffer.mem_of_first hfirst)
          (hless rfl i hfirst) rfl rfl rfl fun t k _ hk => ?_
        exact beq_eq_false_iff_ne.mpr hk.symm

theorem Tallied.sendMeshData (h : c.Tallied) : c.sendMeshData.Tallied := by
  obtain ⟨hdrops, hleft, hfirst⟩ := dropSpent_drops .meshData maxTimesSent _ c rfl
  unfold Ec.sendMeshData
  generalize dropSpent maxTimesSent (c.sq.prioHeads .meshData) c = res at hdrops hleft hfirst ⊢
  obtain ⟨c₁, left⟩ := res
  have hc₁ : c₁.Tallied := h.unsent (.of_drops hdrops)
  cases left with
  | none => exact hc₁
  | some i =>
    have hi : i ∈ c₁.sq.prioHeads .meshData := PacketBuffer.mem_of_first (hfirst.trans hleft.symm)
    have hless : (c₁.sq.item i).timesSent < maxTimesSentMesh := by
      rw [hdrops.item]
      exact UInt8.lt_trans (lt_of_unspent hleft.symm) (by decide)
    refine hc₁.handed (x := .mesh i _ _) hi hless rfl rfl rfl fun t k _ hk => ?_
    exact beq_eq_false_iff_ne.mpr hk.symm

end Ec

/-! ### Runs -/

namespace EcNode

variable {A : Application σ ε} {s s' : EcNode σ}

/-- When the timer for multicast and unicast data goes off and the radio takes the frame, the
packet that is sent has been sent less than `MAX_TIMES_SENT_MESH` times. -/
def RetriesWithin (s : EcNode σ) : NodeEvent ε → Prop
  | .timer .multicastUnicastData true =>
    (s.conn.timers .multicastUnicastData).listed = true →
      ∀ i ∈ s.conn.sq.first .multicastUnicastData,
        (s.conn.sq.item i).timesSent < maxTimesSentMesh
  | _ => True

instance (s : EcNode σ) (ev : NodeEvent ε) : Decidable (s.RetriesWithin ev) := by
  rcases ev with _ | _ | _ | ⟨_ | _ | _ | _ | _ | _ | _ | _, _ | _⟩ | _ | _ <;>
    unfold RetriesWithin <;> infer_instance

theorem timerCallback_tallied {t : Timer} {radio : Bool} (hc : s.conn.Tallied)
    (hless : t = .multicastUnicastData → radio = true → ∀ i ∈ s.conn.sq.first .multicastUnicastData,
      (s.conn.sq.item i).timesSent < maxTimesSentMesh)
    (h : s.timerCallback A.toEcCallbacks t radio = .ok s') : s'.conn.Tallied := by
  cases t with
  | neighborAck =>
    rw [← Except.ok.inj h]
    exact hc.sendNeighborAck
  | broadcastData =>
    rw [← Except.ok.inj h]
    exact hc.sendBroadcastData
  | multicastUnicastAck =>
    rw [← Except.ok.inj h]
    exact hc.sendMulticastUnicastAck
  | timesynchData =>
    rw [← Except.ok.inj h]
    exact hc.sendTimesynchData
  | neighborData =>
    obtain ⟨c₁, hsend, rfl⟩ := tryConn_eq_ok.mp h
    exact hc.sendNeighborData hsend
  -- the one sender that does not look at the count
  | multicastUnicastData =>
    obtain ⟨c₁, hsend, rfl⟩ := tryConn_eq_ok.mp h
    exact hc.sendMulticastUnicastData (hless rfl) hsend
  | meshData =>
    rw [← Except.ok.inj h]
    exact hc.sendMeshData
  | timesynch => exact hc.codeMoves (timesynchAsLeader_codeMoves (E := fun _ _ => True) trivial h)

theorem step_tallied {ev : NodeEvent ε} (hok : s.RetriesWithin ev) (hc : s.conn.Tallied)
    (h : s.step A ev = .ok s') : s'.conn.Tallied := by
  by_cases hev : ∃ t radio, ev = .timer t radio
  · obtain ⟨t, radio, rfl⟩ := hev
    have htake : (s.onConn (Ec.ctimerTake t)).conn.Tallied :=
      hc.unsent (.of_same (Ec.same_ctimerTake t))
    rw [step] at h
    split at h
    · next hlisted =>
      refine timerCallback_tallied htake ?_ h
      rintro rfl rfl i hi
      exact hok hlisted i hi
    · rw [← Except.ok.inj h]
      exact htake
  · push Not at hev
    have hcode : CodeMoves (fun _ _ => True) s.conn s'.conn := by
      refine step_codeMoves hev (fun _ _ => trivial) (fun r _ call _ => ?_) h
      cases call <;> simp [EcCall.Meets]
    exact hc.codeMoves hcode

/-- **No packet is handed over more than ten times** in a run in which a multicast or unicast
packet that has been sent ten times is not sent again. -/
theorem handedAtMost_of_reachable (hs : (connMachine A).ReachableWhen RetriesWithin s) :
    s.conn.HandedAtMost 10 := by
  have htallied : s.conn.Tallied := by
    refine hs.invariant (I := fun s => s.conn.Tallied) ?_ ?_
    · intro s hinit
      rw [show s.conn = .opened from hinit]
      exact Ec.Slots.opened
    · rintro s ev s' hc hok ⟨-, hstep⟩
      exact step_tallied hok hc hstep
  intro t i hi
  obtain ⟨ns, a, m, hsince, htally⟩ := htallied t i hi
  refine ⟨ns, a, m, hsince, fun ht => ?_⟩
  have hle : (s.conn.sq.item i).timesSent.toNat ≤ 10 :=
    UInt8.le_iff_toNat_le.mp (htally ht).limited
  exact ⟨(htally ht).counted.trans hle, hle⟩

/-! ### A receiver that is silent -/

/-- Node `1.0` sends a packet to `2.0`, and its timer goes off `n` times. -/
def silentRun (n : ℕ) : List (NodeEvent (List Effect)) :=
  .process [.call (.reliableUnicast ⟨2, 0⟩ ⟨⟨1, 0⟩, ⟨1, 0⟩, 0, 5, []⟩)] ::
    (List.replicate n [.expire .multicastUnicastData, .timer .multicastUnicastData true]).flatten

/-- The packet may be sent ten times. -/
theorem handedAtMost_silent : ∃ s : EcNode Unit,
    (connMachine pairApp).ReachableWhen RetriesWithin s ∧
      s.conn.sq.prioHeads .multicastUnicastData = [0] ∧ handovers 0 s.conn.trace = 10 ∧
      s.conn.HandedAtMost 10 := by
  have hrun : ((Machine.run (advance pairApp) (silentRun 10) (⟨.opened, ()⟩ : EcNode Unit)).map
      fun s => (s.conn.sq.prioHeads .multicastUnicastData, handovers 0 s.conn.trace)) =
        some ([0], 10) := by decide +kernel
  obtain ⟨s, hrun, h⟩ := Option.map_eq_some_iff.mp hrun
  obtain ⟨hheads, hsent⟩ := Prod.mk.inj h
  have hinit : (connMachine pairApp).init ⟨.opened, ()⟩ := rfl
  have hs : (connMachine pairApp).ReachableWhen RetriesWithin s :=
    Machine.ReachableWhen.of_run (b := fun s ev => decide (s.RetriesWithin ev))
      (fun _ _ => of_decide_eq_true) (fun _ _ _ => connMachine_step_of_advance) (silentRun 10)
      (.init hinit) (by decide +kernel) hrun
  exact ⟨s, hs, hheads, hsent, handedAtMost_of_reachable hs⟩

/-- **A unicast packet whose receiver is silent is sent an eleventh time.** -/
theorem not_handedAtMost : ∃ s : EcNode Unit,
    (connMachine pairApp).Reachable s ∧ ¬ s.conn.HandedAtMost 10 := by
  have hrun : ((Machine.run (advance pairApp) (silentRun 11) (⟨.opened, ()⟩ : EcNode Unit)).map
      fun s => (s.conn.sq.prioHeads .multicastUnicastData, s.conn.trace.drop 12,
        (s.conn.trace.take 12).all fun x => decide (x.slot ≠ some 0),
        handovers 0 (s.conn.trace.take 12))) =
      some ([0], [.enqueue .multicastUnicastData 0 (some (.single ⟨2, 0⟩))
        ⟨⟨1, 0⟩, ⟨1, 0⟩, 0, 5, []⟩], true, 11) := by decide +kernel
  obtain ⟨s, hrun, h⟩ := Option.map_eq_some_iff.mp hrun
  simp only [Prod.mk.injEq] at h
  obtain ⟨hheads, hdrop, halone, hsent⟩ := h
  refine ⟨s, connMachine_reachable_of_run rfl hrun, fun hmost => ?_⟩
  have hmem : 0 ∈ s.conn.sq.prioHeads .multicastUnicastData := by
    rw [hheads]
    exact List.mem_singleton.mpr rfl
  obtain ⟨ns, a, m, hsince, hle⟩ := hmost .multicastUnicastData 0 hmem
  -- twelve actions lie behind the call that enqueued the packet
  have hsince' : EnqueuedSince s.conn.trace .multicastUnicastData 0 (some (.single ⟨2, 0⟩))
      ⟨⟨1, 0⟩, ⟨1, 0⟩, 0, 5, []⟩ (s.conn.trace.take 12) := by
    refine ⟨⟨[], ?_⟩, fun x hx => of_decide_eq_true (List.all_eq_true.mp halone x hx)⟩
    rw [← hdrop, List.take_append_drop]
  obtain ⟨-, -, -, rfl⟩ := hsince.unique hsince'
  have hten := (hle (.inr (.inl rfl))).1
  rw [hsent] at hten
  omega

end EcNode

end EmergencyNet
