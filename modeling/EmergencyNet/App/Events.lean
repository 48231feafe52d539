import EmergencyNet.App.Spec

/-!
# What an event does to the routing state

Every event of the application ends in one of a few ways as far as the routing state and
the announced paths are concerned.  `Outcome` lists them, each up to `SameRoute`; all
invariants of the routing state are proved by cases on it.

## Main definitions

* `Node.pathWritten`, `Node.sensed`, `Node.sentNodeInfo` — the elementary changes.
* `Node.Configured` — what `setup_parse` leaves.
* `Node.PathOutcome`, `Node.Outcome` — the ways a path packet and an event can end.

## Main results

* `Node.outcome_step` — **every completed event ends in one of these ways.**
-/

namespace EmergencyNet

namespace Node

variable {s t s' : Node}

/-! ### Elementary changes -/

/-- The node with another neighbour table. -/
def withTable (ns : Neighbors) (s : Node) : Node := { s with ns := ns }

/-- The node with the entry in slot `i` overwritten. -/
def withEntry (i : ℕ) (nn : NeighborNode) (s : Node) : Node := s.withTable (s.ns.set i nn)

/-- The entry in slot `i` after a path packet of its neighbour. -/
def entryAfter (s : Node) (i : ℕ) : PathPacket → NeighborNode
  | .bestPathUpdate bp => (s.ns.item i).setBestPath bp
  | .nodeInfo coord bp => ((s.ns.item i).setCoordinate s.coordinateNode coord).setBestPath bp

/-- The node after a path packet has been written to slot `i`, before anything is decided. -/
def pathWritten (i : ℕ) (p : PathPacket) (s : Node) : Node := s.withEntry i (s.entryAfter i p)

/-- The `BEST_PATH_UPDATE_PACKET` and `NODE_INFO_PACKET` cases of `ec_neighbors_recv`. -/
def pathRecv (i : ℕ) : PathPacket → Node → Node
  | .bestPathUpdate bp => bestPathUpdateRecv i bp
  | .nodeInfo coord bp => nodeInfoRecv i coord bp

/-- The node after it has sent its node info. -/
def sentNodeInfo (s : Node) : Node := { s with state := { s.state with hasSentNodeInfo := true } }

/-- The node with a new sensor reading. -/
def sensed (light : UInt16) (s : Node) : Node :=
  { s with currentSensorsMetric := uint16ToUint8 light }

/-- The node hears the packets of its neighbours: it is neither in reset mode nor the sink. -/
def Listens (s : Node) : Prop := s.state.isResetMode = false ∧ s.state.isSinkNode = false

instance (s : Node) : Decidable s.Listens := by unfold Listens; infer_instance

@[simp] theorem entryAfter_bp (s : Node) (i : ℕ) (p : PathPacket) : (s.entryAfter i p).bp = p.bp := by
  cases p <;> rfl

@[simp] theorem entryAfter_addr (s : Node) (i : ℕ) (p : PathPacket) :
    (s.entryAfter i p).addr = (s.ns.item i).addr := by
  cases p <;> rfl

@[simp] theorem pathWritten_used (i : ℕ) (p : PathPacket) :
    (s.pathWritten i p).ns.used = s.ns.used := rfl

@[simp] theorem pathWritten_item_self (i : ℕ) (p : PathPacket) :
    (s.pathWritten i p).ns.item i = s.entryAfter i p := QueueBuffer.set_item_self ..

theorem pathWritten_item_of_ne {i j : ℕ} (p : PathPacket) (h : j ≠ i) :
    (s.pathWritten i p).ns.item j = s.ns.item j := QueueBuffer.set_item_of_ne _ _ h

/-! ### Elementary changes see the routing state only -/

theorem sameRoute_withTable (h : SameRoute s t) (ns : Neighbors) :
    SameRoute (s.withTable ns) (t.withTable ns) where
  routing := by
    change { t.routing with ns := ns } = { s.routing with ns := ns }
    rw [h.routing]
  isBlinking := h.isBlinking
  isResetMode := h.isResetMode

theorem sameRoute_withEntry (h : SameRoute s t) (i : ℕ) (nn : NeighborNode) :
    SameRoute (s.withEntry i nn) (t.withEntry i nn) := by
  unfold withEntry
  rw [h.ns]
  exact sameRoute_withTable h _

theorem sameRoute_pathWritten (h : SameRoute s t) (i : ℕ) (p : PathPacket) :
    SameRoute (s.pathWritten i p) (t.pathWritten i p) := by
  have he : t.entryAfter i p = s.entryAfter i p := by
    cases p <;> simp only [entryAfter, h.ns, h.coordinateNode]
  unfold pathWritten
  rw [he]
  exact sameRoute_withEntry h i _

theorem sameRoute_toBest (h : SameRoute s t) : SameRoute s.toBest t.toBest where
  routing := by
    change { t.routing with bpn := t.findBestExitPathNeighbor } =
      { s.routing with bpn := s.findBestExitPathNeighbor }
    rw [h.routing, h.findBest]
  isBlinking := h.isBlinking
  isResetMode := h.isResetMode

theorem sameRoute_sentNodeInfo (h : SameRoute s t) : SameRoute s.sentNodeInfo t.sentNodeInfo where
  routing := by
    change { t.routing with hasSentNodeInfo := true } = { s.routing with hasSentNodeInfo := true }
    rw [h.routing]
  isBlinking := h.isBlinking
  isResetMode := h.isResetMode

theorem sameRoute_sensed (h : SameRoute s t) (light : UInt16) :
    SameRoute (s.sensed light) (t.sensed light) where
  routing := by
    change { t.routing with currentSensorsMetric := uint16ToUint8 light } =
      { s.routing with currentSensorsMetric := uint16ToUint8 light }
    rw [h.routing]
  isBlinking := h.isBlinking
  isResetMode := h.isResetMode

theorem sameRoute_setBurning (h : SameRoute s t) (on : Bool) :
    SameRoute (setBurning on s) (setBurning on t) where
  routing := by
    change { t.routing with isBurning := on } = { s.routing with isBurning := on }
    rw [h.routing]
  isBlinking := h.isBlinking
  isResetMode := h.isResetMode

theorem sweep_of_sameRoute (h : SameRoute s t) : t.sweep = s.sweep := by
  simp only [sweep, h.ns, h.bpn]

theorem sameRoute_dropSilent (h : SameRoute s t) : SameRoute s.dropSilent t.dropSilent where
  routing := by
    change { t.routing with ns := clearKeepAlive t.sweep.ns.used t.sweep.ns, bpn := t.sweep.bpn } =
      { s.routing with ns := clearKeepAlive s.sweep.ns.used s.sweep.ns, bpn := s.sweep.bpn }
    rw [h.routing, sweep_of_sameRoute h]
  isBlinking := h.isBlinking
  isResetMode := h.isResetMode

theorem switches_of_sameRoute (h : SameRoute s t) (p : NeighborPtr) :
    t.Switches p ↔ s.Switches p := by
  simp only [Switches, h.bpn, h.findBest, h.deref]

/-! ### Path packets -/

/-- The ways a path packet for slot `i` can end: `s.PathOutcome i p s' ads` says that it takes
`s` to `s'`, up to what `SameRoute` leaves open, and announces the paths `ads`. -/
inductive PathOutcome (s : Node) (i : ℕ) (p : PathPacket) : Node → List PathPacket → Prop
  /-- The first node info is answered with the node's own. -/
  | first {s' : Node} (hinfo : ∃ coord bp, p = .nodeInfo coord bp)
      (hsent : s.state.hasSentNodeInfo = false)
      (h : SameRoute (s.pathWritten i p).toBest.sentNodeInfo s') :
      PathOutcome s i p s' (s.announce
        (.nodeInfo s.coordinateNode (s.pathWritten i p).toBest.bestNeighborBpToOurBp))
  /-- The node switches and announces its path. -/
  | switched {s' : Node} (hsent : s.state.hasSentNodeInfo = true ∨ ∃ bp, p = .bestPathUpdate bp)
      (hsw : (s.pathWritten i p).Switches (.slot i)) (h : SameRoute (s.pathWritten i p).toBest s') :
      PathOutcome s i p s'
        (s.announce (.bestPathUpdate (s.pathWritten i p).toBest.bestNeighborBpToOurBp))
  /-- The node keeps its best neighbour and says nothing. -/
  | kept {s' : Node} (hsent : s.state.hasSentNodeInfo = true ∨ ∃ bp, p = .bestPathUpdate bp)
      (hsw : ¬ (s.pathWritten i p).Switches (.slot i) ∨
        s.state.hasSentNodeInfo = true ∧ s.state.isExitNode = true)
      (h : SameRoute (s.pathWritten i p) s') : PathOutcome s i p s' []

/-- The two outcomes of `update_bpn_and_broadcast_new_path_if_changed` after a path packet. -/
theorem pathOutcome_of_update {i : ℕ} {p : PathPacket} {f : Node × Bool → Node}
    (h0 : adverts s.calls = [])
    (hsent : s.state.hasSentNodeInfo = true ∨ ∃ bp, p = .bestPathUpdate bp)
    (hf : ∀ r, SameRoute r.1 (f r)) (hadv : ∀ r, adverts (f r).calls = adverts r.1.calls)
    (hr : pathRecv i p s = f ((s.pathWritten i p).updateBpnAndBroadcastNewPathIfChanged (.slot i))) :
    PathOutcome s i p (pathRecv i p s) (adverts (pathRecv i p s).calls) := by
  have hw : adverts (s.pathWritten i p).calls = [] := h0
  rw [hr, hadv]
  obtain ⟨hsw, -, hroute, hads⟩ | ⟨hsw, -, hroute, hads⟩ :=
    updateBpn_cases (.slot i) (s.pathWritten i p)
  · rw [hads, hw]
    exact .switched hsent hsw (hroute.trans (hf _))
  · rw [hads, hw]
    exact .kept hsent (Or.inl hsw) (hroute.trans (hf _))

/-- A path packet ends in one of these ways. -/
theorem pathOutcome_pathRecv (i : ℕ) (p : PathPacket) (h0 : adverts s.calls = []) :
    PathOutcome s i p (pathRecv i p s) (adverts (pathRecv i p s).calls) := by
  cases p with
  | bestPathUpdate bp =>
    refine pathOutcome_of_update (f := fun r => if r.2 then blinkingUpdate r.1 else r.1) h0
      (Or.inr ⟨bp, rfl⟩) (fun r => ?_) (fun r => ?_) rfl
    · split
      exacts [sameRoute_blinkingUpdate, .refl _]
    · split
      exacts [adverts_blinkingUpdate, rfl]
  | nodeInfo coord bp =>
    cases hsent : s.state.hasSentNodeInfo with
    | false =>
      have hr : pathRecv i (.nodeInfo coord bp) s =
          (s.pathWritten i (.nodeInfo coord bp)).updateBpnAndSendNodeInfo.sentNodeInfo := by
        simp only [pathRecv, nodeInfoRecv, hsent]
        rfl
      have hads : adverts (pathRecv i (.nodeInfo coord bp) s).calls = s.announce (.nodeInfo
          s.coordinateNode (s.pathWritten i (.nodeInfo coord bp)).toBest.bestNeighborBpToOurBp) := by
        rw [hr]
        exact adverts_updateBpnAndSendNodeInfo.trans (congrArg (· ++ _) h0)
      rw [hads, hr]
      exact .first ⟨coord, bp, rfl⟩ hsent (sameRoute_sentNodeInfo sameRoute_updateBpnAndSendNodeInfo)
    | true =>
      cases hexit : s.state.isExitNode with
      | true =>
        have hr : pathRecv i (.nodeInfo coord bp) s = s.pathWritten i (.nodeInfo coord bp) := by
          simp only [pathRecv, nodeInfoRecv, hsent, hexit, if_true]
          rfl
        have hads : adverts (pathRecv i (.nodeInfo coord bp) s).calls = [] := hr ▸ h0
        rw [hads, hr]
        exact .kept (Or.inl hsent) (Or.inr ⟨hsent, hexit⟩) (.refl _)
      | false =>
        refine pathOutcome_of_update (f := Prod.fst) h0 (Or.inl hsent) (fun r => .refl _)
          (fun r => rfl) ?_
        simp only [pathRecv, nodeInfoRecv, hsent, hexit, if_true]
        rfl

/-- The outcome of a path packet does not depend on the clock. -/
theorem PathOutcome.of_sameRoute {i : ℕ} {p : PathPacket} {ads : List PathPacket}
    (hst : SameRoute s t) (h : PathOutcome t i p s' ads) : PathOutcome s i p s' ads := by
  have hw := sameRoute_pathWritten hst i p
  cases h with
  | first hinfo hsent h =>
    rw [announce_of_sameRoute hst, hst.coordinateNode, (sameRoute_toBest hw).ourBp]
    exact .first hinfo (hst.hasSentNodeInfo ▸ hsent)
      ((sameRoute_sentNodeInfo (sameRoute_toBest hw)).trans h)
  | switched hsent hsw h =>
    rw [announce_of_sameRoute hst, (sameRoute_toBest hw).ourBp]
    exact .switched (hst.hasSentNodeInfo ▸ hsent) ((switches_of_sameRoute hw _).mp hsw)
      ((sameRoute_toBest hw).trans h)
  | kept hsent hsw h =>
    rw [switches_of_sameRoute hw, hst.hasSentNodeInfo, hst.isExitNode] at hsw
    exact .kept (hst.hasSentNodeInfo ▸ hsent) hsw (hw.trans h)

/-! ### Set-up -/

/-- `addNeighbors` changes the table and the calls only. -/
theorem addNeighbors_eq : ∀ (l : List Rimeaddr) (s : Node), ∃ calls, addNeighbors l s =
    { s with ns := (addNeighbors l s).ns, calls := calls } ∧ adverts calls = adverts s.calls := by
  intro l
  induction l with
  | nil => exact fun s => ⟨s.calls, rfl, rfl⟩
  | cons a rest ih =>
    intro s
    cases hns : neighborsAdd s.ns a with
    | some ns =>
      obtain ⟨calls, heq, hadv⟩ := ih { s with ns := ns }
      exact ⟨calls, by simpa only [addNeighbors, hns] using heq, hadv⟩
    | none =>
      obtain ⟨calls, heq, hadv⟩ := ih (s.assert false)
      exact ⟨calls, by simpa only [addNeighbors, hns, assert] using heq,
        hadv.trans (adverts_calls_assert _)⟩

/-- Every entry in use after `addNeighbors` was in use before or is fresh. -/
theorem mem_addNeighbors : ∀ (l : List Rimeaddr) (s : Node) {i : ℕ},
    i ∈ (addNeighbors l s).ns.used →
      (i ∈ s.ns.used ∧ (addNeighbors l s).ns.item i = s.ns.item i) ∨
        ∃ a, (addNeighbors l s).ns.item i = NeighborNode.fresh a := by
  intro l
  induction l with
  | nil => exact fun s i hi => Or.inl ⟨hi, rfl⟩
  | cons a rest ih =>
    intro s i hi
    cases hns : neighborsAdd s.ns a with
    | none =>
      simp only [addNeighbors, hns] at hi ⊢
      exact ih _ hi
    | some ns =>
      simp only [addNeighbors, hns] at hi ⊢
      obtain ⟨b, hb, hused, hitem, -⟩ := QueueBuffer.pushFront_eq_some hns
      rcases ih _ hi with ⟨hmem, heq⟩ | hfresh
      · rw [heq]
        simp only [hused, List.mem_cons] at hmem
        simp only [hitem]
        rcases hmem with rfl | hmem
        · exact Or.inr ⟨a, Function.update_self ..⟩
        · have hne : i ≠ b := fun h => s.ns.disjoint hb (h ▸ hmem)
          exact Or.inl ⟨hmem, Function.update_of_ne hne ..⟩
      · exact Or.inr hfresh

/-- What `setup_parse` leaves: a node that knows its neighbours by address only, does not
burn and has announced nothing.  `bpn` and the distance in `max_node` are not touched. -/
structure Configured (s t : Node) : Prop where
  ecNs : t.ecNs = true
  bpn : t.bpn = s.bpn
  maxNode : t.maxNode = { s.maxNode with addr := rimeaddrNull, bp := neighborNodeBestPathMax }
  fresh : ∀ i ∈ t.ns.used, ∃ a, t.ns.item i = NeighborNode.fresh a
  hasSentNodeInfo : t.state.hasSentNodeInfo = false
  isBurning : t.state.isBurning = false

/-- `setup_parse` does nothing but set the node up. -/
theorem configured_setupParse (m : List UInt8) (b : Bool) (s : Node) :
    Configured s (setupParse m b s) ∧ adverts (setupParse m b s).calls = adverts s.calls := by
  obtain ⟨calls, heq, hadv⟩ :=
    addNeighbors_eq (SetupPacket.read m).neighbors (setupCleared (SetupPacket.read m) s)
  have hfresh : ∀ i ∈ (addNeighbors (SetupPacket.read m).neighbors
      (setupCleared (SetupPacket.read m) s)).ns.used,
      ∃ a, (addNeighbors (SetupPacket.read m).neighbors
        (setupCleared (SetupPacket.read m) s)).ns.item i = NeighborNode.fresh a := by
    intro i hi
    rcases mem_addNeighbors _ _ hi with ⟨hmem, -⟩ | h
    · exact absurd hmem (List.not_mem_nil)
    · exact h
  unfold setupParse
  simp only
  generalize addNeighbors (SetupPacket.read m).neighbors (setupCleared (SetupPacket.read m) s) = t
    at heq hfresh ⊢
  generalize ((SetupPacket.read m).isExitNode != 0) = isExit
  refine ⟨⟨?_, ?_, ?_, ?_, ?_, ?_⟩, ?_⟩
  · rfl
  · cases isExit <;> (rw [heq]; rfl)
  · cases isExit <;> (rw [heq]; rfl)
  · cases isExit <;> exact hfresh
  · cases isExit <;> (rw [heq]; rfl)
  · cases isExit <;> (rw [heq]; rfl)
  · cases isExit <;> (rw [heq]; exact hadv)

/-! ### The ways an event can end -/

/-- `s.Outcome ev s' ads`: the event `ev` takes `s` to `s'`, up to what `SameRoute` leaves
open, and announces the paths `ads`. -/
inductive Outcome (s : Node) : AppEvent → Node → List PathPacket → Prop
  /-- Nothing that concerns routing. -/
  | quiet {ev s'} (h : SameRoute s s') : Outcome s ev s' []
  | configured {ev s'} (hev : ev.Reconfigures) (h : Configured s s') : Outcome s ev s' []
  /-- A reset of a node whose flash is empty. -/
  | resetMode {ev s'} (hev : ev.Reconfigures) (h : SameRouting s s')
      (hblink : s.state.isBlinking = true → s'.state.isBlinking = true) : Outcome s ev s' []
  | newNeighbor {r s' ns} (hns : neighborsAdd s.ns r.originator = some ns)
      (h : SameRoute (s.withTable ns) s') : Outcome s (.mcUcRecv r) s' []
  | keepAlive {r s' i} (hi : neighborsFindNeighborNode s.ns r.sender = some i)
      (h : SameRoute (s.withEntry i ((s.ns.item i).setHasSentKeepAlive true)) s') :
      Outcome s (.neighborRecv r) s' []
  /-- The initialisation of an exit node. -/
  | initialized {ev s'} (hev : ev.Initializes) (hexit : s.state.isExitNode = true)
      (hsent : s.state.hasSentNodeInfo = false) (h : SameRoute s.toBest.sentNodeInfo s') :
      Outcome s ev s' (s.announce (.nodeInfo s.coordinateNode s.toBest.bestNeighborBpToOurBp))
  | path {r s' ads i p} (hon : s.Listens) (hp : advertOf r.data = some p)
      (hi : neighborsFindNeighborNode s.ns r.sender = some i) (h : PathOutcome s i p s' ads) :
      Outcome s (.neighborRecv r) s' ads
  /-- An abrupt reading that is recorded and nothing more. -/
  | sensed {light s'} (habrupt : s.abruptMetricChangePoll light = true)
      (hkeep : isEmergency light = true ∧ (s.bpn = .null ∨ s.state.isBurning = true) ∨
        isEmergency light = false ∧ s.state.isBlinking = false)
      (h : SameRoute (s.sensed light) s') : Outcome s (.emergencyCheck light) s' []
  /-- An abrupt reading after which the node announces its path. -/
  | sensedSent {light s'} (habrupt : s.abruptMetricChangePoll light = true)
      (hbpn : s.bpn ≠ .null) (hburn : isEmergency light = true → s.state.isBurning = false)
      (h : SameRoute (setBurning (isEmergency light) (s.sensed light)) s')
      (hblink : s'.state.isBlinking = true) :
      Outcome s (.emergencyCheck light) s' (s.announce (.bestPathUpdate
        (setBurning (isEmergency light) (s.sensed light)).bestNeighborBpToOurBp))
  /-- A keep-alive check after which the node says nothing. -/
  | dropped {s' : Node} (hblink : s.state.isBlinking = true)
      (hsw : s.sweep.needBroadcastNewPath = true → ¬ s.dropSilent.Switches .null)
      (h : SameRoute s.dropSilent s') : Outcome s .keepaliveCheck s' []
  /-- A keep-alive check after which the node switches and announces its path. -/
  | droppedSwitched {s' : Node} (hblink : s.state.isBlinking = true)
      (hneed : s.sweep.needBroadcastNewPath = true) (hsw : s.dropSilent.Switches .null)
      (h : SameRoute s.dropSilent.toBest s') :
      Outcome s .keepaliveCheck s' (s.dropSilent.announce
        (.bestPathUpdate s.dropSilent.toBest.bestNeighborBpToOurBp))

/-- An outcome does not depend on the clock. -/
theorem Outcome.of_sameRoute {ev : AppEvent} {ads : List PathPacket} (hst : SameRoute s t)
    (hstate : t.state = s.state) (h : Outcome t ev s' ads) : Outcome s ev s' ads := by
  have hb : t.state.isBlinking = s.state.isBlinking := congrArg NodeState.isBlinking hstate
  have hlisten : t.Listens → s.Listens := by
    unfold Listens
    rw [hstate]
    exact id
  have hann : ∀ p, t.announce p = s.announce p := announce_of_sameRoute hst
  cases h with
  | quiet h => exact .quiet (hst.trans h)
  | configured hev h =>
    exact .configured hev ⟨h.ecNs, h.bpn.trans hst.bpn, hst.maxNode ▸ h.maxNode, h.fresh,
      h.hasSentNodeInfo, h.isBurning⟩
  | resetMode hev h hblink =>
    exact .resetMode hev ⟨h.routing.trans hst.routing⟩ (hblink ∘ hst.isBlinking)
  | newNeighbor hns h => exact .newNeighbor (hst.ns ▸ hns) ((sameRoute_withTable hst _).trans h)
  | keepAlive hi h =>
    rw [hst.ns] at hi h
    exact .keepAlive hi ((sameRoute_withEntry hst _ _).trans h)
  | initialized hev hexit hsent h =>
    rw [hann, hst.coordinateNode, (sameRoute_toBest hst).ourBp]
    exact .initialized hev (hst.isExitNode ▸ hexit) (hst.hasSentNodeInfo ▸ hsent)
      ((sameRoute_sentNodeInfo (sameRoute_toBest hst)).trans h)
  | path hon hp hi h => exact .path (hlisten hon) hp (hst.ns ▸ hi) (h.of_sameRoute hst)
  | sensed habrupt hkeep h =>
    rw [abruptMetricChangePoll, hst.currentSensorsMetric] at habrupt
    rw [hst.bpn, hst.isBurning, hb] at hkeep
    exact .sensed habrupt hkeep ((sameRoute_sensed hst _).trans h)
  | @sensedSent light _ habrupt hbpn hburn h hblink =>
    have hw := sameRoute_setBurning (sameRoute_sensed hst light) (isEmergency light)
    rw [abruptMetricChangePoll, hst.currentSensorsMetric] at habrupt
    rw [hann, hw.ourBp]
    exact .sensedSent habrupt (hst.bpn ▸ hbpn) (hst.isBurning ▸ hburn) (hw.trans h) hblink
  | dropped hblink hsw h =>
    have hw := sameRoute_dropSilent hst
    rw [sweep_of_sameRoute hst, switches_of_sameRoute hw] at hsw
    exact .dropped (hb ▸ hblink) hsw (hw.trans h)
  | droppedSwitched hblink hneed hsw h =>
    have hw := sameRoute_dropSilent hst
    rw [announce_of_sameRoute hw, (sameRoute_toBest hw).ourBp]
    exact .droppedSwitched (hb ▸ hblink) (sweep_of_sameRoute hst ▸ hneed)
      ((switches_of_sameRoute hw _).mp hsw) ((sameRoute_toBest hw).trans h)

theorem Outcome.of_quiet {ev : AppEvent} (h0 : adverts s.calls = []) (h : SameRoute s s')
    (hadv : adverts s'.calls = adverts s.calls) : Outcome s ev s' (adverts s'.calls) := by
  rw [hadv, h0]
  exact .quiet h

/-- Forwarding a packet that carries no path announces no path. -/
theorem adverts_forward {r : RecvArgs} (ht : ∀ t, packetTypeAt r.data = some t →
    t ≠ .bestPathUpdate ∧ t ≠ .nodeInfo) (o : Rimeaddr) (h q : UInt8) :
    adverts (s.reliableBroadcastNs o h q r.payload).calls = adverts s.calls := by
  have hnone : advertOf r.payload = none := by
    unfold advertOf
    rcases Nat.eq_zero_or_pos r.dataLen.toNat with hz | hpos
    · have hp : r.payload = [] := by rw [RecvArgs.payload, hz]; simp [memRead]
      rw [hp]
      rfl
    · have hb : byteAt r.payload 0 = byteAt r.data 0 := by
        obtain ⟨n, hn⟩ := Nat.exists_eq_succ_of_ne_zero (Nat.ne_of_gt hpos)
        rw [RecvArgs.payload, hn]
        cases r.data <;> simp [memRead, byteAt, List.replicate_succ]
      rw [packetTypeAt, hb]
      rw [packetTypeAt] at ht
      split
      · next h => exact absurd rfl (ht _ h).1
      · next h => exact absurd rfl (ht _ h).2
      · rfl
  rw [adverts_reliableBroadcastNs, hnone]
  simp

/-- `initialize_best_path_packet_handler`. -/
theorem outcome_initHandler {ev : AppEvent} (hev : ev.Initializes) (h0 : adverts s.calls = [])
    (hc : Completes s.initializeBestPathPacketHandler.calls) :
    Outcome s ev s.initializeBestPathPacketHandler
      (adverts s.initializeBestPathPacketHandler.calls) := by
  have hcall : adverts (s.call .timesynchOn).calls = [] := by
    rw [calls_call, adverts_append, h0]
    rfl
  unfold initializeBestPathPacketHandler at hc ⊢
  simp only at hc ⊢
  split at hc
  · next hexit =>
    rw [if_pos hexit]
    let t : Node := ({ s.call .timesynchOn with
      state := { (s.call .timesynchOn).state with isResetMode := false } } : Node).assert
        (!s.state.hasSentNodeInfo)
    have hst : SameRoute s t := ⟨⟨rfl⟩, id, fun _ => rfl⟩
    have hsent : s.state.hasSentNodeInfo = false := by
      have hmem : Effect.assert (!s.state.hasSentNodeInfo) ∈ t.updateBpnAndSendNodeInfo.calls := by
        simp [updateBpnAndSendNodeInfo, reliableBroadcastOwn, reliableBroadcastNs, call, assert, t]
      simpa using hc _ hmem
    have hadv : adverts t.updateBpnAndSendNodeInfo.calls =
        s.announce (.nodeInfo s.coordinateNode s.toBest.bestNeighborBpToOurBp) := by
      rw [adverts_updateBpnAndSendNodeInfo, adverts_calls_assert, announce_of_sameRoute hst,
        (sameRoute_toBest hst).ourBp]
      exact congrArg (· ++ _) hcall
    change Outcome s ev t.updateBpnAndSendNodeInfo.sentNodeInfo
      (adverts t.updateBpnAndSendNodeInfo.calls)
    rw [hadv]
    exact .initialized hev hexit hsent (sameRoute_sentNodeInfo
      ((sameRoute_toBest hst).trans sameRoute_updateBpnAndSendNodeInfo))
  · next hexit =>
    rw [if_neg hexit]
    exact .of_quiet h0 ⟨⟨rfl⟩, id, fun _ => rfl⟩ (hcall.trans h0.symm)

/-- `reset_system_packet_handler`. -/
theorem outcome_resetSystem {ev : AppEvent} (hev : ev.Reconfigures) (h0 : adverts s.calls = []) :
    Outcome s ev s.resetSystemPacketHandler (adverts s.resetSystemPacketHandler.calls) := by
  unfold resetSystemPacketHandler
  cases s.flash with
  | none =>
    change Outcome s ev _ (adverts s.calls)
    rw [h0]
    exact .resetMode hev ⟨rfl⟩ id
  | some f =>
    obtain ⟨h, hadv⟩ := configured_setupParse (memRead f setupBufferSize) true s
    change Outcome s ev _ (adverts (setupParse (memRead f setupBufferSize) true s).calls)
    rw [hadv, h0]
    exact .configured hev ⟨h.ecNs, h.bpn, h.maxNode, h.fresh, h.hasSentNodeInfo, h.isBurning⟩

/-- The forwarding of an `INITIALIZE_BEST_PATHS_PACKET` and what follows it. -/
theorem outcome_forwardInit {ev : AppEvent} {r : RecvArgs} (hev : ev.Initializes)
    (h0 : adverts s.calls = [])
    (ht : packetTypeAt r.data = some .initializeBestPaths) {o : Rimeaddr} {h q : UInt8}
    (hc : Completes (s.reliableBroadcastNs o h q r.payload).initializeBestPathPacketHandler.calls) :
    Outcome s ev (s.reliableBroadcastNs o h q r.payload).initializeBestPathPacketHandler
      (adverts (s.reliableBroadcastNs o h q r.payload).initializeBestPathPacketHandler.calls) := by
  have hadv : adverts (s.reliableBroadcastNs o h q r.payload).calls = [] := by
    rw [adverts_forward (fun t h => by rw [ht] at h; cases h; decide), h0]
  exact (outcome_initHandler hev hadv hc).of_sameRoute (sameRoute_reliableBroadcastNs ..) rfl

/-- The forwarding of a `RESET_SYSTEM_PACKET` and what follows it. -/
theorem outcome_forwardReset {ev : AppEvent} {r : RecvArgs} (hev : ev.Reconfigures)
    (h0 : adverts s.calls = [])
    (ht : packetTypeAt r.data = some .resetSystem) {o : Rimeaddr} {h q : UInt8} :
    Outcome s ev (s.reliableBroadcastNs o h q r.payload).resetSystemPacketHandler
      (adverts (s.reliableBroadcastNs o h q r.payload).resetSystemPacketHandler.calls) := by
  have hadv : adverts (s.reliableBroadcastNs o h q r.payload).calls = [] := by
    rw [adverts_forward (fun t h => by rw [ht] at h; cases h; decide), h0]
  exact (outcome_resetSystem hev hadv).of_sameRoute (sameRoute_reliableBroadcastNs ..) rfl

theorem not_completes_assert_false : ¬ Completes (s.assert false).calls := fun h =>
  Bool.noConfusion (h false (by simp))

/-- `ec_broadcasts_recv`. -/
theorem outcome_ecBroadcastsRecv {ev : AppEvent} (r : RecvArgs)
    (hev : packetTypeAt r.data = some .initializeBestPaths → ev.Initializes)
    (hre : packetTypeAt r.data = some .setup ∨ packetTypeAt r.data = some .resetSystem →
      ev.Reconfigures) (h0 : adverts s.calls = []) (hc : Completes (ecBroadcastsRecv r s).calls) :
    Outcome s ev (ecBroadcastsRecv r s) (adverts (ecBroadcastsRecv r s).calls) := by
  unfold ecBroadcastsRecv at hc ⊢
  split
  · exact .of_quiet h0 (.refl s) rfl
  · next hi =>
    rw [if_neg hi] at hc
    split
    · next hsink =>
      rw [if_pos hsink] at hc
      unfold sinkBroadcastsRecv at hc ⊢
      split at hc <;> first
        | exact .of_quiet h0 (.refl s) rfl
        | exact absurd hc not_completes_assert_false
    · next hsink =>
      rw [if_neg hsink] at hc
      unfold sensorBroadcastsRecv at hc ⊢
      split at hc
      · -- an emergency
        refine .of_quiet h0 (((sameRoute_addCoordinateAsBurning _).trans
          (sameRoute_broadcast ..)).trans sameRoute_blinkingInit) ?_
        rw [adverts_blinkingInit, adverts_broadcast, calls_addCoordinateAsBurning]
      · -- the end of one
        refine .of_quiet h0 ((sameRoute_removeCoordinateAsBurning _).trans
          (sameRoute_broadcast ..)) ?_
        rw [adverts_broadcast, calls_removeCoordinateAsBurning]
      · next ht =>
        split at hc
        · next haw =>
          -- only a node that awaits a setup packet takes it
          rw [if_pos haw]
          obtain ⟨h, hadv⟩ := configured_setupParse r.data false
            { s with state := { s.state with isAwaitingSetupPacket := false } }
          rw [hadv]
          change Outcome s ev _ (adverts s.calls)
          rw [h0]
          exact .configured (hre (Or.inl ht))
            ⟨h.ecNs, h.bpn, h.maxNode, h.fresh, h.hasSentNodeInfo, h.isBurning⟩
        · next haw =>
          rw [if_neg haw]
          exact .of_quiet h0 (.refl s) rfl
      · next ht => exact outcome_forwardInit (hev ht) h0 ht hc
      · refine .of_quiet h0 ⟨⟨rfl⟩, id, id⟩ ?_
        simp [adverts, Effect.advert?, broadcast]
      · next ht => exact outcome_forwardReset (hre (Or.inr ht)) h0 ht
      · exact absurd hc not_completes_assert_false

/-- `ec_neighbors_recv`. -/
theorem outcome_ecNeighborsRecv (r : RecvArgs) (h0 : adverts s.calls = [])
    (hc : Completes (ecNeighborsRecv r s).calls) :
    Outcome s (.neighborRecv r) (ecNeighborsRecv r s) (adverts (ecNeighborsRecv r s).calls) := by
  unfold ecNeighborsRecv at hc ⊢
  split
  · exact .of_quiet h0 (.refl s) rfl
  · next hi =>
    rw [if_neg hi] at hc
    split
    · exact .of_quiet h0 (.refl s) rfl
    · next hsink =>
      rw [if_neg hsink] at hc
      have hlisten : ∀ {t : PacketType}, packetTypeAt r.data = some t →
          t ≠ .initializeBestPaths → s.Listens := by
        intro t ht hne
        refine ⟨?_, by simpa using hsink⟩
        simpa [ignoredInResetMode, ht, hne] using hi
      unfold neighborsRecv withSender at hc ⊢
      split at hc
      · next ht =>
        cases hf : neighborsFindNeighborNode s.ns r.sender with
        | none =>
          simp only [hf] at hc
          -- a path of a node that is no neighbour fails an assertion
          exact absurd hc not_completes_assert_false
        | some i =>
          exact .path (hlisten ht (by decide)) (by rw [advertOf, ht]) hf
            (pathOutcome_pathRecv i (.bestPathUpdate (bestPathAt r.data 1)) h0)
      · next ht => exact outcome_forwardInit (show AppEvent.Initializes (.neighborRecv r) from ht) h0 ht hc
      · cases hf : neighborsFindNeighborNode s.ns r.sender with
        | none =>
          simp only [hf] at hc
          exact absurd hc not_completes_assert_false
        | some i =>
          change Outcome s _ _ (adverts s.calls)
          rw [h0]
          exact .keepAlive hf (.refl _)
      · next ht =>
        cases hf : neighborsFindNeighborNode s.ns r.sender with
        | none =>
          simp only [hf] at hc
          exact absurd hc not_completes_assert_false
        | some i =>
          exact .path (hlisten ht (by decide)) (by rw [advertOf, ht]) hf
            (pathOutcome_pathRecv i (.nodeInfo (coordinateAt r.data 1) (bestPathAt r.data 5)) h0)
      · next ht =>
        exact outcome_forwardReset (show AppEvent.Reconfigures (.neighborRecv r) from ht) h0 ht
      · exact absurd hc not_completes_assert_false

/-- `ec_mc_uc_recv`. -/
theorem outcome_ecMcUcRecv (r : RecvArgs) (h0 : adverts s.calls = [])
    (hc : Completes (ecMcUcRecv r s).calls) :
    Outcome s (.mcUcRecv r) (ecMcUcRecv r s) (adverts (ecMcUcRecv r s).calls) := by
  unfold ecMcUcRecv at hc ⊢
  split at hc
  · cases hns : neighborsAdd s.ns r.originator with
    | none =>
      simp only [addNeighbors, hns] at hc
      exact absurd hc not_completes_assert_false
    | some ns =>
      simp only [addNeighbors, hns]
      rw [h0]
      exact .newNeighbor hns (.refl _)
  · exact absurd hc not_completes_assert_false

/-- The beginning of an emergency of the node's own. -/
theorem startBurning_spec (h0 : adverts s.calls = []) :
    SameRoute (setBurning true s) s.startBurning ∧ s.startBurning.state.isBlinking = true ∧
      adverts s.startBurning.calls =
        s.announce (.bestPathUpdate (setBurning true s).bestNeighborBpToOurBp) := by
  let t := (addCoordinateAsBurning (setBurning true s).blinkingInit.coordinateNode
    (setBurning true s).blinkingInit).sendEmergencyPacket.call .timesynchNetwork
  have hlight : SameRoute (setBurning true s) (setBurning true s).blinkingInit :=
    sameRoute_blinkingInit
  have ht : SameRoute (setBurning true s) t :=
    ((hlight.trans (sameRoute_addCoordinateAsBurning _)).trans
      (sameRoute_broadcastOwn _)).trans (sameRoute_call _)
  have hblink : t.state.isBlinking = true :=
    (((sameRoute_addCoordinateAsBurning _).trans (sameRoute_broadcastOwn _)).trans
      (sameRoute_call _)).isBlinking isBlinking_blinkingInit
  have hadv : adverts t.calls = [] := by
    rw [calls_call, adverts_append, sendEmergencyPacket, adverts_broadcastOwn,
      calls_addCoordinateAsBurning, adverts_blinkingInit]
    exact (List.append_nil _).trans h0
  refine ⟨ht.trans sameRoute_broadcastBestPath, hblink, ?_⟩
  change adverts t.broadcastBestPath.calls = _
  rw [adverts_broadcastBestPath, hadv, ht.ourBp, announce_of_sameRoute ht]
  rfl

/-- The end of an emergency of the node's own. -/
theorem stopBurning_spec :
    SameRoute (setBurning false s) s.stopBurning ∧ adverts s.stopBurning.calls = adverts s.calls := by
  refine ⟨((sameRoute_removeCoordinateAsBurning _).trans
    (sameRoute_broadcastOwn _)).trans sameRoute_blinkingUpdate, ?_⟩
  simp only [stopBurning, adverts_blinkingUpdate, sendAntiEmergencyPacket, adverts_broadcastOwn,
    calls_removeCoordinateAsBurning]
  rfl

/-- Announcing the path of a node whose best neighbour is missing fails. -/
theorem bpn_ne_null_of_completes (hc : Completes s.broadcastBestPath.calls) : s.bpn ≠ .null := by
  have hmem : Effect.assert (decide (s.bpn ≠ .null)) ∈ s.broadcastBestPath.calls := by
    simp [broadcastBestPath, reliableBroadcastOwn, reliableBroadcastNs]
  simpa using hc _ hmem

/-- What follows an abrupt change of the reading. -/
theorem outcome_abruptReading {light : UInt16} (habrupt : s.abruptMetricChangePoll light = true)
    (h0 : adverts s.calls = []) (hc : Completes (abruptReading light s).calls) :
    Outcome s (.emergencyCheck light) (abruptReading light s)
      (adverts (abruptReading light s).calls) := by
  have hsense : adverts (s.sensed light).calls = [] := h0
  unfold abruptReading at hc ⊢
  simp only at hc ⊢
  change Completes (Node.calls (if isEmergency light then _ else _)) at hc
  cases hem : isEmergency light with
  | true =>
    rw [if_pos rfl]
    split
    · -- the node has not known of a fire here: it starts to burn
      next hstart =>
      obtain ⟨h, hblink, hadv⟩ := startBurning_spec hsense
      change Outcome s _ (startBurning (s.sensed light)) (adverts (startBurning (s.sensed light)).calls)
      rw [hadv, ← hem]
      rw [← hem] at h
      exact .sensedSent habrupt hstart.1 (fun _ => by simpa using hstart.2) h hblink
    · next hkeep =>
      change Outcome s _ (s.sensed light) (adverts s.calls)
      rw [h0]
      refine .sensed habrupt (Or.inl ⟨hem, ?_⟩) (.refl _)
      by_contra hne
      rw [not_or] at hne
      exact hkeep ⟨hne.1, hne.2⟩
  | false =>
    rw [hem] at hc
    rw [if_neg Bool.false_ne_true] at hc ⊢
    cases hblink : s.state.isBlinking with
    | false =>
      rw [if_neg Bool.false_ne_true]
      change Outcome s _ (s.sensed light) (adverts s.calls)
      rw [h0]
      exact .sensed habrupt (Or.inr ⟨hem, hblink⟩) (.refl _)
    | true =>
      rw [hblink, if_pos rfl] at hc
      rw [if_pos rfl]
      -- the fire is over, if there was one; the path is announced in any case
      let t := if s.state.isBurning then stopBurning (s.sensed light) else s.sensed light
      change Completes t.broadcastBestPath.calls at hc
      change Outcome s _ t.broadcastBestPath (adverts t.broadcastBestPath.calls)
      have ht : SameRoute (setBurning false (s.sensed light)) t ∧ adverts t.calls = [] := by
        cases hburn : s.state.isBurning with
        | true =>
          have := stopBurning_spec (s := s.sensed light)
          simp only [t, hburn, if_true]
          exact ⟨this.1, this.2.trans hsense⟩
        | false =>
          simp only [t, hburn, Bool.false_eq_true, if_false]
          refine ⟨⟨⟨?_⟩, id, id⟩, hsense⟩
          change (s.sensed light).routing = { (s.sensed light).routing with isBurning := false }
          rw [← hburn]
          rfl
      obtain ⟨ht, htadv⟩ := ht
      have hbpn : s.bpn ≠ .null := fun h => bpn_ne_null_of_completes hc (ht.bpn.trans h)
      rw [adverts_broadcastBestPath, htadv, ht.ourBp, announce_of_sameRoute ht, ← hem]
      rw [← hem] at ht
      refine .sensedSent habrupt hbpn (fun h => ?_) (ht.trans sameRoute_broadcastBestPath)
        (ht.isBlinking hblink)
      rw [hem] at h
      exact Bool.noConfusion h

/-- The `emergency_check_timer` branch. -/
theorem outcome_emergencyCheck (light : UInt16) (h0 : adverts s.calls = [])
    (hc : Completes (emergencyCheck light s).calls) :
    Outcome s (.emergencyCheck light) (emergencyCheck light s)
      (adverts (emergencyCheck light s).calls) := by
  unfold emergencyCheck at hc ⊢
  split
  swap
  · exact .of_quiet h0 (.refl s) rfl
  next hon =>
  rw [if_pos hon] at hc
  split
  swap
  · exact .of_quiet h0 (.refl s) rfl
  next habrupt =>
  rw [if_pos habrupt] at hc
  exact outcome_abruptReading habrupt h0 hc

/-- The `keepalive_send_timer` branch. -/
theorem outcome_keepaliveSend {ev : AppEvent} (h0 : adverts s.calls = []) :
    Outcome s ev s.keepaliveSend (adverts s.keepaliveSend.calls) := by
  unfold keepaliveSend
  split
  · refine .of_quiet h0 (sameRoute_reliableBroadcastOwn _) ?_
    rw [adverts_reliableBroadcastOwn, advertOf_singleton (by decide) (by decide)]
    simp
  · exact .of_quiet h0 (.refl s) rfl

/-- The `keepalive_check_timer` branch. -/
theorem outcome_keepaliveCheck (h0 : adverts s.calls = []) :
    Outcome s .keepaliveCheck s.keepaliveCheck (adverts s.keepaliveCheck.calls) := by
  unfold keepaliveCheck
  split
  swap
  · exact .of_quiet h0 (.refl s) rfl
  next hblink =>
  have hdrop : adverts s.dropSilent.calls = [] := h0
  split
  · next hneed =>
    obtain ⟨hsw, hres, h, hadv⟩ | ⟨hsw, hres, h, hadv⟩ := updateBpn_cases .null s.dropSilent
    · simp only [hres, if_true]
      rw [adverts_blinkingUpdate, hadv, hdrop]
      exact .droppedSwitched hblink hneed hsw (h.trans sameRoute_blinkingUpdate)
    · simp only [hres, Bool.false_eq_true, if_false]
      rw [hadv, hdrop]
      exact .dropped hblink (fun _ => hsw) h
  · next hneed =>
    rw [hdrop]
    exact .dropped hblink (fun h => absurd h hneed) (.refl _)

/-- What a serial command does. -/
theorem outcome_serialCommand {ev : AppEvent} (c : SerialCommand)
    (hev : c = .init → ev.Initializes)
    (hre : ∀ sp, c = .simulationSetup sp ∨ c = .sink → ev.Reconfigures)
    (h0 : adverts s.calls = []) (hc : Completes (serialCommand c s).calls) :
    Outcome s ev (serialCommand c s) (adverts (serialCommand c s).calls) := by
  cases c with
  | simulationSetup sp =>
    obtain ⟨h, hadv⟩ := configured_setupParse sp.bytes false s
    change Outcome s ev _ (adverts (setupParse sp.bytes false s).calls)
    rw [hadv, h0]
    exact .configured (hre sp (Or.inl rfl)) h
  | init =>
    refine outcome_ecBroadcastsRecv _ (fun _ => hev rfl) (fun h => ?_) h0 hc
    exact absurd h (by decide)
  | sendInitPacket =>
    exact .of_quiet h0 (sameRoute_broadcastOwn _) (adverts_broadcastOwn _)
  | sink =>
    obtain ⟨h, hadv⟩ :=
      configured_setupParse (PacketType.setup.toByte :: List.replicate 10 0) false s
    change Outcome s ev _ (adverts (setupParse _ false s).calls)
    rw [hadv, h0]
    exact .configured (hre default (Or.inr rfl))
      ⟨h.ecNs, h.bpn, h.maxNode, h.fresh, h.hasSentNodeInfo, h.isBurning⟩
  | resetSystemPacket =>
    exact .of_quiet h0 (sameRoute_broadcastOwn _) (adverts_broadcastOwn _)
  | extractReportPacket =>
    exact .of_quiet h0 (sameRoute_broadcastOwn _) (adverts_broadcastOwn _)
  | sendSetupPacket sp =>
    refine .of_quiet h0 ((sameRoute_assert _).trans (sameRoute_broadcastOwn _)) ?_
    exact (adverts_broadcastOwn _).trans (adverts_calls_assert _)

/-- **Every completed event ends in one of the ways `Outcome` lists.** -/
theorem outcome_step {ev : AppEvent × ClockReading} (hc : Completes (s.step ev).calls) :
    Outcome s ev.1 (s.step ev) (adverts (s.step ev).calls) := by
  obtain ⟨ev, c⟩ := ev
  have h0 : adverts (s.wake c).calls = [] := rfl
  have hw : Outcome (s.wake c) ev (handle ev (s.wake c)) (adverts (handle ev (s.wake c)).calls) := by
    cases ev with
    | broadcastRecv r => exact outcome_ecBroadcastsRecv r id id h0 hc
    | neighborRecv r => exact outcome_ecNeighborsRecv r h0 hc
    | mcUcRecv r => exact outcome_ecMcUcRecv r h0 hc
    | timesynched => exact .of_quiet h0 sameRoute_blinkingUpdate adverts_blinkingUpdate
    | button => exact .of_quiet h0 ⟨⟨rfl⟩, id, id⟩ rfl
    | serial c =>
      refine outcome_serialCommand c (fun h => h ▸ trivial) (fun sp h => ?_) h0 hc
      rcases h with rfl | rfl <;> trivial
    | emergencyCheck light => exact outcome_emergencyCheck light h0 hc
    | keepaliveSend => exact outcome_keepaliveSend h0
    | keepaliveCheck => exact outcome_keepaliveCheck h0
  exact hw.of_sameRoute (sameRoute_wake c) rfl

end Node

end EmergencyNet
