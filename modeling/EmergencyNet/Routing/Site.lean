import EmergencyNet.App.Light
import EmergencyNet.Routing.BestNeighbor

/-!
# What a configured node keeps

Between two setups a node keeps its address, its place and its neighbours, but for those
that the keep-alive check drops; an entry changes only through a path packet of its
neighbour.  The first path a node announces is its node info, and everything later is an
update.

## Main definitions

* `Node.site` — the variables only a setup packet sets.
* `Settles t s' ads` — `s'` keeps the site and the entries of `t`, and announces `ads`.

## Main results

* `Node.pathOutcome_of_advance` — **a node that listens handles a path packet as such.**
* `Node.settles_of_path`, `Node.settles_of_local` — every event settles.
-/

namespace EmergencyNet

/-- The variables of a node that only a setup packet sets. -/
structure Site where
  rimeaddrNodeAddr : Rimeaddr
  coordinateNode : Coordinate
  exitNode : NeighborNode
  maxNode : NeighborNode
  ecNs : Bool
  isExitNode : Bool
  isSinkNode : Bool

/-- The site of a node. -/
def Node.site (s : Node) : Site where
  rimeaddrNodeAddr := s.rimeaddrNodeAddr
  coordinateNode := s.coordinateNode
  exitNode := s.exitNode
  maxNode := s.maxNode
  ecNs := s.ecNs
  isExitNode := s.state.isExitNode
  isSinkNode := s.state.isSinkNode

/-- The events a node has between two setups, apart from deliveries of path packets. -/
def AppEvent.Local (ev : AppEvent) : Prop :=
  ¬ ev.Reconfigures ∧
  match ev with
  | .neighborRecv r => advertOf r.data = none
  | .mcUcRecv _ => False
  | _ => True

instance (ev : AppEvent) : Decidable ev.Local := by
  rcases ev <;> unfold AppEvent.Local <;> infer_instance

/-- How a node announces paths: `Tells t s' ads` when `t` becomes `s'` and announces `ads`. -/
inductive Tells (t s' : Node) : List PathPacket → Prop
  /-- The first path goes out as node info. -/
  | info (bp : NeighborNodeBestPath) (ht : t.state.hasSentNodeInfo = false)
      (hs' : s'.state.hasSentNodeInfo = true) :
      Tells t s' (t.announce (.nodeInfo t.coordinateNode bp))
  /-- Before the node info nothing is announced, after it updates are. -/
  | later {ads : List PathPacket} (hsent : s'.state.hasSentNodeInfo = t.state.hasSentNodeInfo)
      (hfirst : t.state.hasSentNodeInfo = false →
        ads = [] ∧ s'.bpn = t.bpn ∧ s'.state.isBurning = t.state.isBurning)
      (hne : ads ≠ [] → t.ns.used ≠ []) (hads : ∀ q ∈ ads, ∃ bp, q = .bestPathUpdate bp) :
      Tells t s' ads

/-- `s'` keeps the site of `t`, and those entries that it keeps are as in `t` but for the
keep-alive flag. -/
structure Settles (t s' : Node) (ads : List PathPacket) : Prop where
  site : s'.site = t.site
  isResetMode : t.state.isResetMode = false → s'.state.isResetMode = false
  used : s'.ns.used.Sublist t.ns.used
  item : ∀ j, ∃ b, s'.ns.item j = (t.ns.item j).setHasSentKeepAlive b
  tells : Tells t s' ads

namespace Node

variable {s t u s' : Node} {i j : ℕ} {p : PathPacket} {ads : List PathPacket}

theorem site_of_sameRouting (h : SameRouting s t) : t.site = s.site := by
  simp only [site, h.rimeaddrNodeAddr, h.coordinateNode, h.exitNode, h.maxNode, h.ecNs,
    h.isExitNode, h.isSinkNode]

/-- A node that has the site and the entries of `t`, and the routing state of `s'`. -/
theorem settles_of_sameRoute (h : SameRoute u s') (hsite : u.site = t.site)
    (hreset : u.state.isResetMode = t.state.isResetMode) (hused : u.ns.used.Sublist t.ns.used)
    (hitem : ∀ j, ∃ b, u.ns.item j = (t.ns.item j).setHasSentKeepAlive b) (htells : Tells t s' ads) :
    Settles t s' ads where
  site := (site_of_sameRouting h.toSameRouting).trans hsite
  isResetMode := fun ht => h.isResetMode (hreset.trans ht)
  used := h.ns ▸ hused
  item := h.ns ▸ hitem
  tells := htells

/-- The flag of an entry may be what it was. -/
theorem exists_setHasSentKeepAlive (s : Node) (j : ℕ) :
    ∃ b, s.ns.item j = (s.ns.item j).setHasSentKeepAlive b := ⟨(s.ns.item j).hasSentKeepAlive, rfl⟩

/-- What is announced is one packet, or nothing for want of neighbours. -/
theorem mem_announce {q : PathPacket} (h : q ∈ s.announce p) : q = p ∧ s.ns.used ≠ [] := by
  unfold announce at h
  split at h
  · next hne => exact ⟨List.mem_singleton.mp h, hne.2⟩
  · exact absurd h List.not_mem_nil

/-- An update of a node that has sent its node info. -/
theorem tells_update {b : NeighborNodeBestPath} (hsent : t.state.hasSentNodeInfo = true)
    (hs' : s'.state.hasSentNodeInfo = t.state.hasSentNodeInfo)
    (hads : ∀ q ∈ ads, q = .bestPathUpdate b ∧ t.ns.used ≠ []) : Tells t s' ads := by
  refine .later hs' (fun h => ?_) (fun hne => ?_) fun q hq => ⟨b, (hads q hq).1⟩
  · rw [hsent] at h
    exact absurd h (by decide)
  · obtain ⟨q, hq⟩ := List.exists_mem_of_ne_nil _ hne
    exact (hads q hq).2

/-- Nothing is announced, and nothing that matters before the node info is changed. -/
theorem tells_nil (hs' : s'.state.hasSentNodeInfo = t.state.hasSentNodeInfo)
    (hkeep : t.state.hasSentNodeInfo = false →
      s'.bpn = t.bpn ∧ s'.state.isBurning = t.state.isBurning) : Tells t s' [] :=
  .later hs' (fun h => ⟨rfl, hkeep h⟩) (fun hne => absurd rfl hne) fun _ hq =>
    absurd hq List.not_mem_nil

/-- A node that still has not sent its node info has done nothing else either. -/
theorem unsent_of_tells (h : Tells t s' ads) (hs' : s'.state.hasSentNodeInfo = false) :
    t.state.hasSentNodeInfo = false ∧ ads = [] ∧ s'.bpn = t.bpn ∧
      s'.state.isBurning = t.state.isBurning := by
  cases h with
  | info _ _ h => exact absurd (h.symm.trans hs') (by decide)
  | later hsame hfirst _ _ => exact ⟨hsame.symm.trans hs', hfirst (hsame.symm.trans hs')⟩

/-! ### Path packets -/

/-- A node that listens hands a path packet of a neighbour to its handler. -/
theorem ecNeighborsRecv_path {r : RecvArgs} (hdata : r.data = p.bytes) (hon : s.Listens)
    (hi : neighborsFindNeighborNode s.ns r.sender = some i) :
    ecNeighborsRecv r s = pathRecv i p s := by
  obtain ⟨hreset, hsink⟩ := hon
  unfold ecNeighborsRecv ignoredInResetMode
  rw [hreset, hsink, Bool.false_and, if_neg Bool.false_ne_true, if_neg Bool.false_ne_true]
  unfold neighborsRecv withSender
  rw [hdata]
  cases p <;> simp only [PathPacket.bytes, packetTypeAt_cons, hi] <;> rfl

/-- **A node that listens handles a path packet of a neighbour as such.** -/
theorem pathOutcome_of_advance {r : RecvArgs} {c : ClockReading} (hdata : r.data = p.bytes)
    (hon : s.Listens) (hi : neighborsFindNeighborNode s.ns r.sender = some i)
    (h : advance (.neighborRecv r, c) s = some s') : PathOutcome s i p s' (adverts s'.calls) := by
  unfold advance at h
  split at h
  · cases h
    have hstep : step (.neighborRecv r, c) s = pathRecv i p (s.wake c) :=
      ecNeighborsRecv_path (s := s.wake c) hdata hon hi
    rw [hstep]
    exact (pathOutcome_pathRecv (s := s.wake c) i p rfl).of_sameRoute (sameRoute_wake c)
  · cases h

/-- A path packet settles, provided that the first one is node info, and leaves a node that
has sent its own. -/
theorem settles_of_path (hinfo : s.state.hasSentNodeInfo = false → ∃ coord bp, p = .nodeInfo coord bp)
    (h : PathOutcome s i p s' ads) :
    Settles (s.pathWritten i p) s' ads ∧ s'.state.hasSentNodeInfo = true := by
  -- a node that has not sent its node info only does so for node info
  have hsent : (s.state.hasSentNodeInfo = true ∨ ∃ bp, p = .bestPathUpdate bp) →
      s.state.hasSentNodeInfo = true := by
    rintro (hs | ⟨bp, rfl⟩)
    · exact hs
    · cases hs : s.state.hasSentNodeInfo with
      | true => rfl
      | false =>
        obtain ⟨coord, bp', heq⟩ := hinfo hs
        cases heq
  have hitem : ∀ j, ∃ b, (s.pathWritten i p).ns.item j =
      ((s.pathWritten i p).ns.item j).setHasSentKeepAlive b := exists_setHasSentKeepAlive _
  cases h with
  | first _ hs hr =>
    exact ⟨settles_of_sameRoute hr rfl rfl (List.Sublist.refl _) hitem
      (.info _ hs hr.hasSentNodeInfo), hr.hasSentNodeInfo⟩
  | switched hs _ hr =>
    exact ⟨settles_of_sameRoute hr rfl rfl (List.Sublist.refl _) hitem
      (tells_update (hsent hs) hr.hasSentNodeInfo fun _ => mem_announce),
      hr.hasSentNodeInfo.trans (hsent hs)⟩
  | kept hs _ hr =>
    exact ⟨settles_of_sameRoute hr rfl rfl (List.Sublist.refl _) hitem
      (tells_nil hr.hasSentNodeInfo fun _ => ⟨hr.bpn, hr.isBurning⟩),
      hr.hasSentNodeInfo.trans (hsent hs)⟩

/-! ### The other events -/

/-- Every other event settles, provided that a node without node info is dark. -/
theorem settles_of_local {ev : AppEvent} (hloc : ev.Local)
    (hdark : s.state.hasSentNodeInfo = false → Dark s) (h : Outcome s ev s' ads) :
    Settles s s' ads := by
  -- what a dark node does not do, one that has sent its node info does
  have hsent : (Dark s → False) → s.state.hasSentNodeInfo = true := by
    intro hd
    cases hs : s.state.hasSentNodeInfo with
    | true => rfl
    | false => exact absurd (hdark hs) hd
  have hsame : ∀ j, ∃ b, s.ns.item j = (s.ns.item j).setHasSentKeepAlive b :=
    exists_setHasSentKeepAlive s
  cases h with
  | configured hev _ => exact absurd hev hloc.1
  | resetMode hev _ _ => exact absurd hev hloc.1
  | newNeighbor _ _ => exact absurd hloc.2 id
  | path _ hp _ _ => exact absurd (hp.symm.trans hloc.2) (Option.some_ne_none _)
  | quiet hr =>
    exact settles_of_sameRoute hr rfl rfl (List.Sublist.refl _) hsame
      (tells_nil hr.hasSentNodeInfo fun _ => ⟨hr.bpn, hr.isBurning⟩)
  | keepAlive _ hr =>
    exact settles_of_sameRoute hr rfl rfl (List.Sublist.refl _) (fun j => keepAlive_item _ j)
      (tells_nil hr.hasSentNodeInfo fun _ => ⟨hr.bpn, hr.isBurning⟩)
  | initialized _ _ hs hr =>
    exact settles_of_sameRoute hr rfl rfl (List.Sublist.refl _) hsame (.info _ hs hr.hasSentNodeInfo)
  | sensed _ _ hr =>
    exact settles_of_sameRoute hr rfl rfl (List.Sublist.refl _) hsame
      (tells_nil hr.hasSentNodeInfo fun _ => ⟨hr.bpn, hr.isBurning⟩)
  | sensedSent _ hbpn _ hr _ =>
    exact settles_of_sameRoute hr rfl rfl (List.Sublist.refl _) hsame
      (tells_update (hsent fun hd => hbpn hd.bpn) hr.hasSentNodeInfo fun _ => mem_announce)
  | dropped hblink _ hr =>
    refine settles_of_sameRoute hr rfl rfl s.dropSilent_used_sublist s.dropSilent_item
      (tells_nil hr.hasSentNodeInfo fun h => ?_)
    rw [(hdark h).isBlinking] at hblink
    exact absurd hblink Bool.false_ne_true
  | droppedSwitched hblink _ _ hr =>
    refine settles_of_sameRoute hr rfl rfl s.dropSilent_used_sublist s.dropSilent_item
      (tells_update (b := s.dropSilent.toBest.bestNeighborBpToOurBp) (hsent fun hd => ?_)
        hr.hasSentNodeInfo fun q hq => ?_)
    · rw [hd.isBlinking] at hblink
      exact absurd hblink Bool.false_ne_true
    · obtain ⟨hq, hne⟩ := mem_announce hq
      refine ⟨hq, fun hnil => hne ?_⟩
      exact List.sublist_nil.mp (hnil ▸ s.dropSilent_used_sublist)

end Node

end EmergencyNet
