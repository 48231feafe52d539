import EmergencyNet.App.Setup
import EmergencyNet.Routing.Freshness
import EmergencyNet.Routing.Site

/-!
# A network of nodes

Nodes that have been set up, with reliable first-in first-out links: what a node announces
arrives once, in order, at each of its neighbours.  The other events of a node happen at any
time; a node is not set up anew, not reset, and gets no new neighbours.

## Main definitions

* `Topology V` — the nodes, their addresses and coordinates, and who hears whom.
* `Net V` — the states of the nodes and what is under way.
* `Topology.step`, `Topology.machine` — the network as a transition system.
* `Net.Quiescent`, `Net.Follows` — nothing is under way; `bpn` from node to node.

## Main results

* `Topology.wired_of_reachable` — **what the neighbour tables and the links have to do with
  what was announced.**
-/

namespace EmergencyNet

open Node

/-- A network: its nodes, where they are, and who hears whom. -/
structure Topology (V : Type*) where
  addr : V → Rimeaddr
  addr_inj : Function.Injective addr
  coord : V → Coordinate
  isExit : V → Bool
  nbrs : V → List V
  nodup : ∀ v, (nbrs v).Nodup
  le : ∀ v, (nbrs v).length ≤ maxNeighbors
  symm : ∀ {v w}, w ∈ nbrs v → v ∈ nbrs w
  /-- Neighbours are at a positive distance. -/
  pos : ∀ {v w}, w ∈ nbrs v → 0 < coordinateDistance (coord w) (coord v)

/-- A state of the network. -/
structure Net (V : Type*) where
  node : V → Node
  /-- The path packets on their way from one node to another, oldest first. -/
  link : V → V → List PathPacket
  /-- The path each node has last announced. -/
  last : V → Option NeighborNodeBestPath

/-- An event of the network. -/
inductive NetEvent (V : Type*)
  /-- The oldest path packet on the link from `u` to `v` arrives. -/
  | deliver (u v : V) (c : ClockReading)
  /-- Another event of node `v`. -/
  | other (v : V) (ev : AppEvent) (c : ClockReading)

namespace Topology

variable {V : Type*} [DecidableEq V] (T : Topology V)

/-- The setup packet of a node. -/
def setupPacket (v : V) : SetupPacket :=
  ⟨T.addr v, T.coord v, if T.isExit v then 1 else 0, (T.nbrs v).map T.addr⟩

/-- A node that has taken over its setup packet. -/
def boot (v : V) : Node := setupParse (T.setupPacket v).bytes false (zero rimeaddrNull none)

/-- The arguments `ec_neighbors_recv` is called with for the packet `p` of node `u`. -/
def recvArgs (u : V) (p : PathPacket) : RecvArgs :=
  ⟨T.addr u, T.addr u, 0, 0, p.bytes, UInt8.ofNat p.bytes.length⟩

/-- The network after node `v` has moved to state `s`. -/
def moved (n : Net V) (v : V) (s : Node) : Net V where
  node := Function.update n.node v s
  link u w := if u = v ∧ w ∈ T.nbrs v then n.link u w ++ adverts s.calls else n.link u w
  last := Function.update n.last v (lastAdvert (n.last v) (adverts s.calls))

/-- The network without the oldest packet on a link. -/
def popped (n : Net V) (u v : V) : Net V :=
  { n with link := fun x y => if x = u ∧ y = v then (n.link u v).tail else n.link x y }

/-- A step of the network, `none` when the event cannot happen.  A node ignores the packets
of a node that is not in its table. -/
def step (T : Topology V) : NetEvent V → Net V → Option (Net V)
  | .deliver u v c, n =>
    match n.link u v with
    | [] => none
    | p :: _ =>
      if neighborsIsNeighbor (n.node v).ns (T.addr u) then
        (advance (.neighborRecv (T.recvArgs u p), c) (n.node v)).map (T.moved (popped n u v) v)
      else some (popped n u v)
  | .other v ev c, n =>
    if ev.Local then (advance (ev, c) (n.node v)).map (T.moved n v) else none

/-- The network in which every node has been set up and nothing has happened yet. -/
def start : Net V := ⟨T.boot, fun _ _ => [], fun _ => none⟩

/-- The network as a transition system. -/
def machine : Machine (Net V) (NetEvent V) := Machine.ofStep T.start T.step

end Topology

namespace Net

variable {V : Type*} (n : Net V)

/-- No path packet is under way. -/
def Quiescent : Prop := ∀ u v, n.link u v = []

/-- `bpn` of node `a` is its entry for node `b`. -/
def Follows (T : Topology V) (a b : V) : Prop :=
  ∃ i, (n.node a).bpn = .slot i ∧ ((n.node a).ns.item i).addr = T.addr b

end Net

namespace Topology

variable {V : Type*} {T : Topology V} {v w : V} {s t s' : Node} {nn : NeighborNode} {i : ℕ}
  {link : List PathPacket} {last : Option NeighborNodeBestPath} {ads : List PathPacket}

theorem ne_of_mem_nbrs (h : w ∈ T.nbrs v) : w ≠ v := by
  intro heq
  have hpos := T.pos h
  rw [heq, coordinateDistance_self] at hpos
  exact absurd hpos (by decide)

/-! ### Where a node is -/

/-- The state of node `v` fits the network: the node has been set up, and its table holds
neighbours of `v`, each once. -/
structure Placed (T : Topology V) (v : V) (s : Node) : Prop where
  rimeaddrNodeAddr : s.rimeaddrNodeAddr = T.addr v
  coordinateNode : s.coordinateNode = T.coord v
  isExitNode : s.state.isExitNode = T.isExit v
  ecNs : s.ecNs = true
  listens : s.Listens
  maxNode : s.maxNode.dist = 0 ∧ s.maxNode.metric = metricTMax
  exitNode : T.isExit v = true →
    s.exitNode.addr = T.addr v ∧ s.exitNode.dist = 0 ∧ s.exitNode.metric = 0
  table : ∀ i ∈ s.ns.used, ∃ w ∈ T.nbrs v, (s.ns.item i).addr = T.addr w
  distinct : ∀ i ∈ s.ns.used, ∀ j ∈ s.ns.used, (s.ns.item i).addr = (s.ns.item j).addr → i = j

/-- Entries keep their address, and a node keeps its site. -/
theorem Placed.of_site (h : T.Placed v t) (hsite : s'.site = t.site)
    (hreset : t.state.isResetMode = false → s'.state.isResetMode = false)
    (hused : s'.ns.used.Sublist t.ns.used) (haddr : ∀ j, (s'.ns.item j).addr = (t.ns.item j).addr) :
    T.Placed v s' where
  rimeaddrNodeAddr := (congrArg Site.rimeaddrNodeAddr hsite).trans h.rimeaddrNodeAddr
  coordinateNode := (congrArg Site.coordinateNode hsite).trans h.coordinateNode
  isExitNode := (congrArg Site.isExitNode hsite).trans h.isExitNode
  ecNs := (congrArg Site.ecNs hsite).trans h.ecNs
  listens := ⟨hreset h.listens.1, (congrArg Site.isSinkNode hsite).trans h.listens.2⟩
  maxNode := by
    have hmax : s'.maxNode = t.maxNode := congrArg Site.maxNode hsite
    rw [hmax]
    exact h.maxNode
  exitNode := by
    have hx : s'.exitNode = t.exitNode := congrArg Site.exitNode hsite
    rw [hx]
    exact h.exitNode
  table := by
    intro i hi
    rw [haddr]
    exact h.table i (hused.subset hi)
  distinct := by
    intro i hi j hj heq
    rw [haddr, haddr] at heq
    exact h.distinct i (hused.subset hi) j (hused.subset hj) heq

theorem Placed.settles (h : T.Placed v t) (hs : Settles t s' ads) : T.Placed v s' := by
  refine h.of_site hs.site hs.isResetMode hs.used fun j => ?_
  obtain ⟨b, hb⟩ := hs.item j
  rw [hb]
  rfl

theorem Placed.pathWritten (h : T.Placed v s) (i : ℕ) (p : PathPacket) :
    T.Placed v (s.pathWritten i p) := by
  refine h.of_site rfl id (List.Sublist.refl _) fun j => ?_
  by_cases hji : j = i
  · rw [hji, pathWritten_item_self, entryAfter_addr]
  · rw [pathWritten_item_of_ne p hji]

/-- A node of the network is in place once it has been set up. -/
theorem placed_boot (T : Topology V) (v : V) : T.Placed v (T.boot v) := by
  have hlen : (T.setupPacket v).neighbors.length ≤ maxNeighbors := by
    rw [setupPacket, List.length_map]
    exact T.le v
  have hup := setupParse_bytes (T.setupPacket v) hlen false (zero rimeaddrNull none)
  have hconf := (configured_setupParse (T.setupPacket v).bytes false (zero rimeaddrNull none)).1
  have hmax := (maxNodeOk_zero rimeaddrNull none).of_configured hconf
  have hmap : (T.boot v).addrs = ((T.nbrs v).map T.addr).reverse := hup.addrs
  refine ⟨hup.rimeaddrNodeAddr, hup.coordinateNode, ?_, hconf.ecNs,
    ⟨hup.isResetMode, hup.isSinkNode⟩, ⟨hmax.dist, ?_⟩, fun hx => ?_, fun i hi => ?_,
    fun i hi j hj heq => ?_⟩
  · rw [boot, hup.isExitNode, setupPacket]
    cases T.isExit v <;> rfl
  · rw [boot, hmax.metric, hconf.ecNs, if_pos rfl]
  · have hone : (T.setupPacket v).isExitNode ≠ 0 := by
      rw [setupPacket, hx]
      exact (by decide : (1 : UInt8) ≠ 0)
    obtain ⟨haddr, hdist, hmetric, -⟩ := hup.exitNode hone
    refine ⟨haddr, hdist, ?_⟩
    rw [NeighborNode.metric, boot, hmetric]
    decide
  · have hmem : ((T.boot v).ns.item i).addr ∈ (T.boot v).addrs := List.mem_map_of_mem hi
    rw [hmap, List.mem_reverse, List.mem_map] at hmem
    obtain ⟨w, hw, haddr⟩ := hmem
    exact ⟨w, hw, haddr.symm⟩
  · have hnodup : (T.boot v).addrs.Nodup := by
      rw [hmap, List.nodup_reverse]
      exact (T.nodup v).map T.addr_inj
    exact List.inj_on_of_nodup_map hnodup hi hj heq

/-! ### What an entry has to do with what was announced -/

/-- The entry `nn` that `v` keeps for `w` is the path that was announced before those on the
link, or nothing yet; and its distance is known once the node info has arrived. -/
structure Linked (T : Topology V) (v w : V) (nn : NeighborNode) (link : List PathPacket)
    (last : Option NeighborNodeBestPath) : Prop where
  synced : ∃ heard, (heard = none ∧ nn.bp = neighborNodeBestPathMax ∨ heard = some nn.bp) ∧
    last = lastAdvert heard link
  located : nn.dist = coordinateDistance (T.coord w) (T.coord v) ∨
    nn.bp = neighborNodeBestPathMax ∧ (link = [] → last = none) ∧
      ∀ p ∈ link.head?, ∃ coord bp, p = .nodeInfo coord bp
  infos : ∀ coord bp, .nodeInfo coord bp ∈ link → coord = T.coord w

/-- The keep-alive flag plays no part. -/
theorem Linked.setHasSentKeepAlive (h : T.Linked v w nn link last) (b : Bool) :
    T.Linked v w (nn.setHasSentKeepAlive b) link last := ⟨h.synced, h.located, h.infos⟩

/-- An entry that holds a path is at its distance. -/
theorem Linked.dist (h : T.Linked v w nn link last) (hne : nn.metric ≠ metricTMax) :
    nn.dist = coordinateDistance (T.coord w) (T.coord v) := by
  rcases h.located with hd | ⟨hbp, -⟩
  · exact hd
  · exact absurd (congrArg NeighborNodeBestPath.metric16 hbp) (by rw [metric16_max]; exact hne)

/-- With nothing under way, an entry that holds a path is what was announced last. -/
theorem Linked.eq_last (h : T.Linked v w nn [] last) (hne : nn.metric ≠ metricTMax) :
    last = some nn.bp := by
  obtain ⟨heard, ⟨-, hbp⟩ | hheard, hlast⟩ := h.synced
  · exact absurd (congrArg NeighborNodeBestPath.metric16 hbp) (by rw [metric16_max]; exact hne)
  · rw [hlast, hheard]
    rfl

/-- Nothing is under way from a node that has announced nothing. -/
theorem Linked.eq_nil (h : T.Linked v w nn link none) : link = [] := by
  obtain ⟨heard, -, hlast⟩ := h.synced
  exact (lastAdvert_eq_none.mp hlast.symm).2

/-- The oldest packet on the link is written to the entry. -/
theorem Linked.received {p : PathPacket} (h : T.Linked v w (s.ns.item i) (p :: link) last)
    (hcoord : s.coordinateNode = T.coord v) : T.Linked v w (s.entryAfter i p) link last where
  synced := by
    obtain ⟨heard, -, hlast⟩ := h.synced
    refine ⟨some p.bp, Or.inr (by rw [entryAfter_bp]), ?_⟩
    rw [hlast, lastAdvert_cons]
  located := by
    refine Or.inl ?_
    cases p with
    | nodeInfo coord bp =>
      have hc := h.infos coord bp List.mem_cons_self
      rw [entryAfter, NeighborNode.dist_setBestPath, NeighborNode.dist_setCoordinate, hcoord, hc]
    | bestPathUpdate bp =>
      -- the first packet of a neighbour is its node info, so the distance is known
      rcases h.located with hd | ⟨-, -, hhead⟩
      · exact hd
      · obtain ⟨coord, bp', heq⟩ := hhead _ rfl
        cases heq
  infos := fun coord bp hmem => h.infos coord bp (List.mem_cons_of_mem _ hmem)

/-- What `w` announces is put onto the link. -/
theorem Linked.told (h : T.Linked v w nn link last) (ht : Tells t s' ads)
    (hcoord : t.coordinateNode = T.coord w)
    (hsent : t.state.hasSentNodeInfo = true → last.isSome ∨ t.ns.used = []) :
    T.Linked v w nn (link ++ ads) (lastAdvert last ads) where
  synced := by
    obtain ⟨heard, hheard, hlast⟩ := h.synced
    exact ⟨heard, hheard, by rw [hlast, lastAdvert_append]⟩
  located := by
    rcases h.located with hd | ⟨hbp, hnil, hhead⟩
    · exact Or.inl hd
    refine Or.inr ⟨hbp, fun happ => ?_, ?_⟩
    · obtain ⟨hl, ha⟩ := List.append_eq_nil_iff.mp happ
      rw [ha, lastAdvert_nil]
      exact hnil hl
    · cases link with
      | cons q link => exact hhead
      | nil =>
        intro p hp
        rw [List.nil_append] at hp
        have hmem : p ∈ ads := List.mem_of_mem_head? hp
        cases ht with
        | info bp _ _ => exact ⟨_, bp, (mem_announce hmem).1⟩
        | later _ hfirst hne _ =>
          -- an update from a node that has announced nothing yet
          exfalso
          have hads : ads ≠ [] := List.ne_nil_of_mem hmem
          cases hs : t.state.hasSentNodeInfo with
          | false => exact hads (hfirst hs).1
          | true =>
            rcases hsent hs with hsome | hused
            · rw [hnil rfl] at hsome
              exact absurd hsome (by decide)
            · exact hne hads hused
  infos := by
    intro coord bp hmem
    rcases List.mem_append.mp hmem with hm | hm
    · exact h.infos coord bp hm
    · cases ht with
      | info bp' _ _ =>
        cases (mem_announce hm).1
        exact hcoord
      | later _ _ _ hads =>
        obtain ⟨bp', heq⟩ := hads _ hm
        cases heq

/-! ### The invariant of the network -/

variable {n n' : Net V} {u : V} {e : NetEvent V}

/-- Every entry of every table is linked to the neighbour it is for. -/
def AllLinked (T : Topology V) (n : Net V) : Prop :=
  ∀ v w i, i ∈ (n.node v).ns.used → w ∈ T.nbrs v → ((n.node v).ns.item i).addr = T.addr w →
    T.Linked v w ((n.node v).ns.item i) (n.link w v) (n.last w)

/-- **What the neighbour tables and the links have to do with what was announced.** -/
structure Wired (T : Topology V) (n : Net V) : Prop where
  placed : ∀ v, T.Placed v (n.node v)
  /-- A node that has not sent its node info has heard and announced nothing. -/
  unsent : ∀ v, (n.node v).state.hasSentNodeInfo = false →
    Dark (n.node v) ∧ n.last v = none ∧ ∀ i ∈ (n.node v).ns.used, ((n.node v).ns.item i).dist = 0
  sent : ∀ v, (n.node v).state.hasSentNodeInfo = true →
    (n.last v).isSome ∨ (n.node v).ns.used = []
  linked : T.AllLinked n

/-- The first packet a node hears is node info. -/
theorem Wired.first_info {p : PathPacket} {rest : List PathPacket} (hw : T.Wired n)
    (hlink : n.link u v = p :: rest)
    (hi : neighborsFindNeighborNode (n.node v).ns (T.addr u) = some i)
    (hsent : (n.node v).state.hasSentNodeInfo = false) : ∃ coord bp, p = .nodeInfo coord bp := by
  obtain ⟨himem, hiaddr⟩ := mem_of_neighborsFindNeighborNode hi
  obtain ⟨w, hwv, haddr⟩ := (hw.placed v).table i himem
  obtain rfl := T.addr_inj (hiaddr.symm.trans haddr)
  have hlinked := hw.linked v u i himem hwv hiaddr
  obtain ⟨-, -, hdist⟩ := hw.unsent v hsent
  rcases hlinked.located with hd | ⟨-, -, hhead⟩
  · have hpos := T.pos hwv
    rw [← hd, hdist i himem] at hpos
    exact absurd hpos (by decide)
  · rw [hlink] at hhead
    exact hhead p rfl

theorem wired_start (T : Topology V) : T.Wired T.start := by
  have hconf : ∀ v, Configured (zero rimeaddrNull none) (T.boot v) := fun v =>
    (configured_setupParse (T.setupPacket v).bytes false (zero rimeaddrNull none)).1
  have hunsent : ∀ v, (T.boot v).state.hasSentNodeInfo = false := fun v =>
    (hconf v).hasSentNodeInfo
  refine ⟨T.placed_boot, fun v _ => ⟨⟨(hconf v).bpn, (hconf v).isBurning, ?_⟩, rfl, fun i hi => ?_⟩,
    fun v hs => absurd ((hunsent v).symm.trans hs) (by decide), fun v w i hi _ _ => ?_⟩
  · exact isBlinking_setupParse ..
  · obtain ⟨a, ha⟩ := (hconf v).fresh i hi
    change ((T.boot v).ns.item i).dist = 0
    rw [ha]
    exact (by decide : uint8ToUint16 ⟨0, 0⟩ = 0)
  · obtain ⟨a, ha⟩ := (hconf v).fresh i hi
    change T.Linked v w ((T.boot v).ns.item i) [] none
    rw [ha]
    exact ⟨⟨none, Or.inl ⟨rfl, rfl⟩, rfl⟩, Or.inr ⟨rfl, fun _ => rfl, fun p hp => nomatch hp⟩,
      fun _ _ h => absurd h List.not_mem_nil⟩

variable [DecidableEq V]

/-- What a step of the network does. -/
inductive Change (T : Topology V) (n : Net V) : NetEvent V → Net V → Prop
  /-- A packet of a node that is not in the table is ignored. -/
  | ignored {u v : V} {c : ClockReading}
      (hi : neighborsFindNeighborNode (n.node v).ns (T.addr u) = none) :
      Change T n (.deliver u v c) (popped n u v)
  | heard {u v : V} {c : ClockReading} {p : PathPacket} {rest : List PathPacket} {i : ℕ}
      {s' : Node} (hlink : n.link u v = p :: rest)
      (hi : neighborsFindNeighborNode (n.node v).ns (T.addr u) = some i)
      (h : PathOutcome (n.node v) i p s' (adverts s'.calls)) :
      Change T n (.deliver u v c) (T.moved (popped n u v) v s')
  | acted {v : V} {ev : AppEvent} {c : ClockReading} {s' : Node} (hloc : ev.Local)
      (hdark : Dark (n.node v) → s'.state.isBlinking = false)
      (h : Outcome (n.node v) ev s' (adverts s'.calls)) :
      Change T n (.other v ev c) (T.moved n v s')

theorem change_of_step (hw : ∀ v, T.Placed v (n.node v)) (h : T.step e n = some n') :
    T.Change n e n' := by
  cases e with
  | deliver u v c =>
    simp only [step] at h
    split at h
    · cases h
    · next p rest hlink =>
      cases hi : neighborsFindNeighborNode (n.node v).ns (T.addr u) with
      | none =>
        rw [neighborsIsNeighbor, hi, if_neg (by decide)] at h
        cases h
        exact .ignored hi
      | some i =>
        rw [neighborsIsNeighbor, hi, if_pos Option.isSome_some] at h
        obtain ⟨s', hadv, rfl⟩ := Option.map_eq_some_iff.mp h
        exact .heard hlink hi (pathOutcome_of_advance rfl (hw v).listens hi hadv)
  | other v ev c =>
    simp only [step] at h
    split at h
    · next hloc =>
      obtain ⟨s', hadv, rfl⟩ := Option.map_eq_some_iff.mp h
      unfold advance at hadv
      split at hadv
      · next hok =>
        cases hadv
        exact .acted hloc (fun hd => isBlinking_step hd hok.2) (outcome_step hok.2)
      · cases hadv
    · cases h

/-! ### Every step keeps it -/

/-- A packet that is ignored is from a node without an entry. -/
theorem AllLinked.popped (h : T.AllLinked n)
    (hi : neighborsFindNeighborNode (n.node v).ns (T.addr u) = none) :
    T.AllLinked (popped n u v) := by
  intro x w j hj hw haddr
  have hlink : (Topology.popped n u v).link w x = n.link w x := by
    apply if_neg
    rintro ⟨rfl, rfl⟩
    rw [neighborsFindNeighborNode, QueueBuffer.find, List.find?_eq_none] at hi
    have haddr' : ((n.node x).ns.item j).addr = T.addr w := haddr
    exact hi j hj (by simpa using haddr')
  rw [hlink]
  exact h x w j hj hw haddr

/-- A packet that is heard is written to its sender's entry. -/
theorem AllLinked.heard {p : PathPacket} {rest : List PathPacket} (h : T.AllLinked n)
    (hp : T.Placed v (n.node v)) (hlink : n.link u v = p :: rest)
    (hi : neighborsFindNeighborNode (n.node v).ns (T.addr u) = some i) :
    T.AllLinked { Topology.popped n u v with
      node := Function.update n.node v ((n.node v).pathWritten i p) } := by
  obtain ⟨himem, hiaddr⟩ := mem_of_neighborsFindNeighborNode hi
  intro x w j hj hw haddr
  simp only at hj haddr ⊢
  by_cases hx : x = v
  · subst hx
    rw [Function.update_self] at hj haddr ⊢
    by_cases hji : j = i
    · -- the sender's entry
      subst hji
      rw [pathWritten_item_self] at haddr ⊢
      rw [entryAfter_addr, hiaddr] at haddr
      obtain rfl := T.addr_inj haddr
      have hrest : (Topology.popped n u x).link u x = rest := by
        simp only [Topology.popped, hlink, and_self, if_true, List.tail_cons]
      rw [hrest]
      have hold := h x u j himem hw hiaddr
      rw [hlink] at hold
      exact hold.received hp.coordinateNode
    · rw [pathWritten_item_of_ne p hji] at haddr ⊢
      have hwu : w ≠ u := by
        rintro rfl
        exact hji (hp.distinct j hj i himem (haddr.trans hiaddr.symm))
      have hsame : (Topology.popped n u x).link w x = n.link w x := if_neg fun hc => hwu hc.1
      rw [hsame]
      exact h x w j hj hw haddr
  · rw [Function.update_of_ne hx] at hj haddr ⊢
    have hsame : (Topology.popped n u v).link w x = n.link w x := if_neg fun hc => hx hc.2
    rw [hsame]
    exact h x w j hj hw haddr

/-- What a node announces goes onto the links to its neighbours. -/
theorem AllLinked.moved (h : T.AllLinked n) (hp : T.Placed v (n.node v))
    (hs : Settles (n.node v) s' (adverts s'.calls))
    (hsent : (n.node v).state.hasSentNodeInfo = true →
      (n.last v).isSome ∨ (n.node v).ns.used = []) :
    T.AllLinked (T.moved n v s') := by
  intro x w j hj hw haddr
  simp only [Topology.moved] at hj haddr ⊢
  by_cases hx : x = v
  · subst hx
    rw [Function.update_self] at hj haddr ⊢
    have hwx : w ≠ x := ne_of_mem_nbrs hw
    rw [if_neg (fun hc => hwx hc.1), Function.update_of_ne hwx]
    obtain ⟨b, hb⟩ := hs.item j
    rw [hb] at haddr ⊢
    exact (h x w j (hs.used.subset hj) hw haddr).setHasSentKeepAlive b
  · rw [Function.update_of_ne hx] at hj haddr ⊢
    by_cases hwv : w = v
    · subst hwv
      rw [if_pos ⟨rfl, T.symm hw⟩, Function.update_self]
      exact (h x w j hj hw haddr).told hs.tells hp.coordinateNode hsent
    · rw [if_neg (fun hc => hwv hc.1), Function.update_of_ne hwv]
      exact h x w j hj hw haddr

/-- The part of the invariant that is about the node that moves. -/
theorem Wired.moved (hplaced : ∀ x, T.Placed x (n.node x))
    (hunsent : ∀ x, (n.node x).state.hasSentNodeInfo = false → Dark (n.node x) ∧ n.last x = none ∧
      ∀ i ∈ (n.node x).ns.used, ((n.node x).ns.item i).dist = 0)
    (hsent : ∀ x, (n.node x).state.hasSentNodeInfo = true →
      (n.last x).isSome ∨ (n.node x).ns.used = [])
    (hp : T.Placed v s') (hlinked : T.AllLinked (T.moved n v s'))
    (hunsent' : s'.state.hasSentNodeInfo = false →
      Dark s' ∧ lastAdvert (n.last v) (adverts s'.calls) = none ∧
        ∀ i ∈ s'.ns.used, (s'.ns.item i).dist = 0)
    (hsent' : s'.state.hasSentNodeInfo = true →
      (lastAdvert (n.last v) (adverts s'.calls)).isSome ∨ s'.ns.used = []) :
    T.Wired (T.moved n v s') where
  placed := by
    intro x
    by_cases hx : x = v
    · subst hx
      simpa only [Topology.moved, Function.update_self] using hp
    · simpa only [Topology.moved, Function.update_of_ne hx] using hplaced x
  unsent := by
    intro x
    by_cases hx : x = v
    · subst hx
      simpa only [Topology.moved, Function.update_self] using hunsent'
    · simpa only [Topology.moved, Function.update_of_ne hx] using hunsent x
  sent := by
    intro x
    by_cases hx : x = v
    · subst hx
      simpa only [Topology.moved, Function.update_self] using hsent'
    · simpa only [Topology.moved, Function.update_of_ne hx] using hsent x
  linked := hlinked

/-- A node that has sent its node info has announced a path, unless it has no neighbours. -/
theorem sent_of_settles (hs : Settles t s' ads) (hp : t.ecNs = true)
    (hsent : t.state.hasSentNodeInfo = true → last.isSome ∨ t.ns.used = [])
    (hs' : s'.state.hasSentNodeInfo = true) : (lastAdvert last ads).isSome ∨ s'.ns.used = [] := by
  have hnil : t.ns.used = [] → s'.ns.used = [] := fun h => List.sublist_nil.mp (h ▸ hs.used)
  cases hs.tells with
  | info bp _ _ =>
    by_cases hne : t.ns.used = []
    · exact Or.inr (hnil hne)
    · rw [lastAdvert_announce hp hne]
      exact Or.inl rfl
  | later hsame _ _ _ =>
    rcases hsent (hsame ▸ hs') with hsome | hused
    · refine Or.inl ?_
      rw [Option.isSome_iff_ne_none] at hsome ⊢
      exact fun h => hsome (lastAdvert_eq_none.mp h).1
    · exact Or.inr (hnil hused)

/-- **Every step keeps the network wired.** -/
theorem Wired.change (hw : T.Wired n) (h : T.Change n e n') : T.Wired n' := by
  cases h with
  | ignored hi => exact ⟨hw.placed, hw.unsent, hw.sent, hw.linked.popped hi⟩
  | @heard u v c p rest i s' hlink hi h =>
    obtain ⟨hs, hsent'⟩ := settles_of_path (hw.first_info hlink hi) h
    have hp := (hw.placed v).pathWritten i p
    let m : Net V := { popped n u v with
      node := Function.update n.node v ((n.node v).pathWritten i p) }
    have hmoved : T.moved (popped n u v) v s' = T.moved m v s' := by
      simp only [Topology.moved, m, Function.update_idem]
      rfl
    have hnode : m.node v = (n.node v).pathWritten i p := Function.update_self ..
    have hlinked : T.AllLinked (T.moved (popped n u v) v s') := by
      rw [hmoved]
      apply (hw.linked.heard (hw.placed v) hlink hi).moved
      · rw [hnode]
        exact hp
      · rw [hnode]
        exact hs
      · rw [hnode]
        exact hw.sent v
    refine Wired.moved (n := popped n u v) hw.placed hw.unsent hw.sent (hp.settles hs) hlinked
      (fun hu => absurd (hsent'.symm.trans hu) (by decide))
      (sent_of_settles hs hp.ecNs (hw.sent v))
  | @acted v ev c s' hloc hdark h =>
    have hs := settles_of_local hloc (fun hu => (hw.unsent v hu).1) h
    refine Wired.moved hw.placed hw.unsent hw.sent ((hw.placed v).settles hs)
      (hw.linked.moved (hw.placed v) hs (hw.sent v)) (fun hu => ?_)
      (sent_of_settles hs (hw.placed v).ecNs (hw.sent v))
    obtain ⟨hu', hads, hbpn, hburn⟩ := unsent_of_tells hs.tells hu
    obtain ⟨hd, hlast, hdist⟩ := hw.unsent v hu'
    refine ⟨⟨hbpn.trans hd.bpn, hburn.trans hd.isBurning, hdark hd⟩, ?_, fun i hi => ?_⟩
    · rw [hads, lastAdvert_nil, hlast]
    · obtain ⟨b, hb⟩ := hs.item i
      rw [hb]
      exact hdist i (hs.used.subset hi)

/-- **The network is wired in every state it reaches.** -/
theorem wired_of_reachable (h : T.machine.Reachable n) : T.Wired n := by
  refine h.invariant ?_ ?_
  · rintro n rfl
    exact T.wired_start
  · intro n e n' hw _ hstep
    exact hw.change (change_of_step hw.placed hstep)

end Topology

end EmergencyNet
