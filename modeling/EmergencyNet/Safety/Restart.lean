import EmergencyNet.Base.NodeProperties
import EmergencyNet.Safety.NeighborBound

/-!
# What a node remembers

A node keeps the set-up packet it took over last in its flash and finds it when it is switched on
again.  It takes the packet over before it burns it, and the burn is several commands to the chip,
so that a node that loses power in between may come back without its packet, or as a node `0.0`
that has no neighbours.

## Main definitions

* `Node.burns` — what an event makes a node burn.
* `Mote` — a node with the chip, which may lose power between any two commands to it.
* `Mote.kept` — the packet that should be found.

## Main results

* `Node.installs_cases` — an event takes a set-up packet over, or keeps who the node is.
* `Mote.remembers_of_reachable` — **a node is who the packet it finds says**, whenever it is
  switched on, and one that has come up once always comes up again.
-/

namespace EmergencyNet

/-- Who a node is. -/
structure Identity where
  rimeaddrNodeAddr : Rimeaddr
  coordinateNode : Coordinate
  isExitNode : Bool
  deriving DecidableEq

/-- Who a set-up packet says the node is. -/
def SetupPacket.identity (sp : SetupPacket) : Identity :=
  ⟨sp.newAddr, sp.newCoord, sp.isExitNode != 0⟩

namespace Node

variable {s t : Node} {sp : SetupPacket}

/-- Who the node is. -/
def identity (s : Node) : Identity := ⟨s.rimeaddrNodeAddr, s.coordinateNode, s.state.isExitNode⟩

/-- What `setup_parse` of the packet in memory `m` hands to `node_properties_burn`. -/
def setupImage (m : List UInt8) : List UInt8 :=
  memRead m (setupPacketSize + 2 * (SetupPacket.read m).neighbors.length)

/-- What the node burns when it handles the event, if it burns anything. -/
def burns (s : Node) : AppEvent → Option (List UInt8)
  | .broadcastRecv r => if s.TakesSetup r then some (setupImage r.data) else none
  | .serial (.simulationSetup sp) => some (setupImage sp.bytes)
  | .serial .sink => some (setupImage (PacketType.setup.toByte :: List.replicate 10 0))
  | _ => none

/-! ### Taking a packet over -/

/-- The node has taken `sp` over, and has burnt `image` or nothing. -/
structure TookOver (sp : SetupPacket) (image : Option (List UInt8)) (s t : Node) : Prop where
  identity : t.identity = sp.identity
  flash : t.flash = image.or s.flash
  /-- The table is the one `setup_parse` leaves. -/
  ns : ∃ m b u, t.ns = (setupParse m b u).ns
  /-- The packet is the one that is burnt or the one that has been. -/
  source : (∃ m, image = some (setupImage m) ∧ SetupPacket.read m = sp) ∨
    image = none ∧ s.stored = some sp
  le : Completes t.calls → sp.neighbors.length ≤ maxNeighbors

theorem identity_setupParse (m : List UInt8) (b : Bool) (s : Node) :
    (setupParse m b s).identity = (SetupPacket.read m).identity := by
  obtain ⟨calls, heq, -⟩ :=
    addNeighbors_eq (SetupPacket.read m).neighbors (setupCleared (SetupPacket.read m) s)
  unfold setupParse
  simp only
  rw [heq]
  cases hx : ((SetupPacket.read m).isExitNode != 0) <;>
    (rw [SetupPacket.identity, hx]; rfl)

/-- A packet with too many neighbours is not taken over: an assertion fails. -/
theorem le_of_completes_setupParse {m : List UInt8} {b : Bool}
    (hc : Completes (setupParse m b s).calls) :
    (SetupPacket.read m).neighbors.length ≤ maxNeighbors := by
  have hcalls : (setupParse m b s).calls = (addNeighbors (SetupPacket.read m).neighbors
    (setupCleared (SetupPacket.read m) s)).calls := calls_setupFinished _ _ _
  rw [hcalls, calls_addNeighbors, completes_append] at hc
  have hfits : (s.setupAccess m 0).Fits ↔ _ := fits_setupAccess
  rw [← hfits, fits_iff]
  by_contra hgt
  have hne : (SetupPacket.read m).neighbors.length -
      (setupCleared (SetupPacket.read m) s).ns.unused.length ≠ 0 := by
    change ¬ (SetupPacket.read m).neighbors.length ≤
      (setupCleared (SetupPacket.read m) s).ns.unused.length at hgt
    omega
  have hfails := hc.2 false (List.mem_replicate.mpr ⟨hne, rfl⟩)
  cases hfails

/-- A packet that is burnt. -/
theorem tookOver_burnt {m : List UInt8} {u : Node}
    (hident : t.identity = (setupParse m false u).identity)
    (hns : t.ns = (setupParse m false u).ns)
    (hflash : t.flash = (setupParse m false u).flash)
    (hcalls : t.calls = (setupParse m false u).calls) :
    TookOver (SetupPacket.read m) (some (setupImage m)) s t where
  identity := hident.trans (identity_setupParse m false u)
  flash := hflash.trans ((flash_setupParse m false u).trans (if_neg Bool.false_ne_true))
  ns := ⟨m, false, u, hns⟩
  source := .inl ⟨m, rfl, rfl⟩
  le hc := le_of_completes_setupParse (hcalls ▸ hc)

/-- A packet that is found in the flash. -/
theorem tookOver_resetSystem (c : EcCall) (h : s.stored = some sp) :
    TookOver sp none s (s.call c).resetSystemPacketHandler := by
  obtain ⟨f, hf, rfl⟩ := Option.map_eq_some_iff.mp h
  have hflash : (s.call c).flash = some f := hf
  let m := memRead f setupBufferSize
  unfold resetSystemPacketHandler
  rw [hflash]
  refine ⟨identity_setupParse m true (s.call c), ?_, ⟨m, true, s.call c, rfl⟩,
    .inr ⟨rfl, h⟩, fun hc => ?_⟩
  · exact (flash_setupParse m true (s.call c)).trans (if_pos rfl)
  · exact le_of_completes_setupParse (b := true) (s := s.call c) hc

theorem tookOver_handle {ev : AppEvent} (h : s.installs ev = some sp) :
    TookOver sp (s.burns ev) s (handle ev s) := by
  cases ev with
  | broadcastRecv r =>
    simp only [installs] at h
    split at h
    · cases h
    next hoff =>
    split at h
    · next hset =>
      cases h
      have htakes : s.TakesSetup r :=
        ⟨listens_of_ignored hset.1 (by decide) hoff, hset.1, hset.2⟩
      change TookOver _ (if s.TakesSetup r then _ else _) s (ecBroadcastsRecv r s)
      rw [if_pos htakes, ecBroadcastsRecv_setup htakes]
      exact tookOver_burnt rfl rfl rfl rfl
    · split at h
      · next ht =>
        obtain ⟨hmode, hsink⟩ := listens_of_ignored ht (by decide) hoff
        have hig : s.ignoredInResetMode r = false := by
          rw [ignoredInResetMode, hmode, Bool.false_and]
        have hnot : ¬ s.TakesSetup r := fun htakes => by
          have htype := htakes.2.1
          rw [ht] at htype
          cases htype
        change TookOver _ (if s.TakesSetup r then _ else _) s (ecBroadcastsRecv r s)
        rw [if_neg hnot, ecBroadcastsRecv, hig, if_neg Bool.false_ne_true, hsink,
          if_neg Bool.false_ne_true, sensorBroadcastsRecv, ht]
        exact tookOver_resetSystem _ h
      · cases h
  | neighborRecv r =>
    simp only [installs] at h
    split at h
    · cases h
    next hoff =>
    split at h
    · next ht =>
      obtain ⟨hmode, hsink⟩ := listens_of_ignored ht (by decide) hoff
      have hig : s.ignoredInResetMode r = false := by
        rw [ignoredInResetMode, hmode, Bool.false_and]
      change TookOver _ none s (ecNeighborsRecv r s)
      rw [ecNeighborsRecv, hig, if_neg Bool.false_ne_true, hsink, if_neg Bool.false_ne_true,
        neighborsRecv, ht]
      exact tookOver_resetSystem _ h
    · cases h
  | serial c =>
    cases c with
    | simulationSetup p =>
      cases h
      exact tookOver_burnt (u := s) rfl rfl rfl rfl
    | sink =>
      cases h
      exact tookOver_burnt (u := s) rfl rfl rfl rfl
    | _ => cases h
  | _ => cases h

theorem burns_of_installs_none {ev : AppEvent} (h : s.installs ev = none) : s.burns ev = none := by
  cases ev with
  | broadcastRecv r =>
    change (if s.TakesSetup r then _ else _) = none
    rw [if_neg]
    rintro ⟨⟨hmode, hsink⟩, hsetup⟩
    simp [installs, ignoredInResetMode, hmode, hsink, hsetup] at h
  | serial c =>
    cases c with
    | simulationSetup p => cases h
    | sink => cases h
    | _ => rfl
  | _ => rfl

/-! ### Every other event -/

theorem identity_of_same (h : SameRouting s t) : t.identity = s.identity := by
  rw [identity, identity, h.rimeaddrNodeAddr, h.coordinateNode, h.isExitNode]

/-- An event that does not set the node up keeps who it is, and its flash. -/
theorem identity_outcome {ev : AppEvent} {ads : List PathPacket} (hre : ¬ ev.Reconfigures)
    (ho : Outcome s ev t ads) : t.identity = s.identity ∧ t.flash = s.flash := by
  have hroute : ∀ {u : Node}, SameRouting u t → u.identity = s.identity → u.flash = s.flash →
      t.identity = s.identity ∧ t.flash = s.flash := by
    intro u hr hident hflash
    exact ⟨(identity_of_same hr).trans hident, (congrArg Routing.flash hr.routing).trans hflash⟩
  cases ho with
  | quiet hr => exact hroute hr.toSameRouting rfl rfl
  | configured hev _ => exact absurd hev hre
  | resetMode hev _ _ => exact absurd hev hre
  | newNeighbor _ hr => exact hroute hr.toSameRouting rfl rfl
  | keepAlive _ hr => exact hroute hr.toSameRouting rfl rfl
  | initialized _ _ _ hr => exact hroute hr.toSameRouting rfl rfl
  | path _ _ _ hpath =>
    cases hpath with
    | first _ _ hr => exact hroute hr.toSameRouting rfl rfl
    | switched _ _ hr => exact hroute hr.toSameRouting rfl rfl
    | kept _ _ hr => exact hroute hr.toSameRouting rfl rfl
  | sensed _ _ hr => exact hroute hr.toSameRouting rfl rfl
  | sensedSent _ _ _ hr _ => exact hroute hr.toSameRouting rfl rfl
  | dropped _ _ hr => exact hroute hr.toSameRouting rfl rfl
  | droppedSwitched _ _ _ hr => exact hroute hr.toSameRouting rfl rfl

/-- **An event takes a set-up packet over or keeps who the node is.** -/
theorem installs_cases {e : AppEvent × ClockReading} (hc : Completes (s.step e).calls) :
    (∃ sp, s.installs e.1 = some sp ∧ TookOver sp (s.burns e.1) s (s.step e)) ∨
      s.installs e.1 = none ∧ s.burns e.1 = none ∧ (s.step e).identity = s.identity ∧
        (s.step e).flash = s.flash := by
  obtain ⟨ev, c⟩ := e
  rcases installs_or_outcome hc with (⟨sp, hsp, -⟩ | ⟨hnone, hr, -⟩) | ⟨hre, hnone, ho⟩
  · have hwake : (s.wake c).installs ev = s.installs ev := by cases ev <;> rfl
    have hburns : (s.wake c).burns ev = s.burns ev := by cases ev <;> rfl
    have htook := tookOver_handle (hwake.trans hsp)
    rw [hburns] at htook
    exact .inl ⟨sp, hsp, htook.identity, htook.flash, htook.ns, htook.source, htook.le⟩
  · exact .inr ⟨hnone, burns_of_installs_none hnone, identity_of_same hr,
      congrArg Routing.flash hr.routing⟩
  · exact .inr ⟨hnone, burns_of_installs_none hnone, identity_outcome hre ho⟩

end Node

/-! ### A node and its flash -/

/-- A node with the chip it keeps its set-up packet in. -/
structure Mote where
  node : Node
  xmem : Xmem
  /-- The packet the node should find when it is switched on. -/
  kept : Option SetupPacket

/-- What happens to a node that may lose power at any time. -/
inductive MoteEvent
  | app (e : AppEvent × ClockReading)
  /-- The node is switched off and on again. -/
  | powerUp (addr : Rimeaddr)
  /-- The node loses power in the code for the event, after `k` commands to the chip, and is
  switched on again. -/
  | cut (e : AppEvent × ClockReading) (k : ℕ) (addr : Rimeaddr)

namespace Mote

variable {M M' : Mote} {x : Xmem} {sp : SetupPacket}

/-- What `node_properties_restore` finds. -/
def found (x : Xmem) : Option (List UInt8) := nodePropertiesRestore Node.setupBufferSize x

/-- The node, which finds in its flash what the chip holds. -/
def loaded (M : Mote) : Node := { M.node with flash := found M.xmem }

/-- The commands to the chip in the code for the event. -/
def commands (M : Mote) (ev : AppEvent) : List FlashCommand :=
  match M.loaded.burns ev with
  | some p => nodePropertiesBurn p
  | none => []

/-- The node after it has been switched on. -/
def restarted (addr : Rimeaddr) (x : Xmem) : Node := .resetNodeProperties addr (found x)

/-- What the tag alone says: node `0.0`, without neighbours. -/
def blank : SetupPacket := ⟨rimeaddrNull, ⟨⟨0, 0⟩, ⟨0, 0⟩⟩, 0, []⟩

/-- The packet that should be found after the first `k` commands of a burn of `sp`. -/
def keptAfter (sp : SetupPacket) (old : Option SetupPacket) : ℕ → Option SetupPacket
  | 0 => old
  | 1 => none
  | 2 => some blank
  | _ => some sp

/-- The packet that should be found when the power is lost in the code for the event, after `k`
commands. -/
def keptCut (M : Mote) (ev : AppEvent) (k : ℕ) : Option SetupPacket :=
  match M.loaded.burns ev, M.loaded.installs ev with
  | some _, some sp => keptAfter sp M.kept k
  | _, _ => M.kept

/-- A node that has come up with anything in its flash. -/
def machine : Machine Mote MoteEvent where
  init M := ∃ addr, M.node = restarted addr M.xmem ∧ Completes M.node.calls ∧
    M.kept = (found M.xmem).map SetupPacket.read
  step
    | .app e, M, M' => nodeMachine.step e M.loaded M'.node ∧
        M'.xmem = runAll (M.commands e.1) M.xmem ∧ M'.kept = (M.loaded.installs e.1).or M.kept
    | .powerUp addr, M, M' => M' = ⟨restarted addr M.xmem, M.xmem, M.kept⟩
    | .cut e k addr, M, M' => M.loaded.Enabled e.1 ∧ Completes (M.loaded.step e).calls ∧
        ∃ x, x = runAll ((M.commands e.1).take k) M.xmem ∧
          M' = ⟨restarted addr x, x, M.keptCut e.1 k⟩

/-- The chip holds the packet that should be found, which says who the node is. -/
structure Remembers (M : Mote) : Prop where
  flash : M.node.flash.map (fun p => memRead p Node.setupBufferSize) = found M.xmem
  kept : (found M.xmem).map SetupPacket.read = M.kept
  identity : ∀ sp ∈ M.kept, M.node.identity = sp.identity
  le : ∀ sp ∈ M.kept, sp.neighbors.length ≤ maxNeighbors

/-! ### What is found -/

theorem memRead_found {p : List UInt8} (h : found x = some p) :
    memRead p Node.setupBufferSize = p := by
  have hlen : p.length = Node.setupBufferSize := by
    simp only [found, nodePropertiesRestore] at h
    split at h
    · cases h
      simp [xmemPread]
    · cases h
  have hread := memRead_append_length p []
  rwa [List.append_nil, hlen] at hread

theorem map_found : (found x).map (fun p => memRead p Node.setupBufferSize) = found x := by
  cases h : found x with
  | none => rfl
  | some p => exact congrArg some (memRead_found h)

/-- What the node takes for its set-up packet when it resets itself. -/
theorem stored_loaded (M : Mote) : M.loaded.stored = (found M.xmem).map SetupPacket.read := by
  have hstored : M.loaded.stored =
      ((found M.xmem).map fun p => memRead p Node.setupBufferSize).map SetupPacket.read := by
    rw [Option.map_map]
    rfl
  rw [hstored, map_found]

theorem Remembers.stored (h : M.Remembers) : M.node.stored = M.kept := by
  rw [← h.kept, ← h.flash, Option.map_map]
  rfl

/-- The node after it has been switched on with a packet it can take over. -/
theorem restarted_eq (addr : Rimeaddr) (x : Xmem) : restarted addr x =
    match found x with
    | none => .zero addr none
    | some p => Node.setupParse p true (.zero addr (some p)) := by
  unfold restarted
  cases h : found x with
  | none => rfl
  | some p =>
    change Node.setupParse (memRead p Node.setupBufferSize) true _ = _
    rw [memRead_found h]

/-- **A node that is switched on is who the packet it finds says.** -/
theorem remembers_restarted {kept : Option SetupPacket} (addr : Rimeaddr)
    (hkept : (found x).map SetupPacket.read = kept)
    (hle : ∀ sp ∈ kept, sp.neighbors.length ≤ maxNeighbors) :
    Remembers ⟨restarted addr x, x, kept⟩ ∧ Completes (restarted addr x).calls ∧
      (∀ sp ∈ kept, (restarted addr x).SetUp sp) ∧
      (kept = none → restarted addr x = .zero addr none) := by
  subst hkept
  have heq := restarted_eq addr x
  cases hfound : found x with
  | none =>
    rw [hfound] at heq
    refine ⟨⟨?_, ?_, fun sp hsp => ?_, fun sp hsp => ?_⟩, ?_, fun sp hsp => ?_, fun _ => heq⟩
    · simp only [heq, hfound]
      rfl
    · simp only [hfound]
    · cases hsp
    · cases hsp
    · rw [heq]
      exact completes_nil
    · cases hsp
  | some p =>
    rw [hfound] at heq hle
    simp only at heq
    have hlen : (SetupPacket.read p).neighbors.length ≤ maxNeighbors := hle _ rfl
    refine ⟨⟨?_, ?_, fun sp hsp => ?_, hle⟩, ?_, fun sp hsp => ?_, fun hnone => by cases hnone⟩
    · have hflash := Node.flash_setupParse p true (.zero addr (some p))
      simp only [heq, hfound]
      rw [hflash, if_pos rfl]
      exact congrArg some (memRead_found hfound)
    · simp only [hfound]
    · cases hsp
      simp only [heq]
      exact Node.identity_setupParse p true _
    · rw [heq, Node.calls_setupParse hlen]
      exact completes_nil
    · cases hsp
      rw [heq]
      exact Node.setUp_setupParse rfl hlen true _

/-! ### Every event -/

theorem found_burn (p : List UInt8) (x : Xmem) :
    found (runAll (nodePropertiesBurn p) x) = some (memRead p Node.setupBufferSize) :=
  restore_burn (by decide) p x

theorem read_image {m : List UInt8} (h : (SetupPacket.read m).neighbors.length ≤ maxNeighbors) :
    SetupPacket.read (memRead (Node.setupImage m) Node.setupBufferSize) = SetupPacket.read m :=
  Node.read_stored h

theorem Remembers.app (h : M.Remembers) {e : AppEvent × ClockReading}
    (hstep : machine.step (.app e) M M') : M'.Remembers := by
  obtain ⟨⟨-, hnode, hc⟩, hxmem, hkept⟩ := hstep
  rw [hnode] at hc
  rcases Node.installs_cases hc with ⟨sp, hsp, htook⟩ | ⟨hnone, hburns, hident, hflash⟩
  · have hle := htook.le hc
    rw [hsp, Option.some_or] at hkept
    have hidentity : ∀ sp' ∈ M'.kept, M'.node.identity = sp'.identity := by
      intro sp' hmem
      rw [hkept] at hmem
      cases hmem
      rw [hnode, htook.identity]
    have hbound : ∀ sp' ∈ M'.kept, sp'.neighbors.length ≤ maxNeighbors := by
      intro sp' hmem
      rw [hkept] at hmem
      cases hmem
      exact hle
    rcases htook.source with ⟨m, himage, rfl⟩ | ⟨himage, hstored⟩
    · have hfound : found M'.xmem = some (memRead (Node.setupImage m) Node.setupBufferSize) := by
        rw [hxmem, commands, himage]
        exact found_burn _ _
      refine ⟨?_, ?_, hidentity, hbound⟩
      · rw [hnode, htook.flash, himage, hfound]
        rfl
      · rw [hfound, hkept, Option.map_some, read_image hle]
    · -- the packet was in the flash already
      have hsame : M'.xmem = M.xmem := by
        rw [hxmem, commands, himage]
        rfl
      refine ⟨?_, ?_, hidentity, hbound⟩
      · rw [hnode, htook.flash, himage, hsame]
        exact map_found
      · rw [hsame, hkept, ← stored_loaded, hstored]
  · have hsame : M'.xmem = M.xmem := by
      rw [hxmem, commands, hburns]
      rfl
    rw [hnone, Option.none_or] at hkept
    refine ⟨?_, ?_, ?_, ?_⟩
    · rw [hnode, hflash, hsame]
      exact map_found
    · rw [hsame, hkept, h.kept]
    · rw [hkept, hnode, hident]
      exact h.identity
    · rw [hkept]
      exact h.le

/-- What a cut leaves in the flash. -/
theorem Remembers.cut (h : M.Remembers) {e : AppEvent × ClockReading} {k : ℕ}
    (hc : Completes (M.loaded.step e).calls) :
    (found (runAll ((M.commands e.1).take k) M.xmem)).map SetupPacket.read = M.keptCut e.1 k ∧
      ∀ sp ∈ M.keptCut e.1 k, sp.neighbors.length ≤ maxNeighbors := by
  have hold : ∀ l : List FlashCommand, l = [] → M.keptCut e.1 k = M.kept →
      (found (runAll (l.take k) M.xmem)).map SetupPacket.read = M.keptCut e.1 k ∧
        ∀ sp ∈ M.keptCut e.1 k, sp.neighbors.length ≤ maxNeighbors := by
    rintro _ rfl hkept
    rw [List.take_nil, runAll_nil, hkept]
    exact ⟨h.kept, h.le⟩
  rcases Node.installs_cases hc with ⟨sp, hsp, htook⟩ | ⟨-, hburns, -⟩
  · rcases htook.source with ⟨m, himage, rfl⟩ | ⟨himage, -⟩
    · have hle := htook.le hc
      have hkept : M.keptCut e.1 k = keptAfter (SetupPacket.read m) M.kept k := by
        rw [keptCut, himage, hsp]
      have hlen : (Node.setupImage m).length =
          setupPacketSize + 2 * (SetupPacket.read m).neighbors.length := length_memRead ..
      rw [maxNeighbors] at hle
      have hcut := restore_take_burn (n := Node.setupBufferSize)
        (List.ne_nil_of_length_pos (by rw [hlen, setupPacketSize]; omega))
        (by rw [hlen, setupPacketSize, pageSize]; omega) (by decide) M.xmem k
      rw [commands, himage, hkept]
      change (nodePropertiesRestore _ _).map SetupPacket.read = _ ∧ _
      rw [hcut]
      -- nothing yet, the sector erased, the first page programmed, everything
      rcases k with _ | _ | _ | k
      · exact ⟨h.kept, h.le⟩
      · exact ⟨rfl, fun sp hsp => by cases hsp⟩
      · exact ⟨rfl, fun sp hsp => by cases hsp; exact Nat.zero_le _⟩
      · exact ⟨congrArg some (read_image hle), fun sp hsp => by cases hsp; exact hle⟩
    · exact hold _ (by rw [commands, himage]) (by rw [keptCut, himage])
  · exact hold _ (by rw [commands, hburns]) (by rw [keptCut, hburns])

theorem remembers_invariant (h : machine.Reachable M) : M.Remembers := by
  refine h.invariant (fun M hinit => ?_) fun M e M' hM _ hstep => ?_
  · obtain ⟨addr, hnode, hc, hkept⟩ := hinit
    have hle : ∀ sp ∈ M.kept, sp.neighbors.length ≤ maxNeighbors := by
      intro sp hsp
      rw [hkept] at hsp
      obtain ⟨p, hp, rfl⟩ := Option.map_eq_some_iff.mp hsp
      rw [hnode, restarted_eq, hp] at hc
      exact Node.le_of_completes_setupParse hc
    have hM : M = ⟨restarted addr M.xmem, M.xmem, M.kept⟩ := by rw [← hnode]
    rw [hM]
    exact (remembers_restarted addr hkept.symm hle).1
  · cases e with
    | app e => exact hM.app hstep
    | powerUp addr =>
      cases hstep
      exact (remembers_restarted addr hM.kept hM.le).1
    | cut e k addr =>
      obtain ⟨-, hc, x, rfl, rfl⟩ := hstep
      obtain ⟨hkept, hle⟩ := hM.cut hc
      exact (remembers_restarted addr hkept hle).1

/-- **What a node remembers** that has come up once: at any time it has stored the packet that should
be found and is who that packet says; whenever it is switched on again it comes up, set up with that
packet or not at all. -/
theorem remembers_of_reachable (h : machine.Reachable M) :
    M.node.stored = M.kept ∧ (∀ sp ∈ M.kept, M.node.identity = sp.identity) ∧
      ∀ addr, Completes (restarted addr M.xmem).calls ∧
        (∀ sp ∈ M.kept, (restarted addr M.xmem).SetUp sp) ∧
        (M.kept = none → restarted addr M.xmem = .zero addr none) := by
  have hM := remembers_invariant h
  exact ⟨hM.stored, hM.identity, fun addr => (remembers_restarted addr hM.kept hM.le).2⟩

/-! ### A cut -/

/-- The node is set up over the serial port. -/
def cutSetup (sp : SetupPacket) : AppEvent × ClockReading := (.serial (.simulationSetup sp), ⟨0, 0⟩)

/-- A node whose flash is erased is set up, and loses power when it is set up again, after the tag
has been written. -/
theorem remembers_blank : ∃ M, machine.Reachable M ∧ M.node.stored = some blank ∧
    ∀ addr, Completes (restarted addr M.xmem).calls ∧ (restarted addr M.xmem).SetUp blank := by
  let x₀ : Xmem := fun _ => 0xff
  let M₀ : Mote := ⟨restarted ⟨7, 0⟩ x₀, x₀, none⟩
  let e := cutSetup Node.twoNeighbors
  let M₁ : Mote := ⟨M₀.loaded.step e, runAll (M₀.commands e.1) x₀, some Node.twoNeighbors⟩
  let x₂ := runAll ((M₁.commands e.1).take 2) M₁.xmem
  let M₂ : Mote := ⟨restarted ⟨7, 0⟩ x₂, x₂, some blank⟩
  have hinit : machine.init M₀ := ⟨⟨7, 0⟩, rfl, by decide, by decide⟩
  have hset : machine.step (.app e) M₀ M₁ := ⟨⟨trivial, rfl, by decide⟩, rfl, by decide⟩
  have hcut : machine.step (.cut e 2 ⟨7, 0⟩) M₁ M₂ := ⟨trivial, by decide, x₂, rfl, rfl⟩
  have hreach : machine.Reachable M₂ := .next (.next (.init hinit) trivial hset) trivial hcut
  obtain ⟨hstored, -, hup⟩ := remembers_of_reachable hreach
  exact ⟨M₂, hreach, hstored, fun addr => ⟨(hup addr).1, (hup addr).2.1 blank rfl⟩⟩

end Mote

end EmergencyNet
