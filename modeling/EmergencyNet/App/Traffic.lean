import EmergencyNet.App.Forwards
import EmergencyNet.App.Setup

/-!
# What a node says, and what it knows of fires

Every packet a node hands to its connection is one of its own, with the next sequence number,
or one it has just been given and passes on; a coordinate is taken for a burning one when an
emergency packet names it or when the node's own sensor reads a fire.  `Deed` lists the ways in
which the code for an event makes a difference to this, and every event is a sequence of them.

## Main definitions

* `FloodPacket` — the packets that are flooded, and `FloodPacket.read`.
* `AppEvent.packet` — the packet an event brings, and the callback it is given to.
* `AppEvent.Alarms`, `AppEvent.Clears` — what an event says of fires.
* `AppEvent.Issues` — what it makes the node flood.
* `Deed`, `Deeds` — one thing the code for an event does, and a sequence of them.

## Main results

* `FloodPacket.read_append` — **a flooded packet is read back**, whatever lies behind it.
* `Node.deeds_step` — **every event is a sequence of deeds.**
-/

namespace EmergencyNet

/-! ### The packets that are flooded -/

/-- The packets `ec_broadcast` is called with. -/
inductive FloodPacket
  | emergency (source : Coordinate)
  | antiEmergency (source : Coordinate)
  | setup (sp : SetupPacket)
  | initializeBestPaths
  | extractReport
  | resetSystem

namespace FloodPacket

/-- The payload. -/
def bytes : FloodPacket → List UInt8
  | emergency source => Node.emergencyBytes .emergency source
  | antiEmergency source => Node.emergencyBytes .antiEmergency source
  | setup sp => sp.bytes
  | initializeBestPaths => [PacketType.initializeBestPaths.toByte]
  | extractReport => [PacketType.extractReport.toByte]
  | resetSystem => [PacketType.resetSystem.toByte]

/-- What the cases of `ec_broadcasts_recv` read from memory `m`; `none` where the code
asserts. -/
def read (m : List UInt8) : Option FloodPacket :=
  match packetTypeAt m with
  | some .emergency => some (.emergency (coordinateAt m 1))
  | some .antiEmergency => some (.antiEmergency (coordinateAt m 1))
  | some .setup => some (.setup (SetupPacket.read m))
  | some .initializeBestPaths => some .initializeBestPaths
  | some .extractReport => some .extractReport
  | some .resetSystem => some .resetSystem
  | _ => none

/-- The number of the neighbours of a set-up packet fits into the byte that holds it. -/
def Counted : FloodPacket → Prop
  | setup sp => sp.neighbors.length < 256
  | _ => True

/-- **A flooded packet is read back**, whatever lies behind it. -/
theorem read_append {p : FloodPacket} (h : p.Counted) (stale : List UInt8) :
    read (p.bytes ++ stale) = some p := by
  cases p with
  | emergency source => rfl
  | antiEmergency source => rfl
  | setup sp =>
    have htype : packetTypeAt (sp.bytes ++ stale) = some .setup := packetTypeAt_cons .setup _
    have hread : SetupPacket.read (sp.bytes ++ stale) = sp :=
      SetupPacket.read_of_memRead h (memRead_append_length _ _)
    unfold read bytes
    simp only [htype, hread]
  | initializeBestPaths => rfl
  | extractReport => rfl
  | resetSystem => rfl

/-- A payload that fits into the sending queue belongs to a packet whose neighbours are
counted. -/
theorem counted_of_length {p : FloodPacket} (h : p.bytes.length ≤ 24) : p.Counted := by
  cases p with
  | setup sp =>
    have hlen := sp.length_bytes
    change sp.bytes.length ≤ 24 at h
    unfold setupPacketSize at hlen
    change sp.neighbors.length < 256
    omega
  | _ => trivial

end FloodPacket

/-! ### What an event says -/

/-- The packet of the serial command `init`. -/
def initArgs : RecvArgs :=
  ⟨⟨0xFE, 0xFE⟩, ⟨0xFE, 0xFE⟩, 0, 0, [PacketType.initializeBestPaths.toByte], 1⟩

namespace AppEvent

/-- The packet an event brings, and the callback it is given to. -/
def packet : AppEvent → Option (Callback × RecvArgs)
  | .broadcastRecv r => some (.broadcastRecv, r)
  | .neighborRecv r => some (.neighborRecv, r)
  | .mcUcRecv r => some (.multicastUnicastRecv, r)
  | .serial .init => some (.broadcastRecv, initArgs)
  | _ => none

/-- A packet that is neither a set-up nor a reset leaves the node set up as it is. -/
theorem not_reconfigures_of_packet {ev : AppEvent} {k : Callback} {r : RecvArgs}
    (hev : ev.packet = some (k, r)) (hsetup : packetTypeAt r.data ≠ some .setup)
    (hreset : packetTypeAt r.data ≠ some .resetSystem) : ¬ ev.Reconfigures := by
  intro hre
  cases ev with
  | broadcastRecv r' =>
    cases hev
    exact hre.elim hsetup hreset
  | neighborRecv r' =>
    cases hev
    exact hreset hre
  | serial c => cases c <;> first | exact hre | cases hev
  | _ => exact hre

/-- At a node in state `s` the event says that `coord` burns. -/
def Alarms (s : Node) (coord : Coordinate) : AppEvent → Prop
  | .broadcastRecv r => FloodPacket.read r.data = some (.emergency coord)
  | .emergencyCheck light => Node.isEmergency light = true ∧ coord = s.coordinateNode
  | _ => False

/-- At a node in state `s` the event says that `coord` burns no more. -/
def Clears (s : Node) (coord : Coordinate) : AppEvent → Prop
  | .broadcastRecv r => FloodPacket.read r.data = some (.antiEmergency coord)
  | .emergencyCheck light => Node.isEmergency light = false ∧ coord = s.coordinateNode
  | _ => False

/-- At a node in state `s` the event makes the node flood packet `p` of its own. -/
def Issues (s : Node) (p : FloodPacket) : AppEvent → Prop
  | .emergencyCheck light =>
    p = if Node.isEmergency light then .emergency s.coordinateNode
      else .antiEmergency s.coordinateNode
  | .serial (.sendSetupPacket sp) => p = .setup sp
  | .serial .sendInitPacket => p = .initializeBestPaths
  | .serial .extractReportPacket => p = .extractReport
  | .serial .resetSystemPacket => p = .resetSystem
  | _ => False

end AppEvent

/-! ### Deeds -/

/-- On the way from `s` to `t` no packet is handed over, and nothing new is heard of fires. -/
structure Quiet (ev : AppEvent) (s t : Node) : Prop where
  calls : ∃ l, t.calls = s.calls ++ l ∧
    ∀ c, Effect.call c ∈ l → c = .timesynchOn ∨ c = .timesynchNetwork
  seqno : t.seqno = s.seqno
  emergencyCoords : t.emergencyCoords = s.emergencyCoords
  isBlinking : t.state.isBlinking = true → s.state.isBlinking = true
  /-- Only a new set-up moves a node. -/
  place : ev.Reconfigures ∨
    t.rimeaddrNodeAddr = s.rimeaddrNodeAddr ∧ t.coordinateNode = s.coordinateNode

/-- One thing the code for an event does, as far as packets and fires go. -/
inductive Deed (ev : AppEvent) (s : Node) : Node → Prop
  | quiet {t : Node} (h : Quiet ev s t) : Deed ev s t
  /-- A best path or a sign of life goes to the neighbours. -/
  | announces {data : List UInt8}
      (h : (∃ p : PathPacket, data = p.bytes) ∨ data = [PacketType.keepAliveNeighbor.toByte])
      (hev : ¬ ev.Reconfigures) : Deed ev s (s.reliableBroadcastOwn data)
  /-- A packet of the node's own is flooded. -/
  | floods {p : FloodPacket} (h : ev.Issues s p) : Deed ev s (s.broadcastOwn p.bytes)
  /-- The packet that has come is passed on. -/
  | passes {k : Callback} {r : RecvArgs} {c : EcCall} (hev : ev.packet = some (k, r))
      (hc : s.forwarded k r = some c) : Deed ev s (s.call c)
  /-- The node reports to the one that asks for it. -/
  | reports {r : RecvArgs} (hev : ev = .broadcastRecv r)
      (ht : packetTypeAt r.data = some .extractReport) :
      Deed ev s { s.call (.mesh r.originator s.seqno s.nodeReportBytes) with seqno := s.seqno + 1 }
  | adds {coord : Coordinate} (h : ev.Alarms s coord) : Deed ev s (s.addCoordinateAsBurning coord)
  | removes {coord : Coordinate} (h : ev.Clears s coord) :
      Deed ev s (s.removeCoordinateAsBurning coord)
  /-- The light goes on. -/
  | blinks {coord : Coordinate} (h : ev.Alarms s coord) :
      Deed ev s { s with state := { s.state with isBlinking := true } }

/-- A sequence of deeds. -/
abbrev Deeds (ev : AppEvent) : Node → Node → Prop := Relation.ReflTransGen (Deed ev)

namespace Quiet

variable {ev : AppEvent} {s t u : Node}

/-- What is said of nothing but the rest of the state. -/
theorem of_eq (hcalls : t.calls = s.calls) (hseqno : t.seqno = s.seqno)
    (hcoords : t.emergencyCoords = s.emergencyCoords)
    (hblink : t.state.isBlinking = true → s.state.isBlinking = true)
    (haddr : t.rimeaddrNodeAddr = s.rimeaddrNodeAddr)
    (hcoord : t.coordinateNode = s.coordinateNode) : Quiet ev s t where
  calls := ⟨[], by rw [hcalls, List.append_nil], fun _ h => absurd h List.not_mem_nil⟩
  seqno := hseqno
  emergencyCoords := hcoords
  isBlinking := hblink
  place := .inr ⟨haddr, hcoord⟩

theorem refl (s : Node) : Quiet ev s s := of_eq rfl rfl rfl id rfl rfl

theorem trans (h : Quiet ev s t) (h' : Quiet ev t u) : Quiet ev s u where
  calls := by
    obtain ⟨l, hl, hcalls⟩ := h.calls
    obtain ⟨l', hl', hcalls'⟩ := h'.calls
    refine ⟨l ++ l', by rw [hl', hl, List.append_assoc], fun c hc => ?_⟩
    exact (List.mem_append.mp hc).elim (hcalls c) (hcalls' c)
  seqno := h'.seqno.trans h.seqno
  emergencyCoords := h'.emergencyCoords.trans h.emergencyCoords
  isBlinking := h.isBlinking ∘ h'.isBlinking
  place := by
    rcases h.place with hre | ⟨haddr, hcoord⟩
    · exact .inl hre
    · rcases h'.place with hre | ⟨haddr', hcoord'⟩
      · exact .inl hre
      · exact .inr ⟨haddr'.trans haddr, hcoord'.trans hcoord⟩

theorem assert (b : Bool) : Quiet ev s (s.assert b) where
  calls := ⟨[.assert b], rfl, fun c hc => by simp at hc⟩
  seqno := rfl
  emergencyCoords := rfl
  isBlinking := id
  place := .inr ⟨rfl, rfl⟩

theorem call {c : EcCall} (hc : c = .timesynchOn ∨ c = .timesynchNetwork) :
    Quiet ev s (s.call c) where
  calls := by
    refine ⟨[.call c], rfl, fun c' hc' => ?_⟩
    rw [List.mem_singleton, Effect.call.injEq] at hc'
    exact hc' ▸ hc
  seqno := rfl
  emergencyCoords := rfl
  isBlinking := id
  place := .inr ⟨rfl, rfl⟩

theorem deeds (h : Quiet ev s t) : Deeds ev s t := .single (.quiet h)

end Quiet

namespace Node

variable {ev : AppEvent} {s : Node}

/-! ### The light -/

theorem quiet_blinkingUpdate : Quiet ev s s.blinkingUpdate := by
  unfold blinkingUpdate
  split
  · have hset : Quiet ev (s.assert (decide (s.bpn ≠ .null))) { s.assert (decide (s.bpn ≠ .null)) with
        blinking :=
          { nextWakeup := s.timesynchTimeToRtimer
              ((s.timesynchTime / blinkingSequenceSwitchTime + 1) * blinkingSequenceSwitchTime)
            state := ((s.deref s.bpn).hops.toUInt16 + 1 +
              (s.timesynchTime / blinkingSequenceSwitchTime + 1)) % blinkingSequenceLength } } :=
      .of_eq rfl rfl rfl id rfl rfl
    exact (Quiet.assert _).trans hset
  · exact .refl s

theorem deeds_blinkingInit {coord : Coordinate} (h : ev.Alarms s coord) :
    Deeds ev s s.blinkingInit := by
  unfold blinkingInit
  split
  · exact .refl
  · exact .head (.blinks h) quiet_blinkingUpdate.deeds

/-! ### Set-up -/

theorem quiet_addNeighbors : ∀ (l : List Rimeaddr) (s : Node), Quiet ev s (addNeighbors l s) := by
  intro l
  induction l with
  | nil => exact fun s => .refl s
  | cons a rest ih =>
    intro s
    cases hns : neighborsAdd s.ns a with
    | some ns =>
      have hput : Quiet ev s { s with ns := ns } := .of_eq rfl rfl rfl id rfl rfl
      simp only [addNeighbors, hns]
      exact hput.trans (ih _)
    | none =>
      simp only [addNeighbors, hns]
      exact (Quiet.assert false).trans (ih _)

theorem quiet_setupParse (hev : ev.Reconfigures) (m : List UInt8) (b : Bool) (s : Node) :
    Quiet ev s (setupParse m b s) := by
  let cleared := setupCleared (SetupPacket.read m) s
  have hsame : Quiet ev s s := .refl s
  have hclear : Quiet ev s cleared :=
    { hsame with
      isBlinking := fun h => Bool.noConfusion h
      place := .inl hev }
  have hadd : Quiet ev s (addNeighbors (SetupPacket.read m).neighbors cleared) :=
    hclear.trans (quiet_addNeighbors _ _)
  unfold setupParse
  simp only
  cases (SetupPacket.read m).isExitNode != 0 <;>
    exact { hadd with isBlinking := hadd.isBlinking, place := .inl hev }

theorem quiet_resetSystem (hev : ev.Reconfigures) : Quiet ev s s.resetSystemPacketHandler := by
  unfold resetSystemPacketHandler
  cases s.flash with
  | none => exact .of_eq rfl rfl rfl id rfl rfl
  | some f =>
    have hsetup := quiet_setupParse hev (memRead f setupBufferSize) true s
    exact { hsetup with isBlinking := hsetup.isBlinking, place := hsetup.place }

/-! ### The best path -/

theorem deeds_broadcastBestPath (hev : ¬ ev.Reconfigures) : Deeds ev s s.broadcastBestPath := by
  have hsend : Deed ev (s.assert (s.bpn ≠ .null)) s.broadcastBestPath :=
    .announces (.inl ⟨.bestPathUpdate s.bestNeighborBpToOurBp, rfl⟩) hev
  exact .head (.quiet (.assert _)) (.single hsend)

theorem deeds_updateBpn (hev : ¬ ev.Reconfigures) (p : NeighborPtr) (s : Node) :
    Deeds ev s (s.updateBpnAndBroadcastNewPathIfChanged p).1 := by
  have hassert : Quiet ev s (s.assert (s.findBestExitPathNeighbor ≠ .null)) := .assert _
  have hswitch : Quiet ev s { s.assert (s.findBestExitPathNeighbor ≠ .null) with
      bpn := s.findBestExitPathNeighbor } := hassert.trans (.of_eq rfl rfl rfl id rfl rfl)
  unfold updateBpnAndBroadcastNewPathIfChanged
  simp only
  split
  · exact hswitch.deeds.trans (deeds_broadcastBestPath hev)
  · split
    · exact hswitch.deeds.trans (deeds_broadcastBestPath hev)
    · exact hassert.deeds

theorem deeds_updateBpnAndSendNodeInfo (hev : ¬ ev.Reconfigures) :
    Deeds ev s s.updateBpnAndSendNodeInfo := by
  have hassert : Quiet ev s (s.assert (s.findBestExitPathNeighbor ≠ .null)) := .assert _
  let best : Node := { s.assert (s.findBestExitPathNeighbor ≠ .null) with
    bpn := s.findBestExitPathNeighbor }
  have hswitch : Quiet ev s best := hassert.trans (.of_eq rfl rfl rfl id rfl rfl)
  have hsend : Deed ev (best.assert (best.bpn ≠ .null)) s.updateBpnAndSendNodeInfo :=
    .announces (.inl ⟨.nodeInfo s.coordinateNode best.bestNeighborBpToOurBp, rfl⟩) hev
  exact hswitch.deeds.trans (.head (.quiet (.assert _)) (.single hsend))

theorem deeds_initHandler (hev : ¬ ev.Reconfigures) :
    Deeds ev s s.initializeBestPathPacketHandler := by
  have hcall : Quiet ev s (s.call .timesynchOn) := .call (.inl rfl)
  let on : Node := { s.call .timesynchOn with
    state := { (s.call .timesynchOn).state with isResetMode := false } }
  have hon : Quiet ev s on := hcall.trans (.of_eq rfl rfl rfl id rfl rfl)
  unfold initializeBestPathPacketHandler
  simp only
  split
  · have hsent : Deeds ev s (updateBpnAndSendNodeInfo (on.assert (!on.state.hasSentNodeInfo))) :=
      (hon.trans (.assert _)).deeds.trans (deeds_updateBpnAndSendNodeInfo hev)
    exact hsent.tail (.quiet (.of_eq rfl rfl rfl id rfl rfl))
  · exact hon.deeds

/-! ### The callbacks -/

/-- The arguments with which a packet is passed on. -/
def passedArgs (r : RecvArgs) (s : Node) : SendArgs :=
  ⟨r.originator, s.rimeaddrNodeAddr, r.hops + 1, r.seqno, r.payload⟩

/-- The packets a node floods further. -/
theorem forwarded_broadcast {r : RecvArgs} (hig : s.ignoredInResetMode r = false)
    (hsink : s.state.isSinkNode = false)
    (ht : packetTypeAt r.data = some .emergency ∨ packetTypeAt r.data = some .antiEmergency ∨
      packetTypeAt r.data = some .extractReport) :
    s.forwarded .broadcastRecv r = some (.broadcast s.connNs (s.passedArgs r)) := by
  unfold forwarded
  simp only [hig, hsink, Bool.or_self, Bool.false_eq_true, if_false]
  rcases ht with ht | ht | ht <;> (rw [ht]; rfl)

/-- The packets a node hands on to its neighbours. -/
theorem forwarded_reliable {k : Callback} {r : RecvArgs} (hk : k ≠ .multicastUnicastRecv)
    (hig : s.ignoredInResetMode r = false) (hsink : s.state.isSinkNode = false)
    (ht : packetTypeAt r.data = some .initializeBestPaths ∨
      packetTypeAt r.data = some .resetSystem) :
    s.forwarded k r = some (.reliableBroadcastNs s.connNs (s.passedArgs r)) := by
  unfold forwarded
  simp only [hig, hsink, Bool.or_self, Bool.false_eq_true, if_false]
  rcases ht with ht | ht <;> rw [ht] <;> cases k <;> first | rfl | exact absurd rfl hk

/-- A node passes packets on in these two ways. -/
theorem forwarded_cases {k : Callback} {r : RecvArgs} {c : EcCall} (h : s.forwarded k r = some c) :
    (k = .broadcastRecv ∧ c = .broadcast s.connNs (s.passedArgs r) ∧
      (packetTypeAt r.data = some .emergency ∨ packetTypeAt r.data = some .antiEmergency ∨
        packetTypeAt r.data = some .extractReport)) ∨
    (c = .reliableBroadcastNs s.connNs (s.passedArgs r) ∧
      (packetTypeAt r.data = some .initializeBestPaths ∨
        packetTypeAt r.data = some .resetSystem)) := by
  unfold forwarded at h
  simp only at h
  split at h
  · cases h
  · split at h
    all_goals first
      | cases h; rename_i ht; exact .inl ⟨rfl, rfl, .inl ht⟩
      | cases h; rename_i ht; exact .inl ⟨rfl, rfl, .inr (.inl ht)⟩
      | cases h; rename_i ht; exact .inl ⟨rfl, rfl, .inr (.inr ht)⟩
      | cases h; rename_i ht; exact .inr ⟨rfl, .inl ht⟩
      | cases h; rename_i ht; exact .inr ⟨rfl, .inr ht⟩
      | cases h

theorem deeds_sensorBroadcastsRecv {r : RecvArgs} (hev : ev.packet = some (.broadcastRecv, r))
    (hown : ev = .broadcastRecv r ∨ packetTypeAt r.data = some .initializeBestPaths)
    (hig : s.ignoredInResetMode r = false) (hsink : s.state.isSinkNode = false) :
    Deeds ev s (sensorBroadcastsRecv r s) := by
  unfold sensorBroadcastsRecv
  cases ht : packetTypeAt r.data with
  | none => exact (Quiet.assert false).deeds
  | some t =>
    have hrecv : t ≠ .initializeBestPaths → ev = .broadcastRecv r := fun hne =>
      hown.resolve_right fun h => hne (Option.some.inj (ht.symm.trans h))
    cases t with
    | emergency =>
      obtain rfl := hrecv (by decide)
      have halarm : ∀ u : Node,
          (AppEvent.broadcastRecv r).Alarms u (coordinateAt r.data 1) := fun u => by
        change FloodPacket.read r.data = _
        rw [FloodPacket.read, ht]
      obtain ⟨coords, hadd⟩ := addCoordinateAsBurning_eq (coordinateAt r.data 1) s
      simp only
      have hadds : Deed (.broadcastRecv r) s (addCoordinateAsBurning (coordinateAt r.data 1) s) :=
        .adds (halarm s)
      rw [hadd] at hadds ⊢
      have hpass : Deed (.broadcastRecv r) { s with emergencyCoords := coords }
          (({ s with emergencyCoords := coords } : Node).broadcast r.originator (r.hops + 1) r.seqno
            r.payload) :=
        .passes hev (forwarded_broadcast (s := { s with emergencyCoords := coords }) hig hsink
          (.inl ht))
      exact .head hadds (.head hpass (deeds_blinkingInit (halarm _)))
    | antiEmergency =>
      have hpass : Deed ev (removeCoordinateAsBurning (coordinateAt r.data 1) s)
          ((removeCoordinateAsBurning (coordinateAt r.data 1) s).broadcast r.originator (r.hops + 1)
            r.seqno r.payload) :=
        .passes hev (forwarded_broadcast (s := removeCoordinateAsBurning (coordinateAt r.data 1) s)
          hig hsink (.inr (.inl ht)))
      have hclear : ev.Clears s (coordinateAt r.data 1) := by
        obtain rfl := hrecv (by decide)
        change FloodPacket.read r.data = _
        rw [FloodPacket.read, ht]
      exact .head (.removes hclear) (.single hpass)
    | setup =>
      obtain rfl := hrecv (by decide)
      simp only
      split
      · have hstop : Quiet (.broadcastRecv r) s
            { s with state := { s.state with isAwaitingSetupPacket := false } } :=
          .of_eq rfl rfl rfl id rfl rfl
        have hre : (AppEvent.broadcastRecv r).Reconfigures := Or.inl ht
        exact (hstop.trans (quiet_setupParse hre r.data false _)).deeds
      · exact .refl
    | initializeBestPaths =>
      have hpass : Deed ev s (s.reliableBroadcastNs r.originator (r.hops + 1) r.seqno r.payload) :=
        .passes hev (forwarded_reliable (by decide) hig hsink (.inl ht))
      have hre : ¬ ev.Reconfigures :=
        AppEvent.not_reconfigures_of_packet hev (by rw [ht]; decide) (by rw [ht]; decide)
      exact .head hpass (deeds_initHandler hre)
    | extractReport =>
      obtain rfl := hrecv (by decide)
      have hpass : Deed (.broadcastRecv r) s
          (s.broadcast r.originator (r.hops + 1) r.seqno r.payload) :=
        .passes hev (forwarded_broadcast hig hsink (.inr (.inr ht)))
      exact .head hpass (.single (.reports rfl ht))
    | resetSystem =>
      obtain rfl := hrecv (by decide)
      have hpass : Deed (.broadcastRecv r) s
          (s.reliableBroadcastNs r.originator (r.hops + 1) r.seqno r.payload) :=
        .passes hev (forwarded_reliable (by decide) hig hsink (.inr ht))
      have hre : (AppEvent.broadcastRecv r).Reconfigures := Or.inr ht
      exact .head hpass (quiet_resetSystem hre).deeds
    | bestPathUpdate | imYourNewNeighbor | keepAliveNeighbor | nodeInfo | nodeReport =>
      exact (Quiet.assert false).deeds

theorem deeds_ecBroadcastsRecv {r : RecvArgs} (hev : ev.packet = some (.broadcastRecv, r))
    (hown : ev = .broadcastRecv r ∨ packetTypeAt r.data = some .initializeBestPaths) :
    Deeds ev s (ecBroadcastsRecv r s) := by
  unfold ecBroadcastsRecv
  cases hig : s.ignoredInResetMode r with
  | true => exact .refl
  | false =>
    cases hsink : s.state.isSinkNode with
    | true =>
      simp only [Bool.false_eq_true, if_false, if_true]
      unfold sinkBroadcastsRecv
      split
      all_goals first
        | exact .refl
        | exact (Quiet.assert false).deeds
    | false => exact deeds_sensorBroadcastsRecv hev hown hig hsink

theorem deeds_bestPathUpdateRecv (hev : ¬ ev.Reconfigures) (i : ℕ)
    (bp : NeighborNodeBestPath) : Deeds ev s (bestPathUpdateRecv i bp s) := by
  have hset : Quiet ev s { s with ns := s.ns.set i ((s.ns.item i).setBestPath bp) } :=
    .of_eq rfl rfl rfl id rfl rfl
  have hupdate : Deeds ev s (updateBpnAndBroadcastNewPathIfChanged (.slot i)
      { s with ns := s.ns.set i ((s.ns.item i).setBestPath bp) }).1 :=
    hset.deeds.trans (deeds_updateBpn hev _ _)
  unfold bestPathUpdateRecv
  simp only
  split
  · exact hupdate.trans quiet_blinkingUpdate.deeds
  · exact hupdate

theorem deeds_nodeInfoRecv (hev : ¬ ev.Reconfigures) (i : ℕ) (coord : Coordinate)
    (bp : NeighborNodeBestPath) : Deeds ev s (nodeInfoRecv i coord bp s) := by
  unfold nodeInfoRecv
  simp only
  generalize s.ns.set i _ = ns
  have hset : Quiet ev s { s with ns := ns } := .of_eq rfl rfl rfl id rfl rfl
  split
  · split
    · exact hset.deeds
    · exact hset.deeds.trans (deeds_updateBpn hev _ _)
  · have hsent := hset.deeds.trans (deeds_updateBpnAndSendNodeInfo (s := { s with ns := ns }) hev)
    exact hsent.tail (.quiet (.of_eq rfl rfl rfl id rfl rfl))

theorem deeds_withSender {r : RecvArgs} {f : ℕ → Node → Node} (h : ∀ i, Deeds ev s (f i s)) :
    Deeds ev s (s.withSender r f) := by
  unfold withSender
  split
  · exact h _
  · exact (Quiet.assert false).deeds

theorem deeds_ecNeighborsRecv (r : RecvArgs) :
    Deeds (.neighborRecv r) s (ecNeighborsRecv r s) := by
  unfold ecNeighborsRecv
  cases hig : s.ignoredInResetMode r with
  | true => exact .refl
  | false =>
    cases hsink : s.state.isSinkNode with
    | true => exact .refl
    | false =>
      simp only [Bool.false_eq_true, if_false]
      unfold neighborsRecv
      cases ht : packetTypeAt r.data with
      | none => exact (Quiet.assert false).deeds
      | some t =>
        have hpass : some t = some .initializeBestPaths ∨ some t = some .resetSystem →
            Deed (.neighborRecv r) s
              (s.reliableBroadcastNs r.originator (r.hops + 1) r.seqno r.payload) := fun h =>
          .passes rfl (forwarded_reliable (by decide) hig hsink (ht ▸ h))
        have hre : t ≠ .resetSystem → ¬ (AppEvent.neighborRecv r).Reconfigures := fun hne h =>
          hne (Option.some.inj (ht.symm.trans h))
        cases t with
        | bestPathUpdate =>
          exact deeds_withSender fun i => deeds_bestPathUpdateRecv (hre (by decide)) i _
        | initializeBestPaths =>
          exact .head (hpass (.inl rfl)) (deeds_initHandler (hre (by decide)))
        | keepAliveNeighbor =>
          refine deeds_withSender fun i => Quiet.deeds ?_
          exact .of_eq rfl rfl rfl id rfl rfl
        | nodeInfo => exact deeds_withSender fun i => deeds_nodeInfoRecv (hre (by decide)) i _ _
        | resetSystem =>
          have hre : (AppEvent.neighborRecv r).Reconfigures := ht
          exact .head (hpass (.inr rfl)) (quiet_resetSystem hre).deeds
        | emergency | antiEmergency | setup | imYourNewNeighbor | extractReport | nodeReport =>
          exact (Quiet.assert false).deeds

/-! ### The process -/

theorem deeds_startBurning {light : UInt16} (h : isEmergency light = true) :
    Deeds (.emergencyCheck light) s s.startBurning := by
  have hburn : Quiet (.emergencyCheck light) s (setBurning true s) := .of_eq rfl rfl rfl id rfl rfl
  have halarm : (AppEvent.emergencyCheck light).Alarms (setBurning true s) s.coordinateNode :=
    ⟨h, rfl⟩
  have hlight : Deeds (.emergencyCheck light) s (blinkingInit (setBurning true s)) :=
    hburn.deeds.trans (deeds_blinkingInit halarm)
  generalize hu : blinkingInit (setBurning true s) = u at hlight
  have hadd : Deed (.emergencyCheck light) u (addCoordinateAsBurning u.coordinateNode u) :=
    .adds ⟨h, rfl⟩
  obtain ⟨coords, hcoords⟩ := addCoordinateAsBurning_eq u.coordinateNode u
  rw [hcoords] at hadd
  have hsend : Deed (.emergencyCheck light) { u with emergencyCoords := coords }
      (sendEmergencyPacket { u with emergencyCoords := coords }) := by
    refine .floods (p := .emergency u.coordinateNode) ?_
    change _ = ite _ _ _
    rw [if_pos h]
  have hcall : Quiet (.emergencyCheck light)
      (sendEmergencyPacket { u with emergencyCoords := coords })
      ((sendEmergencyPacket { u with emergencyCoords := coords }).call .timesynchNetwork) :=
    .call (.inr rfl)
  unfold startBurning
  simp only
  rw [hu, hcoords]
  exact ((hlight.tail hadd).tail hsend).trans (hcall.deeds.trans (deeds_broadcastBestPath id))

theorem deeds_stopBurning {light : UInt16} (h : isEmergency light = false) :
    Deeds (.emergencyCheck light) s s.stopBurning := by
  have hburn : Quiet (.emergencyCheck light) s (setBurning false s) :=
    .of_eq rfl rfl rfl id rfl rfl
  have hremove : Deed (.emergencyCheck light) (setBurning false s)
      (removeCoordinateAsBurning s.coordinateNode (setBurning false s)) := .removes ⟨h, rfl⟩
  have hsend : Deed (.emergencyCheck light)
      (removeCoordinateAsBurning s.coordinateNode (setBurning false s))
      (sendAntiEmergencyPacket
        (removeCoordinateAsBurning s.coordinateNode (setBurning false s))) := by
    refine .floods (p := .antiEmergency s.coordinateNode) ?_
    change _ = ite _ _ _
    rw [if_neg (by rw [h]; exact Bool.false_ne_true)]
    rfl
  exact ((hburn.deeds.tail hremove).tail hsend).trans quiet_blinkingUpdate.deeds

theorem deeds_emergencyCheck (light : UInt16) :
    Deeds (.emergencyCheck light) s (emergencyCheck light s) := by
  have hsense : Quiet (.emergencyCheck light) s (s.sensed light) := .of_eq rfl rfl rfl id rfl rfl
  unfold emergencyCheck abruptReading
  split
  swap
  · exact .refl
  split
  swap
  · exact .refl
  simp only
  split
  · next hem =>
    split
    · exact hsense.deeds.trans (deeds_startBurning (s := s.sensed light) hem)
    · exact hsense.deeds
  · next hem =>
    have hem : isEmergency light = false := by simpa using hem
    split
    · split
      · exact (hsense.deeds.trans (deeds_stopBurning (s := s.sensed light) hem)).trans
          (deeds_broadcastBestPath id)
      · exact hsense.deeds.trans (deeds_broadcastBestPath (s := s.sensed light) id)
    · exact hsense.deeds

theorem deeds_keepaliveCheck (hev : ¬ ev.Reconfigures) : Deeds ev s s.keepaliveCheck := by
  have hdrop : Quiet ev s s.dropSilent := .of_eq rfl rfl rfl id rfl rfl
  have hupdate : Deeds ev s (updateBpnAndBroadcastNewPathIfChanged .null s.dropSilent).1 :=
    hdrop.deeds.trans (deeds_updateBpn hev _ _)
  unfold keepaliveCheck
  split
  swap
  · exact .refl
  split
  · simp only
    split
    · exact hupdate.trans quiet_blinkingUpdate.deeds
    · exact hupdate
  · exact hdrop.deeds

theorem deeds_serialCommand (c : SerialCommand) : Deeds (.serial c) s (serialCommand c s) := by
  cases c with
  | simulationSetup sp =>
    have hre : (AppEvent.serial (.simulationSetup sp)).Reconfigures := trivial
    exact (quiet_setupParse hre _ false s).deeds
  | init => exact deeds_ecBroadcastsRecv rfl (.inr rfl)
  | sendInitPacket => exact .single (.floods (p := .initializeBestPaths) rfl)
  | sink =>
    have hre : (AppEvent.serial .sink).Reconfigures := trivial
    have hsetup : Quiet (.serial .sink) s
        (setupParse (PacketType.setup.toByte :: List.replicate 10 0) false s) :=
      quiet_setupParse hre _ false s
    exact hsetup.deeds.tail (.quiet (.of_eq rfl rfl rfl id rfl rfl))
  | resetSystemPacket => exact .single (.floods (p := .resetSystem) rfl)
  | extractReportPacket => exact .single (.floods (p := .extractReport) rfl)
  | sendSetupPacket sp =>
    have hsend : Deed (.serial (.sendSetupPacket sp)) (s.assert (sp.neighbors ≠ []))
        ((s.assert (sp.neighbors ≠ [])).broadcastOwn sp.bytes) := .floods (p := .setup sp) rfl
    exact .head (.quiet (.assert _)) (.single hsend)

/-- **Every event is a sequence of deeds.** -/
theorem deeds_step (s : Node) (e : AppEvent × ClockReading) :
    Deeds e.1 (s.wake e.2) (s.step e) := by
  obtain ⟨ev, c⟩ := e
  change Deeds ev (s.wake c) (handle ev (s.wake c))
  cases ev with
  | broadcastRecv r => exact deeds_ecBroadcastsRecv rfl (.inl rfl)
  | neighborRecv r => exact deeds_ecNeighborsRecv r
  | mcUcRecv r =>
    change Deeds _ (s.wake c) (ecMcUcRecv r (s.wake c))
    unfold ecMcUcRecv
    split
    · exact (quiet_addNeighbors _ _).deeds
    · exact (Quiet.assert false).deeds
  | timesynched => exact quiet_blinkingUpdate.deeds
  | button =>
    refine Quiet.deeds ?_
    exact .of_eq rfl rfl rfl id rfl rfl
  | serial c => exact deeds_serialCommand c
  | emergencyCheck light => exact deeds_emergencyCheck light
  | keepaliveSend =>
    change Deeds _ (s.wake c) (keepaliveSend (s.wake c))
    unfold keepaliveSend
    split
    · exact .single (.announces (.inr rfl) id)
    · exact .refl
  | keepaliveCheck => exact deeds_keepaliveCheck id

end Node

end EmergencyNet
