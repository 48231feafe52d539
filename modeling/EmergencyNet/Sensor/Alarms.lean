import EmergencyNet.App.Traffic
import EmergencyNet.Conn.Acknowledged
import EmergencyNet.Conn.Handover
import EmergencyNet.Lib.Paths
import EmergencyNet.Sensor.Application

/-!
# Alarms go back to fires

Sensor nodes on one radio, which loses, repeats and delays frames but does not forge them; a node
hears the nodes in whose range it is.  Every flooded packet reaches `ec_broadcasts_recv` as the
packet that was flooded, every packet for neighbours reaches `ec_neighbors_recv` with a type that
is handled there, and the third callback is never run: no switch on the type of a packet falls
through to its assertion.  An alarm, wherever it is heard, goes back to a reading above the
threshold at the node it names, for the coordinate it names, and its hop count is the number of
hops it has made.

## Main definitions

* `Fire`, `SensorNet`, `SensorNet.machine` — the nodes, and the fires their sensors have read.
* `SensorNet.mayHandOver` — what a node may hand over.
* `SensorNet.Brings` — what may be handed to a node.

## Main results

* `SensorNet.sound_of_step` — a step keeps what holds of all nodes.
* `SensorNet.wellTyped_of_reachable` — **every packet reaches the callback it is for.**
* `SensorNet.alarms_of_reachable` — **no alarm without a fire.**
-/

namespace EmergencyNet

variable {ι : Type*}

/-! ### The network -/

/-- A reading above the threshold: at which node, and the address and the coordinate the node had
then. -/
structure Fire (ι : Type*) where
  node : ι
  originator : Rimeaddr
  source : Coordinate
  deriving DecidableEq

/-- The nodes, and the fires that were read so far. -/
structure SensorNet (ι : Type*) where
  nodes : ι → EcNode Node
  fires : List (Fire ι)

namespace SensorNet

/-- The fire node `v` reads in an event, if it reads one. -/
def read (v : ι) (s : Node) : NodeEvent ProcessEvent → List (Fire ι)
  | .process (.emergencyCheck light) =>
    if Node.isEmergency light then [⟨v, s.rimeaddrNodeAddr, s.coordinateNode⟩] else []
  | _ => []

/-- The frame that is received has been sent by a node in whose range the receiver is. -/
def InRange (radio : ι → ι → Prop) : EcNetEvent ι ProcessEvent → Prop
  | .own _ _ => True
  | .hears u v _ _ _ => radio u v

/-- The sensor nodes as a transition system: at the start all have just powered up. -/
def machine [DecidableEq ι] (radio : ι → ι → Prop) :
    Machine (SensorNet ι) (EcNetEvent ι ProcessEvent) where
  init S := (∀ v, sensorMachine.init (S.nodes v)) ∧ S.fires = []
  step e S S' := EcNet.Possible S.nodes e ∧ InRange radio e ∧
    ∃ s', sensorMachine.step e.event (S.nodes e.node) s' ∧
      S' = ⟨Function.update S.nodes e.node s', read e.node (S.nodes e.node).app e.event ++ S.fires⟩

end SensorNet

/-! ### What may be sent and heard -/

/-- The types of the packets nodes send to their neighbours. -/
def PacketType.ForNeighbors (t : PacketType) : Prop :=
  t = .bestPathUpdate ∨ t = .nodeInfo ∨ t = .keepAliveNeighbor ∨ t = .initializeBestPaths ∨
    t = .resetSystem

namespace SensorNet

section Sound

variable (radio : ι → ι → Prop) (F : List (Fire ι)) (v : ι)

/-- An alarm at node `v` for a fire at `coord`, reported under address `o`, that has come over
`hops` hops. -/
def Alarm (o : Rimeaddr) (coord : Coordinate) (hops : UInt8) : Prop :=
  ∃ fire ∈ F, fire.originator = o ∧ fire.source = coord ∧
    ∃ k, Paths.Route radio fire.node v k ∧ hops = UInt8.ofNat k

/-- There has been a fire at `coord`, and `v` is within reach of it. -/
def Burnt (coord : Coordinate) : Prop :=
  ∃ fire ∈ F, fire.source = coord ∧ Relation.ReflTransGen radio fire.node v

/-- What node `v` may hand over. -/
def mayHandOver : MayHandOver
  | .broadcastData, _, a => ∃ p : FloodPacket, a.data = p.bytes ∧
      ∀ coord, p = .emergency coord → Alarm radio F v a.originator coord a.hops
  | .neighborData, _, a =>
    a.data ≠ [] ∧ ∃ t, packetTypeAt a.data = some t ∧ t.ForNeighbors
  | _, _, _ => False

/-- What may be handed to the application of node `v`. -/
def Brings : AppEvent → Prop
  | .broadcastRecv r => ∃ p : FloodPacket, r.payload = p.bytes ∧ FloodPacket.read r.data = some p ∧
      ∀ coord, p = .emergency coord → ∃ fire ∈ F, fire.originator = r.originator ∧
        fire.source = coord ∧ ∃ k, Paths.Route radio fire.node v (k + 1) ∧ r.hops = UInt8.ofNat k
  | .neighborRecv r => r.payload ≠ [] ∧ ∃ t, packetTypeAt r.data = some t ∧ t.ForNeighbors
  | .mcUcRecv _ => False
  | _ => True

/-- What node `v` knows of fires has been. -/
structure Warned (s : Node) : Prop where
  coords : ∀ coord ∈ s.emergencyCoords, Burnt radio F v coord
  blinks : s.state.isBlinking = true → ∃ coord, Burnt radio F v coord

/-- What holds of node `v`. -/
structure Sound (s : EcNode Node) : Prop extends Warned radio F v s.app where
  conn : s.conn.Accounted (mayHandOver radio F v)

end Sound

variable {radio : ι → ι → Prop} {F F' : List (Fire ι)} {v u : ι}

/-! ### Fires only get more -/

theorem Alarm.mono {o : Rimeaddr} {coord : Coordinate} {hops : UInt8}
    (h : Alarm radio F v o coord hops) (hF : F ⊆ F') : Alarm radio F' v o coord hops := by
  obtain ⟨fire, hfire, h⟩ := h
  exact ⟨fire, hF hfire, h⟩

theorem Burnt.mono {coord : Coordinate} (h : Burnt radio F v coord) (hF : F ⊆ F') :
    Burnt radio F' v coord := by
  obtain ⟨fire, hfire, h⟩ := h
  exact ⟨fire, hF hfire, h⟩

theorem mayHandOver_mono (hF : F ⊆ F') {t : MsgType} {ns : Option NeighborSet} {a : SendArgs}
    (h : mayHandOver radio F v t ns a) : mayHandOver radio F' v t ns a := by
  cases t with
  | broadcastData =>
    obtain ⟨p, hp, halarm⟩ := h
    exact ⟨p, hp, fun coord hcoord => (halarm coord hcoord).mono hF⟩
  | neighborData => exact h
  | neighborAck | timesynchData | multicastUnicastAck | multicastUnicastData | meshData =>
    exact h.elim

theorem Warned.mono {s : Node} (h : Warned radio F v s) (hF : F ⊆ F') : Warned radio F' v s where
  coords coord hcoord := (h.coords coord hcoord).mono hF
  blinks hblink := by
    obtain ⟨coord, hcoord⟩ := h.blinks hblink
    exact ⟨coord, hcoord.mono hF⟩

theorem Sound.mono {s : EcNode Node} (h : Sound radio F v s) (hF : F ⊆ F') :
    Sound radio F' v s where
  toWarned := h.toWarned.mono hF
  conn := h.conn.mono fun _ _ _ => mayHandOver_mono hF

/-! ### What a node hands over -/

/-- The type of a packet is that of its payload. -/
theorem packetTypeAt_payload {r : RecvArgs} (h : r.payload ≠ []) :
    packetTypeAt r.payload = packetTypeAt r.data := by
  have hlen : 0 < r.dataLen.toNat := by
    have hpos := List.length_pos_iff.mpr h
    rw [RecvArgs.payload, length_memRead] at hpos
    exact hpos
  rw [packetTypeAt, packetTypeAt, RecvArgs.payload, byteAt_memRead hlen]

/-- What the event says is burning has burnt. -/
theorem burnt_of_alarms {ev : AppEvent} {s : Node} {coord : Coordinate}
    (hev : Brings radio F v ev)
    (hfire : ∀ light, ev = .emergencyCheck light → Node.isEmergency light = true →
      Burnt radio F v s.coordinateNode)
    (h : ev.Alarms s coord) : Burnt radio F v coord := by
  cases ev with
  | broadcastRecv r =>
    obtain ⟨p, -, hread, halarm⟩ := hev
    have hp : p = .emergency coord := Option.some.inj (hread.symm.trans h)
    obtain ⟨fire, hfire, -, hsource, k, hroute, -⟩ := halarm coord hp
    exact ⟨fire, hfire, hsource, hroute.reflTransGen⟩
  | emergencyCheck light =>
    obtain ⟨hem, rfl⟩ := h
    exact hfire light rfl hem
  | neighborRecv | mcUcRecv | timesynched | button | serial | keepaliveSend | keepaliveCheck =>
    exact h.elim

/-- The state of node `v` while an event is handled: `s₀` was the state before. -/
structure Handles (radio : ι → ι → Prop) (F : List (Fire ι)) (v : ι) (ev : AppEvent)
    (s₀ s : Node) : Prop extends Warned radio F v s where
  calls : ∀ c, Effect.call c ∈ s.calls → c.HandsOver (mayHandOver radio F v)
  place : ev.Reconfigures ∨
    s.rimeaddrNodeAddr = s₀.rimeaddrNodeAddr ∧ s.coordinateNode = s₀.coordinateNode

/-- A check of the sensor sets nothing up. -/
theorem not_reconfigures {light : UInt16} : ¬ (AppEvent.emergencyCheck light).Reconfigures := id

/-- A packet that is brought is not empty. -/
theorem payload_ne_nil {ev : AppEvent} {k : Callback} {r : RecvArgs} (hev : Brings radio F v ev)
    (hpacket : ev.packet = some (k, r)) : r.payload ≠ [] := by
  cases ev with
  | broadcastRecv r' =>
    cases hpacket
    obtain ⟨p, hpayload, -⟩ := hev
    rw [hpayload]
    cases p <;> exact List.cons_ne_nil _ _
  | neighborRecv r' =>
    cases hpacket
    exact hev.1
  | mcUcRecv => exact hev.elim
  | serial cmd =>
    cases cmd with
    | init =>
      cases hpacket
      decide
    | simulationSetup | sendInitPacket | sink | resetSystemPacket | extractReportPacket
    | sendSetupPacket => cases hpacket
  | timesynched | button | emergencyCheck | keepaliveSend | keepaliveCheck => cases hpacket

/-- A packet that is passed on may be handed over. -/
theorem handsOver_passed {ev : AppEvent} {s : Node} {k : Callback} {r : RecvArgs} {c : EcCall}
    (hev : Brings radio F v ev) (hpacket : ev.packet = some (k, r))
    (hc : s.forwarded k r = some c) : c.HandsOver (mayHandOver radio F v) := by
  obtain ⟨rfl, rfl, htype⟩ | ⟨rfl, htype⟩ := Node.forwarded_cases hc
  · -- only what was received is flooded further
    have hrecv : ev = .broadcastRecv r := by
      cases ev with
      | broadcastRecv r' =>
        cases hpacket
        rfl
      | serial cmd =>
        cases cmd with
        | init =>
          cases hpacket
          rcases htype with h | h | h <;> exact absurd h (by decide)
        | simulationSetup | sendInitPacket | sink | resetSystemPacket | extractReportPacket
        | sendSetupPacket => cases hpacket
      | neighborRecv | mcUcRecv => cases hpacket
      | timesynched | button | emergencyCheck | keepaliveSend | keepaliveCheck => cases hpacket
    subst hrecv
    obtain ⟨p, hpayload, -, halarm⟩ := hev
    refine ⟨p, hpayload, fun coord hcoord => ?_⟩
    obtain ⟨fire, hfire, horiginator, hsource, n, hroute, hhops⟩ := halarm coord hcoord
    refine ⟨fire, hfire, horiginator, hsource, n + 1, hroute, ?_⟩
    change r.hops + 1 = _
    rw [hhops, UInt8.ofNat_add]
    rfl
  · have hne : r.payload ≠ [] := payload_ne_nil hev hpacket
    intro ns _ _
    change r.payload ≠ [] ∧ ∃ t, packetTypeAt r.payload = some t ∧ t.ForNeighbors
    refine ⟨hne, ?_⟩
    rw [packetTypeAt_payload hne]
    rcases htype with h | h
    · exact ⟨_, h, .inr (.inr (.inr (.inl rfl)))⟩
    · exact ⟨_, h, .inr (.inr (.inr (.inr rfl)))⟩

/-- **A deed keeps what holds while an event is handled.** -/
theorem Handles.deed {ev : AppEvent} {s₀ s t : Node} (hs : Handles radio F v ev s₀ s)
    (hev : Brings radio F v ev)
    (hfire : ∀ light, ev = .emergencyCheck light → Node.isEmergency light = true →
      (⟨v, s₀.rimeaddrNodeAddr, s₀.coordinateNode⟩ : Fire ι) ∈ F)
    (h : Deed ev s t) : Handles radio F v ev s₀ t := by
  have hcall : ∀ {t : Node} {c : EcCall}, t.calls = s.calls ++ [.call c] →
      c.HandsOver (mayHandOver radio F v) →
      ∀ c', Effect.call c' ∈ t.calls → c'.HandsOver (mayHandOver radio F v) := by
    intro t c ht hc c' hc'
    rw [ht] at hc'
    rcases List.mem_append.mp hc' with hold | hnew
    · exact hs.calls c' hold
    · rw [List.mem_singleton, Effect.call.injEq] at hnew
      exact hnew ▸ hc
  -- the fire that is read is at the place the node still has
  have hread : ∀ light, ev = .emergencyCheck light → Node.isEmergency light = true →
      Alarm radio F v s.rimeaddrNodeAddr s.coordinateNode 0 := by
    intro light hlight hem
    subst hlight
    obtain ⟨haddr, hcoord⟩ := hs.place.resolve_left not_reconfigures
    exact ⟨_, hfire light rfl hem, haddr.symm, hcoord.symm, 0, .here, rfl⟩
  have halarms : ∀ {coord : Coordinate}, ev.Alarms s coord → Burnt radio F v coord := by
    intro coord
    refine burnt_of_alarms hev fun light hlight hem => ?_
    obtain ⟨fire, hmem, -, hsource, k, hroute, -⟩ := hread light hlight hem
    exact ⟨fire, hmem, hsource, hroute.reflTransGen⟩
  cases h with
  | quiet h =>
    obtain ⟨l, hl, hcalls⟩ := h.calls
    refine ⟨⟨?_, fun hblink => hs.blinks (h.isBlinking hblink)⟩, fun c hc => ?_, ?_⟩
    · rw [h.emergencyCoords]
      exact hs.coords
    · rw [hl] at hc
      rcases List.mem_append.mp hc with hold | hnew
      · exact hs.calls c hold
      · rcases hcalls c hnew with rfl | rfl <;> trivial
    · rcases h.place with hre | ⟨haddr, hcoord⟩
      · exact .inl hre
      · exact hs.place.imp_right fun hplace => ⟨haddr.trans hplace.1, hcoord.trans hplace.2⟩
  | announces hdata =>
    refine ⟨⟨hs.coords, hs.blinks⟩, hcall rfl fun ns _ _ => ?_, hs.place⟩
    rcases hdata with ⟨p, rfl⟩ | rfl
    · cases p with
      | bestPathUpdate bp => exact ⟨List.cons_ne_nil _ _, _, packetTypeAt_cons _ _, .inl rfl⟩
      | nodeInfo coord bp => exact ⟨List.cons_ne_nil _ _, _, packetTypeAt_cons _ _, .inr (.inl rfl)⟩
    · exact ⟨List.cons_ne_nil _ _, _, packetTypeAt_cons _ _, .inr (.inr (.inl rfl))⟩
  | @floods p hp =>
    refine ⟨⟨hs.coords, hs.blinks⟩, hcall rfl ⟨p, rfl, fun coord hcoord => ?_⟩, hs.place⟩
    subst hcoord
    cases ev with
    | emergencyCheck light =>
      cases hem : Node.isEmergency light with
      | true =>
        have heq : FloodPacket.emergency coord = .emergency s.coordinateNode :=
          hp.trans (if_pos hem)
        cases heq
        exact hread light rfl hem
      | false =>
        have heq : FloodPacket.emergency coord = .antiEmergency s.coordinateNode :=
          hp.trans (if_neg (by simp [hem]))
        cases heq
    | serial cmd => cases cmd <;> cases hp
    | broadcastRecv | neighborRecv | mcUcRecv | timesynched | button | keepaliveSend
    | keepaliveCheck => exact hp.elim
  | passes hpacket hc =>
    exact ⟨⟨hs.coords, hs.blinks⟩, hcall rfl (handsOver_passed hev hpacket hc), hs.place⟩
  | reports => exact ⟨⟨hs.coords, hs.blinks⟩, hcall rfl trivial, hs.place⟩
  | @adds coord h =>
    unfold Node.addCoordinateAsBurning
    split
    · refine ⟨⟨fun c hc => ?_, hs.blinks⟩, hs.calls, hs.place⟩
      rcases List.mem_cons.mp hc with rfl | hc
      · exact halarms h
      · exact hs.coords c hc
    · exact hs
  | removes =>
    exact ⟨⟨fun c hc => hs.coords c (List.mem_of_mem_erase hc), hs.blinks⟩, hs.calls, hs.place⟩
  | @blinks coord h =>
    exact ⟨⟨hs.coords, fun _ => ⟨coord, halarms h⟩⟩, hs.calls, hs.place⟩

/-! ### An event of a node -/

/-- An event handled by the application. -/
theorem handles_react {ev : AppEvent} {s : Node} (hs : Warned radio F v s)
    (hev : Brings radio F v ev)
    (hfire : ∀ light, ev = .emergencyCheck light → Node.isEmergency light = true →
      (⟨v, s.rimeaddrNodeAddr, s.coordinateNode⟩ : Fire ι) ∈ F) :
    Handles radio F v ev s (s.react ev).1 := by
  have hdeeds : Deeds ev (s.wake s.now) (s.react ev).1 := Node.deeds_step s (ev, s.now)
  generalize (s.react ev).1 = t at hdeeds ⊢
  have hwake : Handles radio F v ev s (s.wake s.now) :=
    ⟨⟨hs.coords, hs.blinks⟩, fun _ hc => absurd hc List.not_mem_nil, .inr ⟨rfl, rfl⟩⟩
  induction hdeeds with
  | refl => exact hwake
  | tail _ hdeed ih => exact ih.deed hev hfire hdeed

/-- The callback `timesynch` tells nothing of fires. -/
theorem Warned.synched {s t : Node} (h : mainRegSensor.Synched s t) (hs : Warned radio F v s) :
    Warned radio F v t := by
  induction h with
  | refl => exact hs
  | @tail t u _ hcall ih =>
    have hu : u = (t.react .timesynched).1 := (congrArg Prod.fst hcall).symm
    have hreact : Handles radio F v .timesynched t (t.react .timesynched).1 :=
      handles_react ih trivial fun light hlight => by cases hlight
    exact hu ▸ hreact.toWarned

/-- What the application is given by an event is what the connection hands to it. -/
theorem brings_appEvent {s : EcNode Node} {ev : NodeEvent ProcessEvent} {ae : AppEvent}
    (hdelivery : ∀ ch pb k r, ev = .receive ch pb →
      s.delivery mainRegSensor.toEcCallbacks ch pb = some (k, r) → Brings radio F v (k.app r))
    (h : s.appEvent ev = some ae) : Brings radio F v ae := by
  cases ev with
  | process e =>
    cases e with
    | clock c => cases h
    | button | serial | emergencyCheck | keepaliveSend | keepaliveCheck =>
      cases h
      trivial
  | receive ch pb =>
    obtain ⟨⟨k, r⟩, hd, rfl⟩ := Option.map_eq_some_iff.mp h
    exact hdelivery ch pb k r rfl hd
  | expire | timer | meshSent | meshTimeout => cases h

/-- **An event keeps what holds of a node.** -/
theorem Sound.step {s s' : EcNode Node} {ev : NodeEvent ProcessEvent} (hs : Sound radio F v s)
    (hF : read v s.app ev ⊆ F)
    (hdelivery : ∀ ch pb k r, ev = .receive ch pb →
      s.delivery mainRegSensor.toEcCallbacks ch pb = some (k, r) → Brings radio F v (k.app r))
    (h : s.step mainRegSensor ev = .ok s') : Sound radio F v s' := by
  have hran := sensor_ran h
  have happ : Warned radio F v ((s.upcall mainRegSensor ev).elim s.app Prod.fst) ∧
      ∀ r ∈ s.upcall mainRegSensor ev, ∀ call, Effect.call call ∈ r.2 →
        call.HandsOver (mayHandOver radio F v) := by
    cases he : s.appEvent ev with
    | some ae =>
      have hhandles : Handles radio F v ae s.app (s.app.react ae).1 := by
        refine handles_react hs.toWarned (brings_appEvent hdelivery he) fun light hlight hem => ?_
        subst hlight
        -- only the process checks the sensor
        have hev : ev = .process (.emergencyCheck light) := by
          cases ev with
          | process e =>
            cases e with
            | clock c => cases he
            | emergencyCheck light' =>
              cases he
              rfl
            | button | serial | keepaliveSend | keepaliveCheck => cases he
          | receive ch pb =>
            obtain ⟨⟨k, r⟩, -, hk⟩ := Option.map_eq_some_iff.mp he
            cases k <;> cases hk
          | expire | timer | meshSent | meshTimeout => cases he
        subst hev
        apply hF
        rw [read, if_pos hem]
        exact List.mem_singleton.mpr rfl
      rw [upcall_of_appEvent he]
      refine ⟨hhandles.toWarned, fun r hr call hcall => ?_⟩
      cases hr
      exact hhandles.calls call hcall
    | none =>
      rcases upcall_of_appEvent_none he with hcode | ⟨c, hcode⟩
      · rw [hcode]
        exact ⟨hs.toWarned, fun r hr => absurd hr (by simp)⟩
      · rw [hcode]
        refine ⟨⟨hs.coords, hs.blinks⟩, fun r hr call hcall => ?_⟩
        cases hr
        exact absurd hcall List.not_mem_nil
  have hmoves : PacketMoves (mayHandOver radio F v) (fun _ => True) s.conn s'.conn :=
    EcNode.step_packetMoves happ.2 (fun _ _ _ _ => trivial) h
  exact { toWarned := happ.1.synched hran.app, conn := hmoves.accounted hs.conn }

/-! ### Runs -/

/-- What a frame of node `u` gives node `v` in its range may be handed to the application. -/
theorem brings_of_frame {s s' : EcNode Node} {ch : Channel} {f : Frame} {stale : List UInt8}
    {k : Callback} {r : RecvArgs} (hu : Sound radio F u s) (hf : f ∈ framesOn ch s.conn.trace)
    (hrange : radio u v)
    (hd : s'.delivery mainRegSensor.toEcCallbacks ch (f.received stale) = some (k, r)) :
    Brings radio F v (k.app r) := by
  obtain ⟨i, hi⟩ := mem_framesOn hf
  cases (hu.conn.frames ch i f hi).delivery hd with
  | @broadcast ns a hE hlen =>
    obtain ⟨p, hp, halarm⟩ := hE
    have hpayload : (a.received stale).payload = p.bytes :=
      (SendArgs.payload_received hlen stale).trans hp
    have hread : FloodPacket.read (a.received stale).data = some p := by
      change FloodPacket.read (a.data ++ stale) = _
      rw [hp]
      exact FloodPacket.read_append (FloodPacket.counted_of_length (hp ▸ hlen)) stale
    refine ⟨p, hpayload, hread, fun coord hcoord => ?_⟩
    obtain ⟨fire, hfire, horiginator, hsource, n, hroute, hhops⟩ := halarm coord hcoord
    exact ⟨fire, hfire, horiginator, hsource, n, hroute.hop hrange, hhops⟩
  | targeted hE => exact hE.elim
  | @neighbor ns ns' a b x hE hE' hx hlen =>
    obtain ⟨hne, t, ht, hfor⟩ := hE
    have hapos : 0 < a.data.length := List.length_pos_iff.mpr hne
    have hbpos : 0 < b.data.length := List.length_pos_iff.mpr hE'.1
    have hxne : x.data ≠ [] := List.length_pos_iff.mp (hx.length ▸ hbpos)
    -- the type stands in the first byte, which is that of the packet whose header was taken
    have htype : packetTypeAt x.data = some t := by
      rw [packetTypeAt, hx.bytes 0 hapos hbpos]
      exact ht
    have hpayload : (x.received stale).payload = x.data := SendArgs.payload_received hlen stale
    have hne' : (x.received stale).payload ≠ [] := hpayload ▸ hxne
    refine ⟨hne', t, ?_, hfor⟩
    rw [← packetTypeAt_payload hne', hpayload]
    exact htype

/-- A node that has powered up knows of no fire. -/
theorem warned_resetNodeProperties (addr : Rimeaddr) (flash : Option (List UInt8)) :
    Warned radio F v (Node.resetNodeProperties addr flash) := by
  have hzero : Warned radio F v (Node.zero addr flash) :=
    ⟨fun _ hcoord => absurd hcoord List.not_mem_nil, fun hblink => Bool.noConfusion hblink⟩
  cases flash with
  | none => exact hzero
  | some f =>
    have hre : (AppEvent.serial .sink).Reconfigures := trivial
    have hquiet := Node.quiet_setupParse hre (memRead f Node.setupBufferSize) true
      (Node.zero addr (some f))
    change Warned radio F v (Node.setupParse (memRead f Node.setupBufferSize) true
      (Node.zero addr (some f)))
    refine ⟨?_, fun hblink => hzero.blinks (hquiet.isBlinking hblink)⟩
    rw [hquiet.emergencyCoords]
    exact hzero.coords

section Runs

variable [DecidableEq ι] {S S' : SensorNet ι} {e : EcNetEvent ι ProcessEvent}

/-- **A step keeps what holds of all nodes.** -/
theorem sound_of_step (hS : ∀ v, Sound radio S.fires v (S.nodes v))
    (h : (machine radio).step e S S') (v : ι) : Sound radio S'.fires v (S'.nodes v) := by
  obtain ⟨hpossible, hrange, s', ⟨-, hstep⟩, rfl⟩ := h
  have hold : ∀ w, Sound radio (read e.node (S.nodes e.node).app e.event ++ S.fires) w (S.nodes w) :=
    fun w => (hS w).mono (List.subset_append_right _ _)
  by_cases hv : v = e.node
  · subst hv
    change Sound radio _ e.node (Function.update S.nodes e.node s' e.node)
    rw [Function.update_self]
    refine (hold e.node).step (List.subset_append_left _ _) (fun ch pb k r hev hd => ?_) hstep
    cases e with
    -- a frame is received from the air, never as an event of the node alone
    | own w ev =>
      rw [show ev = .receive ch pb from hev] at hpossible
      cases hpossible
    | hears u w ch' f stale =>
      cases hev
      exact brings_of_frame (hold u) hpossible hrange hd
  · change Sound radio _ v (Function.update S.nodes e.node s' v)
    rw [Function.update_of_ne hv]
    exact hold v

/-- What holds of all nodes holds in every run. -/
theorem sound_of_reachable (h : (machine radio).Reachable S) (v : ι) :
    Sound radio S.fires v (S.nodes v) := by
  revert v
  refine h.invariant (I := fun S => ∀ v, Sound radio S.fires v (S.nodes v)) ?_ ?_
  · rintro S ⟨hnodes, -⟩ v
    obtain ⟨hconn, addr, flash, happ, -⟩ := hnodes v
    refine { toWarned := ?_, conn := ?_ }
    · rw [happ]
      exact warned_resetNodeProperties addr flash
    · rw [hconn]
      exact .opened
  · intro S e S' hS _ hstep v
    exact sound_of_step hS hstep v

/-- **Every packet reaches the callback it is for**: what a node is given of a frame of a node in
whose range it is, is for `ec_broadcasts_recv` a packet that was flooded, read as it was flooded
whatever lies behind it, and for `ec_neighbors_recv` one of a type that is handled there; nothing
is for the third callback. -/
theorem wellTyped_of_reachable (h : (machine radio).Reachable S) {u v : ι} (hrange : radio u v)
    {ch : Channel} {f : Frame} {stale : List UInt8} {k : Callback} {r : RecvArgs}
    (hf : f ∈ framesOn ch (S.nodes u).conn.trace)
    (hd : (S.nodes v).delivery mainRegSensor.toEcCallbacks ch (f.received stale) = some (k, r)) :
    (k = .broadcastRecv ∧ ∃ p : FloodPacket, r.payload = p.bytes ∧
      FloodPacket.read r.data = some p) ∨
    (k = .neighborRecv ∧ ∃ t : PacketType, packetTypeAt r.data = some t ∧ t.ForNeighbors) := by
  have hbrings := brings_of_frame (sound_of_reachable h u) hf hrange hd
  cases k with
  | broadcastRecv =>
    obtain ⟨p, hpayload, hread, -⟩ := hbrings
    exact .inl ⟨rfl, p, hpayload, hread⟩
  | neighborRecv => exact .inr ⟨rfl, hbrings.2⟩
  | multicastUnicastRecv => exact hbrings.elim

/-- **No alarm without a fire**: a coordinate a node takes for burning has burnt at a node from
which the news can have come, a node whose light is on has heard of such a fire, and an alarm that
reaches a node names the node and the coordinate of a fire, and counts the hops it has made. -/
theorem alarms_of_reachable (h : (machine radio).Reachable S) (v : ι) :
    (∀ coord ∈ (S.nodes v).app.emergencyCoords,
      ∃ fire ∈ S.fires, fire.source = coord ∧ Relation.ReflTransGen radio fire.node v) ∧
    ((S.nodes v).app.state.isBlinking = true →
      ∃ fire ∈ S.fires, Relation.ReflTransGen radio fire.node v) ∧
    ∀ u ch f stale k r coord, radio u v → f ∈ framesOn ch (S.nodes u).conn.trace →
      (S.nodes v).delivery mainRegSensor.toEcCallbacks ch (f.received stale) = some (k, r) →
      FloodPacket.read r.data = some (.emergency coord) →
      ∃ fire ∈ S.fires, fire.originator = r.originator ∧ fire.source = coord ∧
        ∃ n, Paths.Route radio fire.node v (n + 1) ∧ r.hops = UInt8.ofNat n := by
  have hv := sound_of_reachable h v
  refine ⟨hv.coords, fun hblink => ?_, fun u ch f stale k r coord hrange hf hd hread => ?_⟩
  · obtain ⟨coord, fire, hfire, -, hroute⟩ := hv.blinks hblink
    exact ⟨fire, hfire, hroute⟩
  · have hbrings := brings_of_frame (sound_of_reachable h u) hf hrange hd
    cases k with
    | broadcastRecv =>
      obtain ⟨p, -, hp, halarm⟩ := hbrings
      exact halarm coord (Option.some.inj (hp.symm.trans hread))
    | neighborRecv =>
      -- the type of an alarm is none of those for neighbours
      obtain ⟨-, t, ht, hfor⟩ := hbrings
      unfold FloodPacket.read at hread
      change packetTypeAt r.data = some t at ht
      rw [ht] at hread
      rcases hfor with rfl | rfl | rfl | rfl | rfl <;> simp at hread
    | multicastUnicastRecv => exact hbrings.elim

end Runs

/-! ### An alarm at a pair of exits -/

section Advance

variable [DecidableEq ι] [DecidableRel radio] {S S' : SensorNet ι}
  {e : EcNetEvent ι ProcessEvent}

instance (e : EcNetEvent ι ProcessEvent) : Decidable (InRange radio e) := by
  rcases e <;> unfold InRange <;> infer_instance

/-- One event, `none` when it cannot occur or the code that handles it goes wrong. -/
def advance (radio : ι → ι → Prop) [DecidableRel radio] (e : EcNetEvent ι ProcessEvent)
    (S : SensorNet ι) : Option (SensorNet ι) :=
  if EcNet.Possible S.nodes e ∧ InRange radio e then
    ((S.nodes e.node).advance mainRegSensor e.event).map fun s' =>
      ⟨Function.update S.nodes e.node s', read e.node (S.nodes e.node).app e.event ++ S.fires⟩
  else none

theorem step_of_advance (h : S.advance radio e = some S') : (machine radio).step e S S' := by
  unfold advance at h
  split at h
  · next hok =>
    obtain ⟨s', hs', rfl⟩ := Option.map_eq_some_iff.mp h
    exact ⟨hok.1, hok.2, s', sensorMachine_step_of_advance hs', rfl⟩
  · cases h

end Advance

/-- Two nodes in each other's range. -/
def pairRadio (u v : Bool) : Prop := u ≠ v

instance : DecidableRel pairRadio := fun u v => inferInstanceAs (Decidable (u ≠ v))

/-- Nodes `1.0` and `2.0`, which have just powered up. -/
def pairPowered : SensorNet Bool where
  nodes v := .poweredUp (if v then ⟨2, 0⟩ else ⟨1, 0⟩) none
  fires := []

theorem init_pairPowered : (machine pairRadio).init pairPowered := by
  refine ⟨fun v => ?_, rfl⟩
  cases v <;> exact sensorMachine_init (by decide)

/-- The process of a node handles an event. -/
def does (v : Bool) (e : ProcessEvent) : EcNetEvent Bool ProcessEvent := .own v (.process e)

/-- Both are set up as exits with the other for a neighbour, and initialised. -/
def pairReady : List (EcNetEvent Bool ProcessEvent) :=
  [does false (.serial (.simulationSetup ⟨⟨1, 0⟩, ⟨⟨0, 3⟩, ⟨0, 0⟩⟩, 1, [⟨2, 0⟩]⟩)),
    does true (.serial (.simulationSetup ⟨⟨2, 0⟩, ⟨⟨0, 9⟩, ⟨0, 0⟩⟩, 1, [⟨1, 0⟩]⟩)),
    does false (.serial .init), does true (.serial .init)]

/-- Node `1.0` reads a fire and sends the alarm. -/
def pairAlarm : List (EcNetEvent Bool ProcessEvent) :=
  [does false (.emergencyCheck 500), .own false (.expire .broadcastData),
    .own false (.timer .broadcastData true)]

/-- The frame of the alarm. -/
def pairAlarmFrame : Frame :=
  ⟨initBroadcastPacket 0 0 ⟨1, 0⟩ ⟨1, 0⟩ 1, Node.emergencyBytes .emergency ⟨⟨0, 3⟩, ⟨0, 0⟩⟩⟩

/-- The frame of the alarm is on the air. -/
theorem wellTyped_pair : ∃ S r, (machine pairRadio).Reachable S ∧
    pairAlarmFrame ∈ framesOn .broadcast (S.nodes false).conn.trace ∧
    (S.nodes true).delivery mainRegSensor.toEcCallbacks .broadcast
      (pairAlarmFrame.received [7, 7]) = some (.broadcastRecv, r) ∧
    ∃ p : FloodPacket, r.payload = p.bytes ∧ FloodPacket.read r.data = some p := by
  have h : ((Machine.run (advance pairRadio) (pairReady ++ pairAlarm) pairPowered).map fun S =>
      (decide (pairAlarmFrame ∈ framesOn .broadcast (S.nodes false).conn.trace),
        (S.nodes true).delivery mainRegSensor.toEcCallbacks .broadcast
          (pairAlarmFrame.received [7, 7]))) =
      some (true, some (.broadcastRecv, ⟨⟨1, 0⟩, ⟨1, 0⟩, 0, 1, [0, 0, 3, 0, 0, 7, 7], 5⟩)) := by
    decide +kernel
  obtain ⟨S, hrun, hS⟩ := Option.map_eq_some_iff.mp h
  obtain ⟨hframe, hd⟩ := Prod.mk.inj hS
  have hframe := of_decide_eq_true hframe
  have hreach : (machine pairRadio).Reachable S :=
    Machine.Reachable.of_run (fun _ _ _ => step_of_advance) _ (.init init_pairPowered) hrun
  refine ⟨S, _, hreach, hframe, hd, ?_⟩
  rcases wellTyped_of_reachable hreach (show pairRadio false true by decide) hframe hd with h | h
  · exact h.2
  · exact absurd h.1 (by decide)

/-- The alarm has been heard, and goes back to the fire. -/
theorem alarms_pair : ∃ S, (machine pairRadio).Reachable S ∧
    (S.nodes true).app.emergencyCoords = [⟨⟨0, 3⟩, ⟨0, 0⟩⟩] ∧
    (S.nodes true).app.state.isBlinking = true ∧
    ∃ fire ∈ S.fires, fire.source = ⟨⟨0, 3⟩, ⟨0, 0⟩⟩ ∧
      Relation.ReflTransGen pairRadio fire.node true := by
  have h : ((Machine.run (advance pairRadio) (pairReady ++ pairAlarm ++
      [.hears false true .broadcast pairAlarmFrame [7, 7]]) pairPowered).map fun S =>
      ((S.nodes true).app.emergencyCoords, (S.nodes true).app.state.isBlinking)) =
      some ([⟨⟨0, 3⟩, ⟨0, 0⟩⟩], true) := by decide +kernel
  obtain ⟨S, hrun, hS⟩ := Option.map_eq_some_iff.mp h
  obtain ⟨hcoords, hblink⟩ := Prod.mk.inj hS
  have hreach : (machine pairRadio).Reachable S :=
    Machine.Reachable.of_run (fun _ _ _ => step_of_advance) _ (.init init_pairPowered) hrun
  obtain ⟨hburnt, -, -⟩ := alarms_of_reachable hreach true
  exact ⟨S, hreach, hcoords, hblink, hburnt _ (by rw [hcoords]; exact List.mem_cons_self)⟩

end SensorNet

end EmergencyNet
