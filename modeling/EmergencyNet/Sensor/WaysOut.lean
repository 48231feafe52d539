import EmergencyNet.Conn.Heard
import EmergencyNet.Conn.Integrity
import EmergencyNet.Routing.Guidance
import EmergencyNet.Sensor.Alarms

/-!
# No way out without an exit

Sensor nodes on one radio, in runs in which neighbour data is sent with its own header and data.
The path a node knows through a neighbour goes back to a node that has been an exit, over hops on
which frames were heard, and it counts these hops.  There is one exception: a node without a path
whose sensor reads a fire makes up a path of one hop, so the paths go back to exits and to fires.
Where there has been no fire and no exit is within reach, a node knows of no path at all.

## Main definitions

* `Led` — the invariant of a node.
* `ExitNet`, `ExitNet.machine` — the nodes, the fires, and the nodes that have been exits.
* `ExitNet.Way`, `ExitNet.Comes` — the ways to a node, and their numbers of hops.

## Main results

* `Led.step` — an event of a node keeps the invariant.
* `ExitNet.waysOut_of_reachable` — **no way out without an exit or a fire.**
-/

namespace EmergencyNet

variable {ι : Type*}

/-! ### What is handed over for the neighbours -/

section Offers

variable {E : MayHandOver} {K : Header → Prop} {c c' : Ec} {l : List Action} {a : SendArgs}

theorem mem_offers : a ∈ offers l ↔ ∃ i ns, .enqueue .neighborData i ns a ∈ l := by
  constructor
  · intro h
    obtain ⟨x, hx, ha⟩ := List.mem_filterMap.mp h
    cases x with
    | enqueue t i ns b =>
      cases t with
      | neighborData =>
        cases ha
        exact ⟨i, ns, List.mem_reverse.mp hx⟩
      | _ => cases ha
    | _ => cases ha
  · rintro ⟨i, ns, h⟩
    exact List.mem_filterMap.mpr ⟨_, List.mem_reverse.mpr h, rfl⟩

/-- What is newly handed over for the neighbours may be handed over. -/
theorem PacketMoves.offers (h : PacketMoves E K c c') (ha : a ∈ offers c'.trace) :
    a ∈ offers c.trace ∨ ∃ ns, E .neighborData ns a := by
  induction h with
  | refl => exact .inl ha
  | tail _ hmove ih =>
    obtain ⟨l, hl, -, hnew⟩ := hmove.history
    obtain ⟨i, ns, hmem⟩ := mem_offers.mp ha
    rw [hl] at hmem
    rcases List.mem_append.mp hmem with hmem | hmem
    · exact .inr ⟨ns, hnew _ i ns a hmem (.inl rfl)⟩
    · exact ih (mem_offers.mpr ⟨i, ns, hmem⟩)

/-- A frame with which a node is given neighbour data carries a packet that was handed over. -/
theorem Orderly.delivery {σ : Type*} {cb : EcCallbacks σ} {s : EcNode σ} {ch : Channel} {f : Frame}
    {stale : List UInt8} {r : RecvArgs} (h : Orderly c) (hf : f ∈ framesOn ch c.trace)
    (hd : s.delivery cb ch (f.received stale) = some (.neighborRecv, r)) :
    ∃ a ∈ offers c.trace, a.data.length ≤ 24 ∧ r = a.received stale := by
  obtain ⟨arr, harr, hacc⟩ := Option.bind_eq_some_iff.mp hd
  split at hacc
  · next hok =>
    obtain ⟨-, hfor, hdata, -⟩ := hok
    obtain ⟨hk, hr⟩ := Prod.mk.inj (Option.some.inj hacc)
    -- only the neighbour channel gives to this callback
    have hch : ch = .neighbor := by
      by_contra hne
      unfold EcNode.callbackFor at hk
      rw [if_neg hne] at hk
      split at hk <;> cases hk
    subst hch
    have hmem : f ∈ dataFrames c.trace := by
      obtain ⟨i, hi⟩ := mem_framesOn hf
      refine List.mem_filter.mpr ⟨List.mem_filterMap.mpr ⟨_, List.mem_reverse.mpr hi, rfl⟩, ?_⟩
      change (!f.hdr.isPacketFlagSet PacketFlags.ack) = true
      rw [show f.hdr.isPacketFlagSet PacketFlags.ack = false from hdata]
      rfl
    obtain ⟨fs, ls, hnumbered⟩ := h.numbered
    rw [← hnumbered.frames] at hmem
    obtain ⟨p, hp, rfl⟩ := List.mem_map.mp hmem
    obtain ⟨a, ha, hcarries⟩ := hnumbered.sent p hp
    have ha : a ∈ offers c.trace := List.mem_of_getElem? ha
    exact ⟨a, ha, hnumbered.short a ha, hr.symm.trans (hcarries.recvArgs_eq harr hfor)⟩
  · cases hacc

end Offers

/-! ### Path packets among what is handed over -/

/-- What is taken for a path packet is one, and nothing more. -/
def Whole (data : List UInt8) : Prop := ∀ p, advertOf data = some p → data = p.bytes

/-- Packet `a` is one with which a node to which ways come over the hops in `Comes` may tell its
neighbours of a path. -/
def Told (Comes : UInt8 → Prop) (a : SendArgs) : Prop :=
  Whole a.data ∧ ∀ p, advertOf a.data = some p → Advertises Comes p.bp

/-- What such a node may hand over. -/
def TellsWays (Comes : UInt8 → Prop) : MayHandOver
  | .neighborData, _, a => Told Comes a
  | _, _, _ => True

theorem whole_bytes (p : PathPacket) : Whole p.bytes := by
  intro q hq
  rw [advertOf_bytes] at hq
  cases hq
  rfl

theorem whole_of_packetTypeAt {data : List UInt8} {t : PacketType} (h : packetTypeAt data = some t)
    (hu : t ≠ .bestPathUpdate) (hi : t ≠ .nodeInfo) : Whole data := by
  intro p hp
  unfold advertOf at hp
  rw [h] at hp
  cases t with
  | bestPathUpdate => exact absurd rfl hu
  | nodeInfo => exact absurd rfl hi
  | _ => cases hp

/-- What is read in a buffer that begins with whole data is what the data holds. -/
theorem Whole.advertOf_append {data stale : List UInt8} {p : PathPacket} (h : Whole data)
    (hne : data ≠ []) (hp : advertOf (data ++ stale) = some p) : advertOf data = some p := by
  cases data with
  | nil => exact absurd rfl hne
  | cons b rest =>
    -- the type stands in the first byte, so the data holds a path packet too
    have htype : packetTypeAt (b :: rest ++ stale) = packetTypeAt (b :: rest) := rfl
    obtain ⟨q, hq⟩ : ∃ q, advertOf (b :: rest) = some q := by
      unfold advertOf at hp ⊢
      rw [htype] at hp
      split at hp
      · exact ⟨_, rfl⟩
      · exact ⟨_, rfl⟩
      · cases hp
    rw [hq, ← hp, h q hq]
    cases q <;> rfl

/-- The packets a node hands over for its neighbours are whole ones. -/
def WholeCalls (s : Node) : Prop :=
  ∀ ns a, Effect.call (.reliableBroadcastNs ns a) ∈ s.calls → Whole a.data

theorem WholeCalls.call {s t : Node} {c : EcCall} (h : WholeCalls s)
    (ht : t.calls = s.calls ++ [.call c])
    (hc : ∀ ns a, c = .reliableBroadcastNs ns a → Whole a.data) : WholeCalls t := by
  intro ns a hmem
  rw [ht] at hmem
  rcases List.mem_append.mp hmem with hold | hnew
  · exact h ns a hold
  · rw [List.mem_singleton, Effect.call.injEq] at hnew
    exact hc ns a hnew.symm

namespace SensorNet

variable {radio : ι → ι → Prop} {F : List (Fire ι)} {v : ι} {ev : AppEvent} {s t : Node}

/-- A deed hands over whole packets only. -/
theorem wholeCalls_of_deed (h : WholeCalls s) (hev : Brings radio F v ev) (hdeed : Deed ev s t) :
    WholeCalls t := by
  cases hdeed with
  | quiet hquiet =>
    obtain ⟨l, hl, hcalls⟩ := hquiet.calls
    intro ns a hmem
    rw [hl] at hmem
    rcases List.mem_append.mp hmem with hold | hnew
    · exact h ns a hold
    · rcases hcalls _ hnew with heq | heq <;> cases heq
  | announces hdata =>
    refine h.call rfl fun ns a hc => ?_
    cases hc
    rcases hdata with ⟨p, rfl⟩ | rfl
    · exact whole_bytes p
    · exact whole_of_packetTypeAt (packetTypeAt_cons _ _) (by decide) (by decide)
  | floods => exact h.call rfl fun ns a hc => by cases hc
  | @passes k r c hpacket hc =>
    refine h.call rfl fun ns a heq => ?_
    subst heq
    obtain ⟨-, hbroadcast, -⟩ | ⟨hpassed, htype⟩ := Node.forwarded_cases hc
    · cases hbroadcast
    · cases hpassed
      have htype' := packetTypeAt_payload (payload_ne_nil hev hpacket)
      rcases htype with ht | ht
      · exact whole_of_packetTypeAt (htype'.trans ht) (by decide) (by decide)
      · exact whole_of_packetTypeAt (htype'.trans ht) (by decide) (by decide)
  | reports => exact h.call rfl fun ns a hc => by cases hc
  | adds =>
    unfold Node.addCoordinateAsBurning
    split
    · exact h
    · exact h
  | removes => exact h
  | blinks => exact h

theorem wholeCalls_react (hev : Brings radio F v ev) : WholeCalls (s.react ev).1 := by
  have hdeeds : Deeds ev (s.wake s.now) (s.react ev).1 := Node.deeds_step s (ev, s.now)
  generalize (s.react ev).1 = t at hdeeds
  induction hdeeds with
  | refl => exact fun ns a hmem => absurd hmem List.not_mem_nil
  | tail _ hdeed ih => exact wholeCalls_of_deed ih hev hdeed

end SensorNet

/-! ### A node -/

/-- The invariant of a node to which ways come over the hops in `Comes`: its paths lead to it, and
it has told its neighbours of such paths only. -/
structure Led (Comes : UInt8 → Prop) (s : EcNode Node) : Prop where
  guided : s.app.Guided Comes
  orderly : Orderly s.conn
  told : ∀ a ∈ offers s.conn.trace, Told Comes a

section Led

variable {Comes Comes' : UInt8 → Prop} {radio : ι → ι → Prop} {F : List (Fire ι)} {v : ι}
  {s s' : EcNode Node} {ev : NodeEvent ProcessEvent}

theorem Led.mono (h : Led Comes s) (hle : ∀ k, Comes k → Comes' k) : Led Comes' s where
  guided := h.guided.mono hle
  orderly := h.orderly
  told a ha := ⟨(h.told a ha).1, fun p hp => ((h.told a ha).2 p hp).imp_right (hle _)⟩

/-- What application code hands over, when it announces paths that lead to the node only. -/
theorem handsOver_ways {t : Node} (hwhole : WholeCalls t)
    (hads : ∀ p ∈ adverts t.calls, Advertises Comes p.bp) {c : EcCall}
    (hc : Effect.call c ∈ t.calls) : c.HandsOver (TellsWays Comes) := by
  cases c with
  | reliableBroadcastNs ns a =>
    rintro ns rfl hne
    refine ⟨hwhole _ a hc, fun p hp => hads p (List.mem_filterMap.mpr ⟨_, hc, ?_⟩)⟩
    change (if ns.addrs.length > 0 then advertOf a.data else none) = some p
    rw [if_pos (List.length_pos_iff.mpr hne), hp]
  | _ => trivial

/-- The callback `timesynch` finds no way. -/
theorem routing_of_synched {t u : Node} (h : mainRegSensor.Synched t u) : SameRouting t u := by
  induction h with
  | refl => exact ⟨rfl⟩
  | @tail t u _ hcall ih =>
    have hu : u = (t.wake t.now).blinkingUpdate := (congrArg Prod.fst hcall).symm
    have hupdate : SameRouting (t.wake t.now) (t.wake t.now).blinkingUpdate :=
      Node.sameRoute_blinkingUpdate.toSameRouting
    rw [hu]
    exact ⟨hupdate.routing.trans ih.routing⟩

/-- **An event of a node keeps the invariant.** -/
theorem Led.step (hs : Led Comes s) (hown : s.FiresWhen Ec.SendsOwn ev)
    (hbrings : ∀ ae, s.appEvent ev = some ae →
      SensorNet.Brings radio F v ae ∧ Node.BringsWays Comes ae)
    (hexit : s'.app.state.isExitNode = true → Comes 0) (h : s.step mainRegSensor ev = .ok s') :
    Led Comes s' := by
  have hran := sensor_ran h
  have hsynched := routing_of_synched hran.app
  have happ : ((s.upcall mainRegSensor ev).elim s.app Prod.fst).Guided Comes ∧
      ∀ r ∈ s.upcall mainRegSensor ev, ∀ call, Effect.call call ∈ r.2 →
        call.HandsOver (TellsWays Comes) := by
    cases he : s.appEvent ev with
    | some ae =>
      obtain ⟨hae, hways⟩ := hbrings ae he
      rw [upcall_of_appEvent he] at hran hsynched ⊢
      have hc : Completes (s.app.react ae).2 := hran.completes _ rfl
      have hexit' : (s.app.react ae).1.state.isExitNode = true → Comes 0 := fun hx =>
        hexit (hsynched.isExitNode.trans hx)
      obtain ⟨hguided, hads⟩ := hs.guided.step (e := (ae, s.app.now)) hways hc hexit'
      refine ⟨hguided, fun r hr call hcall => ?_⟩
      cases hr
      exact handsOver_ways (SensorNet.wholeCalls_react hae) hads hcall
    | none =>
      rcases upcall_of_appEvent_none he with hcode | ⟨c, hcode⟩
      · rw [hcode]
        exact ⟨hs.guided, fun r hr => absurd hr (by simp)⟩
      · rw [hcode]
        refine ⟨hs.guided.of_routing ⟨rfl⟩, fun r hr call hcall => ?_⟩
        cases hr
        exact absurd hcall List.not_mem_nil
  have hmoves : PacketMoves (TellsWays Comes) (fun _ => True) s.conn s'.conn :=
    EcNode.step_packetMoves happ.2 (fun _ _ _ _ => trivial) h
  refine ⟨happ.1.of_routing hsynched, ?_, fun a ha => ?_⟩
  · exact (hown.shape Ec.SendsOwn.same h).orderly (fun _ hc => hc) hs.orderly
  · rcases hmoves.offers ha with hold | ⟨ns, hnew⟩
    · exact hs.told a hold
    · exact hnew

/-- A path that is heard of leads to the node that is heard. -/
theorem Led.heard {u : EcNode Node} {ch : Channel} {f : Frame} {stale : List UInt8} {r : RecvArgs}
    {p : PathPacket} (hu : Led Comes u) (hf : f ∈ framesOn ch u.conn.trace)
    (hd : s.delivery mainRegSensor.toEcCallbacks ch (f.received stale) = some (.neighborRecv, r))
    (hne : r.payload ≠ []) (hp : advertOf r.data = some p) : Advertises Comes p.bp := by
  obtain ⟨a, ha, hlen, rfl⟩ := hu.orderly.delivery hf hd
  obtain ⟨hwhole, htells⟩ := hu.told a ha
  have hne : a.data ≠ [] := by
    rw [← SendArgs.payload_received hlen stale]
    exact hne
  exact htells p (hwhole.advertOf_append hne hp)

end Led

/-! ### The network -/

/-- The nodes, the fires that were read so far, and the nodes that have been exits. -/
structure ExitNet (ι : Type*) extends SensorNet ι where
  exits : ι → Bool

namespace ExitNet

/-- Neighbour data is sent with its own header and data. -/
def SendsOwn (X : ExitNet ι) (e : EcNetEvent ι ProcessEvent) : Prop :=
  (X.nodes e.node).FiresWhen Ec.SendsOwn e.event

instance (X : ExitNet ι) (e : EcNetEvent ι ProcessEvent) : Decidable (X.SendsOwn e) := by
  unfold SendsOwn
  infer_instance

/-- A way of `n` hops to node `v`: from a node that has been an exit, or from a fire, which counts
for one hop. -/
def Way (radio : ι → ι → Prop) (X : ExitNet ι) (v : ι) (n : ℕ) : Prop :=
  (∃ x, X.exits x = true ∧ Paths.Route radio x v n) ∨
    ∃ fire ∈ X.fires, ∃ k, Paths.Route radio fire.node v k ∧ n = k + 1

/-- The hops of the ways to node `v`, as a byte counts them. -/
def Comes (radio : ι → ι → Prop) (X : ExitNet ι) (v : ι) (hops : UInt8) : Prop :=
  ∃ n, X.Way radio v n ∧ hops = UInt8.ofNat n

/-- The sensor nodes as a transition system. -/
def machine [DecidableEq ι] (radio : ι → ι → Prop) :
    Machine (ExitNet ι) (EcNetEvent ι ProcessEvent) where
  init X := (SensorNet.machine radio).init X.toSensorNet ∧
    ∀ v, X.exits v = (X.nodes v).app.state.isExitNode
  step e X X' := (SensorNet.machine radio).step e X.toSensorNet X'.toSensorNet ∧
    ∀ v, X'.exits v = (X.exits v || (X'.nodes v).app.state.isExitNode)

section Ways

variable {radio : ι → ι → Prop} {X X' : ExitNet ι} {u v : ι} {n : ℕ} {k : UInt8}

theorem comes_exit (h : X.exits v = true) : X.Comes radio v 0 := ⟨0, .inl ⟨v, h, .here⟩, rfl⟩

theorem comes_fire {fire : Fire ι} (h : fire ∈ X.fires) (hv : fire.node = v) :
    X.Comes radio v 1 := ⟨1, .inr ⟨fire, h, 0, hv ▸ .here, rfl⟩, rfl⟩

/-- One hop more. -/
theorem Way.hop (h : X.Way radio u n) (hrange : radio u v) : X.Way radio v (n + 1) := by
  rcases h with ⟨x, hx, hroute⟩ | ⟨fire, hfire, m, hroute, rfl⟩
  · exact .inl ⟨x, hx, hroute.hop hrange⟩
  · exact .inr ⟨fire, hfire, m + 1, hroute.hop hrange, rfl⟩

theorem Comes.hop (h : X.Comes radio u k) (hrange : radio u v) : X.Comes radio v (k + 1) := by
  obtain ⟨n, hway, rfl⟩ := h
  refine ⟨n + 1, hway.hop hrange, ?_⟩
  rw [UInt8.ofNat_add]
  rfl

/-- Ways only get more. -/
theorem Comes.mono (h : X.Comes radio v k) (hexits : ∀ x, X.exits x = true → X'.exits x = true)
    (hfires : X.fires ⊆ X'.fires) : X'.Comes radio v k := by
  obtain ⟨n, hway, rfl⟩ := h
  refine ⟨n, ?_, rfl⟩
  rcases hway with ⟨x, hx, hroute⟩ | ⟨fire, hfire, hroute⟩
  · exact .inl ⟨x, hexits x hx, hroute⟩
  · exact .inr ⟨fire, hfires hfire, hroute⟩

/-- What the process brings: a fire that is read is one at the node itself. -/
theorem bringsWays_of_process {F : List (Fire ι)} {s : EcNode Node} {p : ProcessEvent}
    {ae : AppEvent} (hae : s.appEvent (.process p) = some ae)
    (hfires : SensorNet.read v s.app (.process p) ⊆ X.fires) :
    SensorNet.Brings radio F v ae ∧ Node.BringsWays (X.Comes radio v) ae := by
  refine ⟨SensorNet.brings_appEvent (fun ch pb k r heq => by cases heq) hae, ?_, ?_⟩
  · rintro light rfl hem
    have hp : p = .emergencyCheck light := by
      cases p with
      | clock c => cases hae
      | emergencyCheck light' =>
        cases hae
        rfl
      | button | serial | keepaliveSend | keepaliveCheck => cases hae
    subst hp
    have hfire : ⟨v, s.app.rimeaddrNodeAddr, s.app.coordinateNode⟩ ∈ X.fires := by
      apply hfires
      rw [SensorNet.read, if_pos hem]
      exact List.mem_singleton.mpr rfl
    exact comes_fire hfire rfl
  · rintro r q rfl
    cases p <;> cases hae

end Ways

section Runs

variable [DecidableEq ι] {radio : ι → ι → Prop} {X X' : ExitNet ι} {e : EcNetEvent ι ProcessEvent}
  {u v : ι}

/-- A run of the nodes that keeps the list of exits is a run of the nodes. -/
theorem reachable_sensorNet {ok : ExitNet ι → EcNetEvent ι ProcessEvent → Prop}
    (h : (machine radio).ReachableWhen ok X) :
    (SensorNet.machine radio).Reachable X.toSensorNet := by
  induction h with
  | init hinit => exact .init hinit.1
  | next _ _ hstep ih => exact ih.next trivial hstep.1

/-- What a frame of a node in range brings: what is handled, and paths that lead to the node. -/
theorem bringsWays_of_frame {s : EcNode Node} {ch : Channel} {f : Frame} {stale : List UInt8}
    {k : Callback} {r : RecvArgs} (hreach : (SensorNet.machine radio).Reachable X.toSensorNet)
    (hled : Led (X.Comes radio u) (X.nodes u)) (hrange : radio u v)
    (hf : f ∈ framesOn ch (X.nodes u).conn.trace)
    (hd : s.delivery mainRegSensor.toEcCallbacks ch (f.received stale) = some (k, r)) :
    SensorNet.Brings radio X.fires v (k.app r) ∧ Node.BringsWays (X.Comes radio v) (k.app r) := by
  have hbrings : SensorNet.Brings radio X.fires v (k.app r) :=
    SensorNet.brings_of_frame (SensorNet.sound_of_reachable hreach u) hf hrange hd
  refine ⟨hbrings, ?_, ?_⟩
  · intro light hlight
    cases k <;> cases hlight
  · intro r' p hr hp
    cases k with
    | neighborRecv =>
      cases hr
      exact (hled.heard hf hd hbrings.1 hp).imp_right fun hcomes => hcomes.hop hrange
    | broadcastRecv | multicastUnicastRecv => cases hr

/-- What an event of the network brings the node it is an event of. -/
theorem bringsWays_of_event {ae : AppEvent}
    (hreach : (SensorNet.machine radio).Reachable X.toSensorNet)
    (hled : ∀ v, Led (X.Comes radio v) (X.nodes v)) (hpossible : EcNet.Possible X.nodes e)
    (hrange : SensorNet.InRange radio e)
    (hmono : ∀ k, X.Comes radio e.node k → X'.Comes radio e.node k)
    (hread : SensorNet.read e.node (X.nodes e.node).app e.event ⊆ X'.fires)
    (hae : (X.nodes e.node).appEvent e.event = some ae) :
    SensorNet.Brings radio X.fires e.node ae ∧ Node.BringsWays (X'.Comes radio e.node) ae := by
  cases hev : e.event with
  | process p =>
    rw [hev] at hae hread
    exact bringsWays_of_process hae hread
  | receive ch pb =>
    rw [hev] at hae
    obtain ⟨⟨k, r⟩, hd, rfl⟩ := Option.map_eq_some_iff.mp hae
    cases e with
    -- a frame is received from the air, never as an event of the node alone
    | own w ev =>
      rw [show ev = .receive ch pb from hev] at hpossible
      cases hpossible
    | hears u w ch' f stale =>
      cases hev
      obtain ⟨hbrings, hways⟩ := bringsWays_of_frame hreach (hled u) hrange hpossible hd
      exact ⟨hbrings, hways.mono hmono⟩
  | expire | timer | meshSent | meshTimeout =>
    rw [hev] at hae
    cases hae

/-- **A step keeps the invariant of all nodes.** -/
theorem led_of_step (hreach : (SensorNet.machine radio).Reachable X.toSensorNet)
    (hled : ∀ v, Led (X.Comes radio v) (X.nodes v)) (hown : X.SendsOwn e)
    (h : (machine radio).step e X X') (v : ι) : Led (X'.Comes radio v) (X'.nodes v) := by
  obtain ⟨⟨hpossible, hrange, s', ⟨-, hstep⟩, heq⟩, hexits⟩ := h
  have hnodes : X'.nodes = Function.update X.nodes e.node s' := congrArg SensorNet.nodes heq
  have hfires : X'.fires = SensorNet.read e.node (X.nodes e.node).app e.event ++ X.fires :=
    congrArg SensorNet.fires heq
  have hmono : ∀ w k, X.Comes radio w k → X'.Comes radio w k := by
    intro w k hcomes
    refine hcomes.mono (fun x hx => ?_) ?_
    · rw [hexits, hx]
      rfl
    · rw [hfires]
      exact List.subset_append_right _ _
  by_cases hv : v = e.node
  · subst hv
    have hnode : X'.nodes e.node = s' := by rw [hnodes, Function.update_self]
    rw [hnode]
    have hread : SensorNet.read e.node (X.nodes e.node).app e.event ⊆ X'.fires := by
      rw [hfires]
      exact List.subset_append_left _ _
    have hbrings : ∀ ae, (X.nodes e.node).appEvent e.event = some ae →
        SensorNet.Brings radio X.fires e.node ae ∧ Node.BringsWays (X'.Comes radio e.node) ae :=
      fun ae => bringsWays_of_event hreach hled hpossible hrange (hmono e.node) hread
    refine ((hled e.node).mono (hmono e.node)).step hown hbrings (fun hx => comes_exit ?_) hstep
    rw [hexits, hnode, hx, Bool.or_true]
  · rw [hnodes, Function.update_of_ne hv]
    exact (hled v).mono (hmono v)

theorem led_of_reachable (h : (machine radio).ReachableWhen SendsOwn X) (v : ι) :
    Led (X.Comes radio v) (X.nodes v) := by
  induction h generalizing v with
  | @init X hinit =>
    obtain ⟨⟨hnodes, -⟩, hexits⟩ := hinit
    obtain ⟨hconn, addr, flash, happ, -⟩ := hnodes v
    refine ⟨?_, ?_, fun a ha => ?_⟩
    · rw [happ]
      refine Node.guided_resetNodeProperties fun hx => comes_exit ?_
      rw [hexits v, happ]
      exact hx
    · rw [hconn]
      exact orderly_opened
    · rw [hconn] at ha
      cases ha
  | next hreach hown hstep ih => exact led_of_step (reachable_sensorNet hreach) ih hown hstep v

/-- **No way out without an exit**: in every run in which neighbour data is sent with its own
header and data, the path through a neighbour that a node knows, and the one through its best
neighbour, has the hops of a way from a node that has been an exit, or of one from a fire; a path
that is heard of has those of such a way to the node that is heard; and where there has been no
fire, a node no exit has come to knows of no path. -/
theorem waysOut_of_reachable (h : (machine radio).ReachableWhen SendsOwn X) (v : ι) :
    (∀ i, i ∈ (X.nodes v).app.ns.used ∨ (X.nodes v).app.bpn = .slot i →
      ((X.nodes v).app.ns.item i).metric ≠ metricTMax →
        ∃ n, X.Way radio v n ∧ ((X.nodes v).app.ns.item i).hops + 1 = UInt8.ofNat n) ∧
    (∀ u ch f stale r p, radio u v → f ∈ framesOn ch (X.nodes u).conn.trace →
      (X.nodes v).delivery mainRegSensor.toEcCallbacks ch (f.received stale) =
        some (.neighborRecv, r) →
      advertOf r.data = some p → p.bp.metric16 ≠ metricTMax →
        ∃ n, X.Way radio u n ∧ p.bp.hops = UInt8.ofNat n) ∧
    (X.fires = [] → (∀ x, X.exits x = true → ¬ Relation.ReflTransGen radio x v) →
      ∀ i ∈ (X.nodes v).app.ns.used, ((X.nodes v).app.ns.item i).metric = metricTMax) := by
  have hled := led_of_reachable h
  have hknown : ∀ i, i ∈ (X.nodes v).app.ns.used ∨ (X.nodes v).app.bpn = .slot i →
      Believes (X.Comes radio v) ((X.nodes v).app.ns.item i).bp := by
    rintro i (hused | hbest)
    · exact (hled v).guided.table i hused
    · exact ((hled v).guided.best i hbest).1
  refine ⟨fun i hi hm => (hknown i hi).resolve_left hm, ?_, fun hfires hnone i hi => ?_⟩
  · intro u ch f stale r p hrange hf hd hp hm
    have hbrings : SensorNet.Brings radio X.fires v (.neighborRecv r) :=
      SensorNet.brings_of_frame (SensorNet.sound_of_reachable (reachable_sensorNet h) u) hf hrange
        hd
    exact ((hled u).heard hf hd hbrings.1 hp).resolve_left hm
  · by_contra hm
    obtain ⟨n, ⟨x, hx, hroute⟩ | ⟨fire, hfire, -⟩, -⟩ := (hknown i (.inl hi)).resolve_left hm
    · exact hnone x hx hroute.reflTransGen
    · rw [hfires] at hfire
      cases hfire

end Runs

/-! ### The way from an exit to its neighbour -/

/-- One event, `none` when it cannot occur or the code that handles it goes wrong. -/
def advance [DecidableEq ι] (radio : ι → ι → Prop) [DecidableRel radio]
    (e : EcNetEvent ι ProcessEvent) (X : ExitNet ι) : Option (ExitNet ι) :=
  (X.toSensorNet.advance radio e).map fun S =>
    ⟨S, fun v => X.exits v || (S.nodes v).app.state.isExitNode⟩

theorem step_of_advance [DecidableEq ι] {radio : ι → ι → Prop} [DecidableRel radio]
    {e : EcNetEvent ι ProcessEvent} {X X' : ExitNet ι} (h : X.advance radio e = some X') :
    (machine radio).step e X X' := by
  obtain ⟨S, hS, rfl⟩ := Option.map_eq_some_iff.mp h
  exact ⟨SensorNet.step_of_advance hS, fun v => rfl⟩

/-- Nodes `1.0` and `2.0`, which have just powered up. -/
def pairPowered : ExitNet Bool := ⟨SensorNet.pairPowered, fun _ => false⟩

theorem init_pairPowered : (machine SensorNet.pairRadio).init pairPowered := by
  refine ⟨SensorNet.init_pairPowered, fun v => ?_⟩
  cases v <;> rfl

/-- Node `1.0` is set up as an exit, node `2.0` as none, and the exit is initialised. -/
def pairSetUp : List (EcNetEvent Bool ProcessEvent) :=
  [SensorNet.does false (.serial (.simulationSetup ⟨⟨1, 0⟩, ⟨⟨0, 3⟩, ⟨0, 0⟩⟩, 1, [⟨2, 0⟩]⟩)),
    SensorNet.does true (.serial (.simulationSetup ⟨⟨2, 0⟩, ⟨⟨0, 9⟩, ⟨0, 0⟩⟩, 0, [⟨1, 0⟩]⟩)),
    SensorNet.does false (.serial .init)]

/-- A node sends what waits on list `t`. -/
def sends (v : Bool) (t : Timer) : List (EcNetEvent Bool ProcessEvent) :=
  [.own v (.expire t), .own v (.timer t true)]

/-- The packet the exit passes on is acknowledged, and its node info follows. -/
def pairGuides : List (EcNetEvent Bool ProcessEvent) :=
  sends false .neighborData ++
    [.hears false true .neighbor
      ⟨initBroadcastPacket 0 1 initArgs.originator ⟨1, 0⟩ 0, initArgs.data⟩ []] ++
    sends true .neighborAck ++
    [.hears true false .neighbor
      ⟨initUnicastPacket PacketFlags.ack 0 initArgs.originator ⟨2, 0⟩ 0, unicastBody ⟨1, 0⟩ []⟩
      []] ++
    sends false .neighborData ++
    [.hears false true .neighbor ⟨initBroadcastPacket 0 0 ⟨1, 0⟩ ⟨1, 0⟩ 0,
      (PathPacket.nodeInfo ⟨⟨0, 3⟩, ⟨0, 0⟩⟩ ⟨⟨0, 0⟩, ⟨1, 0⟩, 0⟩).bytes⟩ [7]]

/-- The other node has heard of the exit, which is one hop away. -/
theorem waysOut_pair : ∃ X, (machine SensorNet.pairRadio).ReachableWhen SendsOwn X ∧
    X.fires = [] ∧ (X.nodes true).app.bpn = .slot 0 ∧
    ∃ n, X.Way SensorNet.pairRadio true n ∧
      ((X.nodes true).app.ns.item 0).hops + 1 = UInt8.ofNat n := by
  have h : ((Machine.run (advance SensorNet.pairRadio) (pairSetUp ++ pairGuides) pairPowered).map
      fun X => (X.fires, (X.nodes true).app.bpn, ((X.nodes true).app.ns.item 0).metric)) =
      some ([], .slot 0, 0) := by decide +kernel
  obtain ⟨X, hrun, hX⟩ := Option.map_eq_some_iff.mp h
  simp only [Prod.mk.injEq] at hX
  obtain ⟨hfires, hbest, hmetric⟩ := hX
  have hreach : (machine SensorNet.pairRadio).ReachableWhen SendsOwn X :=
    Machine.ReachableWhen.of_run (b := fun X e => decide (X.SendsOwn e))
      (fun _ _ => of_decide_eq_true) (fun _ _ _ => step_of_advance) _ (.init init_pairPowered)
      (by decide +kernel) hrun
  refine ⟨X, hreach, hfires, hbest, (waysOut_of_reachable hreach true).1 0 (.inr hbest) ?_⟩
  rw [hmetric]
  decide

end ExitNet

end EmergencyNet
