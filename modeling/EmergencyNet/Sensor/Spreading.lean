import EmergencyNet.Conn.Heard
import EmergencyNet.Sensor.Alarms
import EmergencyNet.Sensor.Malformed
import Mathlib.Data.Fintype.Basic

/-!
# Alarms reach every node

An alarm is passed on by every node that is neither the sink nor in reset mode, once, to whoever is
in range, and nobody confirms it.  If no frame of it is lost on the way, to the air or to a full
buffer, it reaches every node to which such nodes lead, in whatever order things happen.

## Main definitions

* `FloodNet`, `FloodNet.machine` — the network, and which frames have been received with room.
* `FloodPacket.Relayed` — the packets that are passed on.
* `FloodNet.Relays` — the runs: relays relay.
* `FloodNet.Names`, `FloodNet.Spent` — a packet with a number of its own, all frames of which have
  been sent and received.

## Main results

* `FloodNet.Tells.step` — what an event keeps at the node it occurs at.
* `FloodNet.given_of_took` — who has passed the packet on has given it to all in range.
* `FloodNet.spread_of_reachable` — **an alarm reaches every node.**
-/

namespace EmergencyNet

variable {ι : Type*}

/-- The packets `ec_broadcasts_recv` passes on with `ec_broadcast`. -/
def FloodPacket.Relayed : FloodPacket → Prop
  | .emergency _ | .antiEmergency _ | .extractReport => True
  | .setup _ | .initializeBestPaths | .resetSystem => False

/-- A relay calls `ec_broadcast` for the packet it is given. -/
theorem Node.broadcast_of_relayed {s : Node} {r : RecvArgs} {p : FloodPacket}
    (hreset : s.state.isResetMode = false) (hsink : s.state.isSinkNode = false)
    (hread : FloodPacket.read r.data = some p) (hp : p.Relayed) :
    Effect.call (.broadcast s.connNs (s.passedArgs r)) ∈
      (mainRegSensor.recv .broadcastRecv r s).2 := by
  have hoff : (s.ignoredInResetMode r || s.state.isSinkNode) = false := by
    rw [ignoredInResetMode, hreset, hsink]
    rfl
  have hforwarded : s.forwarded .broadcastRecv r = some (.broadcast s.connNs (s.passedArgs r)) := by
    unfold forwarded
    simp only [hoff, Bool.false_eq_true, ↓reduceIte]
    unfold FloodPacket.read at hread
    split at hread
    all_goals first
      | (cases hread; exact hp.elim)
      | cases hread
    · next ht => rw [ht]; rfl
    · next ht => rw [ht]; rfl
    · next ht => rw [ht]; rfl
  obtain ⟨l, hl, -⟩ := sends_recv .broadcastRecv r s
  change _ ∈ (mainRegSensor.recv .broadcastRecv r s).1.calls
  rw [hl, hforwarded]
  exact List.mem_append_right _ (List.mem_append_left _ List.mem_cons_self)

/-! ### The network -/

/-- The network, and for each frame that was received when there was room for three packets who
sent it and who received it. -/
structure FloodNet (ι : Type*) where
  net : SensorNet ι
  heard : List (ι × ι × Frame)

namespace FloodNet

/-- The broadcast frame that is received with room for it in an event. -/
def hears (S : SensorNet ι) : EcNetEvent ι ProcessEvent → List (ι × ι × Frame)
  | .hears u v .broadcast f _ =>
    if (S.nodes v).conn.sq.hasRoomForPackets 3 then [(u, v, f)] else []
  | _ => []

/-- The network as a transition system. -/
def machine [DecidableEq ι] (radio : ι → ι → Prop) :
    Machine (FloodNet ι) (EcNetEvent ι ProcessEvent) where
  init S := (SensorNet.machine radio).init S.net ∧ S.heard = []
  step e S S' := (SensorNet.machine radio).step e S.net S'.net ∧
    S'.heard = hears S.net e ++ S.heard

/-- When a relay receives a frame it is neither the sink nor in reset mode, and no acknowledgement
matches a queued broadcast. -/
def Relays (relay : ι → Prop) (S : FloodNet ι) (e : EcNetEvent ι ProcessEvent) : Prop :=
  ¬ (S.net.nodes e.node).AcksFlood e.event ∧
    (relay e.node → e.event.isReception = true →
      (S.net.nodes e.node).app.state.isSinkNode = false ∧
        (S.net.nodes e.node).app.state.isResetMode = false)

/-- A data packet that is handed over under the number `id` is packet `p`, and is for all. -/
def Bears (id : PacketId) (p : FloodPacket) : Action → Prop
  | .enqueue t _ _ a => t.IsData → a.id = id → t = .broadcastData ∧ a.data = p.bytes
  | _ => True

/-- Nothing else than packet `p` was handed over under the number `id`. -/
def Names (S : FloodNet ι) (id : PacketId) (p : FloodPacket) : Prop :=
  ∀ v, ∀ x ∈ (S.net.nodes v).conn.trace, Bears id p x

/-- No packet with the number `id` is still to be sent, and each frame with this number has been
received by all in range. -/
def Spent (radio : ι → ι → Prop) (S : FloodNet ι) (id : PacketId) : Prop :=
  (∀ v, ∀ f ∈ (S.net.nodes v).conn.queuedFloods, f.hdr.id ≠ id) ∧
    ∀ u v, radio u v → ∀ f ∈ framesOn .broadcast (S.net.nodes u).conn.trace, f.hdr.id = id →
      (u, v, f) ∈ S.heard

/-- Node `v` has handed a broadcast with the number `id` over. -/
def Took (S : FloodNet ι) (id : PacketId) (v : ι) : Prop :=
  ∃ i ns a, .enqueue .broadcastData i ns a ∈ (S.net.nodes v).conn.trace ∧ a.id = id

/-- Packet `p` was given to `ec_broadcasts_recv` of node `v` under the number `id`. -/
def Given (S : FloodNet ι) (id : PacketId) (p : FloodPacket) (v : ι) : Prop :=
  ∃ r, .deliver .broadcastRecv r ∈ (S.net.nodes v).conn.trace ∧ r.id = id ∧
    FloodPacket.read r.data = some p

/-- What was handed over at any node. -/
def HandedAnywhere (N : ι → EcNode Node) : MayHandOver :=
  fun t ns a => ∃ v, Handed (N v).conn.trace t ns a

/-! ### What holds of a node -/

/-- What holds of a node, a relay or not, that has received the frames `heard` with room for them,
when `E` holds of all that was handed over anywhere. -/
structure Tells (relay : Prop) (E : MayHandOver) (heard : Frame → Prop) (s : EcNode Node) :
    Prop where
  honest : s.conn.Honest
  window : DupeWindow s.conn ∧ Settled s.conn.trace
  line : s.conn.floodLine = floodsOffered s.conn.trace
  stored : ∀ f, heard f → f.hdr.flags = PacketFlags.broadcast → .store f.hdr.id ∈ s.conn.trace
  yielded : ∀ k r, .deliver k r ∈ s.conn.trace → ∃ stale, Yielded E stale k r
  relayed : relay → ∀ r p, .deliver .broadcastRecv r ∈ s.conn.trace →
    FloodPacket.read r.data = some p → p.Relayed →
      ∃ i ns a, .enqueue .broadcastData i ns a ∈ s.conn.trace ∧ a.id = r.id

variable {relay : Prop} {E E' : MayHandOver} {heard heard' : Frame → Prop} {s s' : EcNode Node}
  {ev : NodeEvent ProcessEvent}

/-- What is given was handed over. -/
theorem yielded_mono {stale : List UInt8} {k : Callback} {r : RecvArgs}
    (hE : ∀ t ns a, E t ns a → E' t ns a) (h : Yielded E stale k r) : Yielded E' stale k r := by
  cases h with
  | broadcast ha hlen => exact .broadcast (hE _ _ _ ha) hlen
  | targeted ha => exact .targeted (hE _ _ _ ha)
  | neighbor ha hb hx hlen => exact .neighbor (hE _ _ _ ha) (hE _ _ _ hb) hx hlen

theorem Tells.mono (h : Tells relay E heard s) (hE : ∀ t ns a, E t ns a → E' t ns a)
    (hheard : ∀ f, heard' f → heard f) : Tells relay E' heard' s where
  honest := h.honest
  window := h.window
  line := h.line
  stored f hf := h.stored f (hheard f hf)
  yielded k r hd := by
    obtain ⟨stale, hy⟩ := h.yielded k r hd
    exact ⟨stale, yielded_mono hE hy⟩
  relayed := h.relayed

/-- **What an event keeps** at the node it occurs at. -/
theorem Tells.step (h : Tells relay E heard s) (hstep : s.step mainRegSensor ev = .ok s')
    (hacks : ¬ s.AcksFlood ev)
    (hnew : ∀ f, heard' f → heard f ∨ (s.conn.sq.hasRoomForPackets 3 = true ∧
      ∃ stale, ev = .receive .broadcast (f.received stale)))
    (hyields : ∀ ch pb k r, ev = .receive ch pb →
      s.delivery mainRegSensor.toEcCallbacks ch pb = some (k, r) → ∃ stale, Yielded E stale k r)
    (hrelay : relay → ev.isReception = true →
      s.app.state.isSinkNode = false ∧ s.app.state.isResetMode = false) :
    Tells relay E heard' s' := by
  obtain ⟨l, hl⟩ := EcNode.trace_of_step hstep
  have hkeep : ∀ x, x ∈ s.conn.trace → x ∈ s'.conn.trace := fun x hx =>
    hl ▸ List.mem_append_right l hx
  refine ⟨EcNode.honest_of_step hstep h.honest, ?_, ?_, fun f hf hflags => ?_, fun k r hd => ?_,
    fun hr r p hd hread hp => ?_⟩
  · have hshape := EcNode.step_shape (ev.fits_any mainRegSensor s s') hstep
    exact hshape.settled h.window.1 h.window.2
  · have hany : s.conn.Accounted fun _ _ _ => True := h.honest.accounted.mono fun _ _ _ _ => trivial
    rcases EcNode.floodLine_step hany hstep with ⟨new, hline, hoffered⟩ | ⟨hack, -⟩
    · rw [hline, hoffered, h.line]
    · exact absurd hack hacks
  · rcases hnew f hf with hold | ⟨hroom, stale, rfl⟩
    · exact hkeep _ (h.stored f hold hflags)
    · exact EcNode.stored_of_receive h.window.1 hflags hroom hstep
  · rcases EcNode.deliver_of_step hstep hd with hold | ⟨ch, pb, hev, hdel⟩
    · exact h.yielded k r hold
    · exact hyields ch pb k r hev hdel
  · rcases EcNode.deliver_of_step hstep hd with hold | ⟨ch, pb, rfl, hdel⟩
    · obtain ⟨i, ns, a, hmem, hid⟩ := h.relayed hr r p hold hread hp
      exact ⟨i, ns, a, hkeep _ hmem, hid⟩
    · obtain ⟨hsink, hreset⟩ := hrelay hr rfl
      obtain ⟨i, hi⟩ := EcNode.enqueued_of_delivery hstep hdel
        (Node.broadcast_of_relayed hreset hsink hread hp)
      exact ⟨i, _, _, hi, rfl⟩

theorem Tells.opened {app : Node} : Tells relay E (fun _ => False) ⟨.opened, app⟩ where
  honest := .opened
  window := by
    refine ⟨dupeWindow_opened, fun l₁ k r l₂ heq => ?_⟩
    exact absurd heq (by simp [Ec.opened])
  line := rfl
  stored _ hf := hf.elim
  yielded _ _ hd := absurd hd List.not_mem_nil
  relayed _ _ _ hd := absurd hd List.not_mem_nil

/-! ### Runs -/

section Runs

variable [DecidableEq ι] {radio : ι → ι → Prop} {relay : ι → Prop} {S S' : FloodNet ι}
  {e : EcNetEvent ι ProcessEvent} {id : PacketId} {p : FloodPacket}

/-- What holds of every node. -/
def AllTell (relay : ι → Prop) (S : FloodNet ι) : Prop :=
  ∀ v, Tells (relay v) (HandedAnywhere S.net.nodes) (fun f => ∃ u, (u, v, f) ∈ S.heard)
    (S.net.nodes v)

/-- A step keeps what holds of every node. -/
theorem allTell_of_step (hS : AllTell relay S) (hok : Relays relay S e)
    (h : (machine radio).step e S S') : AllTell relay S' := by
  obtain ⟨⟨hpossible, -, s', ⟨-, hstep⟩, hnet⟩, hheard⟩ := h
  have hnodes : S'.net.nodes = Function.update S.net.nodes e.node s' := by rw [hnet]
  have hself : S'.net.nodes e.node = s' := by rw [hnodes, Function.update_self]
  obtain ⟨l, hl⟩ := EcNode.trace_of_step hstep
  -- what was handed over stays so
  have hkept : ∀ w, (S.net.nodes w).conn.trace ⊆ (S'.net.nodes w).conn.trace := fun w x hx => by
    by_cases hw : w = e.node
    · subst hw
      rw [hself, hl]
      exact List.mem_append_right l hx
    · rw [hnodes, Function.update_of_ne hw]
      exact hx
  have hE : ∀ t ns a, HandedAnywhere S.net.nodes t ns a → HandedAnywhere S'.net.nodes t ns a :=
    fun t ns a ⟨w, hw⟩ => ⟨w, hw.mono (hkept w)⟩
  -- what is received is new to the node it occurs at only
  have hnew : ∀ u v f, (u, v, f) ∈ S'.heard → (u, v, f) ∈ S.heard ∨ (v = e.node ∧
      (S.net.nodes v).conn.sq.hasRoomForPackets 3 = true ∧
        ∃ stale, e.event = .receive .broadcast (f.received stale)) := by
    intro u v f hmem
    rw [hheard] at hmem
    rcases List.mem_append.mp hmem with hmem | hmem
    · unfold hears at hmem
      split at hmem
      · split at hmem
        · next hroom =>
          cases List.mem_singleton.mp hmem
          exact .inr ⟨rfl, hroom, _, rfl⟩
        · cases hmem
      · cases hmem
    · exact .inl hmem
  intro v
  by_cases hv : v = e.node
  · subst hv
    rw [hself]
    refine Tells.step ((hS e.node).mono hE fun f hf => hf) hstep hok.1 (fun f hf => ?_) ?_ hok.2
    · obtain ⟨u, hu⟩ := hf
      rcases hnew u _ f hu with hold | ⟨-, hroom, hev⟩
      · exact .inl ⟨u, hold⟩
      · exact .inr ⟨hroom, hev⟩
    · intro ch pb k r hev hd
      cases e with
      -- a frame is received from the air, never as an event of the node alone
      | own w ev =>
        rw [show ev = .receive ch pb from hev] at hpossible
        cases hpossible
      | hears u w ch' f stale =>
        cases hev
        obtain ⟨i, hi⟩ := mem_framesOn hpossible
        have hframe := ((hS u).honest.accounted.frames ch i f hi).delivery hd
        exact ⟨stale, yielded_mono (fun t ns a ha => ⟨u, ha.mono (hkept u)⟩) hframe⟩
  · rw [hnodes, Function.update_of_ne hv]
    refine (hS v).mono (fun t ns a ha => ?_) fun f hf => ?_
    · rw [← hnodes]
      exact hE t ns a ha
    · obtain ⟨u, hu⟩ := hf
      exact ⟨u, (hnew u v f hu).resolve_right fun h => hv h.1⟩

theorem allTell_of_reachable (h : (machine radio).ReachableWhen (Relays relay) S) :
    AllTell relay S := by
  refine h.invariant (I := AllTell relay) ?_ fun S e S' hS hok hstep => allTell_of_step hS hok hstep
  rintro S ⟨⟨hnodes, -⟩, hheard⟩ v
  obtain ⟨hconn, -⟩ := hnodes v
  have hopened : S.net.nodes v = ⟨.opened, (S.net.nodes v).app⟩ := by rw [← hconn]
  rw [hopened, hheard]
  exact Tells.opened.mono (fun _ _ _ h => h) fun f ⟨_, hf⟩ => absurd hf List.not_mem_nil

omit [DecidableEq ι] in
/-- **Who has passed the packet on has given it to all in range**: each of them has handed it over
or been given it. -/
theorem given_of_took (hS : AllTell relay S) (hnames : S.Names id p) (hspent : S.Spent radio id)
    {u v : ι} (hu : S.Took id u) (hrange : radio u v) : S.Took id v ∨ S.Given id p v := by
  obtain ⟨i, ns, a, ha, hid⟩ := hu
  have hoffered : a.floodFrame ∈ floodsOffered (S.net.nodes u).conn.trace :=
    List.mem_filterMap.mpr ⟨_, List.mem_reverse.mpr ha, rfl⟩
  rw [← (hS u).line] at hoffered
  -- the frame was sent, as nothing is left to be sent
  have hsent : a.floodFrame ∈ framesOn .broadcast (S.net.nodes u).conn.trace := by
    rcases List.mem_append.mp hoffered with hsent | hqueued
    · obtain ⟨x, hx, hf⟩ := List.mem_filterMap.mp hsent
      cases x with
      | frame ch j f =>
        cases ch with
        | broadcast =>
          simp only [Action.flood, Option.ite_none_right_eq_some, Option.some.injEq] at hf
          exact List.mem_filterMap.mpr ⟨_, List.mem_reverse.mp hx, by rw [hf.2]; exact if_pos rfl⟩
        | neighbor | timesynch => cases hf
      | _ => cases hf
    · exact absurd hid (hspent.1 u _ hqueued)
  have hheard := hspent.2 u v hrange _ hsent hid
  have hstored : .store id ∈ (S.net.nodes v).conn.trace := hid ▸ (hS v).stored _ ⟨u, hheard⟩ rfl
  rcases (hS v).honest.known id hstored with ⟨t, j, ns', b, hb, ht, hbid⟩ | ⟨k, r, hd, hrid⟩
  · obtain ⟨rfl, -⟩ := hnames v _ hb ht hbid
    exact .inl ⟨j, ns', b, hb, hbid⟩
  · obtain ⟨stale, hy⟩ := (hS v).yielded k r hd
    cases hy with
    | @broadcast ns' b hb hlen =>
      obtain ⟨w, j, hj⟩ := hb
      obtain ⟨-, hdata⟩ := hnames w _ hj (.inr (.inl rfl)) hrid
      refine .inr ⟨_, hd, hrid, ?_⟩
      change FloodPacket.read (b.data ++ stale) = some p
      rw [hdata] at hlen ⊢
      exact FloodPacket.read_append (FloodPacket.counted_of_length hlen) stale
    | @targeted ns' b hb =>
      obtain ⟨w, j, hj⟩ := hb
      obtain ⟨ht, -⟩ := hnames w _ hj (.inr (.inr rfl)) hrid
      cases ht
    | @neighbor ns' _ b _ x hb _ hx _ =>
      obtain ⟨w, j, hj⟩ := hb
      have hbid : b.id = id := by
        rw [← hrid]
        exact (Prod.ext hx.originator hx.seqno).symm
      obtain ⟨ht, -⟩ := hnames w _ hj (.inl rfl) hbid
      cases ht

/-- **An alarm reaches every node**: when a packet of the kind that is passed on was handed over
under a number of its own and nothing of it is still under way, every relay to which relays lead
has handed it over, and every node in range of one has handed it over or been given it. -/
theorem spread_of_reachable (h : (machine radio).ReachableWhen (Relays relay) S) (hp : p.Relayed)
    (hnames : S.Names id p) (hspent : S.Spent radio id) {u : ι} (hu : S.Took id u) :
    ∀ v, Relation.ReflTransGen (fun u v => radio u v ∧ relay v) u v →
      S.Took id v ∧ ∀ w, radio v w → S.Took id w ∨ S.Given id p w := by
  have hS := allTell_of_reachable h
  have htook : ∀ v, Relation.ReflTransGen (fun u v => radio u v ∧ relay v) u v → S.Took id v := by
    intro v hroute
    induction hroute with
    | refl => exact hu
    | @tail v w _ hhop ih =>
      rcases given_of_took hS hnames hspent ih hhop.1 with htook | ⟨r, hd, hrid, hread⟩
      · exact htook
      · obtain ⟨i, ns, a, hmem, hid⟩ := (hS w).relayed hhop.2 r p hd hread hp
        exact ⟨i, ns, a, hmem, hid.trans hrid⟩
  intro v hroute
  exact ⟨htook v hroute, fun w hrange => given_of_took hS hnames hspent (htook v hroute) hrange⟩

end Runs

/-! ### An alarm that reaches the end of a line -/

section Advance

variable [DecidableEq ι] {radio : ι → ι → Prop} [DecidableRel radio] {relay : ι → Prop}
  [DecidablePred relay] {S S' : FloodNet ι} {e : EcNetEvent ι ProcessEvent}

/-- One event, `none` when it cannot occur or the code that handles it goes wrong. -/
def advance (radio : ι → ι → Prop) [DecidableRel radio] (e : EcNetEvent ι ProcessEvent)
    (S : FloodNet ι) : Option (FloodNet ι) :=
  (S.net.advance radio e).map fun net => ⟨net, hears S.net e ++ S.heard⟩

theorem step_of_advance (h : S.advance radio e = some S') : (machine radio).step e S S' := by
  obtain ⟨net, hnet, rfl⟩ := Option.map_eq_some_iff.mp h
  exact ⟨SensorNet.step_of_advance hnet, rfl⟩

instance (S : FloodNet ι) (e : EcNetEvent ι ProcessEvent) : Decidable (Relays relay S e) := by
  unfold Relays; infer_instance

instance (id : PacketId) (p : FloodPacket) (x : Action) : Decidable (Bears id p x) := by
  rcases x <;> unfold Bears MsgType.IsData <;> infer_instance

end Advance

/-- Three nodes in a line. -/
inductive LineNode
  | first
  | middle
  | last
  deriving DecidableEq

namespace LineNode

instance : Fintype LineNode := ⟨{first, middle, last}, fun v => by cases v <;> decide⟩

/-- How far a node is from the first one. -/
def place : LineNode → ℕ
  | first => 0
  | middle => 1
  | last => 2

/-- The nodes are `1.0`, `2.0` and `3.0`. -/
def addr (v : LineNode) : Rimeaddr := ⟨UInt8.ofNat (v.place + 1), 0⟩

end LineNode

open LineNode

/-- A node hears the ones next to it. -/
def lineRadio (u v : LineNode) : Prop := u.place + 1 = v.place ∨ v.place + 1 = u.place

instance : DecidableRel lineRadio := fun u v => by unfold lineRadio; infer_instance

/-- The three nodes, which have just powered up. -/
def linePowered : FloodNet LineNode := ⟨⟨fun v => .poweredUp v.addr none, []⟩, []⟩

/-- The process of a node handles an event. -/
def lineDoes (v : LineNode) (e : ProcessEvent) : EcNetEvent LineNode ProcessEvent :=
  .own v (.process e)

/-- A node sends its broadcast. -/
def lineSends (v : LineNode) : List (EcNetEvent LineNode ProcessEvent) :=
  [.own v (.expire .broadcastData), .own v (.timer .broadcastData true)]

/-- The alarm. -/
def lineFire : FloodPacket := .emergency ⟨⟨0, 3⟩, ⟨0, 0⟩⟩

/-- The alarm of the first node as node `v` sends it. -/
def lineFrame (v : LineNode) : Frame :=
  ⟨initBroadcastPacket 0 (UInt8.ofNat v.place) first.addr v.addr 1, lineFire.bytes⟩

/-- The nodes are set up as exits and initialised; the first reads a fire, and the alarm goes along
the line. -/
def lineAlarm : List (EcNetEvent LineNode ProcessEvent) :=
  [lineDoes first (.serial (.simulationSetup ⟨first.addr, ⟨⟨0, 3⟩, ⟨0, 0⟩⟩, 1, [middle.addr]⟩)),
    lineDoes middle (.serial (.simulationSetup ⟨middle.addr, ⟨⟨0, 6⟩, ⟨0, 0⟩⟩, 1,
      [first.addr, last.addr]⟩)),
    lineDoes last (.serial (.simulationSetup ⟨last.addr, ⟨⟨0, 9⟩, ⟨0, 0⟩⟩, 1, [middle.addr]⟩)),
    lineDoes first (.serial .init), lineDoes middle (.serial .init), lineDoes last (.serial .init),
    lineDoes first (.emergencyCheck 500)] ++ lineSends first ++
    [.hears first middle .broadcast (lineFrame first) []] ++ lineSends middle ++
    [.hears middle last .broadcast (lineFrame middle) [7],
      .hears middle first .broadcast (lineFrame middle) []] ++
    lineSends last ++ [.hears last middle .broadcast (lineFrame last) []]

/-- The packet of the alarm. -/
def lineArgs : SendArgs :=
  ⟨first.addr, first.addr, 0, 1, lineFire.bytes⟩

/-- The alarm has reached the end of the line. -/
theorem spread_line : ∃ S, (machine lineRadio).ReachableWhen (Relays fun _ => True) S ∧
    S.Took lineArgs.id last := by
  have h : ((Machine.run (advance lineRadio) lineAlarm linePowered).map fun S =>
      (decide (.enqueue .broadcastData 2 (some (.single middle.addr)) lineArgs ∈
          (S.net.nodes first).conn.trace),
        decide (∀ v, ∀ x ∈ (S.net.nodes v).conn.trace, Bears lineArgs.id lineFire x),
        decide (∀ v, ∀ f ∈ (S.net.nodes v).conn.queuedFloods, f.hdr.id ≠ lineArgs.id),
        decide (∀ u v, lineRadio u v → ∀ f ∈ framesOn .broadcast (S.net.nodes u).conn.trace,
          f.hdr.id = lineArgs.id → (u, v, f) ∈ S.heard))) = some (true, true, true, true) := by
    decide +kernel
  obtain ⟨S, hrun, hS⟩ := Option.map_eq_some_iff.mp h
  simp only [Prod.mk.injEq, decide_eq_true_eq] at hS
  obtain ⟨htook, hnames, hqueued, hheard⟩ := hS
  have hinit : (machine lineRadio).init linePowered := by
    refine ⟨⟨fun v => ?_, rfl⟩, rfl⟩
    have hcompletes : ∀ v : LineNode,
        Completes (Node.resetNodeProperties v.addr none).calls := by decide
    exact sensorMachine_init (hcompletes v)
  have hreach : (machine lineRadio).ReachableWhen (Relays fun _ => True) S :=
    Machine.ReachableWhen.of_run (b := fun S e => decide (Relays (fun _ => True) S e))
      (fun _ _ h => of_decide_eq_true h) (fun _ _ _ => step_of_advance) _ (.init hinit)
      (by decide +kernel) hrun
  have hfirst : lineRadio first middle ∧ True := by decide
  have hlast : lineRadio middle last ∧ True := by decide
  have hroute : Relation.ReflTransGen (fun u v => lineRadio u v ∧ True) first last :=
    .tail (.single hfirst) hlast
  exact ⟨S, hreach, (spread_of_reachable hreach (p := lineFire) trivial hnames ⟨hqueued, hheard⟩
    ⟨_, _, _, htook, rfl⟩ last hroute).1⟩

end FloodNet

end EmergencyNet
