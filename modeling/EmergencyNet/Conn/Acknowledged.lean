import EmergencyNet.Conn.Ledger

/-!
# Acknowledged means delivered

A network in which frames may be lost, repeated, delayed and overtaken, but not forged.  A node
answers for a packet when it has delivered it or is the one it comes from.  Only a node that
answers for a packet has it in its duplicate queue, so only such a node acknowledges it, and a
packet leaves a sending queue when it has been sent often enough or when all neighbours it was
meant for answer for it.

## Main definitions

* `EcNet`, `EcNetEvent`, `EcNet.machine` — the network and its events.
* `EcNet.Answers` — the node with an address has delivered a packet, or the packet is its own.
* `EcNet.SendsOwnId` — neighbour data is sent under the identity of the packet that is counted.

## Main results

* `EcNet.acknowledged_of_reachable` — **a packet that has left a sending queue had been sent
  `MAX_TIMES_SENT_MESH` times, or all its neighbours answer for it.**
* `EcNet.not_acknowledged` — a packet is dropped that was sent nine times.
-/

namespace EmergencyNet

variable {ι σ ε : Type*}

/-! ### What application code hands over -/

/-- The data packets a piece of application code hands over. -/
def dataCalls (l : List Effect) : List SendArgs :=
  l.filterMap fun e => match e with
    | .call c => c.data
    | .assert _ => none

theorem mem_dataCalls {l : List Effect} {call : EcCall} {a : SendArgs} (h : Effect.call call ∈ l)
    (ha : call.data = some a) : a ∈ dataCalls l := List.mem_filterMap.mpr ⟨_, h, ha⟩

/-- The pairs of the packets that were delivered. -/
def deliveries (l : List Action) : List PacketId :=
  l.filterMap fun x => match x with
    | .deliver _ r => some r.id
    | _ => none

/-- The frames that were sent on a channel. -/
def framesOn (ch : Channel) (l : List Action) : List Frame :=
  l.filterMap fun x => match x with
    | .frame ch' _ f => if ch' = ch then some f else none
    | _ => none

theorem mem_framesOn {ch : Channel} {l : List Action} {f : Frame} (h : f ∈ framesOn ch l) :
    ∃ i, .frame ch i f ∈ l := by
  obtain ⟨x, hx, hf⟩ := List.mem_filterMap.mp h
  cases x with
  | frame ch' i f' =>
    simp only [Option.ite_none_right_eq_some, Option.some.injEq] at hf
    obtain ⟨rfl, rfl⟩ := hf
    exact ⟨i, hx⟩
  | _ => cases hf

/-! ### The network -/

/-- A network of nodes: each node's address and application. -/
structure EcNet (ι σ ε : Type*) where
  addr : ι → Rimeaddr
  app : ι → Application σ ε
  addr_app : ∀ v s, (app v).addr s = addr v

/-- The events of the network. -/
inductive EcNetEvent (ι ε : Type*)
  /-- An event of a node that is no reception. -/
  | own (v : ι) (ev : NodeEvent ε)
  /-- Node `v` receives a frame that `u` has sent; `stale` lies behind it in the buffer. -/
  | hears (u v : ι) (ch : Channel) (f : Frame) (stale : List UInt8)

namespace EcNetEvent

/-- The node that handles the event. -/
def node : EcNetEvent ι ε → ι
  | .own v _ => v
  | .hears _ v _ _ _ => v

/-- What the event is to the node. -/
def event : EcNetEvent ι ε → NodeEvent ε
  | .own _ ev => ev
  | .hears _ _ ch f stale => .receive ch (f.received stale)

end EcNetEvent

namespace EcNet

variable (net : EcNet ι σ ε)

/-- The frame that is received has been sent. -/
def Possible (N : ι → EcNode σ) : EcNetEvent ι ε → Prop
  | .own _ ev => ev.isReception = false
  | .hears u _ ch f _ => f ∈ framesOn ch (N u).conn.trace

/-- The packet that is received in an event. -/
def receivedId : NodeEvent ε → Option PacketId
  | .receive _ pb => some pb.p.hdr.id
  | _ => none

/-- The application of a node hands over its own packets, and ones that were or are just being
delivered to it. -/
def Unforged (N : ι → EcNode σ) (e : EcNetEvent ι ε) : Prop :=
  ∀ r ∈ (N e.node).upcall (net.app e.node) e.event, ∀ a ∈ dataCalls r.2,
    a.originator = net.addr e.node ∨ a.id ∈ deliveries (N e.node).conn.trace ∨
      receivedId e.event = some a.id

/-- The network as a transition system: at the start all connections have just been opened. -/
def machine [DecidableEq ι] : Machine (ι → EcNode σ) (EcNetEvent ι ε) where
  init N := ∀ v, (N v).conn = .opened
  step e N N' := Possible N e ∧ net.Unforged N e ∧
    ∃ s', (connMachine (net.app e.node)).step e.event (N e.node) s' ∧
      N' = Function.update N e.node s'

/-- Neighbour data is sent under the identity of the packet that is counted. -/
def SendsOwnId (N : ι → EcNode σ) (e : EcNetEvent ι ε) : Prop :=
  (N e.node).FiresWhen Ec.SendsOwnId e.event

/-- The node with address `n` has run a callback for packet `id`, or the packet comes from it. -/
def Answers (N : ι → EcNode σ) (n : Rimeaddr) (id : PacketId) : Prop :=
  ∃ w, net.addr w = n ∧ (n = id.1 ∨ id ∈ deliveries (N w).conn.trace)

end EcNet

/-! ### Events of a node -/

namespace EcNode

variable {env : MoveEnv} {cb : EcCallbacks σ} {s s' : EcNode σ}

/-- A frame that runs a callback is delivered. -/
theorem delivered_of_upcall {A : Application σ ε} {s s' : EcNode σ} {ch : Channel} {pb : Packetbuf}
    {code : σ × List Effect} (hcode : s.upcall A (.receive ch pb) = some code)
    (h : s.step A (.receive ch pb) = .ok s') :
    ∃ k r, .deliver k r ∈ s'.conn.trace ∧ r.id = pb.p.hdr.id := by
  cases received_of_step h with
  | ignored hnone => rw [hnone] at hcode; cases hcode
  | acked hnone => rw [hnone] at hcode; cases hcode
  | duplicate hnone => rw [hnone] at hcode; cases hcode
  | synch hnone => rw [hnone] at hcode; cases hcode
  | @delivered a s₁ ha hacc hdeliver hack =>
    have hrun : Moves .any (s.conn.log (.deliver (callbackFor ch a) (recvArgs pb.p.hdr a))) s₁.conn :=
      runEffects_moves _ ⟨_, _⟩ (fun _ _ _ _ => trivial) hdeliver
    have hsend : Moves .any (s₁.conn.storePacketForDupeChecks pb.p.hdr.id) s'.conn :=
      sendAck_moves (s := s₁.onConn (Ec.storePacketForDupeChecks pb.p.hdr.id)) trivial
        (Ec.isDupe_store _ _) hack
    obtain ⟨l, hl⟩ := Ec.trace_store (c := s₁.conn) pb.p.hdr.id
    refine ⟨callbackFor ch a, recvArgs pb.p.hdr a, hsend.mem_trace ?_, rfl⟩
    rw [hl]
    exact List.mem_append_right l (hrun.mem_trace List.mem_cons_self)

/-- **An event keeps the ledger of a node** whose application hands over packets the node answers
for, that receives acknowledgements of those that answer, and that answers for what it has
delivered. -/
theorem step_ledger {A : Application σ ε} {s s' : EcNode σ} {ev : NodeEvent ε}
    {vouch : Rimeaddr → PacketId → Prop} {own : Rimeaddr} (hc : Ledger vouch own s.conn)
    (hown : ∀ t, A.addr t = own)
    (hsends : ∀ r ∈ s.upcall A ev, ∀ a ∈ dataCalls r.2, vouch own a.id)
    (hacks : ∀ ch pb, ev = .receive ch pb → pb.p.hdr.isPacketFlagSet PacketFlags.ack = true →
      vouch pb.p.hdr.sender pb.p.hdr.id)
    (hdelivered : ∀ k r, .deliver k r ∈ s'.conn.trace → vouch own r.id)
    (hfires : s.FiresWhen Ec.SendsOwnId ev) (hstep : s.step A ev = .ok s') :
    Ledger vouch own s'.conn := by
  by_cases hev : ev.isReception = false
  · refine Moves.ledger (EcNode.step_moves hev ?_ ?_ hstep) hc
    · rintro e rfl call a hcall ha
      exact hsends _ rfl a (mem_dataCalls hcall ha)
    · rintro radio rfl hlisted c hsame rfl
      have hown := hfires hlisted
      unfold Ec.SendsOwnId Ec.unspent at hown ⊢
      rw [hsame.sq]
      exact hown
  · cases ev with
    | receive ch pb =>
      cases received_of_step hstep with
      | ignored _ h => exact h ▸ hc
      | acked _ _ _ _ hack _ h =>
        rw [h]
        exact hc.ackRecv (hacks ch pb rfl hack)
      | duplicate _ _ _ _ _ _ hdupe h => exact Moves.ledger (sendAck_moves (hown _) hdupe h) hc
      | @delivered a s₁ ha hacc hdeliver h =>
        have hlog : Ledger vouch own
            (s.conn.log (.deliver (callbackFor ch a) (recvArgs pb.p.hdr a))) :=
          hc.changes (.of_action rfl rfl rfl rfl fun _ _ _ heq => by cases heq)
        have hrun : Moves (.answering vouch own)
            (s.conn.log (.deliver (callbackFor ch a) (recvArgs pb.p.hdr a))) s₁.conn := by
          refine runEffects_moves _ ⟨_, _⟩ (fun call b hcall hb => ?_) hdeliver
          exact hsends _ (upcall_of_accepts ha hacc) b (mem_dataCalls hcall hb)
        have hdupe := Ec.isDupe_store s₁.conn pb.p.hdr.id
        have hsend : Moves (.answering vouch own)
            (s₁.conn.storePacketForDupeChecks pb.p.hdr.id) s'.conn :=
          sendAck_moves (s := s₁.onConn (Ec.storePacketForDupeChecks pb.p.hdr.id)) (hown _) hdupe h
        -- the delivery is in the history when its pair is stored
        obtain ⟨k, r, hmem, hid⟩ := delivered_of_upcall (upcall_of_accepts ha hacc) hstep
        exact hsend.ledger ((hrun.ledger hlog).store (hid ▸ hdelivered k r hmem))
      | synch _ _ h => exact Moves.ledger (timesynchRecv_moves h) hc
    | _ => exact absurd rfl hev

end EcNode

/-! ### The network -/

namespace EcNet

variable [DecidableEq ι] {net : EcNet ι σ ε} {N N' : ι → EcNode σ} {e : EcNetEvent ι ε}

theorem mem_deliveries {l : List Action} {k : Callback} {r : RecvArgs} (h : .deliver k r ∈ l) :
    r.id ∈ deliveries l := List.mem_filterMap.mpr ⟨_, h, rfl⟩

/-- What the nodes have done stays done. -/
theorem trace_of_step (h : net.machine.step e N N') (w : ι) :
    ∃ l, (N' w).conn.trace = l ++ (N w).conn.trace := by
  obtain ⟨-, -, s', ⟨-, hstep⟩, rfl⟩ := h
  by_cases hw : w = e.node
  · subst hw
    rw [Function.update_self]
    exact (EcNode.step_shape (NodeEvent.fits_any _ _ _ _) hstep).trace
  · rw [Function.update_of_ne hw]
    exact ⟨[], rfl⟩

/-- Who answers for a packet goes on doing so. -/
theorem answers_of_step (h : net.machine.step e N N') {n : Rimeaddr} {id : PacketId}
    (hn : net.Answers N n id) : net.Answers N' n id := by
  obtain ⟨w, hw, hid⟩ := hn
  refine ⟨w, hw, hid.imp_right fun hmem => ?_⟩
  obtain ⟨l, hl⟩ := trace_of_step h w
  rw [hl, deliveries, List.filterMap_append]
  exact List.mem_append_right _ hmem

/-- A step keeps the ledgers of all nodes. -/
theorem ledger_of_step (hN : ∀ v, Ledger (net.Answers N) (net.addr v) (N v).conn)
    (hown : SendsOwnId N e) (h : net.machine.step e N N') (v : ι) :
    Ledger (net.Answers N') (net.addr v) (N' v).conn := by
  have hafter : ∀ w, Ledger (net.Answers N') (net.addr w) (N w).conn := fun w =>
    (hN w).mono fun _ _ => answers_of_step h
  obtain ⟨hpossible, hunforged, s', ⟨hen, hstep⟩, hN'⟩ := id h
  by_cases hv : v = e.node
  · subst hv
    have hs' : N' e.node = s' := by rw [hN', Function.update_self]
    rw [hs']
    have hdelivered : ∀ k r, .deliver k r ∈ s'.conn.trace → net.Answers N' (net.addr e.node) r.id :=
      fun k r hr => ⟨e.node, rfl, .inr (hs' ▸ mem_deliveries hr)⟩
    refine EcNode.step_ledger (hafter e.node) (net.addr_app e.node) (fun r hr a ha => ?_)
      (fun ch pb hev hack => ?_) hdelivered hown hstep
    · -- a packet that is handed over is one the node answers for
      rcases hunforged r hr a ha with horiginator | hmem | hid
      · exact ⟨e.node, rfl, .inl horiginator.symm⟩
      · exact answers_of_step h ⟨e.node, rfl, .inr hmem⟩
      · obtain ⟨ch, pb, hev, hpb⟩ : ∃ ch pb, e.event = .receive ch pb ∧ pb.p.hdr.id = a.id := by
          unfold receivedId at hid
          split at hid
          · next ch pb hev => exact ⟨ch, pb, hev, Option.some.inj hid⟩
          · cases hid
        rw [hev] at hr hstep
        obtain ⟨k, r', hmem, hr'⟩ := EcNode.delivered_of_upcall hr hstep
        exact (hr'.trans hpb) ▸ hdelivered k r' hmem
    · cases e with
      -- a frame is received from the air, never as an event of the node alone
      | own w ev =>
        rw [show ev = .receive ch pb from hev] at hpossible
        cases hpossible
      | hears u w ch' f stale =>
        cases hev
        obtain ⟨i, hi⟩ := mem_framesOn hpossible
        exact (hafter u).frames _ i f hi hack
  · rw [hN', Function.update_of_ne hv, ← hN']
    exact hafter v

/-- **A packet that has left a sending queue had been sent `MAX_TIMES_SENT_MESH` times since it
was enqueued, or every neighbour it was enqueued for has run a callback for it or is the one it
comes from.** -/
theorem acknowledged_of_reachable (h : net.machine.ReachableWhen SendsOwnId N) {v : ι} {i : ℕ}
    {l₁ l₂ l₃ : List Action} {ns : Option NeighborSet} {a : SendArgs}
    (htrace : (N v).conn.trace =
      l₁ ++ .free i :: (l₂ ++ .enqueue .neighborData i ns a :: l₃))
    (halone : ∀ x ∈ l₂, x.slot ≠ some i) :
    ∃ s, ns = some s ∧ (maxTimesSentMesh.toNat ≤ timesTransmitted a.id l₂ ∨
      ∀ n ∈ s.addrs, net.Answers N n a.id) := by
  have hledgers : ∀ v, Ledger (net.Answers N) (net.addr v) (N v).conn := by
    refine h.invariant (I := fun N => ∀ v, Ledger (net.Answers N) (net.addr v) (N v).conn) ?_ ?_
    · intro N hinit v
      rw [hinit v]
      exact .opened
    · intro N e N' hN hown hstep
      exact ledger_of_step hN hown hstep
  exact (hledgers v).departures l₁ i _ ns a l₂ htrace ⟨⟨l₃, rfl⟩, halone⟩

/-! ### A packet dropped too early -/

instance (N : ι → EcNode σ) (e : EcNetEvent ι ε) : Decidable (Possible N e) := by
  rcases e <;> unfold Possible <;> infer_instance

instance (N : ι → EcNode σ) (e : EcNetEvent ι ε) : Decidable (net.Unforged N e) := by
  unfold Unforged; infer_instance

instance (N : ι → EcNode σ) (e : EcNetEvent ι ε) : Decidable (SendsOwnId N e) := by
  unfold SendsOwnId; infer_instance

/-- One event, `none` when it cannot occur or the code that handles it goes wrong. -/
def advance (net : EcNet ι σ ε) (e : EcNetEvent ι ε) (N : ι → EcNode σ) : Option (ι → EcNode σ) :=
  if Possible N e ∧ net.Unforged N e then
    ((N e.node).advance (net.app e.node) e.event).map (Function.update N e.node)
  else none

theorem step_of_advance (h : net.advance e N = some N') : net.machine.step e N N' := by
  unfold advance at h
  split at h
  · next hok =>
    obtain ⟨s', hs', rfl⟩ := Option.map_eq_some_iff.mp h
    exact ⟨hok.1, hok.2, s', connMachine_step_of_advance hs', rfl⟩
  · cases h

/-- Nodes `1.0` and `2.0`, which are neighbours. -/
def pair : EcNet Bool Unit (List Effect) where
  addr v := if v then ⟨2, 0⟩ else ⟨1, 0⟩
  app v := .scripted (if v then ⟨2, 0⟩ else ⟨1, 0⟩) (.single (if v then ⟨1, 0⟩ else ⟨2, 0⟩))
  addr_app _ _ := rfl

/-- The two nodes at the start. -/
def pairOpened : Bool → EcNode Unit := fun _ => ⟨.opened, ()⟩

/-- Packet `q` of node `1.0`. -/
def pairArgs (q : UInt8) : SendArgs := ⟨⟨1, 0⟩, ⟨1, 0⟩, 0, q, []⟩

/-- Node `1.0` hands packet `q` over for node `2.0`. -/
def pairOffers (q : UInt8) : EcNetEvent Bool (List Effect) :=
  .own false (.process [.call (.reliableBroadcastNs (some (.single ⟨2, 0⟩)) (pairArgs q))])

/-- A timer of a node expires, and its event is handled. -/
def pairFires (v : Bool) (t : Timer) : List (EcNetEvent Bool (List Effect)) :=
  [.own v (.expire t), .own v (.timer t true)]

/-- The first frame of packet `q`. -/
def pairFrame (q : UInt8) : Frame := ⟨initBroadcastPacket 0 0 ⟨1, 0⟩ ⟨1, 0⟩ q, []⟩

/-- The acknowledgement of packet `q`. -/
def pairAck (q : UInt8) : Frame :=
  ⟨initUnicastPacket PacketFlags.ack 0 ⟨1, 0⟩ ⟨2, 0⟩ q, unicastBody ⟨1, 0⟩ []⟩

/-- A packet is sent once and acknowledged: its neighbour answers for it. -/
theorem acknowledged_pair : ∃ N, pair.machine.ReachableWhen SendsOwnId N ∧
    (N false).conn.trace = [.free 0, .frame .neighbor 0 (pairFrame 5), .store (⟨1, 0⟩, 5),
      .enqueue .neighborData 0 (some (.single ⟨2, 0⟩)) (pairArgs 5)] ∧
    pair.Answers N ⟨2, 0⟩ (⟨1, 0⟩, 5) := by
  have h : ((Machine.run pair.advance (pairOffers 5 :: pairFires false .neighborData ++
      [.hears false true .neighbor (pairFrame 5) []] ++ pairFires true .neighborAck ++
      [.hears true false .neighbor (pairAck 5) []]) pairOpened).map fun N =>
      (N false).conn.trace) = some [.free 0, .frame .neighbor 0 (pairFrame 5), .store (⟨1, 0⟩, 5),
        .enqueue .neighborData 0 (some (.single ⟨2, 0⟩)) (pairArgs 5)] := by decide +kernel
  obtain ⟨N, hrun, htrace⟩ := Option.map_eq_some_iff.mp h
  have hinit : pair.machine.init pairOpened := fun _ => rfl
  have hreach : pair.machine.ReachableWhen SendsOwnId N :=
    Machine.ReachableWhen.of_run (b := fun N e => decide (SendsOwnId N e))
      (fun _ _ => of_decide_eq_true) (fun _ _ _ => step_of_advance) _
      (.init hinit) (by decide +kernel) hrun
  have hsplit : (N false).conn.trace =
      [] ++ .free 0 :: ([.frame .neighbor 0 (pairFrame 5), .store (⟨1, 0⟩, 5)] ++
        .enqueue .neighborData 0 (some (.single ⟨2, 0⟩)) (pairArgs 5) :: []) := htrace
  obtain ⟨s, hs, hsent | hanswers⟩ := acknowledged_of_reachable hreach hsplit (by decide)
  · exact absurd hsent (by decide)
  · cases hs
    exact ⟨N, hreach, htrace, hanswers ⟨2, 0⟩ (List.mem_singleton.mpr rfl)⟩

/-- **A packet is dropped that was sent nine times**, to a neighbour that has heard nothing: the
first frame that is counted for packet 2 carries the header of packet 1, which has just been
dropped. -/
theorem not_acknowledged : ∃ N, pair.machine.Reachable N ∧ ∃ l₂ l₃,
    (N false).conn.trace = .free 1 :: (l₂ ++
      .enqueue .neighborData 1 (some (.single ⟨2, 0⟩)) (pairArgs 2) :: l₃) ∧
    (∀ x ∈ l₂, x.slot ≠ some 1) ∧ timesTransmitted (pairArgs 2).id l₂ = 9 ∧
    ¬ pair.Answers N ⟨2, 0⟩ (pairArgs 2).id := by
  have h : ((Machine.run pair.advance ([pairOffers 1, pairOffers 2] ++
      (List.replicate 21 (pairFires false .neighborData)).flatten) pairOpened).map fun N =>
      decide ((N false).conn.trace.take 1 = [.free 1] ∧ ((N false).conn.trace.drop 23).take 1 =
          [.enqueue .neighborData 1 (some (.single ⟨2, 0⟩)) (pairArgs 2)] ∧
        (∀ x ∈ ((N false).conn.trace.drop 1).take 22, x.slot ≠ some 1) ∧
        timesTransmitted (pairArgs 2).id (((N false).conn.trace.drop 1).take 22) = 9 ∧
        deliveries (N true).conn.trace = [])) = some true := by decide +kernel
  obtain ⟨N, hrun, hN⟩ := Option.map_eq_some_iff.mp h
  obtain ⟨hfree, henqueue, halone, hcount, hdeliveries⟩ := of_decide_eq_true hN
  have hinit : pair.machine.init pairOpened := fun _ => rfl
  have hreach : pair.machine.Reachable N :=
    Machine.Reachable.of_run (fun _ _ _ => step_of_advance) _ (.init hinit) hrun
  refine ⟨N, hreach, ((N false).conn.trace.drop 1).take 22, (N false).conn.trace.drop 24, ?_, halone,
    hcount, ?_⟩
  · -- the events of the packet: its end, what happened in between, and its start
    have hsplit : ∀ l : List Action,
        l = l.take 1 ++ ((l.drop 1).take 22 ++ ((l.drop 23).take 1 ++ l.drop 24)) := by
      intro l
      have h₁ := List.take_append_drop 1 l
      have h₂ := List.take_append_drop 22 (l.drop 1)
      have h₃ := List.take_append_drop 1 (l.drop 23)
      simp only [List.drop_drop] at h₂ h₃
      rw [h₃, h₂, h₁]
    have htrace := hsplit (N false).conn.trace
    rw [hfree, henqueue] at htrace
    exact htrace
  · rintro ⟨w, hw, heq | hmem⟩
    · cases heq
    · cases w with
      | false => cases hw
      | true =>
        rw [hdeliveries] at hmem
        cases hmem

end EcNet

end EmergencyNet
