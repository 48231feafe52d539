import EmergencyNet.Conn.Duplicates
import EmergencyNet.Conn.Frames

/-!
# What is sent is what was handed over

The moves of a connection once more, with all that is known of the packets: what a call hands
over goes on the list of the call, with the header and the data of the call, and a frame is
built from what is on a list.  So whatever holds of all that is handed over holds of the queued
packets and of the frames, and of what other nodes are given when they receive these frames.

## Main definitions

* `MayHandOver`, `EcCall.HandsOver` — what may be handed over.
* `PacketMove`, `PacketMoves` — the moves, for the packets alone.
* `Frame.Accounted`, `Ec.Accounted` — frames and packets were handed over.

## Main results

* `EcNode.step_packetMoves` — **every event is a sequence of moves.**
* `PacketMove.accounted` — every move accounts for what it enqueues and sends.
* `Frame.Accounted.delivery` — **what a frame gives an application was handed over.**
-/

namespace EmergencyNet

variable {σ ε : Type*} {c c' : Ec}

/-- What may be handed over: packet `a` on list `t` for the receivers `ns`. -/
abbrev MayHandOver := MsgType → Option NeighborSet → SendArgs → Prop

/-- What the call hands over may be handed over. -/
def EcCall.HandsOver (E : MayHandOver) : EcCall → Prop
  | .reliableBroadcastNs ns a => ∀ s, ns = some s → s.addrs ≠ [] → E .neighborData (some s) a
  | .broadcast ns a => E .broadcastData ns a
  | .reliableMulticast receivers a => E .multicastUnicastData (some receivers) a
  | .reliableUnicast destination a => E .multicastUnicastData (some (.single destination)) a
  | .mesh _ _ _ | .timesynchOn | .timesynchOff | .timesynchNetwork => True

/-- The lists of acknowledgements. -/
def MsgType.IsAck (t : MsgType) : Prop := t = .neighborAck ∨ t = .multicastUnicastAck

/-- In the history `l` packet `id` was handed over or delivered. -/
def Known (l : List Action) (id : PacketId) : Prop :=
  (∃ t i ns a, .enqueue t i ns a ∈ l ∧ t.IsData ∧ a.id = id) ∨ ∃ k r, .deliver k r ∈ l ∧ r.id = id

/-- The moves of a connection, for its packets alone; `E` holds of the data packets that are
handed over, `K` of the headers of the acknowledgements that are received. -/
inductive PacketMove (E : MayHandOver) (K : Header → Prop) (c : Ec) : Ec → Prop
  /-- The packets are left alone. -/
  | same {c' : Ec} (hsq : c'.sq = c.sq) (htrace : c'.trace = c.trace) : PacketMove E K c c'
  /-- The pair of a packet is stored. -/
  | stored {c' : Ec} {id : PacketId} (hknown : Known c.trace id) (hsq : c'.sq = c.sq)
      (htrace : c'.trace = .store id :: c.trace) : PacketMove E K c c'
  /-- A packet is delivered. -/
  | delivered {c' : Ec} {k : Callback} {r : RecvArgs} (hsq : c'.sq = c.sq)
      (htrace : c'.trace = .deliver k r :: c.trace) : PacketMove E K c c'
  /-- A data packet is enqueued. -/
  | data {c' : Ec} {t : MsgType} {i : ℕ} {ns : Option NeighborSet} {a : SendArgs}
      (ht : t.IsData) (hE : E t ns a) (hlen : a.data.length ≤ 24)
      (hsq : c.sq.Enqueued t i (PacketBuffer.written
        (initBroadcastPacket 0 a.hops a.originator a.sender a.seqno) [] a.data ns (c.sq.item i))
        c'.sq)
      (htrace : c'.trace = .enqueue t i ns a :: c.trace) : PacketMove E K c c'
  /-- Another packet is enqueued. -/
  | control {c' : Ec} {t : MsgType} {i : ℕ} {ns : Option NeighborSet} {a : SendArgs}
      {bp : BufferedPacket} (ht : ¬ t.IsData)
      (hack : t.IsAck → bp.p.hdr.isPacketFlagSet PacketFlags.ack = true)
      (hsq : c.sq.Enqueued t i bp c'.sq) (htrace : c'.trace = .enqueue t i ns a :: c.trace) :
      PacketMove E K c c'
  /-- An acknowledgement is received. -/
  | acked (timer : Timer) {hdr : Header} (hK : K hdr) :
      PacketMove E K c (EcNode.ackRecv timer hdr c)
  /-- An acknowledgement is sent. -/
  | confirms {c' : Ec} {t : MsgType} {ch : Channel} {i : ℕ} {body : List UInt8} (ht : t.IsAck)
      (hi : i ∈ c.sq.prioHeads t) (hsq : c'.sq = c.sq.free i)
      (htrace : c'.trace = .free i :: .frame ch i ⟨(c.sq.item i).p.hdr, body⟩ :: c.trace) :
      PacketMove E K c c'
  /-- A broadcast is sent. -/
  | floods {c' : Ec} {i : ℕ} (hfirst : c.sq.first .broadcastData = some i)
      (hsq : c'.sq = c.sq.free i)
      (htrace : c'.trace = .free i ::
        .frame .broadcast i ⟨(c.sq.item i).p.hdr, (c.sq.item i).args.data⟩ :: c.trace) :
      PacketMove E K c c'
  /-- A time synchronisation packet is sent. -/
  | synchs {c' : Ec} {i : ℕ} {f : Frame} (hi : i ∈ c.sq.prioHeads .timesynchData)
      (hsq : c'.sq = c.sq.free i) (htrace : c'.trace = .free i :: .frame .timesynch i f :: c.trace) :
      PacketMove E K c c'
  /-- Neighbour data is sent. -/
  | neighborData {c' : Ec} {radio : Bool} (h : c.sendNeighborData radio = .ok c') :
      PacketMove E K c c'
  /-- Multicast or unicast data is sent. -/
  | targeted {c' : Ec} {i : ℕ} {f : Frame} (hi : i ∈ c.sq.prioHeads .multicastUnicastData)
      (hf : Ec.targetedFrame (c.sq.item i).p (c.sq.item i) = some f)
      (hsq : c'.sq = c.sq.modify i .incrementTimesSent)
      (htrace : c'.trace = .frame .broadcast i f :: c.trace) : PacketMove E K c c'
  /-- A mesh packet is given to the mesh. -/
  | meshed {c' : Ec} {i : ℕ} {dest : Rimeaddr} {payload : List UInt8}
      (hi : i ∈ c.sq.prioHeads .meshData) (hsq : c'.sq = c.sq.modify i .incrementTimesSent)
      (htrace : c'.trace = .mesh i dest payload :: c.trace) : PacketMove E K c c'
  /-- A mesh packet is freed. -/
  | dropped {c' : Ec} {i : ℕ} (hi : i ∈ c.sq.prioHeads .meshData) (hsq : c'.sq = c.sq.free i)
      (htrace : c'.trace = .free i :: c.trace) : PacketMove E K c c'

/-- A sequence of moves. -/
abbrev PacketMoves (E : MayHandOver) (K : Header → Prop) : Ec → Ec → Prop :=
  Relation.ReflTransGen (PacketMove E K)

section Moves

variable {E : MayHandOver} {K : Header → Prop} {t : MsgType} {ns : Option NeighborSet}
  {a : SendArgs}

/-! ### What application code does -/

namespace Ec

theorem packetMoves_of_same (h : c.Same c') : PacketMoves E K c c' := .single (.same h.sq h.trace)

theorem storePacketForDupeChecks_packetMoves {id : PacketId} (h : Known c.trace id) :
    PacketMoves E K c (c.storePacketForDupeChecks id) := by
  unfold storePacketForDupeChecks
  split
  · exact .refl
  · exact .single (.stored h rfl rfl)

theorem sendData_packetMoves {timer : Timer} (ht : t.IsData) (hE : E t ns a)
    (h : c.sendData t timer ns a = .ok c') : PacketMoves E K c c' := by
  unfold sendData at h
  rw [bind_eq_ok] at h
  obtain ⟨c₁, hput, h⟩ := h
  rw [pure_eq_ok] at h
  obtain ⟨i, hsq, -, htrace, hlen⟩ := putBroadcast_eq_ok hput
  have hdata : PacketMove E K c c₁ := .data ht hE hlen hsq htrace
  have hknown : Known c₁.trace a.id :=
    .inl ⟨t, i, ns, a, htrace ▸ List.mem_cons_self, ht, rfl⟩
  have hstore : PacketMoves E K c₁ (c₁.storePacketForDupeChecks a.id) :=
    storePacketForDupeChecks_packetMoves hknown
  rw [← h]
  exact (hstore.head hdata).trans (packetMoves_of_same (same_ite timer))

theorem ecMesh_packetMoves {dest : Rimeaddr} {seqno : UInt8} {data : List UInt8}
    (h : c.ecMesh dest seqno data = .ok c') : PacketMoves E K c c' := by
  unfold ecMesh at h
  rw [bind_eq_ok] at h
  obtain ⟨c₁, hput, h⟩ := h
  rw [pure_eq_ok] at h
  obtain ⟨i, hsq, -, htrace⟩ := putUnicast_eq_ok hput
  have hcontrol : PacketMove E K c c₁ := by
    refine .control ?_ ?_ hsq htrace
    · simp [MsgType.IsData]
    · simp [MsgType.IsAck]
  rw [← h]
  exact .head hcontrol (packetMoves_of_same (same_ite _))

theorem putTimesynch_packetMoves {hdr : Header} (h : c.putTimesynch hdr = .ok c') :
    PacketMoves E K c c' := by
  unfold putTimesynch at h
  rw [bind_eq_ok] at h
  obtain ⟨c₁, hput, h⟩ := h
  rw [pure_eq_ok] at h
  obtain ⟨i, hsq, -, htrace, -⟩ := putBroadcast_eq_ok hput
  have hcontrol : PacketMove E K c c₁ := by
    refine .control ?_ ?_ hsq htrace
    · simp [MsgType.IsData]
    · simp [MsgType.IsAck]
  rw [← h]
  exact .head hcontrol (packetMoves_of_same ⟨rfl, rfl, rfl⟩)

end Ec

namespace EcNode

variable {A : Application σ ε} {cb : EcCallbacks σ} {s s' s₁ : EcNode σ}

theorem timesynchAsLeader_packetMoves (h : s.timesynchAsLeader cb = .ok s') :
    PacketMoves E K s.conn s'.conn := by
  unfold timesynchAsLeader at h
  rw [bind_eq_ok] at h
  obtain ⟨s₁, hput, h⟩ := h
  obtain ⟨c₁, hrun, rfl⟩ := tryConn_eq_ok.mp hput
  have hlevel : PacketMove E K s.conn (s.onConn fun c =>
      { c with ts := ⟨c.ts.isOn, s.conn.ts.seqno + 1, (cb.addr s.app).u8₀, s.conn.ts.seqno⟩ }).conn :=
    .same rfl rfl
  rw [callTimesynch_conn h]
  exact .head hlevel (Ec.putTimesynch_packetMoves hrun)

theorem timesynchRecv_packetMoves {pb : Packetbuf} (h : s.timesynchRecv cb pb = .ok s') :
    PacketMoves E K s.conn s'.conn := by
  obtain rfl | hcall | hlead | hforward := timesynchRecv_cases h
  · exact .refl
  · rw [callTimesynch_conn hcall]
  · rw [bind_eq_ok] at hlead
    obtain ⟨s₁, hlead, hcall⟩ := hlead
    rw [callTimesynch_conn hcall]
    exact timesynchAsLeader_packetMoves hlead
  · rw [bind_eq_ok] at hforward
    obtain ⟨s₁, hforward, hcall⟩ := hforward
    obtain ⟨c₁, hrun, rfl⟩ := tryConn_eq_ok.mp hforward
    have hfollow : PacketMove E K s.conn (s.follow pb.p.hdr).conn := .same rfl rfl
    rw [callTimesynch_conn hcall]
    exact .head hfollow (Ec.putTimesynch_packetMoves hrun)

/-- What a call does. -/
theorem ecCall_packetMoves {call : EcCall} (hcall : call.HandsOver E)
    (h : call.run cb s = .ok s') : PacketMoves E K s.conn s'.conn := by
  cases call with
  | reliableBroadcastNs ns a =>
    obtain ⟨c₁, hrun, rfl⟩ := tryConn_eq_ok.mp h
    unfold Ec.ecReliableBroadcastNs at hrun
    split at hrun
    · -- a `NULL` set is a fault, an empty one enqueues nothing
      cases hrun
    · next ns =>
      split at hrun
      · next hlen =>
        have hne : ns.addrs ≠ [] := List.length_pos_iff.mp hlen
        exact Ec.sendData_packetMoves (.inl rfl) (hcall ns rfl hne) hrun
      · cases hrun
        exact .refl
  | broadcast ns a =>
    obtain ⟨c₁, hrun, rfl⟩ := tryConn_eq_ok.mp h
    exact Ec.sendData_packetMoves (.inr (.inl rfl)) hcall hrun
  | reliableMulticast receivers a =>
    obtain ⟨c₁, hrun, rfl⟩ := tryConn_eq_ok.mp h
    exact Ec.sendData_packetMoves (.inr (.inr rfl)) hcall hrun
  | reliableUnicast destination a =>
    obtain ⟨c₁, hrun, rfl⟩ := tryConn_eq_ok.mp h
    exact Ec.sendData_packetMoves (.inr (.inr rfl)) hcall hrun
  | mesh destination seqno data =>
    obtain ⟨c₁, hrun, rfl⟩ := tryConn_eq_ok.mp h
    exact Ec.ecMesh_packetMoves hrun
  | timesynchOn =>
    cases h
    exact .single (.same rfl rfl)
  | timesynchOff =>
    cases h
    exact .single (.same rfl rfl)
  | timesynchNetwork =>
    change s.ecTimesynchNetwork cb = .ok s' at h
    unfold ecTimesynchNetwork at h
    split at h
    · split at h
      · exact timesynchAsLeader_packetMoves h
      · cases h
        exact .refl
    · cases h

/-- What application code does. -/
theorem runEffects_packetMoves : ∀ (l : List Effect) (s : EcNode σ),
    (∀ call, Effect.call call ∈ l → call.HandsOver E) → runEffects cb l s = .ok s' →
    PacketMoves E K s.conn s'.conn := by
  intro l
  induction l with
  | nil =>
    intro s _ h
    cases h
    exact .refl
  | cons e rest ih =>
    intro s hcalls h
    have hrest : ∀ call, Effect.call call ∈ rest → call.HandsOver E :=
      fun call hmem => hcalls call (List.mem_cons_of_mem e hmem)
    cases e with
    | assert b =>
      rw [runEffects] at h
      split at h
      · exact ih s hrest h
      · cases h
    | call call =>
      rw [runEffects, bind_eq_ok] at h
      obtain ⟨s₁, hrun, h⟩ := h
      exact (ecCall_packetMoves (hcalls call List.mem_cons_self) hrun).trans (ih s₁ hrest h)

/-! ### What receptions and timers do -/

theorem acknowledge_packetMoves {timer : Timer} {hdr : Header} (ht : t.IsAck)
    (h : s.acknowledge cb t timer hdr = .ok s') : PacketMoves E K s.conn s'.conn := by
  unfold acknowledge at h
  split at h
  · cases h
    exact .refl
  · obtain ⟨c₁, hput, rfl⟩ := tryConn_eq_ok.mp h
    rw [bind_eq_ok] at hput
    obtain ⟨c₂, hput, hset⟩ := hput
    rw [pure_eq_ok] at hset
    obtain ⟨i, hsq, -, htrace⟩ := Ec.putUnicast_eq_ok hput
    have hflag : (ackHeader (cb.addr s.app) hdr).isPacketFlagSet PacketFlags.ack = true := by
      rw [ackHeader, isPacketFlagSet_initUnicastPacket]
      decide
    have hcontrol : PacketMove E K s.conn c₂ := by
      refine .control ?_ (fun _ => hflag) hsq htrace
      rcases ht with rfl | rfl <;> simp [MsgType.IsData]
    rw [← hset]
    exact .head hcontrol (Ec.packetMoves_of_same (Ec.same_ctimerSet timer))

theorem sendAck_packetMoves {ch : Channel} {hdr : Header} {a : Arrival}
    (h : s.sendAck cb ch hdr a = .ok s') : PacketMoves E K s.conn s'.conn := by
  unfold sendAck at h
  split at h
  · exact acknowledge_packetMoves (.inl rfl) h
  · split at h
    · exact acknowledge_packetMoves (.inr rfl) h
    · cases h
      exact .refl

/-- What the reception of a frame does. -/
theorem Received.packetMoves {ch : Channel} {pb : Packetbuf}
    (hcalls : ∀ r ∈ s.upcall A (.receive ch pb), ∀ call, Effect.call call ∈ r.2 →
      call.HandsOver E)
    (hacks : pb.p.hdr.isPacketFlagSet PacketFlags.ack = true → K pb.p.hdr)
    (h : Received A s s' ch pb) : PacketMoves E K s.conn s'.conn := by
  cases h with
  | ignored _ h => rw [h]
  | acked _ _ _ _ hack _ h =>
    rw [h]
    exact .single (.acked _ (hacks hack))
  | duplicate _ _ _ _ _ _ _ h => exact sendAck_packetMoves h
  | @delivered a s₁ ha hacc hdeliver h =>
    have hlog : PacketMove E K s.conn
        (s.conn.log (.deliver (callbackFor ch a) (recvArgs pb.p.hdr a))) :=
      .delivered rfl rfl
    have hrun : PacketMoves E K
        (s.conn.log (.deliver (callbackFor ch a) (recvArgs pb.p.hdr a))) s₁.conn :=
      runEffects_packetMoves _ ⟨_, _⟩ (hcalls _ (upcall_of_accepts ha hacc)) hdeliver
    -- the delivery is in the history when the pair is stored
    have hmoves : Moves .any (s.conn.log (.deliver (callbackFor ch a) (recvArgs pb.p.hdr a)))
        s₁.conn := runEffects_moves _ ⟨_, _⟩ (fun _ _ _ _ => trivial) hdeliver
    have hknown : Known s₁.conn.trace pb.p.hdr.id :=
      .inr ⟨_, _, Moves.mem_trace hmoves List.mem_cons_self, rfl⟩
    have hstore : PacketMoves E K s₁.conn (s₁.conn.storePacketForDupeChecks pb.p.hdr.id) :=
      Ec.storePacketForDupeChecks_packetMoves hknown
    exact ((hrun.head hlog).trans hstore).trans (sendAck_packetMoves h)
  | synch _ _ h => exact timesynchRecv_packetMoves h

end EcNode

namespace Ec

theorem sendAck_packetMoves {ch : Channel} {timer : Timer} {radio : Bool} (ht : t.IsAck) :
    PacketMoves E K c (sendOnce t ch timer ackBody radio c) := by
  unfold sendOnce
  cases hfirst : c.sq.first t with
  | none => exact .refl
  | some i =>
    cases radio with
    | false => exact packetMoves_of_same (same_ctimerSet timer)
    | true =>
      have hconfirms : PacketMove E K c ((c.log (.frame ch i ⟨(c.sq.item i).p.hdr,
          ackBody (c.sq.item i)⟩)).freePacket i) :=
        .confirms ht (PacketBuffer.mem_of_first hfirst) rfl rfl
      exact .head hconfirms (packetMoves_of_same (same_ite timer))

theorem sendBroadcastData_packetMoves {radio : Bool} :
    PacketMoves E K c (c.sendBroadcastData radio) := by
  unfold sendBroadcastData sendOnce
  cases hfirst : c.sq.first .broadcastData with
  | none => exact .refl
  | some i =>
    cases radio with
    | false => exact packetMoves_of_same (same_ctimerSet _)
    | true =>
      have hfloods : PacketMove E K c ((c.log (.frame .broadcast i ⟨(c.sq.item i).p.hdr,
          (c.sq.item i).args.data⟩)).freePacket i) := .floods hfirst rfl rfl
      exact .head hfloods (packetMoves_of_same (same_ite _))

theorem sendTimesynchData_packetMoves {radio : Bool} :
    PacketMoves E K c (c.sendTimesynchData radio) := by
  unfold sendTimesynchData sendOnce
  cases hfirst : c.sq.first .timesynchData with
  | none => exact .refl
  | some i =>
    cases radio with
    | false => exact packetMoves_of_same (same_ctimerSet _)
    | true =>
      have hsynchs : PacketMove E K c ((c.log (.frame .timesynch i ⟨(c.sq.item i).p.hdr,
          []⟩)).freePacket i) := .synchs (PacketBuffer.mem_of_first hfirst) rfl rfl
      exact .head hsynchs (packetMoves_of_same (same_ite _))

theorem Drops.packetMoves {limit : UInt8} (h : Drops .meshData limit c c') :
    PacketMoves E K c c' := by
  induction h with
  | refl => exact .refl
  | tail _ hdrop ih =>
    obtain ⟨i, hi, -, rfl⟩ := hdrop
    exact ih.tail (.dropped hi rfl rfl)

theorem sendMeshData_packetMoves : PacketMoves E K c c.sendMeshData := by
  obtain ⟨hdrops, hleft, hfirst⟩ := dropSpent_drops .meshData maxTimesSent _ c rfl
  unfold sendMeshData
  generalize dropSpent maxTimesSent (c.sq.prioHeads .meshData) c = res at hdrops hleft hfirst ⊢
  obtain ⟨c₁, left⟩ := res
  cases left with
  | none => exact hdrops.packetMoves
  | some i =>
    have hi : i ∈ c₁.sq.prioHeads .meshData := PacketBuffer.mem_of_first (hfirst.trans hleft.symm)
    exact hdrops.packetMoves.tail (.meshed hi rfl rfl)

theorem sendMulticastUnicastData_packetMoves {radio : Bool}
    (h : c.sendMulticastUnicastData radio = .ok c') : PacketMoves E K c c' := by
  unfold sendMulticastUnicastData at h
  split at h
  · cases h
    exact .refl
  · next i hfirst =>
    split at h
    · cases h
    · next f hf =>
      cases radio with
      | false =>
        cases h
        exact packetMoves_of_same (same_ctimerSet _)
      | true =>
        cases h
        exact .single (.targeted (PacketBuffer.mem_of_first hfirst) hf rfl rfl)

end Ec

namespace EcNode

variable {A : Application σ ε} {cb : EcCallbacks σ} {s s' : EcNode σ}

/-- What the callback of a timer does. -/
theorem timerCallback_packetMoves {x : Timer} {radio : Bool}
    (h : s.timerCallback cb x radio = .ok s') : PacketMoves E K s.conn s'.conn := by
  cases x with
  | neighborAck =>
    rw [← Except.ok.inj h]
    exact Ec.sendAck_packetMoves (.inl rfl)
  | neighborData =>
    obtain ⟨c₁, hsend, rfl⟩ := tryConn_eq_ok.mp h
    exact .single (.neighborData hsend)
  | broadcastData =>
    rw [← Except.ok.inj h]
    exact Ec.sendBroadcastData_packetMoves
  | multicastUnicastData =>
    obtain ⟨c₁, hsend, rfl⟩ := tryConn_eq_ok.mp h
    exact Ec.sendMulticastUnicastData_packetMoves hsend
  | multicastUnicastAck =>
    rw [← Except.ok.inj h]
    exact Ec.sendAck_packetMoves (.inr rfl)
  | timesynchData =>
    rw [← Except.ok.inj h]
    exact Ec.sendTimesynchData_packetMoves
  | meshData =>
    rw [← Except.ok.inj h]
    exact Ec.sendMeshData_packetMoves
  | timesynch => exact timesynchAsLeader_packetMoves h

/-- **Every event is a sequence of moves**, whatever the application it runs hands over. -/
theorem step_packetMoves {ev : NodeEvent ε}
    (hcalls : ∀ r ∈ s.upcall A ev, ∀ call, Effect.call call ∈ r.2 → call.HandsOver E)
    (hacks : ∀ ch pb, ev = .receive ch pb → pb.p.hdr.isPacketFlagSet PacketFlags.ack = true →
      K pb.p.hdr)
    (h : s.step A ev = .ok s') : PacketMoves E K s.conn s'.conn := by
  cases ev with
  | process e => exact runEffects_packetMoves _ ⟨s.conn, (A.process e s.app).1⟩ (hcalls _ rfl) h
  | receive ch pb => exact (received_of_step h).packetMoves hcalls (hacks ch pb rfl)
  | expire x =>
    rw [← Except.ok.inj h]
    exact .single (.same rfl rfl)
  | timer x radio =>
    have htake : PacketMove E K s.conn (s.onConn (Ec.ctimerTake x)).conn := .same rfl rfl
    rw [step] at h
    split at h
    · exact .head htake (timerCallback_packetMoves h)
    · rw [← Except.ok.inj h]
      exact .single htake
  | meshSent =>
    obtain ⟨c₁, hsent, rfl⟩ := tryConn_eq_ok.mp h
    unfold Ec.meshdataSent at hsent
    split at hsent
    · cases hsent
    · next i hfirst =>
      cases hsent
      exact .single (.dropped (PacketBuffer.mem_of_first hfirst) rfl rfl)
  | meshTimeout =>
    rw [← Except.ok.inj h]
    exact .single (.same rfl rfl)

end EcNode

end Moves

/-! ### What frames and packets account for -/

/-- What the callback is given when packet `a` is received, with `stale` behind it. -/
def SendArgs.received (a : SendArgs) (stale : List UInt8) : RecvArgs :=
  ⟨a.originator, a.sender, a.hops, a.seqno, a.data ++ stale, UInt8.ofNat a.data.length⟩

/-- What is received is what was sent, if it fits into the sending queue. -/
theorem SendArgs.payload_received {a : SendArgs} (h : a.data.length ≤ 24) (stale : List UInt8) :
    (a.received stale).payload = a.data := by
  have hdataLen : (UInt8.ofNat a.data.length).toNat = a.data.length := by
    rw [UInt8.toNat_ofNat']
    omega
  change memRead (a.data ++ stale) (UInt8.ofNat a.data.length).toNat = a.data
  rw [hdataLen, memRead_append_length]

/-- Packet `x` has the header of packet `a`, the length of packet `b`, and of the data of `a` what
there is room for. -/
structure SendArgs.Splices (a b x : SendArgs) : Prop where
  originator : x.originator = a.originator
  sender : x.sender = a.sender
  hops : x.hops = a.hops
  seqno : x.seqno = a.seqno
  length : x.data.length = b.data.length
  bytes : ∀ k, k < a.data.length → k < b.data.length → byteAt x.data k = byteAt a.data k

/-- A frame on channel `ch` goes back to packets that were handed over. -/
inductive Frame.Accounted (E : MayHandOver) (ch : Channel) (f : Frame) : Prop
  | ack (hack : f.hdr.isPacketFlagSet PacketFlags.ack = true)
  | timesynch (hch : ch = .timesynch)
  | broadcast {ns : Option NeighborSet} {a : SendArgs} (hch : ch = .broadcast)
      (hE : E .broadcastData ns a) (hlen : a.data.length ≤ 24)
      (hf : f = ⟨initBroadcastPacket 0 a.hops a.originator a.sender a.seqno, a.data⟩)
  | targeted {ns : Option NeighborSet} {bp : BufferedPacket} (hch : ch = .broadcast)
      (hE : E .multicastUnicastData ns bp.args) (hf : Ec.targetedFrame bp.p bp = some f)
  /-- Neighbour data; the frame may be built from two packets. -/
  | neighbor {ns ns' : Option NeighborSet} {a b x : SendArgs} (hch : ch = .neighbor)
      (hE : E .neighborData ns a) (hE' : E .neighborData ns' b) (hx : a.Splices b x)
      (hlen : x.data.length ≤ 24) (hf : f.Carries x)

/-- The packets that are queued and the frames that were sent go back to what was handed over. -/
structure Ec.Accounted (E : MayHandOver) (c : Ec) : Prop where
  queued : ∀ t, t.IsData → ∀ i ∈ c.sq.prioHeads t,
    (c.sq.item i).IsData ∧ ∃ ns, E t ns (c.sq.item i).args
  acks : ∀ t, t.IsAck → ∀ i ∈ c.sq.prioHeads t,
    (c.sq.item i).p.hdr.isPacketFlagSet PacketFlags.ack = true
  frames : ∀ ch i f, .frame ch i f ∈ c.trace → f.Accounted E ch

section Accounts

variable {E E' : MayHandOver} {K : Header → Prop} {ch : Channel} {f : Frame}

theorem Frame.Accounted.mono (h : f.Accounted E ch) (hE : ∀ t ns a, E t ns a → E' t ns a) :
    f.Accounted E' ch := by
  cases h with
  | ack hack => exact .ack hack
  | timesynch hch => exact .timesynch hch
  | broadcast hch ha hlen hf => exact .broadcast hch (hE _ _ _ ha) hlen hf
  | targeted hch ha hf => exact .targeted hch (hE _ _ _ ha) hf
  | neighbor hch ha hb hx hlen hf => exact .neighbor hch (hE _ _ _ ha) (hE _ _ _ hb) hx hlen hf

/-- Dropping packets frees them, and does nothing else. -/
theorem Ec.Drops.trace {t : MsgType} {limit : UInt8} (h : Ec.Drops t limit c c') :
    ∃ l, c'.trace = l ++ c.trace ∧ ∀ x ∈ l, ∃ i, x = .free i := by
  induction h with
  | refl => exact ⟨[], rfl, fun _ hx => absurd hx List.not_mem_nil⟩
  | @tail c₁ c₂ _ hdrop ih =>
    obtain ⟨l, hl, hfree⟩ := ih
    obtain ⟨i, -, -, rfl⟩ := hdrop
    have htrace : (c₁.freePacket i).trace = .free i :: l ++ c.trace := by
      change .free i :: c₁.trace = _
      rw [hl, List.cons_append]
    refine ⟨.free i :: l, htrace, fun x hx => ?_⟩
    rcases List.mem_cons.mp hx with rfl | hx
    · exact ⟨i, rfl⟩
    · exact hfree x hx

namespace Ec.Accounted

theorem mono (h : c.Accounted E) (hE : ∀ t ns a, E t ns a → E' t ns a) : c.Accounted E' where
  queued t ht i hi := by
    obtain ⟨hdata, ns, ha⟩ := h.queued t ht i hi
    exact ⟨hdata, ns, hE _ _ _ ha⟩
  acks := h.acks
  frames ch i f hf := (h.frames ch i f hf).mono hE

theorem opened : Ec.Accounted E .opened :=
  ⟨fun _ _ _ hi => absurd hi List.not_mem_nil, fun _ _ _ hi => absurd hi List.not_mem_nil,
    fun _ _ _ hf => absurd hf List.not_mem_nil⟩

/-- What only loses packets, and sends frames that are accounted for. -/
theorem shrinks (h : c.Accounted E) (hsq : ∀ t, c.sq.Shrinks t c'.sq) {l : List Action}
    (htrace : c'.trace = l ++ c.trace) (hl : ∀ ch i f, .frame ch i f ∈ l → f.Accounted E ch) :
    c'.Accounted E where
  queued t ht i hi := by
    obtain ⟨hp, hlen⟩ := (hsq t).same i hi
    obtain ⟨hdata, ns, ha⟩ := h.queued t ht i ((hsq t).list.subset hi)
    refine ⟨hdata.congr hp hlen, ns, ?_⟩
    rw [BufferedPacket.args_congr hp hlen]
    exact ha
  acks t ht i hi := by
    rw [((hsq t).same i hi).1]
    exact h.acks t ht i ((hsq t).list.subset hi)
  frames ch i f hf := by
    rw [htrace] at hf
    exact (List.mem_append.mp hf).elim (hl ch i f) (h.frames ch i f)

/-- What enqueues a packet that is accounted for. -/
theorem enqueued (h : c.Accounted E) {t : MsgType} {i : ℕ} {bp : BufferedPacket}
    {ns : Option NeighborSet} {a : SendArgs} (hsq : c.sq.Enqueued t i bp c'.sq)
    (htrace : c'.trace = .enqueue t i ns a :: c.trace)
    (hdata : t.IsData → bp.IsData ∧ ∃ ns, E t ns bp.args)
    (hack : t.IsAck → bp.p.hdr.isPacketFlagSet PacketFlags.ack = true) : c'.Accounted E := by
  -- a packet on a list is the new one, or was on the list and is left alone
  have hcases : ∀ t', ∀ j ∈ c'.sq.prioHeads t', (t' = t ∧ c'.sq.item j = bp) ∨
      (j ∈ c.sq.prioHeads t' ∧ c'.sq.item j = c.sq.item j) := by
    intro t' j hj
    rw [hsq.prioHeads, mem_addTail] at hj
    by_cases hji : j = i
    · subst hji
      exact .inl ⟨(hj.resolve_left (hsq.fresh t')).1, hsq.item_self⟩
    · exact .inr ⟨hj.resolve_right fun hnew => hji hnew.2, hsq.item_of_ne j hji⟩
  refine ⟨fun t' ht' j hj => ?_, fun t' ht' j hj => ?_, fun ch j f hf => ?_⟩
  · rcases hcases t' j hj with ⟨rfl, hitem⟩ | ⟨hold, hitem⟩
    · rw [hitem]
      exact hdata ht'
    · rw [hitem]
      exact h.queued t' ht' j hold
  · rcases hcases t' j hj with ⟨rfl, hitem⟩ | ⟨hold, hitem⟩
    · rw [hitem]
      exact hack ht'
    · rw [hitem]
      exact h.acks t' ht' j hold
  · rw [htrace] at hf
    refine h.frames ch j f ((List.mem_cons.mp hf).resolve_left ?_)
    intro heq
    cases heq

/-- The packet that is read from the header and the data of one slot and the length of another. -/
theorem splices {bp bp' : BufferedPacket} :
    bp.args.Splices bp'.args (BufferedPacket.args { bp' with p := bp.p }) where
  originator := rfl
  sender := rfl
  hops := rfl
  seqno := rfl
  length := by
    rw [BufferedPacket.length_args, BufferedPacket.length_args]
  bytes k hk hk' := by
    rw [BufferedPacket.length_args] at hk hk'
    change byteAt (memRead bp.p.data bp'.dataLen.toNat) k =
      byteAt (memRead bp.p.data bp.dataLen.toNat) k
    rw [byteAt_memRead hk', byteAt_memRead hk]

/-- Neighbour data that is sent is accounted for. -/
theorem sendNeighborData (h : c.Accounted E) {radio : Bool}
    (hsend : c.sendNeighborData radio = .ok c') : c'.Accounted E := by
  obtain ⟨c₁, hdrops, -, hsent⟩ := sendNeighborData_cases hsend
  have hc₁ : c₁.Accounted E := by
    obtain ⟨l, hl, hfree⟩ := hdrops.trace
    refine h.shrinks (fun t => .drops hdrops) hl fun ch i f hf => ?_
    obtain ⟨j, hj⟩ := hfree _ hf
    cases hj
  cases hsent with
  | emptied => exact hc₁
  | refused => exact ⟨hc₁.queued, hc₁.acks, hc₁.frames⟩
  | @sent i j f _ hfirst hleft hframe =>
    have hi : i ∈ c.sq.prioHeads .neighborData := PacketBuffer.mem_of_first hfirst
    have hj : j ∈ c.sq.prioHeads .neighborData := List.mem_of_find?_eq_some hleft
    obtain ⟨hidata, ns, hns⟩ := h.queued _ (.inl rfl) i hi
    obtain ⟨hjdata, ns', hns'⟩ := h.queued _ (.inl rfl) j hj
    have hboth : BufferedPacket.IsData { c.sq.item j with p := (c.sq.item i).p } :=
      ⟨hidata.flags, hjdata.short⟩
    have hlen : (BufferedPacket.args { c.sq.item j with p := (c.sq.item i).p }).data.length ≤ 24 := by
      rw [BufferedPacket.length_args]
      exact hboth.short
    have hframe : Frame.Accounted E .neighbor f :=
      .neighbor rfl hns hns' splices hlen (carries_neighborDataFrame hboth hframe)
    refine hc₁.shrinks (l := [.frame .neighbor i f])
      (fun t => PacketBuffer.Shrinks.incrementTimesSent j) rfl fun ch i' f' hf' => ?_
    rw [List.mem_singleton] at hf'
    cases hf'
    exact hframe

end Ec.Accounted

/-- **Every move accounts for what it enqueues and sends.** -/
theorem PacketMove.accounted (h : PacketMove E K c c') (hc : c.Accounted E) : c'.Accounted E := by
  have hnone : ∀ {x : Action} {ch : Channel} {i : ℕ} {f : Frame}, (∀ ch i f, x ≠ .frame ch i f) →
      .frame ch i f ∈ [x] → f.Accounted E ch := fun hx hf =>
    absurd (List.mem_singleton.mp hf).symm (hx _ _ _)
  -- a packet that is sent once is freed
  have honce : ∀ {i : ℕ} {ch : Channel} {f : Frame}, c'.sq = c.sq.free i →
      c'.trace = .free i :: .frame ch i f :: c.trace → f.Accounted E ch → c'.Accounted E := by
    intro i ch f hsq htrace hframe
    refine hc.shrinks (l := [.free i, .frame ch i f]) (fun t => hsq ▸ .free i) htrace ?_
    intro ch' i' f' hf'
    simp only [List.mem_cons, reduceCtorEq, List.not_mem_nil, or_false, false_or] at hf'
    cases hf'
    exact hframe
  cases h with
  | same hsq htrace =>
    exact hc.shrinks (l := []) (fun t => hsq ▸ .refl t _) htrace
      fun _ _ _ hf => absurd hf List.not_mem_nil
  | stored _ hsq htrace =>
    refine hc.shrinks (l := [_]) (fun t => hsq ▸ .refl t _) htrace ?_
    exact fun _ _ _ hf => hnone (fun _ _ _ heq => by cases heq) hf
  | delivered hsq htrace =>
    refine hc.shrinks (l := [_]) (fun t => hsq ▸ .refl t _) htrace ?_
    exact fun _ _ _ hf => hnone (fun _ _ _ heq => by cases heq) hf
  | @data _ t i ns a ht hE hlen hsq htrace =>
    refine hc.enqueued hsq htrace (fun _ => ⟨PacketBuffer.isData_written hlen, ns, ?_⟩) ?_
    · rw [PacketBuffer.args_written hlen]
      exact hE
    · intro hack
      rcases ht with rfl | rfl | rfl <;> simp [MsgType.IsAck] at hack
  | control ht hack hsq htrace => exact hc.enqueued hsq htrace (fun h => absurd h ht) hack
  | @acked timer hdr _ =>
    obtain ⟨-, heq⟩ | ⟨i, -, -, -, ⟨-, htrace⟩ | ⟨-, htrace⟩⟩ := EcNode.ackRecv_cases timer hdr c
    · rw [heq]
      exact hc
    · refine hc.shrinks (l := [.free i]) (fun t => EcNode.shrinks_ackRecv t timer hdr) htrace ?_
      exact fun _ _ _ hf => hnone (fun _ _ _ heq => by cases heq) hf
    · refine hc.shrinks (l := []) (fun t => EcNode.shrinks_ackRecv t timer hdr) htrace ?_
      exact fun _ _ _ hf => absurd hf List.not_mem_nil
  | confirms ht hi hsq htrace => exact honce hsq htrace (.ack (hc.acks _ ht _ hi))
  | @floods _ i hfirst hsq htrace =>
    obtain ⟨hdata, ns, ha⟩ := hc.queued _ (.inr (.inl rfl)) i (PacketBuffer.mem_of_first hfirst)
    refine honce hsq htrace (.broadcast rfl ha ?_ ?_)
    · rw [BufferedPacket.length_args]
      exact hdata.short
    · rw [hdata.hdr_eq]
  | synchs hi hsq htrace => exact honce hsq htrace (.timesynch rfl)
  | neighborData h => exact hc.sendNeighborData h
  | @targeted _ i f hi hf hsq htrace =>
    obtain ⟨-, ns, ha⟩ := hc.queued _ (.inr (.inr rfl)) i hi
    refine hc.shrinks (l := [.frame .broadcast i f]) (fun t => hsq ▸ .incrementTimesSent i) htrace ?_
    intro ch' i' f' hf'
    rw [List.mem_singleton] at hf'
    cases hf'
    exact .targeted rfl ha hf
  | meshed hi hsq htrace =>
    refine hc.shrinks (l := [_]) (fun t => hsq ▸ .incrementTimesSent _) htrace ?_
    exact fun _ _ _ hf => hnone (fun _ _ _ heq => by cases heq) hf
  | dropped hi hsq htrace =>
    refine hc.shrinks (l := [_]) (fun t => hsq ▸ .free _) htrace ?_
    exact fun _ _ _ hf => hnone (fun _ _ _ heq => by cases heq) hf

theorem PacketMoves.accounted (h : PacketMoves E K c c') (hc : c.Accounted E) : c'.Accounted E := by
  induction h with
  | refl => exact hc
  | tail _ hmove ih => exact hmove.accounted ih

/-! ### What is received -/

/-- A receiver of a frame is given what the frame carries. -/
theorem Frame.Carries.recvArgs_eq {a : SendArgs} {self : Rimeaddr} {stale : List UInt8}
    {arr : Arrival} (h : f.Carries a) (ha : receivePacket self (f.received stale) = some arr)
    (hfor : arr.isForUs = true) : EcNode.recvArgs f.hdr arr = a.received stale := by
  cases h with
  | broadcast =>
    rw [receivePacket_broadcast (packetType_initBroadcastPacket ..)] at ha
    cases ha
    rfl
  | unicast addr =>
    rw [receivePacket_unicast (packetType_initUnicastPacket ..)] at ha
    split at ha
    · cases ha
      rfl
    · cases ha
      cases hfor
  | multicast ids hne hids =>
    rw [receivePacket_multicast (packetType_initMulticastPacket ..) hids] at ha
    split at ha
    · cases ha
      rfl
    · cases ha
      cases hfor

/-- A frame for particular neighbours carries its packet, and its receivers take it for one. -/
theorem Ec.targetedFrame_carries {bp : BufferedPacket} {self : Rimeaddr} {stale : List UInt8}
    {arr : Arrival} (hf : targetedFrame bp.p bp = some f)
    (ha : receivePacket self (f.received stale) = some arr) (hfor : arr.isForUs = true) :
    f.Carries bp.args ∧ (arr.mc || arr.uc) = true := by
  have hle : bp.unackedNs.addrs.length ≤ maxNeighbors := bp.unackedNs.le
  unfold targetedFrame at hf
  simp only at hf
  split at hf
  · cases hf
  · cases hf
    refine ⟨.unicast _, ?_⟩
    rw [receivePacket_unicast (packetType_initUnicastPacket ..)] at ha
    split at ha <;> cases ha
    · rfl
    · cases hfor
  · next hne _ =>
    cases hf
    refine ⟨.multicast _ hne hle, ?_⟩
    rw [receivePacket_multicast (packetType_initMulticastPacket ..) hle] at ha
    split at ha <;> cases ha
    · rfl
    · cases hfor

/-- What a callback is given of a frame: packet `a` that was handed over, or for neighbour data
one with the header of such a packet. -/
inductive Yielded (E : MayHandOver) (stale : List UInt8) : Callback → RecvArgs → Prop
  | broadcast {ns : Option NeighborSet} {a : SendArgs} (hE : E .broadcastData ns a)
      (hlen : a.data.length ≤ 24) : Yielded E stale .broadcastRecv (a.received stale)
  | targeted {ns : Option NeighborSet} {a : SendArgs} (hE : E .multicastUnicastData ns a) :
      Yielded E stale .multicastUnicastRecv (a.received stale)
  | neighbor {ns ns' : Option NeighborSet} {a b x : SendArgs} (hE : E .neighborData ns a)
      (hE' : E .neighborData ns' b) (hx : a.Splices b x) (hlen : x.data.length ≤ 24) :
      Yielded E stale .neighborRecv (x.received stale)

/-- **What a frame gives an application was handed over.** -/
theorem Frame.Accounted.delivery {cb : EcCallbacks σ} {s : EcNode σ} {stale : List UInt8}
    {k : Callback} {r : RecvArgs} (h : f.Accounted E ch)
    (hd : s.delivery cb ch (f.received stale) = some (k, r)) : Yielded E stale k r := by
  obtain ⟨arr, ha, hacc⟩ := Option.bind_eq_some_iff.mp hd
  split at hacc
  · next hok =>
    cases hacc
    obtain ⟨hch, hfor, hdata, -⟩ := hok
    cases h with
    | ack hack => exact absurd (hack.symm.trans hdata) (by simp)
    | timesynch h => exact absurd h hch
    | @broadcast ns a hch hE hlen hf =>
      subst hch hf
      have hargs : EcNode.recvArgs (initBroadcastPacket 0 a.hops a.originator a.sender a.seqno) arr =
          a.received stale := Frame.Carries.recvArgs_eq .broadcast ha hfor
      have hplain : (arr.mc || arr.uc) = false := by
        rw [receivePacket_broadcast (packetType_initBroadcastPacket ..)] at ha
        cases ha
        rfl
      have hk : EcNode.callbackFor .broadcast arr = .broadcastRecv := by
        rw [EcNode.callbackFor, if_neg (by decide), hplain]
        rfl
      change Yielded E stale (EcNode.callbackFor .broadcast arr) (EcNode.recvArgs _ arr)
      rw [hk]
      change Yielded E stale .broadcastRecv
        (EcNode.recvArgs (initBroadcastPacket 0 a.hops a.originator a.sender a.seqno) arr)
      rw [hargs]
      exact .broadcast hE hlen
    | @targeted ns bp hch hE hf =>
      subst hch
      obtain ⟨hcarries, hkind⟩ := Ec.targetedFrame_carries hf ha hfor
      have hk : EcNode.callbackFor .broadcast arr = .multicastUnicastRecv := by
        rw [EcNode.callbackFor, if_neg (by decide), hkind]
        rfl
      change Yielded E stale _ (EcNode.recvArgs f.hdr arr)
      rw [hcarries.recvArgs_eq ha hfor, hk]
      exact .targeted hE
    | @neighbor ns ns' a b x hch hE hE' hx hlen hf =>
      subst hch
      change Yielded E stale (EcNode.callbackFor .neighbor arr) (EcNode.recvArgs f.hdr arr)
      rw [hf.recvArgs_eq ha hfor]
      exact .neighbor hE hE' hx hlen
  · cases hacc

end Accounts

end EmergencyNet
