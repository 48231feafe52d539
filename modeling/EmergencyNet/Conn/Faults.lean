import EmergencyNet.App.Calls
import EmergencyNet.Conn.Upcall

/-!
# What can go wrong in the connection

Two faults are traced to their places: reading the neighbour set through a `NULL` pointer,
and allocating a packet in a full packet buffer.  Of all functions only
`ec_reliable_broadcast_ns` and `neighbor_recv` read the neighbour set; an allocation fails
exactly when the buffer is full.

## Main results

* `EcNode.step_nullNeighbors` — **where a `NULL` neighbour set is read.**
* `EcNode.Fills.runEffects` — **application code for which there is room does not overflow the
  sending queue.**
* `EcNode.dataRecv_eq_sendingQueueFull` — reception overflows only at a duplicate.
-/

namespace EmergencyNet

variable {σ ε : Type*} {e : Fault}

/-- How a computation goes wrong, if it does. -/
def faultOf {α : Type*} : Except Fault α → Option Fault
  | .error e => some e
  | .ok _ => none

theorem faultOf_eq_some {α : Type*} {x : Except Fault α} : faultOf x = some e ↔ x = .error e := by
  cases x <;> simp [faultOf]

theorem bind_eq_error.{u} {α β : Type u} {x : Except Fault α} {f : α → Except Fault β} {e : Fault} :
    (x >>= f) = .error e ↔ x = .error e ∨ ∃ a, x = .ok a ∧ f a = .error e := by
  cases x with
  | error e' => simp [bind, Except.bind]
  | ok a => simp [bind, Except.bind]

theorem tryConn_eq_error {s : EcNode σ} {f : Ec → Except Fault Ec} :
    s.tryConn f = .error e ↔ f s.conn = .error e := by
  unfold EcNode.tryConn
  cases f s.conn <;> simp

/-! ### Enqueuing -/

namespace Ec

variable {c c' : Ec} {hdr : Header} {data : List UInt8} {ns : Option NeighborSet} {t : MsgType}

/-- The faults of an allocation are those of the packet buffer. -/
theorem putBroadcast_eq_error : c.putBroadcast hdr data ns t = .error e ↔
    c.sq.put broadcastPacketHdrSize hdr [] data ns t = .error e := by
  unfold putBroadcast PacketBuffer.broadcastPacket
  split <;> simp [*]

theorem putUnicast_eq_error {dest : Rimeaddr} : c.putUnicast hdr dest data ns t = .error e ↔
    c.sq.put unicastPacketHdrSize hdr dest.bytes data ns t = .error e := by
  unfold putUnicast PacketBuffer.unicastPacket
  split <;> simp [*]

theorem put_ne_nullNeighbors {n : ℕ} {fields : List UInt8} {pb : PacketBuffer} :
    pb.put n hdr fields data ns t ≠ .error .nullNeighbors := by
  unfold PacketBuffer.put
  split
  · simp
  · split <;> simp

/-- What `put_broadcast` fails with, the functions that end with it fail with. -/
theorem sendData_eq_error {timer : Timer} {a : SendArgs} : c.sendData t timer ns a = .error e ↔
    c.putBroadcast (initBroadcastPacket 0 a.hops a.originator a.sender a.seqno) a.data ns t =
      .error e := by
  unfold sendData
  rw [bind_eq_error]
  refine ⟨fun h => h.resolve_right ?_, .inl⟩
  rintro ⟨c₁, -, h⟩
  cases h

theorem ecMesh_eq_error {dest : Rimeaddr} {seqno : UInt8} : c.ecMesh dest seqno data = .error e ↔
    c.putUnicast (initUnicastPacket 0 0 rimeaddrNull rimeaddrNull seqno) dest data none .meshData =
      .error e := by
  unfold ecMesh
  rw [bind_eq_error]
  refine ⟨fun h => h.resolve_right ?_, .inl⟩
  rintro ⟨c₁, -, h⟩
  cases h

theorem putTimesynch_eq_error : c.putTimesynch hdr = .error e ↔
    c.putBroadcast hdr [] none .timesynchData = .error e := by
  unfold putTimesynch
  rw [bind_eq_error]
  refine ⟨fun h => h.resolve_right ?_, .inl⟩
  rintro ⟨c₁, -, h⟩
  cases h

theorem putBroadcast_ne_nullNeighbors : c.putBroadcast hdr data ns t ≠ .error .nullNeighbors :=
  fun h => put_ne_nullNeighbors (putBroadcast_eq_error.mp h)

theorem putBroadcast_eq_sendingQueueFull : c.putBroadcast hdr data ns t = .error .sendingQueueFull ↔
    c.sq.size = sendingQueueLength := by
  rw [putBroadcast_eq_error, PacketBuffer.put_eq_sendingQueueFull]

theorem putUnicast_eq_sendingQueueFull {dest : Rimeaddr} :
    c.putUnicast hdr dest data ns t = .error .sendingQueueFull ↔
      c.sq.size = sendingQueueLength := by
  rw [putUnicast_eq_error, PacketBuffer.put_eq_sendingQueueFull]

theorem sq_store (id : PacketId) : (c.storePacketForDupeChecks id).sq = c.sq := by
  unfold storePacketForDupeChecks
  split <;> rfl

theorem sq_ite_ctimerSet {p : Prop} [Decidable p] (timer : Timer) :
    (if p then c.ctimerSet timer else c).sq = c.sq := by
  split <;> rfl

theorem sendData_size {timer : Timer} {a : SendArgs} (h : c.sendData t timer ns a = .ok c') :
    c'.sq.size = c.sq.size + 1 := by
  unfold sendData at h
  rw [bind_eq_ok] at h
  obtain ⟨c₁, hput, h⟩ := h
  rw [pure_eq_ok] at h
  obtain ⟨i, hsq, -⟩ := putBroadcast_eq_ok hput
  rw [← h, sq_ite_ctimerSet, sq_store, hsq.size]

theorem ecMesh_size {dest : Rimeaddr} {seqno : UInt8} (h : c.ecMesh dest seqno data = .ok c') :
    c'.sq.size = c.sq.size + 1 := by
  unfold ecMesh at h
  rw [bind_eq_ok] at h
  obtain ⟨c₁, hput, h⟩ := h
  rw [pure_eq_ok] at h
  obtain ⟨i, hsq, -⟩ := putUnicast_eq_ok hput
  rw [← h, sq_ite_ctimerSet, hsq.size]

theorem putTimesynch_size (h : c.putTimesynch hdr = .ok c') : c'.sq.size = c.sq.size + 1 := by
  unfold putTimesynch at h
  rw [bind_eq_ok] at h
  obtain ⟨c₁, hput, h⟩ := h
  rw [pure_eq_ok] at h
  obtain ⟨i, hsq, -⟩ := putBroadcast_eq_ok hput
  rw [← h]
  exact hsq.size

/-- `ec_reliable_broadcast_ns` reads the neighbour set it is given. -/
theorem ecReliableBroadcastNs_eq_nullNeighbors {a : SendArgs} :
    c.ecReliableBroadcastNs ns a = .error .nullNeighbors ↔ ns = none := by
  unfold ecReliableBroadcastNs
  cases ns with
  | none => simp
  | some ns =>
    simp only [reduceCtorEq, iff_false]
    split
    · exact fun h => putBroadcast_ne_nullNeighbors (sendData_eq_error.mp h)
    · simp

theorem sendNeighborData_ne_nullNeighbors {radio : Bool} :
    c.sendNeighborData radio ≠ .error .nullNeighbors := by
  unfold sendNeighborData
  split
  · simp
  · next i _ =>
    simp only
    generalize dropSpent maxTimesSentMesh (c.sq.prioHeads .neighborData) c = res
    obtain ⟨c₁, left⟩ := res
    cases left with
    | none => simp
    | some j =>
      cases hf : neighborDataFrame (c.sq.item i).p (c₁.sq.item j) <;> cases radio <;> simp [hf]

theorem sendMulticastUnicastData_ne_nullNeighbors {radio : Bool} :
    c.sendMulticastUnicastData radio ≠ .error .nullNeighbors := by
  unfold sendMulticastUnicastData
  split
  · simp
  · split
    · simp
    · cases radio <;> simp

theorem meshdataSent_ne_nullNeighbors : c.meshdataSent ≠ .error .nullNeighbors := by
  unfold meshdataSent
  split <;> simp

end Ec

namespace EcNode

variable {cb : EcCallbacks σ} {s s' : EcNode σ}

/-! ### Reading the neighbour set -/

theorem callTimesynch_ne_nullNeighbors : s.callTimesynch cb ≠ .error .nullNeighbors := by
  unfold callTimesynch
  split <;> simp

theorem timesynchAsLeader_ne_nullNeighbors : s.timesynchAsLeader cb ≠ .error .nullNeighbors := by
  intro h
  unfold timesynchAsLeader at h
  rcases bind_eq_error.mp h with h | ⟨s₁, -, h⟩
  · exact Ec.putBroadcast_ne_nullNeighbors (Ec.putTimesynch_eq_error.mp (tryConn_eq_error.mp h))
  · exact callTimesynch_ne_nullNeighbors h

theorem forwardTimesynch_ne_nullNeighbors {hdr : Header} :
    s.forwardTimesynch cb hdr ≠ .error .nullNeighbors := fun h =>
  Ec.putBroadcast_ne_nullNeighbors (Ec.putTimesynch_eq_error.mp (tryConn_eq_error.mp h))

theorem bind_callTimesynch_ne_nullNeighbors {x : Except Fault (EcNode σ)}
    (hx : x ≠ .error .nullNeighbors) : (x >>= callTimesynch cb) ≠ .error .nullNeighbors := by
  intro h
  rcases bind_eq_error.mp h with h | ⟨s₁, -, h⟩
  · exact hx h
  · exact callTimesynch_ne_nullNeighbors h

theorem timesynchRecv_ne_nullNeighbors {pb : Packetbuf} :
    s.timesynchRecv cb pb ≠ .error .nullNeighbors := by
  unfold timesynchRecv
  simp only
  split
  · split
    · split
      · refine bind_callTimesynch_ne_nullNeighbors ?_
        split
        · exact timesynchAsLeader_ne_nullNeighbors
        · exact forwardTimesynch_ne_nullNeighbors
      · split
        · split
          · exact bind_callTimesynch_ne_nullNeighbors forwardTimesynch_ne_nullNeighbors
          · split
            · exact callTimesynch_ne_nullNeighbors
            · simp
        · simp
    · simp
  · simp

/-- Of the calls only `ec_reliable_broadcast_ns` reads the neighbour set. -/
theorem ecCall_eq_nullNeighbors {call : EcCall} :
    call.run cb s = .error .nullNeighbors ↔ ∃ a, call = .reliableBroadcastNs none a := by
  cases call with
  | reliableBroadcastNs ns a =>
    rw [EcCall.run, tryConn_eq_error, Ec.ecReliableBroadcastNs_eq_nullNeighbors]
    simp
  | broadcast ns a =>
    refine iff_of_false (fun h => ?_) (by simp)
    exact Ec.putBroadcast_ne_nullNeighbors (Ec.sendData_eq_error.mp (tryConn_eq_error.mp h))
  | reliableMulticast receivers a =>
    refine iff_of_false (fun h => ?_) (by simp)
    exact Ec.putBroadcast_ne_nullNeighbors (Ec.sendData_eq_error.mp (tryConn_eq_error.mp h))
  | reliableUnicast destination a =>
    refine iff_of_false (fun h => ?_) (by simp)
    exact Ec.putBroadcast_ne_nullNeighbors (Ec.sendData_eq_error.mp (tryConn_eq_error.mp h))
  | mesh destination seqno data =>
    refine iff_of_false (fun h => ?_) (by simp)
    have h := Ec.ecMesh_eq_error.mp (tryConn_eq_error.mp h)
    exact Ec.put_ne_nullNeighbors (Ec.putUnicast_eq_error.mp h)
  | timesynchOn => simp [EcCall.run]
  | timesynchOff => simp [EcCall.run]
  | timesynchNetwork =>
    refine iff_of_false (fun h => ?_) (by simp)
    change s.ecTimesynchNetwork cb = _ at h
    unfold ecTimesynchNetwork at h
    split at h
    · split at h
      · exact timesynchAsLeader_ne_nullNeighbors h
      · cases h
    · cases h

/-- Code that makes no call with a `NULL` neighbour set does not read one. -/
theorem runEffects_eq_nullNeighbors : ∀ (l : List Effect) (s : EcNode σ),
    runEffects cb l s = .error .nullNeighbors → ∃ a, Effect.call (.reliableBroadcastNs none a) ∈ l := by
  intro l
  induction l with
  | nil =>
    intro s h
    cases h
  | cons e rest ih =>
    intro s h
    cases e with
    | assert b =>
      rw [runEffects] at h
      split at h
      · obtain ⟨a, ha⟩ := ih s h
        exact ⟨a, List.mem_cons_of_mem _ ha⟩
      · cases h
    | call call =>
      rw [runEffects] at h
      rcases bind_eq_error.mp h with hcall | ⟨s₁, -, h⟩
      · obtain ⟨a, rfl⟩ := ecCall_eq_nullNeighbors.mp hcall
        exact ⟨a, List.mem_cons_self⟩
      · obtain ⟨a, ha⟩ := ih s₁ h
        exact ⟨a, List.mem_cons_of_mem _ ha⟩

theorem acknowledge_ne_nullNeighbors {t : MsgType} {timer : Timer} {hdr : Header} :
    s.acknowledge cb t timer hdr ≠ .error .nullNeighbors := by
  unfold acknowledge
  split
  · simp
  · intro h
    rcases bind_eq_error.mp (tryConn_eq_error.mp h) with h | ⟨c₁, -, h⟩
    · exact Ec.put_ne_nullNeighbors (Ec.putUnicast_eq_error.mp h)
    · cases h

/-- In the branch for data packets only the callback reads the neighbour set. -/
theorem dataRecv_eq_nullNeighbors {k : Callback} {sendAck : EcNode σ → Except Fault (EcNode σ)}
    {hdr : Header} {a : Arrival} (hack : ∀ s, sendAck s ≠ .error .nullNeighbors)
    (h : s.dataRecv cb k sendAck hdr a = .error .nullNeighbors) :
    (s.conn.isDupe hdr.id = false ∧ s.conn.sq.hasRoomForPackets 3 = true) ∧
      s.deliver cb k (recvArgs hdr a) = .error .nullNeighbors := by
  unfold dataRecv at h
  split at h
  · exact absurd h (hack s)
  · next hdupe =>
    split at h
    · next hroom =>
      rcases bind_eq_error.mp h with h | ⟨s₁, -, h⟩
      · exact ⟨⟨by simpa using hdupe, hroom⟩, h⟩
      · exact absurd h (hack _)
    · cases h

/-- **Where a `NULL` neighbour set is read**: in `neighbor_recv`, for every frame that is for the
node, and in `ec_reliable_broadcast_ns`, called by the code the event runs. -/
theorem step_nullNeighbors {A : Application σ ε} {ev : NodeEvent ε}
    (h : s.step A ev = .error .nullNeighbors) :
    (∃ pb a, ev = .receive .neighbor pb ∧ receivePacket (A.addr s.app) pb = some a ∧
      a.isForUs = true ∧ A.ns s.app = none) ∨
    ∃ code ∈ s.upcall A ev, ∃ a, Effect.call (.reliableBroadcastNs none a) ∈ code.2 := by
  cases ev with
  | process e => exact .inr ⟨_, rfl, runEffects_eq_nullNeighbors _ _ h⟩
  | receive ch pb =>
    cases ch with
    | timesynch => exact absurd h timesynchRecv_ne_nullNeighbors
    | neighbor =>
      change s.neighborRecv A.toEcCallbacks pb = _ at h
      unfold neighborRecv at h
      split at h
      · cases h
      · next a ha =>
        split at h
        · next hfor =>
          split at h
          · -- the neighbour set is read before the sender is looked up
            next hns => exact .inl ⟨pb, a, rfl, ha, hfor, hns⟩
          · next ns hns =>
            split at h
            · next hsender =>
              split at h
              · cases h
              · next hack =>
                obtain ⟨hnew, hdeliver⟩ := dataRecv_eq_nullNeighbors
                  (fun _ => acknowledge_ne_nullNeighbors) h
                have hfrom : s.fromNeighbor A.toEcCallbacks .neighbor pb.p.hdr.sender = true := by
                  simp [fromNeighbor, hns, hsender]
                have hd : s.delivery A.toEcCallbacks .neighbor pb = _ := delivery_of_accepts ha
                  ⟨by decide, hfor, by simpa using hack, hfrom, hnew⟩
                refine .inr ⟨_, congrArg (Option.map _) hd, runEffects_eq_nullNeighbors _ _ hdeliver⟩
            · cases h
        · cases h
    | broadcast =>
      change s.broadcastRecv A.toEcCallbacks pb = _ at h
      unfold broadcastRecv at h
      split at h
      · cases h
      · next a ha =>
        split at h
        · next hfor =>
          split at h
          · cases h
          · next hack =>
            -- flooded or not, the callback is run on the same conditions
            have hres : ∃ k, callbackFor .broadcast a = k ∧
                (s.conn.isDupe pb.p.hdr.id = false ∧ s.conn.sq.hasRoomForPackets 3 = true) ∧
                s.deliver A.toEcCallbacks k (recvArgs pb.p.hdr a) = .error .nullNeighbors := by
              split at h
              · next hk =>
                exact ⟨_, if_pos hk, dataRecv_eq_nullNeighbors
                  (fun _ => acknowledge_ne_nullNeighbors) h⟩
              · next hk => exact ⟨_, if_neg hk, dataRecv_eq_nullNeighbors (fun _ => by simp) h⟩
            obtain ⟨k, hk, hnew, hdeliver⟩ := hres
            have hd : s.delivery A.toEcCallbacks .broadcast pb = _ := delivery_of_accepts ha
              ⟨by decide, hfor, by simpa using hack, rfl, hnew⟩
            rw [hk] at hd
            exact .inr ⟨_, congrArg (Option.map _) hd, runEffects_eq_nullNeighbors _ _ hdeliver⟩
        · cases h
  | expire t => cases h
  | timer t radio =>
    rw [step] at h
    split at h
    · cases t with
      | neighborData => exact absurd (tryConn_eq_error.mp h) Ec.sendNeighborData_ne_nullNeighbors
      | multicastUnicastData =>
        exact absurd (tryConn_eq_error.mp h) Ec.sendMulticastUnicastData_ne_nullNeighbors
      | timesynch => exact absurd h timesynchAsLeader_ne_nullNeighbors
      | neighborAck | broadcastData | multicastUnicastAck | timesynchData | meshData => cases h
    · cases h
  | meshSent => exact absurd (tryConn_eq_error.mp h) Ec.meshdataSent_ne_nullNeighbors
  | meshTimeout => cases h

/-- A flooded packet whose callback goes wrong. -/
theorem step_of_broadcast_error {A : Application σ ε} {ch : Channel} {pb : Packetbuf}
    {r : RecvArgs} {e : Fault} (hd : s.delivery A.toEcCallbacks ch pb = some (.broadcastRecv, r))
    (herr : s.deliver A.toEcCallbacks .broadcastRecv r = .error e) :
    s.step A (.receive ch pb) = .error e := by
  obtain ⟨a, ha, hacc⟩ := Option.bind_eq_some_iff.mp hd
  split at hacc
  · next hok =>
    obtain ⟨hk, rfl⟩ := Prod.mk.inj (Option.some.inj hacc)
    obtain ⟨hch, hfor, hack, -, hdupe, hroom⟩ := hok
    have hbroadcast : ch = .broadcast ∧ (a.mc || a.uc) = false := by
      cases ch with
      | neighbor => cases hk
      | timesynch => exact absurd rfl hch
      | broadcast =>
        unfold callbackFor at hk
        rw [if_neg (by decide)] at hk
        split at hk
        · cases hk
        · next h => exact ⟨rfl, by simpa using h⟩
    obtain ⟨rfl, hbroadcast⟩ := hbroadcast
    have hdata : ∀ sendAck, s.dataRecv A.toEcCallbacks .broadcastRecv sendAck pb.p.hdr a =
        .error e := by
      intro sendAck
      unfold dataRecv
      rw [if_neg (by simp [hdupe]), if_pos hroom]
      exact bind_eq_error.mpr (.inl herr)
    change s.broadcastRecv A.toEcCallbacks pb = _
    simp only [broadcastRecv, ha, hfor, hack, hbroadcast, if_true, Bool.false_eq_true, if_false]
    exact hdata _
  · cases hacc

/-! ### Overflow -/

/-- The sending queue after a function that enqueues at most `n` packets. -/
structure Fills (n : ℕ) (s : EcNode σ) (x : Except Fault (EcNode σ)) : Prop where
  size : ∀ s', x = .ok s' → s'.conn.sq.size ≤ s.conn.sq.size + n
  room : s.conn.sq.size + n ≤ sendingQueueLength → x ≠ .error .sendingQueueFull

namespace Fills

variable {m n : ℕ}

theorem mono {x : Except Fault (EcNode σ)} (h : Fills m s x) (hle : m ≤ n) : Fills n s x where
  size s' hs := (h.size s' hs).trans (by omega)
  room hr := h.room (by omega)

theorem of_ok (h : s'.conn.sq.size ≤ s.conn.sq.size + n) : Fills n s (.ok s') where
  size s₁ hs := by
    cases hs
    exact h
  room _ := by simp

theorem of_assertFailed : Fills n s (.error .assertFailed) where
  size s' hs := by cases hs
  room _ := by simp

theorem bind {x : Except Fault (EcNode σ)} {f : EcNode σ → Except Fault (EcNode σ)}
    (h : Fills m s x) (hf : ∀ s₁, x = .ok s₁ → Fills n s₁ (f s₁)) : Fills (m + n) s (x >>= f) where
  size s' hs := by
    obtain ⟨s₁, hx, hs⟩ := bind_eq_ok.mp hs
    have h₁ := h.size s₁ hx
    have h₂ := (hf s₁ hx).size s' hs
    omega
  room hr hfull := by
    rcases bind_eq_error.mp hfull with hx | ⟨s₁, hx, hfull⟩
    · exact h.room (by omega) hx
    · have h₁ := h.size s₁ hx
      exact (hf s₁ hx).room (by omega) hfull

/-- One allocation. -/
theorem of_tryConn {f : Ec → Except Fault Ec}
    (hsize : ∀ c, f s.conn = .ok c → c.sq.size = s.conn.sq.size + 1)
    (hfull : f s.conn = .error .sendingQueueFull → s.conn.sq.size = sendingQueueLength) :
    Fills 1 s (s.tryConn f) where
  size s' hs := by
    obtain ⟨c, hc, rfl⟩ := tryConn_eq_ok.mp hs
    exact (hsize c hc).le
  room hr h := by
    have := hfull (tryConn_eq_error.mp h)
    omega

theorem sendData {t : MsgType} {timer : Timer} {ns : Option NeighborSet} {a : SendArgs} :
    Fills 1 s (s.tryConn (Ec.sendData t timer ns a)) :=
  of_tryConn (fun _ => Ec.sendData_size) fun h =>
    Ec.putBroadcast_eq_sendingQueueFull.mp (Ec.sendData_eq_error.mp h)

theorem callTimesynch : Fills 0 s (s.callTimesynch cb) := by
  unfold EcNode.callTimesynch
  split
  · exact of_ok (Nat.le_refl _)
  · exact of_assertFailed

theorem timesynchAsLeader : Fills 1 s (s.timesynchAsLeader cb) := by
  unfold EcNode.timesynchAsLeader
  refine bind (m := 1) (n := 0) ?_ fun s₁ _ => callTimesynch
  have h : Fills 1 (s.onConn fun c =>
      { c with ts := ⟨c.ts.isOn, s.conn.ts.seqno + 1, (cb.addr s.app).u8₀, s.conn.ts.seqno⟩ }) _ :=
    of_tryConn (f := Ec.putTimesynch (initBroadcastPacket PacketFlags.timesynch 0 (cb.addr s.app)
      (cb.addr s.app) s.conn.ts.seqno)) (fun _ => Ec.putTimesynch_size) fun h =>
        Ec.putBroadcast_eq_sendingQueueFull.mp (Ec.putTimesynch_eq_error.mp h)
  exact ⟨h.size, h.room⟩

theorem ecCall (call : EcCall) : Fills (Effect.call call).packets s (call.run cb s) := by
  cases call with
  | reliableBroadcastNs ns a =>
    cases ns with
    | none =>
      constructor
      · intro s' hs
        cases hs
      · intro _ hfull
        cases hfull
    | some ns =>
      change Fills 1 s (s.tryConn (Ec.ecReliableBroadcastNs (some ns) a))
      by_cases hlen : ns.addrs.length > 0
      · have heq : s.tryConn (Ec.ecReliableBroadcastNs (some ns) a) =
            s.tryConn (Ec.sendData .neighborData .neighborData (some ns) a) := by
          simp only [tryConn, Ec.ecReliableBroadcastNs, if_pos hlen]
        rw [heq]
        exact sendData
      · have heq : s.tryConn (Ec.ecReliableBroadcastNs (some ns) a) = .ok s := by
          simp only [tryConn, Ec.ecReliableBroadcastNs, if_neg hlen]
        rw [heq]
        exact of_ok (Nat.le_succ _)
  | broadcast ns a => exact sendData
  | reliableMulticast receivers a => exact sendData
  | reliableUnicast destination a => exact sendData
  | mesh destination seqno data =>
    exact of_tryConn (fun _ => Ec.ecMesh_size) fun h =>
      Ec.putUnicast_eq_sendingQueueFull.mp (Ec.ecMesh_eq_error.mp h)
  | timesynchOn => exact of_ok (Nat.le_refl _)
  | timesynchOff => exact of_ok (Nat.le_refl _)
  | timesynchNetwork =>
    change Fills 1 s (s.ecTimesynchNetwork cb)
    unfold ecTimesynchNetwork
    split
    · split
      · exact timesynchAsLeader
      · exact of_ok (Nat.le_succ _)
    · exact of_assertFailed

/-- **Application code for which there is room does not overflow the sending queue.** -/
theorem runEffects : ∀ (l : List Effect) (s : EcNode σ), Fills (packets l) s (runEffects cb l s) := by
  intro l
  induction l with
  | nil => exact fun s => of_ok (Nat.le_refl _)
  | cons e rest ih =>
    intro s
    rw [packets_cons]
    cases e with
    | assert b =>
      rw [EcNode.runEffects]
      split
      · exact (ih s).mono (Nat.le_add_left _ _)
      · exact of_assertFailed
    | call call =>
      rw [EcNode.runEffects]
      exact (ecCall call).bind fun s₁ _ => ih s₁

end Fills

/-! ### Receiving data -/

/-- The acknowledgement overflows the sending queue. -/
theorem acknowledge_eq_sendingQueueFull {t : MsgType} {timer : Timer} {hdr : Header} :
    s.acknowledge cb t timer hdr = .error .sendingQueueFull ↔
      s.conn.sq.find (unicastPacketCmp (ackHeader (cb.addr s.app) hdr) hdr.sender) = none ∧
      s.conn.sq.size = sendingQueueLength := by
  unfold acknowledge
  split
  · next hfind => simp [hfind]
  · next hfind =>
    simp only [hfind, true_and]
    rw [tryConn_eq_error, bind_eq_error]
    constructor
    · rintro (h | ⟨c, -, h⟩)
      · exact Ec.putUnicast_eq_sendingQueueFull.mp h
      · cases h
    · exact fun h => .inl (Ec.putUnicast_eq_sendingQueueFull.mpr h)

theorem Fills.acknowledge {t : MsgType} {timer : Timer} {hdr : Header} :
    Fills 1 s (s.acknowledge cb t timer hdr) where
  size s' hs := by
    unfold EcNode.acknowledge at hs
    split at hs
    · cases hs
      omega
    · obtain ⟨c, hc, rfl⟩ := tryConn_eq_ok.mp hs
      rw [bind_eq_ok] at hc
      obtain ⟨c₁, hput, hset⟩ := hc
      rw [pure_eq_ok] at hset
      obtain ⟨i, hsq, -⟩ := Ec.putUnicast_eq_ok hput
      rw [← hset]
      exact hsq.size.le
  room hr hfull := by
    have := (acknowledge_eq_sendingQueueFull.mp hfull).2
    omega

/-- Where the callback sends two packets at most, the branch for data packets overflows only
at a duplicate. -/
theorem dataRecv_eq_sendingQueueFull {k : Callback} {sendAck : EcNode σ → Except Fault (EcNode σ)}
    (hdr : Header) (a : Arrival) (hpackets : ∀ r, packets (cb.recv k r s.app).2 ≤ 2)
    (hack : ∀ s, Fills 1 s (sendAck s)) :
    s.dataRecv cb k sendAck hdr a = .error .sendingQueueFull ↔
      s.conn.isDupe hdr.id = true ∧ sendAck s = .error .sendingQueueFull := by
  unfold dataRecv
  split
  · next hdupe => simp [hdupe]
  · next hdupe =>
    simp only [hdupe, Bool.false_eq_true, false_and, iff_false]
    split
    · next hroom =>
      have hroom : s.conn.sq.size + 3 ≤ sendingQueueLength := of_decide_eq_true hroom
      have hdeliver : Fills 2 s (s.deliver cb k (recvArgs hdr a)) := by
        have hrun : Fills _ _ (s.deliver cb k (recvArgs hdr a)) := Fills.runEffects _ _
        have h := hrun.mono (hpackets (recvArgs hdr a))
        exact ⟨h.size, h.room⟩
      refine (hdeliver.bind (n := 1) fun s₁ _ => ?_).room hroom
      have h := hack (s₁.onConn (Ec.storePacketForDupeChecks hdr.id))
      have hsq : (s₁.onConn (Ec.storePacketForDupeChecks hdr.id)).conn.sq = s₁.conn.sq :=
        Ec.sq_store hdr.id
      exact ⟨fun s' hs => hsq ▸ h.size s' hs, fun hr => h.room (hsq ▸ hr)⟩
    · simp

end EcNode

end EmergencyNet
