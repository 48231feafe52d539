import EmergencyNet.Conn.Upcall

/-!
# What application code and receptions do to the packets

Application code and the reception of a frame enqueue, free and acknowledge packets; they send
no frame, and give nothing to the mesh.  What is enqueued is determined by the calls the
application makes.

## Main definitions

* `CodeMove`, `CodeMoves` — the elementary changes, and sequences of them.
* `EcCall.Meets` — what a call may enqueue meets a condition.

## Main results

* `EcNode.runEffects_codeMoves`, `EcNode.Received.codeMoves` — what application code and
  receptions do.
* `EcNode.step_codeMoves` — **what an event does that handles no timer.**
-/

namespace EmergencyNet

variable {σ ε : Type*} {c c' : Ec}

/-- What may be enqueued: `E t ns` for list `t` and the set of receivers `ns`. -/
abbrev MayEnqueue := MsgType → Option NeighborSet → Prop

/-- The elementary changes application code and receptions make to the packets; `E` holds of what
is enqueued. -/
inductive CodeMove (E : MayEnqueue) (c : Ec) : Ec → Prop
  /-- The packets are left alone. -/
  | same {c' : Ec} (hsq : c'.sq = c.sq) (htrace : c'.trace = c.trace) : CodeMove E c c'
  /-- A pair is stored, or a packet delivered. -/
  | recorded {c' : Ec} {x : Action} (hx : (∃ id, x = .store id) ∨ ∃ k r, x = .deliver k r)
      (hsq : c'.sq = c.sq) (htrace : c'.trace = x :: c.trace) : CodeMove E c c'
  /-- A packet is enqueued. -/
  | enqueued {c' : Ec} {t : MsgType} {i : ℕ} {ns : Option NeighborSet} {a : SendArgs} {hdr : Header}
      {fields : List UInt8} (hE : E t ns)
      (hsq : c.sq.Enqueued t i (PacketBuffer.written hdr fields a.data ns (c.sq.item i)) c'.sq)
      (htrace : c'.trace = .enqueue t i ns a :: c.trace) : CodeMove E c c'
  /-- A packet is freed. -/
  | freed {c' : Ec} {i : ℕ} (hsq : c'.sq = c.sq.free i) (htrace : c'.trace = .free i :: c.trace) :
      CodeMove E c c'
  /-- An acknowledgement is received. -/
  | acked (timer : Timer) (hdr : Header) : CodeMove E c (EcNode.ackRecv timer hdr c)

/-- A sequence of such changes. -/
abbrev CodeMoves (E : MayEnqueue) : Ec → Ec → Prop := Relation.ReflTransGen (CodeMove E)

/-- `E` holds of what the call enqueues if it hands over a data packet. -/
def EcCall.Meets (E : MayEnqueue) : EcCall → Prop
  | .reliableBroadcastNs ns _ => ∀ s, ns = some s → s.addrs ≠ [] → E .neighborData (some s)
  | .broadcast ns _ => E .broadcastData ns
  | .reliableMulticast receivers _ => E .multicastUnicastData (some receivers)
  | .reliableUnicast destination _ => E .multicastUnicastData (some (.single destination))
  | .mesh _ _ _ | .timesynchOn | .timesynchOff | .timesynchNetwork => True

section Calls

variable {E : MayEnqueue} {t : MsgType} {ns : Option NeighborSet} {a : SendArgs}

namespace Ec

theorem codeMoves_of_same (h : c.Same c') : CodeMoves E c c' := .single (.same h.sq h.trace)

theorem storePacketForDupeChecks_codeMoves (id : PacketId) :
    CodeMoves E c (c.storePacketForDupeChecks id) := by
  unfold storePacketForDupeChecks
  split
  · exact .refl
  · exact .single (.recorded (.inl ⟨id, rfl⟩) rfl rfl)

theorem sendData_codeMoves {timer : Timer} (hE : E t ns) (h : c.sendData t timer ns a = .ok c') :
    CodeMoves E c c' := by
  unfold sendData at h
  rw [bind_eq_ok] at h
  obtain ⟨c₁, hput, h⟩ := h
  rw [pure_eq_ok] at h
  obtain ⟨i, hsq, -, htrace, -⟩ := putBroadcast_eq_ok hput
  have henq : CodeMove E c c₁ := .enqueued hE hsq htrace
  rw [← h]
  exact ((storePacketForDupeChecks_codeMoves _).head henq).trans (codeMoves_of_same (same_ite timer))

theorem ecMesh_codeMoves {dest : Rimeaddr} {seqno : UInt8} {data : List UInt8} (hE : E .meshData none)
    (h : c.ecMesh dest seqno data = .ok c') : CodeMoves E c c' := by
  unfold ecMesh at h
  rw [bind_eq_ok] at h
  obtain ⟨c₁, hput, h⟩ := h
  rw [pure_eq_ok] at h
  obtain ⟨i, hsq, -, htrace⟩ := putUnicast_eq_ok hput
  have henq : CodeMove E c c₁ := .enqueued hE hsq htrace
  rw [← h]
  exact .head henq (codeMoves_of_same (same_ite _))

theorem putTimesynch_codeMoves {hdr : Header} (hE : E .timesynchData none)
    (h : c.putTimesynch hdr = .ok c') : CodeMoves E c c' := by
  unfold putTimesynch at h
  rw [bind_eq_ok] at h
  obtain ⟨c₁, hput, h⟩ := h
  rw [pure_eq_ok] at h
  obtain ⟨i, hsq, -, htrace, -⟩ := putBroadcast_eq_ok hput
  have henq : CodeMove E c c₁ := .enqueued hE hsq htrace
  rw [← h]
  exact .head henq (codeMoves_of_same ⟨rfl, rfl, rfl⟩)

end Ec

namespace EcNode

variable {A : Application σ ε} {cb : EcCallbacks σ} {s s' s₁ : EcNode σ}

theorem timesynchAsLeader_codeMoves (hE : E .timesynchData none)
    (h : s.timesynchAsLeader cb = .ok s') : CodeMoves E s.conn s'.conn := by
  unfold timesynchAsLeader at h
  rw [bind_eq_ok] at h
  obtain ⟨s₁, hput, h⟩ := h
  obtain ⟨c₁, hrun, rfl⟩ := tryConn_eq_ok.mp hput
  rw [callTimesynch_conn h]
  have hlevel : CodeMove E s.conn (s.onConn fun c =>
      { c with ts := ⟨c.ts.isOn, s.conn.ts.seqno + 1, (cb.addr s.app).u8₀, s.conn.ts.seqno⟩ }).conn :=
    .same rfl rfl
  exact .head hlevel (Ec.putTimesynch_codeMoves hE hrun)

theorem timesynchRecv_codeMoves {pb : Packetbuf} (hE : E .timesynchData none)
    (h : s.timesynchRecv cb pb = .ok s') : CodeMoves E s.conn s'.conn := by
  obtain rfl | hcall | hlead | hforward := timesynchRecv_cases h
  · exact .refl
  · rw [callTimesynch_conn hcall]
  · rw [bind_eq_ok] at hlead
    obtain ⟨s₁, hlead, hcall⟩ := hlead
    rw [callTimesynch_conn hcall]
    exact timesynchAsLeader_codeMoves hE hlead
  · rw [bind_eq_ok] at hforward
    obtain ⟨s₁, hforward, hcall⟩ := hforward
    obtain ⟨c₁, hrun, rfl⟩ := tryConn_eq_ok.mp hforward
    rw [callTimesynch_conn hcall]
    have hfollow : CodeMove E s.conn (s.follow pb.p.hdr).conn := .same rfl rfl
    exact .head hfollow (Ec.putTimesynch_codeMoves hE hrun)

/-- What a call does; packets that are no data are enqueued for nobody. -/
theorem ecCall_codeMoves {call : EcCall} (hcontrol : ∀ t, ¬ t.IsData → E t none)
    (hcall : call.Meets E) (h : call.run cb s = .ok s') : CodeMoves E s.conn s'.conn := by
  cases call with
  | reliableBroadcastNs ns a =>
    obtain ⟨c₁, hrun, rfl⟩ := tryConn_eq_ok.mp h
    unfold Ec.ecReliableBroadcastNs at hrun
    split at hrun
    · -- a `NULL` set is a fault, an empty one enqueues nothing
      cases hrun
    · next ns =>
      split at hrun
      · next hlen => exact Ec.sendData_codeMoves (hcall ns rfl (List.length_pos_iff.mp hlen)) hrun
      · cases hrun
        exact .refl
  | broadcast ns a =>
    obtain ⟨c₁, hrun, rfl⟩ := tryConn_eq_ok.mp h
    exact Ec.sendData_codeMoves hcall hrun
  | reliableMulticast receivers a =>
    obtain ⟨c₁, hrun, rfl⟩ := tryConn_eq_ok.mp h
    exact Ec.sendData_codeMoves hcall hrun
  | reliableUnicast destination a =>
    obtain ⟨c₁, hrun, rfl⟩ := tryConn_eq_ok.mp h
    exact Ec.sendData_codeMoves hcall hrun
  | mesh destination seqno data =>
    obtain ⟨c₁, hrun, rfl⟩ := tryConn_eq_ok.mp h
    exact Ec.ecMesh_codeMoves (hcontrol _ (by simp [MsgType.IsData])) hrun
  | timesynchOn =>
    cases h
    exact .single (.same rfl rfl)
  | timesynchOff =>
    cases h
    exact .single (.same rfl rfl)
  | timesynchNetwork =>
    change s.ecTimesynchNetwork cb = .ok s' at h
    unfold ecTimesynchNetwork at h
    split at h
    · split at h
      · exact timesynchAsLeader_codeMoves (hcontrol _ (by simp [MsgType.IsData])) h
      · cases h
        exact .refl
    · cases h

/-- **What application code does.** -/
theorem runEffects_codeMoves (hcontrol : ∀ t, ¬ t.IsData → E t none) : ∀ (l : List Effect)
    (s : EcNode σ), (∀ call, Effect.call call ∈ l → call.Meets E) → runEffects cb l s = .ok s' →
    CodeMoves E s.conn s'.conn := by
  intro l
  induction l with
  | nil =>
    intro s _ h
    cases h
    exact .refl
  | cons e rest ih =>
    intro s hcalls h
    have hrest : ∀ call, Effect.call call ∈ rest → call.Meets E :=
      fun call hmem => hcalls call (List.mem_cons_of_mem e hmem)
    cases e with
    | assert b =>
      rw [runEffects] at h
      split at h
      · exact ih s hrest h
      · cases h
    | call call =>
      rw [runEffects, bind_eq_ok] at h
      obtain ⟨s₁, hrun, h⟩ := h
      exact (ecCall_codeMoves hcontrol (hcalls call List.mem_cons_self) hrun).trans (ih s₁ hrest h)

theorem acknowledge_codeMoves {timer : Timer} {hdr : Header} (hE : E t none)
    (h : s.acknowledge cb t timer hdr = .ok s') : CodeMoves E s.conn s'.conn := by
  unfold acknowledge at h
  split at h
  · cases h
    exact .refl
  · obtain ⟨c₁, hput, rfl⟩ := tryConn_eq_ok.mp h
    rw [bind_eq_ok] at hput
    obtain ⟨c₂, hput, hset⟩ := hput
    rw [pure_eq_ok] at hset
    obtain ⟨i, hsq, -, htrace⟩ := Ec.putUnicast_eq_ok hput
    have henq : CodeMove E s.conn c₂ := .enqueued hE hsq htrace
    rw [← hset]
    exact .head henq (Ec.codeMoves_of_same (Ec.same_ctimerSet timer))

theorem sendAck_codeMoves {ch : Channel} {hdr : Header} {a : Arrival}
    (hcontrol : ∀ t, ¬ t.IsData → E t none) (h : s.sendAck cb ch hdr a = .ok s') :
    CodeMoves E s.conn s'.conn := by
  unfold sendAck at h
  split at h
  · exact acknowledge_codeMoves (hcontrol _ (by simp [MsgType.IsData])) h
  · split at h
    · exact acknowledge_codeMoves (hcontrol _ (by simp [MsgType.IsData])) h
    · cases h
      exact .refl

/-- **What the reception of a frame does.** -/
theorem Received.codeMoves {ch : Channel} {pb : Packetbuf} (hcontrol : ∀ t, ¬ t.IsData → E t none)
    (hcalls : ∀ r ∈ s.upcall A (.receive ch pb), ∀ call, Effect.call call ∈ r.2 → call.Meets E)
    (h : Received A s s' ch pb) : CodeMoves E s.conn s'.conn := by
  cases h with
  | ignored _ h =>
    rw [h]
  | acked _ _ _ _ _ _ h =>
    rw [h]
    exact .single (.acked _ _)
  | duplicate _ _ _ _ _ _ _ h => exact sendAck_codeMoves hcontrol h
  | @delivered a s₁ ha hacc hdeliver h =>
    have hlog : CodeMove E s.conn
        (s.conn.log (.deliver (callbackFor ch a) (recvArgs pb.p.hdr a))) :=
      .recorded (.inr ⟨_, _, rfl⟩) rfl rfl
    have hrun := runEffects_codeMoves hcontrol _ ⟨_, _⟩ (hcalls _ (upcall_of_accepts ha hacc)) hdeliver
    have hstore : CodeMoves E s₁.conn (s₁.conn.storePacketForDupeChecks pb.p.hdr.id) :=
      Ec.storePacketForDupeChecks_codeMoves _
    exact ((Relation.ReflTransGen.head hlog hrun).trans hstore).trans (sendAck_codeMoves hcontrol h)
  | synch _ _ h => exact timesynchRecv_codeMoves (hcontrol _ (by simp [MsgType.IsData])) h

/-- **What an event does that handles no timer.** -/
theorem step_codeMoves {ev : NodeEvent ε} (hev : ∀ t radio, ev ≠ .timer t radio)
    (hcontrol : ∀ t, ¬ t.IsData → E t none)
    (hcalls : ∀ r ∈ s.upcall A ev, ∀ call, Effect.call call ∈ r.2 → call.Meets E)
    (h : s.step A ev = .ok s') : CodeMoves E s.conn s'.conn := by
  cases ev with
  | process e => exact runEffects_codeMoves hcontrol _ ⟨s.conn, (A.process e s.app).1⟩ (hcalls _ rfl) h
  | receive ch pb => exact (received_of_step h).codeMoves hcontrol hcalls
  | expire t =>
    rw [← Except.ok.inj h]
    exact .single (.same rfl rfl)
  | timer t radio => exact absurd rfl (hev t radio)
  | meshSent =>
    obtain ⟨c₁, hsent, rfl⟩ := tryConn_eq_ok.mp h
    unfold Ec.meshdataSent at hsent
    split at hsent
    · cases hsent
    · next i _ =>
      cases hsent
      exact .single (.freed rfl rfl)
  | meshTimeout =>
    rw [← Except.ok.inj h]
    exact .single (.same rfl rfl)

end EcNode

end Calls

end EmergencyNet
