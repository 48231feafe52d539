import EmergencyNet.Conn.Floods

/-!
# What a node has heard

A broadcast that is received while there is room for it is delivered, or was received or handed
over before: afterwards its pair has been stored.  No pair is stored but that of a packet that was
handed over or delivered, and the packets that are queued and sent are ones that the same
connection was given.

## Main definitions

* `Handed` — what was handed over in a history.
* `Ec.Honest` — the packets and the stored pairs go back to the connection's own history.

## Main results

* `EcNode.honest_of_step` — an event keeps a connection honest.
* `EcNode.stored_of_receive` — **a broadcast that is received with room for it has been stored.**
* `EcNode.deliver_of_step` — only a frame is delivered.
* `EcNode.enqueued_of_broadcast` — a call of `ec_broadcast` enqueues its packet.
-/

namespace EmergencyNet

variable {σ ε : Type*} {c c' : Ec}

/-- What was handed over in the history `l`. -/
def Handed (l : List Action) : MayHandOver := fun t ns a => ∃ i, .enqueue t i ns a ∈ l

/-- The packets of a connection were handed over to it, and a pair that was stored is that of a
packet that was handed over or delivered. -/
structure Ec.Honest (c : Ec) : Prop where
  accounted : c.Accounted (Handed c.trace)
  known : ∀ id, .store id ∈ c.trace → Known c.trace id

section Moves

variable {E E' : MayHandOver} {K : Header → Prop} {id : PacketId} {l l' : List Action}

theorem Handed.mono (hl : l ⊆ l') {t : MsgType} {ns : Option NeighborSet} {a : SendArgs}
    (h : Handed l t ns a) : Handed l' t ns a := by
  obtain ⟨i, hi⟩ := h
  exact ⟨i, hl hi⟩

theorem Known.mono (hl : l ⊆ l') (h : Known l id) : Known l' id := by
  rcases h with ⟨t, i, ns, a, hmem, h⟩ | ⟨k, r, hmem, h⟩
  · exact .inl ⟨t, i, ns, a, hl hmem, h⟩
  · exact .inr ⟨k, r, hl hmem, h⟩

/-- What is enqueued in a move is in the history after it. -/
theorem PacketMove.imp (h : PacketMove E K c c')
    (hE : ∀ t i ns a, .enqueue t i ns a ∈ c'.trace → E t ns a → E' t ns a) :
    PacketMove E' K c c' := by
  cases h with
  | same hsq htrace => exact .same hsq htrace
  | stored hknown hsq htrace => exact .stored hknown hsq htrace
  | delivered hsq htrace => exact .delivered hsq htrace
  | @data _ t i ns a ht hdata hlen hsq htrace =>
    exact .data ht (hE t i ns a (htrace ▸ List.mem_cons_self) hdata) hlen hsq htrace
  | control ht hack hsq htrace => exact .control ht hack hsq htrace
  | acked timer hK => exact .acked timer hK
  | confirms ht hi hsq htrace => exact .confirms ht hi hsq htrace
  | floods hfirst hsq htrace => exact .floods hfirst hsq htrace
  | synchs hi hsq htrace => exact .synchs hi hsq htrace
  | neighborData h => exact .neighborData h
  | targeted hi hf hsq htrace => exact .targeted hi hf hsq htrace
  | meshed hi hsq htrace => exact .meshed hi hsq htrace
  | dropped hi hsq htrace => exact .dropped hi hsq htrace

/-- What a move adds to the history stores no pair but a known one, and hands over nothing but what
may be handed over. -/
theorem PacketMove.history (h : PacketMove E K c c') : ∃ l, c'.trace = l ++ c.trace ∧
    (∀ id, .store id ∈ l → Known c.trace id) ∧
    ∀ t i ns a, .enqueue t i ns a ∈ l → t.IsData → E t ns a := by
  have hlist : ∀ {l : List Action}, c'.trace = l ++ c.trace → (∀ id, .store id ∉ l) →
      (∀ t i ns a, .enqueue t i ns a ∈ l → t.IsData → E t ns a) →
      ∃ l, c'.trace = l ++ c.trace ∧ (∀ id, .store id ∈ l → Known c.trace id) ∧
        ∀ t i ns a, .enqueue t i ns a ∈ l → t.IsData → E t ns a := by
    intro l hl hstore henqueue
    exact ⟨l, hl, fun id hid => absurd hid (hstore id), henqueue⟩
  have hnone : c'.trace = c.trace →
      ∃ l, c'.trace = l ++ c.trace ∧ (∀ id, .store id ∈ l → Known c.trace id) ∧
        ∀ t i ns a, .enqueue t i ns a ∈ l → t.IsData → E t ns a := fun htrace =>
    hlist (l := []) htrace (fun _ => List.not_mem_nil) fun _ _ _ _ h => absurd h List.not_mem_nil
  cases h with
  | same _ htrace => exact hnone htrace
  | @stored _ id hknown _ htrace =>
    refine ⟨[.store id], htrace, fun id' hid => ?_, fun t i ns a h => by simp at h⟩
    cases List.mem_singleton.mp hid
    exact hknown
  | delivered _ htrace | targeted _ _ _ htrace | meshed _ _ htrace | dropped _ _ htrace =>
    exact hlist (l := [_]) htrace (by simp) (by simp)
  | confirms _ _ _ htrace | floods _ _ htrace | synchs _ _ htrace =>
    exact hlist (l := [_, _]) htrace (by simp) (by simp)
  | @data _ t i ns a _ hE _ _ htrace =>
    refine hlist (l := [_]) htrace (by simp) fun t' i' ns' a' hmem _ => ?_
    cases List.mem_singleton.mp hmem
    exact hE
  | control ht _ _ htrace =>
    refine hlist (l := [_]) htrace (by simp) fun t' i' ns' a' hmem hdata => ?_
    cases List.mem_singleton.mp hmem
    exact absurd hdata ht
  | @acked timer hdr _ =>
    obtain ⟨-, heq⟩ | ⟨i, -, -, -, ⟨-, htrace⟩ | ⟨-, htrace⟩⟩ := EcNode.ackRecv_cases timer hdr c
    · exact hnone (congrArg Ec.trace heq)
    · exact hlist (l := [_]) htrace (by simp) (by simp)
    · exact hnone htrace
  | neighborData h =>
    obtain ⟨c₁, hdrops, -, hsent⟩ := Ec.sendNeighborData_cases h
    obtain ⟨l, hl, hfree⟩ := hdrops.trace
    have hstore : ∀ id, .store id ∉ l := fun id hid => by
      obtain ⟨i, hi⟩ := hfree _ hid
      cases hi
    have henqueue : ∀ t i ns a, .enqueue t i ns a ∈ l → t.IsData → E t ns a :=
      fun t i ns a hmem => by
        obtain ⟨j, hj⟩ := hfree _ hmem
        cases hj
    cases hsent with
    | emptied => exact hlist hl hstore henqueue
    | refused => exact hlist hl hstore henqueue
    | @sent i j f =>
      refine hlist (l := .frame .neighbor i f :: l) ?_ (fun id hid => ?_) fun t k ns a hmem => ?_
      · change .frame .neighbor i f :: c₁.trace = _
        rw [hl, List.cons_append]
      · exact hstore id ((List.mem_cons.mp hid).resolve_left fun heq => by cases heq)
      · exact henqueue t k ns a ((List.mem_cons.mp hmem).resolve_left fun heq => by cases heq)

/-- A move keeps a connection honest. -/
theorem PacketMove.honest (h : PacketMove (fun _ _ _ => True) K c c') (hc : c.Honest) :
    c'.Honest := by
  obtain ⟨l, hl, hstores, -⟩ := h.history
  have hsub : c.trace ⊆ c'.trace := fun x hx => hl ▸ List.mem_append_right l hx
  have hmove : PacketMove (Handed c'.trace) K c c' := h.imp fun t i ns a hmem _ => ⟨i, hmem⟩
  constructor
  · exact hmove.accounted (hc.accounted.mono fun _ _ _ => Handed.mono hsub)
  · intro id hid
    rw [hl] at hid
    rcases List.mem_append.mp hid with hnew | hold
    · exact (hstores id hnew).mono hsub
    · exact (hc.known id hold).mono hsub

theorem PacketMoves.honest (h : PacketMoves (fun _ _ _ => True) K c c') (hc : c.Honest) :
    c'.Honest := by
  induction h with
  | refl => exact hc
  | tail _ hmove ih => exact hmove.honest ih

theorem Ec.Honest.opened : Ec.Honest .opened where
  accounted := .opened
  known _ hid := absurd hid List.not_mem_nil

end Moves

namespace EcNode

variable {A : Application σ ε} {s s' : EcNode σ} {ev : NodeEvent ε}

/-- **An event keeps a connection honest.** -/
theorem honest_of_step (h : s.step A ev = .ok s') (hc : s.conn.Honest) : s'.conn.Honest := by
  have hmoves : PacketMoves (fun _ _ _ => True) (fun _ => True) s.conn s'.conn :=
    step_packetMoves (fun r _ call _ => handsOver_any call) (fun _ _ _ _ => trivial) h
  exact hmoves.honest hc

/-- What was done stays done. -/
theorem trace_of_step (h : s.step A ev = .ok s') : ∃ l, s'.conn.trace = l ++ s.conn.trace :=
  (step_shape (ev.fits_any A s s') h).trace

/-! ### What a received broadcast leaves behind -/

/-- A pair in the duplicate queue was stored. -/
theorem store_of_isDupe {id : PacketId} (hw : DupeWindow c) (h : c.isDupe id = true) :
    .store id ∈ c.trace := by
  have hmem : id ∈ stores c.trace := by
    rw [Ec.isDupe_iff, hw.dq] at h
    exact List.mem_of_mem_take h
  obtain ⟨x, hx, hid⟩ := List.mem_filterMap.mp hmem
  cases x with
  | store id' =>
    cases hid
    exact hx
  | _ => cases hid

/-- The pair of a packet that was delivered has been stored. -/
theorem store_of_deliver {cb : EcCallbacks σ} {k : Callback} {r : RecvArgs} {s₁ : EcNode σ}
    (hw : DupeWindow s.conn) (h : s.deliver cb k r = .ok s₁) :
    .store r.id ∈ (s₁.conn.storePacketForDupeChecks r.id).trace := by
  have hmoves : Moves .any (s.conn.log (.deliver k r)) s₁.conn :=
    runEffects_moves _ ⟨_, _⟩ (fun _ _ _ _ => trivial) h
  have hwlog : DupeWindow (s.conn.log (.deliver k r)) := ⟨hw.dq, hw.windowed⟩
  have hw₁ : DupeWindow s₁.conn := Moves.dupeWindow hmoves hwlog
  cases hdupe : s₁.conn.isDupe r.id with
  | true =>
    rw [Ec.store_of_isDupe hdupe]
    exact store_of_isDupe hw₁ hdupe
  | false =>
    rw [Ec.store_of_not_isDupe hdupe]
    exact List.mem_cons_self

/-- **A broadcast that is received with room for it has been stored.** -/
theorem stored_of_receive {f : Frame} {stale : List UInt8} (hw : DupeWindow s.conn)
    (hflags : f.hdr.flags = PacketFlags.broadcast) (hroom : s.conn.sq.hasRoomForPackets 3 = true)
    (h : s.step A (.receive .broadcast (f.received stale)) = .ok s') :
    .store f.hdr.id ∈ s'.conn.trace := by
  have htype : f.hdr.packetType = PacketFlags.broadcast := by
    rw [Header.packetType, hflags]
    decide
  have hdata : f.hdr.isPacketFlagSet PacketFlags.ack = false := by
    rw [Header.isPacketFlagSet, hflags]
    decide
  have ha : receivePacket (A.addr s.app) (f.received stale) =
      some ⟨true, false, false, f.body ++ stale, UInt8.ofNat f.body.length⟩ :=
    receivePacket_broadcast htype stale
  obtain ⟨l, hl⟩ := trace_of_step h
  have hold : s.conn.isDupe f.hdr.id = true → .store f.hdr.id ∈ s'.conn.trace := fun hdupe =>
    hl ▸ List.mem_append_right l (store_of_isDupe hw hdupe)
  cases received_of_step h with
  | ignored hcode =>
    apply hold
    by_contra hnew
    have hacc : s.Accepts A.toEcCallbacks .broadcast f.hdr
        ⟨true, false, false, f.body ++ stale, UInt8.ofNat f.body.length⟩ :=
      ⟨by decide, rfl, hdata, rfl, by simpa using hnew, hroom⟩
    have hsome := upcall_of_accepts ha hacc
    rw [hcode] at hsome
    cases hsome
  | acked _ _ _ _ hack => exact absurd (hack.symm.trans hdata) (by simp)
  | duplicate _ _ _ _ _ _ hdupe => exact hold hdupe
  | @delivered a s₁ _ _ hdeliver hack =>
    have hstore := store_of_deliver hw hdeliver
    have hmoves : Moves .any (s₁.conn.storePacketForDupeChecks f.hdr.id) s'.conn :=
      sendAck_moves (s := s₁.onConn (Ec.storePacketForDupeChecks f.hdr.id)) trivial
        (Ec.isDupe_store _ _) hack
    exact Moves.mem_trace hmoves hstore
  | synch _ hch => cases hch

/-- **Only a frame is delivered**, and to the callback it is for. -/
theorem deliver_of_step {k : Callback} {r : RecvArgs} (h : s.step A ev = .ok s')
    (hd : .deliver k r ∈ s'.conn.trace) : .deliver k r ∈ s.conn.trace ∨
      ∃ ch pb, ev = .receive ch pb ∧ s.delivery A.toEcCallbacks ch pb = some (k, r) := by
  have hmoved : Moves .any s.conn s'.conn → .deliver k r ∈ s.conn.trace := fun hmoves => by
    obtain ⟨l, hl, hno⟩ := Moves.trace hmoves
    rw [hl] at hd
    exact (List.mem_append.mp hd).resolve_left (hno k r)
  by_cases hev : ev.isReception = false
  · exact .inl (hmoved (step_moves hev (fun _ _ _ _ _ _ => trivial) (fun _ _ _ _ _ => trivial) h))
  · cases ev with
    | receive ch pb =>
      cases received_of_step h with
      | ignored _ heq =>
        rw [heq] at hd
        exact .inl hd
      | acked _ _ _ _ _ _ heq =>
        rw [heq] at hd
        obtain ⟨-, hsame⟩ | ⟨i, -, -, -, ⟨-, htrace⟩ | ⟨-, htrace⟩⟩ :=
          ackRecv_cases (ackedTimer ch) pb.p.hdr s.conn
        · exact .inl (hsame ▸ hd)
        · change _ ∈ (ackRecv (ackedTimer ch) pb.p.hdr s.conn).trace at hd
          rw [htrace] at hd
          exact .inl ((List.mem_cons.mp hd).resolve_left fun heq => by cases heq)
        · exact .inl (htrace ▸ hd)
      | duplicate _ _ _ _ _ _ hdupe hack => exact .inl (hmoved (sendAck_moves trivial hdupe hack))
      | @delivered a s₁ ha hacc hdeliver hack =>
        have hrun : Moves .any (s.conn.log (.deliver (callbackFor ch a) (recvArgs pb.p.hdr a)))
            s₁.conn := runEffects_moves _ ⟨_, _⟩ (fun _ _ _ _ => trivial) hdeliver
        have hsend : Moves .any (s₁.conn.storePacketForDupeChecks pb.p.hdr.id) s'.conn :=
          sendAck_moves (s := s₁.onConn (Ec.storePacketForDupeChecks pb.p.hdr.id)) trivial
            (Ec.isDupe_store _ _) hack
        obtain ⟨l₂, hl₂, hno₂⟩ := Moves.trace hsend
        obtain ⟨l₁, hl₁, hno₁⟩ := Moves.trace hrun
        rw [hl₂] at hd
        have hd := (List.mem_append.mp hd).resolve_left (hno₂ k r)
        have hd : .deliver k r ∈ s₁.conn.trace := by
          unfold Ec.storePacketForDupeChecks at hd
          split at hd
          · exact hd
          · exact (List.mem_cons.mp hd).resolve_left fun heq => by cases heq
        rw [hl₁] at hd
        rcases List.mem_cons.mp ((List.mem_append.mp hd).resolve_left (hno₁ k r)) with heq | hold
        · cases heq
          exact .inr ⟨ch, pb, rfl, delivery_of_accepts ha hacc⟩
        · exact .inl hold
      | synch _ _ hsynch => exact .inl (hmoved (timesynchRecv_moves hsynch))
    | _ => exact absurd rfl hev

/-- **A call of `ec_broadcast` enqueues its packet.** -/
theorem enqueued_of_broadcast {cb : EcCallbacks σ} {ns : Option NeighborSet} {a : SendArgs} :
    ∀ (l : List Effect) (s : EcNode σ), runEffects cb l s = .ok s' →
      Effect.call (.broadcast ns a) ∈ l → ∃ i, .enqueue .broadcastData i ns a ∈ s'.conn.trace := by
  intro l
  induction l with
  | nil =>
    intro s _ hmem
    cases hmem
  | cons e rest ih =>
    intro s h hmem
    cases e with
    | assert b =>
      rw [runEffects] at h
      split at h
      · exact ih s h ((List.mem_cons.mp hmem).resolve_left fun heq => by cases heq)
      · cases h
    | call call =>
      rw [runEffects, bind_eq_ok] at h
      obtain ⟨s₁, hrun, h⟩ := h
      rcases List.mem_cons.mp hmem with heq | hmem
      · cases heq
        obtain ⟨c₁, hsend, rfl⟩ := tryConn_eq_ok.mp hrun
        have hrest : Moves .any c₁ s'.conn := runEffects_moves _ ⟨_, _⟩ (fun _ _ _ _ => trivial) h
        unfold Ec.ecBroadcast Ec.sendData at hsend
        rw [bind_eq_ok] at hsend
        obtain ⟨c₂, hput, hsend⟩ := hsend
        obtain ⟨i, -, -, htrace, -⟩ := Ec.putBroadcast_eq_ok hput
        refine ⟨i, Moves.mem_trace hrest ?_⟩
        rw [pure_eq_ok] at hsend
        obtain ⟨l, hl⟩ := Ec.trace_store (c := c₂) a.id
        rw [← hsend]
        let c₃ := Ec.storePacketForDupeChecks a.id c₂
        have hquiet : Moves .any c₃
            (if c₃.ctimerExpired .broadcastData then c₃.ctimerSet .broadcastData else c₃) :=
          .quiet (Ec.same_ite .broadcastData)
        refine Moves.mem_trace hquiet ?_
        rw [hl, htrace]
        exact List.mem_append_right l List.mem_cons_self
      · exact ih s₁ h hmem

/-- What a callback broadcasts is enqueued. -/
theorem enqueued_of_delivery {ch : Channel} {pb : Packetbuf} {k : Callback} {r : RecvArgs}
    {ns : Option NeighborSet} {a : SendArgs} (h : s.step A (.receive ch pb) = .ok s')
    (hd : s.delivery A.toEcCallbacks ch pb = some (k, r))
    (hcall : Effect.call (.broadcast ns a) ∈ (A.recv k r s.app).2) :
    ∃ i, .enqueue .broadcastData i ns a ∈ s'.conn.trace := by
  have hcode : s.upcall A (.receive ch pb) = some (A.recv k r s.app) := by
    change (s.delivery A.toEcCallbacks ch pb).map _ = _
    rw [hd]
    rfl
  cases received_of_step h with
  | ignored hnone => rw [hnone] at hcode; cases hcode
  | acked hnone => rw [hnone] at hcode; cases hcode
  | duplicate hnone => rw [hnone] at hcode; cases hcode
  | synch hnone => rw [hnone] at hcode; cases hcode
  | @delivered a' s₁ ha hacc hdeliver hack =>
    rw [delivery_of_accepts ha hacc, Option.some.injEq] at hd
    cases hd
    obtain ⟨i, hi⟩ := enqueued_of_broadcast _ _ hdeliver hcall
    have hsend : Moves .any (s₁.conn.storePacketForDupeChecks pb.p.hdr.id) s'.conn :=
      sendAck_moves (s := s₁.onConn (Ec.storePacketForDupeChecks pb.p.hdr.id)) trivial
        (Ec.isDupe_store _ _) hack
    obtain ⟨l, hl⟩ := Ec.trace_store (c := s₁.conn) pb.p.hdr.id
    refine ⟨i, Moves.mem_trace hsend ?_⟩
    rw [hl]
    exact List.mem_append_right l hi

end EcNode

end EmergencyNet
