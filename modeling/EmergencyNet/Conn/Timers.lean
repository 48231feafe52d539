import EmergencyNet.Conn.Faults

/-!
# The timers of the sending queue

A packet that waits on a list is sent when the timer of the list goes off.  Whoever enqueues a
data packet sets the timer only when its `etimer` has expired, which is not the same as setting
it when it is not on `ctimer_list`: an event of the timer that is still under way when the timer
is set anew takes it off the list, and leaves its `etimer` running.

## Main definitions

* `MsgType.timer` — the timer of a list.
* `Ec.Orphaned` — the `etimer` of a timer runs, but the timer is off the list.
* `Ec.NoStall` — the timers of all lists packets wait on are armed.
* `Arming` — what code that runs between two timer events does to lists and timers.
* `TimerGuard` — no data packet is enqueued while the timer of its list is orphaned.

## Main results

* `EcNode.runEffects_arming` — what application code does to lists and timers.
* `Ec.NoStall.step` — **an event that meets the guard stalls no list.**
-/

namespace EmergencyNet

variable {σ ε : Type*}

/-- The timer of a list. -/
def MsgType.timer : MsgType → Timer
  | .neighborAck => .neighborAck
  | .neighborData => .neighborData
  | .broadcastData => .broadcastData
  | .multicastUnicastAck => .multicastUnicastAck
  | .multicastUnicastData => .multicastUnicastData
  | .timesynchData => .timesynchData
  | .meshData => .meshData

theorem MsgType.timer_injective : Function.Injective MsgType.timer := by
  intro t t' h
  cases t <;> cases t' <;> first | rfl | cases h

theorem MsgType.timer_ne_timesynch (t : MsgType) : t.timer ≠ .timesynch := by
  cases t <;> decide

instance (t : MsgType) : Decidable t.IsData := by unfold MsgType.IsData; infer_instance

theorem MsgType.IsData.ne {t t' : MsgType} (h : t.IsData) (h' : ¬ t'.IsData) : t ≠ t' :=
  fun heq => h' (heq ▸ h)

namespace Ec

variable {c c' c₁ : Ec} {t : MsgType} {T : Timer}

/-- The `etimer` of the timer runs, but the timer is not on `ctimer_list`. -/
def Orphaned (T : Timer) (c : Ec) : Prop :=
  (c.timers T).active = true ∧ (c.timers T).listed = false

instance : Decidable (c.Orphaned T) := by unfold Orphaned; infer_instance

/-- The timers of all lists packets wait on are armed, that of list `T` aside.  The mesh has
packets of its own to wait for. -/
def NoStallBut (T : Timer) (c : Ec) : Prop :=
  ∀ t, t ≠ .meshData → t.timer ≠ T → c.sq.prioHeads t ≠ [] → (c.timers t.timer).Armed

/-- The timers of all lists packets wait on are armed. -/
def NoStall (c : Ec) : Prop :=
  ∀ t, t ≠ .meshData → c.sq.prioHeads t ≠ [] → (c.timers t.timer).Armed

/-- With an empty list its timer does not matter. -/
theorem NoStallBut.of_empty (h : c.NoStallBut t.timer) (hnil : c.sq.prioHeads t = []) :
    c.NoStall := by
  intro t' ht' hne
  refine h t' ht' (fun heq => hne ?_) hne
  rw [MsgType.timer_injective heq, hnil]

theorem NoStallBut.mono (h : c.NoStallBut T)
    (hlists : ∀ t, c.sq.prioHeads t = [] → c'.sq.prioHeads t = []) (htimers : c'.timers = c.timers) :
    c'.NoStallBut T := by
  intro t ht hT hne
  rw [htimers]
  exact h t ht hT fun hnil => hne (hlists t hnil)

/-- Setting the timer arms it. -/
theorem ctimerSet_self (T : Timer) (c : Ec) :
    ((c.ctimerSet T).timers T).listed = true ∧ ((c.ctimerSet T).timers T).active = true := by
  simp [ctimerSet, setTimer]

theorem ctimerSet_of_ne {T T' : Timer} (h : T' ≠ T) : (c.ctimerSet T).timers T' = c.timers T' :=
  Function.update_of_ne h ..

theorem NoStallBut.ctimerSet (h : c.NoStallBut T) : (c.ctimerSet T).NoStall := by
  intro t ht hne
  by_cases hT : t.timer = T
  · rw [hT]
    exact ⟨(ctimerSet_self T c).1, .inl (ctimerSet_self T c).2⟩
  · rw [ctimerSet_of_ne hT]
    exact h t ht hT hne

/-- Taking an event of a timer leaves the other timers alone. -/
theorem NoStall.ctimerTake (h : c.NoStall) : (c.ctimerTake T).NoStallBut T := by
  intro t ht hT hne
  change (Function.update c.timers T _ t.timer).Armed
  rw [Function.update_of_ne hT]
  exact h t ht hne

/-- A timer that expires stays armed. -/
theorem NoStall.ctimerPost (h : c.NoStall) : (c.ctimerPost T).NoStall := by
  intro t ht hne
  have harmed := h t ht hne
  change (Function.update c.timers T _ t.timer).Armed
  by_cases hT : t.timer = T
  · subst hT
    rw [Function.update_self]
    exact ⟨harmed.1, .inr (Nat.succ_pos _)⟩
  · rw [Function.update_of_ne hT]
    exact harmed

/-! ### Timer callbacks -/

theorem first_eq_none : c.sq.first t = none ↔ c.sq.prioHeads t = [] := List.head?_eq_none_iff

theorem freePacket_nil {i : ℕ} (h : c.sq.prioHeads t = []) : (c.freePacket i).sq.prioHeads t = [] := by
  change (c.sq.prioHeads t).erase i = []
  rw [h]
  rfl

/-- The callbacks that send one packet set the timer anew while packets wait. -/
theorem NoStallBut.sendOnce {ch : Channel} {body : BufferedPacket → List UInt8} {radio : Bool}
    (h : c.NoStallBut t.timer) : (sendOnce t ch t.timer body radio c).NoStall := by
  unfold Ec.sendOnce
  cases hfirst : c.sq.first t with
  | none => exact h.of_empty (first_eq_none.mp hfirst)
  | some i =>
    cases radio with
    | false => exact h.ctimerSet
    | true =>
      simp only [if_true]
      have hsent : ((c.log (.frame ch i ⟨(c.sq.item i).p.hdr, body (c.sq.item i)⟩)).freePacket
          i).NoStallBut t.timer := h.mono (fun _ => freePacket_nil) rfl
      split
      · exact hsent.ctimerSet
      · next hnone =>
        rw [Option.not_isSome_iff_eq_none] at hnone
        exact hsent.of_empty (first_eq_none.mp hnone)

theorem Drops.nil {limit : UInt8} {t' : MsgType} (h : Drops t' limit c c')
    (hnil : c.sq.prioHeads t = []) : c'.sq.prioHeads t = [] :=
  List.sublist_nil.mp (hnil ▸ h.heads t)

theorem NoStallBut.sendNeighborData {radio : Bool} (h : c.NoStallBut .neighborData)
    (hsend : c.sendNeighborData radio = .ok c') : c'.NoStall := by
  obtain ⟨c₁, hdrops, hfirst, hsent⟩ := sendNeighborData_cases hsend
  have hdropped : c₁.NoStallBut .neighborData := h.mono (fun _ => hdrops.nil) hdrops.timers
  cases hsent with
  | emptied hnone =>
    exact NoStallBut.of_empty (t := .neighborData) hdropped (first_eq_none.mp (hfirst.trans hnone))
  | refused => exact hdropped.ctimerSet
  | @sent i j f =>
    have hsent : Ec.NoStallBut .neighborData { c₁.log (.frame .neighbor i f) with
        sq := c₁.sq.modify j .incrementTimesSent } := hdropped.mono (fun _ hnil => hnil) rfl
    exact hsent.ctimerSet

theorem NoStallBut.sendMulticastUnicastData {radio : Bool} (h : c.NoStallBut .multicastUnicastData)
    (hsend : c.sendMulticastUnicastData radio = .ok c') : c'.NoStall := by
  unfold Ec.sendMulticastUnicastData at hsend
  split at hsend
  · next hfirst =>
    cases hsend
    exact NoStallBut.of_empty (t := .multicastUnicastData) h (first_eq_none.mp hfirst)
  · next i _ =>
    split at hsend
    · cases hsend
    · next f _ =>
      cases radio with
      | false =>
        cases hsend
        exact h.ctimerSet
      | true =>
        have hsent : Ec.NoStallBut .multicastUnicastData { c.log (.frame .broadcast i f) with
            sq := c.sq.modify i .incrementTimesSent } := h.mono (fun _ hnil => hnil) rfl
        cases hsend
        exact hsent.ctimerSet

theorem NoStallBut.sendMeshData (h : c.NoStallBut .meshData) : c.sendMeshData.NoStall := by
  have hmesh : ∀ c' : Ec, c'.NoStallBut .meshData → c'.NoStall := fun c' h t ht =>
    h t ht fun heq => ht (MsgType.timer_injective heq)
  obtain ⟨hdrops, -, -⟩ := dropSpent_drops .meshData maxTimesSent _ c rfl
  unfold Ec.sendMeshData
  generalize dropSpent maxTimesSent (c.sq.prioHeads .meshData) c = res at hdrops ⊢
  obtain ⟨c₁, left⟩ := res
  cases left with
  | none => exact hmesh _ (h.mono (fun _ => hdrops.nil) hdrops.timers)
  | some i => exact hmesh _ (h.mono (fun _ => hdrops.nil) hdrops.timers)

end Ec

/-! ### Other code -/

/-- What code that takes no event of a timer does: a timer stays as it is or is set, and a list
that was empty stays empty or has its timer armed. -/
structure Arming (c c' : Ec) : Prop where
  timers : ∀ T, T ≠ .timesynch → c'.timers T = c.timers T ∨
    (c'.timers T).listed = true ∧ (c'.timers T).active = true
  lists : ∀ t, t ≠ .meshData → c.sq.prioHeads t = [] →
    c'.sq.prioHeads t = [] ∨ (c'.timers t.timer).Armed

namespace Arming

variable {c c' c₁ : Ec}

theorem armed (h : Arming c c') {T : Timer} (hT : T ≠ .timesynch) (harmed : (c.timers T).Armed) :
    (c'.timers T).Armed := by
  rcases h.timers T hT with heq | hset
  · rwa [heq]
  · exact ⟨hset.1, .inl hset.2⟩

theorem noStall (h : Arming c c') (hc : c.NoStall) : c'.NoStall := by
  intro t ht hne
  by_cases hnil : c.sq.prioHeads t = []
  · exact (h.lists t ht hnil).resolve_left hne
  · exact h.armed t.timer_ne_timesynch (hc t ht hnil)

theorem not_orphaned (h : Arming c c') {T : Timer} (hT : T ≠ .timesynch) (hc : ¬ c.Orphaned T) :
    ¬ c'.Orphaned T := by
  rcases h.timers T hT with heq | hset
  · unfold Ec.Orphaned
    rwa [heq]
  · exact fun horphaned => by simp [horphaned.2] at hset

theorem refl (c : Ec) : Arming c c := ⟨fun _ _ => .inl rfl, fun _ _ hnil => .inl hnil⟩

theorem trans (h : Arming c c₁) (h' : Arming c₁ c') : Arming c c' where
  timers T hT := by
    rcases h'.timers T hT with heq | hset
    · rw [heq]
      exact h.timers T hT
    · exact .inr hset
  lists t ht hnil := by
    rcases h.lists t ht hnil with hnil | harmed
    · exact h'.lists t ht hnil
    · exact .inr (h'.armed t.timer_ne_timesynch harmed)

/-- Lists do not grow, and timers stay as they are. -/
theorem of_lists (hlists : ∀ t, c.sq.prioHeads t = [] → c'.sq.prioHeads t = [])
    (htimers : c'.timers = c.timers) : Arming c c' :=
  ⟨fun _ _ => .inl (by rw [htimers]), fun t _ hnil => .inl (hlists t hnil)⟩

theorem ctimerSet (T : Timer) (c : Ec) : Arming c (c.ctimerSet T) where
  timers T' _ := by
    by_cases heq : T' = T
    · rw [heq]
      exact .inr (Ec.ctimerSet_self T c)
    · exact .inl (Ec.ctimerSet_of_ne heq)
  lists _ _ hnil := .inl hnil

/-- An enqueued packet, when the timer of its list is armed. -/
theorem of_enqueued {t : MsgType} {i : ℕ} {bp : BufferedPacket} (hsq : c.sq.Enqueued t i bp c₁.sq)
    (htimers : c₁.timers = c.timers) (h : Arming c₁ c') (hlists : c'.sq = c₁.sq)
    (harmed : t = .meshData ∨ (c'.timers t.timer).Armed) :
    Arming c c' where
  timers T hT := by
    rw [← htimers]
    exact h.timers T hT
  lists t' ht' hnil := by
    by_cases heq : t' = t
    · subst heq
      exact .inr (harmed.resolve_left ht')
    · rw [hlists, hsq.prioHeads, addTail_of_ne heq]
      exact .inl hnil

end Arming

namespace Ec

variable {c c' : Ec}

theorem putBroadcast_timers {hdr : Header} {data : List UInt8} {ns : Option NeighborSet}
    {t : MsgType} (h : c.putBroadcast hdr data ns t = .ok c') : c'.timers = c.timers := by
  unfold putBroadcast at h
  split at h <;> cases h
  rfl

theorem putUnicast_timers {hdr : Header} {dest : Rimeaddr} {data : List UInt8}
    {ns : Option NeighborSet} {t : MsgType} (h : c.putUnicast hdr dest data ns t = .ok c') :
    c'.timers = c.timers := by
  unfold putUnicast at h
  split at h <;> cases h
  rfl

theorem store_timers (id : PacketId) : (c.storePacketForDupeChecks id).timers = c.timers := by
  unfold storePacketForDupeChecks
  split <;> rfl

/-- A data packet: its timer is armed afterwards, unless it was orphaned. -/
theorem sendData_arming {t : MsgType} {ns : Option NeighborSet} {a : SendArgs}
    (hlive : ¬ c.Orphaned t.timer) (h : c.sendData t t.timer ns a = .ok c') : Arming c c' := by
  unfold sendData at h
  rw [bind_eq_ok] at h
  obtain ⟨c₁, hput, h⟩ := h
  rw [pure_eq_ok] at h
  obtain ⟨i, hsq, -⟩ := putBroadcast_eq_ok hput
  have htimers : (c₁.storePacketForDupeChecks a.id).timers = c.timers :=
    (store_timers _).trans (putBroadcast_timers hput)
  rw [← sq_store (c := c₁) a.id] at hsq
  subst h
  change Arming c (if (c₁.storePacketForDupeChecks a.id).ctimerExpired t.timer then
    (c₁.storePacketForDupeChecks a.id).ctimerSet t.timer else c₁.storePacketForDupeChecks a.id)
  generalize c₁.storePacketForDupeChecks a.id = c₂ at htimers hsq
  split
  · exact .of_enqueued hsq htimers (.ctimerSet t.timer _) rfl
      (.inr ⟨(ctimerSet_self _ c₂).1, .inl (ctimerSet_self _ c₂).2⟩)
  · next hactive =>
    -- the timer runs already, and is on the list as it is not orphaned
    have hactive : (c.timers t.timer).active = true := by
      rw [← htimers]
      simpa [ctimerExpired] using hactive
    have hlisted : (c.timers t.timer).listed = true := by
      rw [← Bool.not_eq_false]
      exact fun hlisted => hlive ⟨hactive, hlisted⟩
    refine .of_enqueued hsq htimers (.refl _) rfl (.inr ?_)
    rw [htimers]
    exact ⟨hlisted, .inl hactive⟩

theorem ecMesh_arming {dest : Rimeaddr} {seqno : UInt8} {data : List UInt8}
    (h : c.ecMesh dest seqno data = .ok c') : Arming c c' := by
  unfold ecMesh at h
  rw [bind_eq_ok] at h
  obtain ⟨c₁, hput, h⟩ := h
  rw [pure_eq_ok] at h
  obtain ⟨i, hsq, -⟩ := putUnicast_eq_ok hput
  have htimers := putUnicast_timers hput
  rw [← h]
  split
  · exact .of_enqueued hsq htimers (.ctimerSet _ _) rfl (.inl rfl)
  · exact .of_enqueued hsq htimers (.refl _) rfl (.inl rfl)

theorem putTimesynch_arming {hdr : Header} (h : c.putTimesynch hdr = .ok c') : Arming c c' := by
  unfold putTimesynch at h
  rw [bind_eq_ok] at h
  obtain ⟨c₁, hput, h⟩ := h
  rw [pure_eq_ok] at h
  obtain ⟨i, hsq, -⟩ := putBroadcast_eq_ok hput
  subst h
  have hdata : Arming c (c₁.ctimerSet .timesynchData) :=
    .of_enqueued hsq (putBroadcast_timers hput) (.ctimerSet _ _) rfl
      (.inr ⟨(ctimerSet_self _ c₁).1, .inl (ctimerSet_self _ c₁).2⟩)
  exact hdata.trans (.ctimerSet _ _)

theorem freePacket_arming (i : ℕ) (c : Ec) : Arming c (c.freePacket i) :=
  .of_lists (fun _ => freePacket_nil) rfl

theorem meshdataSent_arming (h : c.meshdataSent = .ok c') : Arming c c' := by
  unfold meshdataSent at h
  split at h
  · cases h
  · next i _ =>
    cases h
    exact (freePacket_arming i c).trans (.ctimerSet _ _)

/-- An acknowledgement frees a packet at most, and sets a timer. -/
theorem ackRecv_arming (T : Timer) (hdr : Header) (c : Ec) :
    Arming c (EcNode.ackRecv T hdr c) := by
  unfold EcNode.ackRecv
  split
  · exact .refl c
  · next i _ =>
    have hacked : Arming c { c with sq := c.sq.modify i (.neighborAcked hdr.sender) } :=
      .of_lists (fun _ hnil => hnil) rfl
    simp only
    split
    · exact (hacked.trans (freePacket_arming i _)).trans (.ctimerSet _ _)
    · exact hacked

end Ec

namespace EcNode

variable {cb : EcCallbacks σ} {s s' : EcNode σ}

/-! ### Application code -/

theorem timesynchAsLeader_arming (h : s.timesynchAsLeader cb = .ok s') :
    Arming s.conn s'.conn := by
  unfold timesynchAsLeader at h
  rw [bind_eq_ok] at h
  obtain ⟨s₁, hput, h⟩ := h
  obtain ⟨c₁, hrun, rfl⟩ := tryConn_eq_ok.mp hput
  rw [callTimesynch_conn h]
  have hlevel : Arming s.conn (s.onConn fun c =>
      { c with ts := ⟨c.ts.isOn, s.conn.ts.seqno + 1, (cb.addr s.app).u8₀, s.conn.ts.seqno⟩ }).conn :=
    .of_lists (fun _ hnil => hnil) rfl
  exact hlevel.trans (Ec.putTimesynch_arming hrun)

theorem forward_arming {hdr : Header}
    (h : (s.follow hdr).forwardTimesynch cb hdr >>= callTimesynch cb = .ok s') :
    Arming s.conn s'.conn := by
  rw [bind_eq_ok] at h
  obtain ⟨s₁, hput, h⟩ := h
  obtain ⟨c₁, hrun, rfl⟩ := tryConn_eq_ok.mp hput
  rw [callTimesynch_conn h]
  have hfollow : Arming s.conn (s.follow hdr).conn := .of_lists (fun _ hnil => hnil) rfl
  exact hfollow.trans (Ec.putTimesynch_arming hrun)

theorem timesynchRecv_arming {pb : Packetbuf} (h : s.timesynchRecv cb pb = .ok s') :
    Arming s.conn s'.conn := by
  obtain rfl | hcall | hlead | hforward := timesynchRecv_cases h
  · exact .refl _
  · rw [callTimesynch_conn hcall]
    exact .refl _
  · rw [bind_eq_ok] at hlead
    obtain ⟨s₁, hlead, hcall⟩ := hlead
    rw [callTimesynch_conn hcall]
    exact timesynchAsLeader_arming hlead
  · exact forward_arming hforward

end EcNode

/-- The list a call puts a data packet on, if it does. -/
def EcCall.enqueues : EcCall → Option MsgType
  | .reliableBroadcastNs (some ns) _ => if ns.addrs.length > 0 then some .neighborData else none
  | .broadcast _ _ => some .broadcastData
  | .reliableMulticast _ _ | .reliableUnicast _ _ => some .multicastUnicastData
  | _ => none

/-- The call an entry stands for. -/
def Effect.ecCall : Effect → Option EcCall
  | .call c => some c
  | .assert _ => none

theorem Effect.ecCall_eq_some {e : Effect} {c : EcCall} : e.ecCall = some c ↔ e = .call c := by
  cases e <;> simp [Effect.ecCall]

/-- A call that enqueues a data packet does so while the timer of the list is not orphaned. -/
def EcCall.Timely (c : Ec) (call : EcCall) : Prop := ∀ t ∈ call.enqueues, ¬ c.Orphaned t.timer

instance (c : Ec) (call : EcCall) : Decidable (call.Timely c) := by
  unfold EcCall.Timely
  infer_instance

namespace EcNode

variable {cb : EcCallbacks σ} {s s' : EcNode σ} {A : Application σ ε}

theorem ecCall_arming {call : EcCall} (htimely : call.Timely s.conn) (h : call.run cb s = .ok s') :
    Arming s.conn s'.conn := by
  cases call with
  | reliableBroadcastNs ns a =>
    obtain ⟨c, hrun, rfl⟩ := tryConn_eq_ok.mp h
    unfold Ec.ecReliableBroadcastNs at hrun
    cases ns with
    | none => cases hrun
    | some ns =>
      simp only at hrun
      split at hrun
      · next hlen =>
        exact Ec.sendData_arming (t := .neighborData) (htimely _ (if_pos hlen)) hrun
      · cases hrun
        exact .refl _
  | broadcast ns a =>
    obtain ⟨c, hrun, rfl⟩ := tryConn_eq_ok.mp h
    exact Ec.sendData_arming (t := .broadcastData) (htimely _ rfl) hrun
  | reliableMulticast receivers a =>
    obtain ⟨c, hrun, rfl⟩ := tryConn_eq_ok.mp h
    exact Ec.sendData_arming (t := .multicastUnicastData) (htimely _ rfl) hrun
  | reliableUnicast destination a =>
    obtain ⟨c, hrun, rfl⟩ := tryConn_eq_ok.mp h
    exact Ec.sendData_arming (t := .multicastUnicastData) (htimely _ rfl) hrun
  | mesh destination seqno data =>
    obtain ⟨c, hrun, rfl⟩ := tryConn_eq_ok.mp h
    exact Ec.ecMesh_arming hrun
  | timesynchOn =>
    cases h
    exact .of_lists (fun _ hnil => hnil) rfl
  | timesynchOff =>
    cases h
    exact ⟨fun T hT => .inl (Function.update_of_ne hT ..), fun _ _ hnil => .inl hnil⟩
  | timesynchNetwork =>
    change s.ecTimesynchNetwork cb = .ok s' at h
    unfold ecTimesynchNetwork at h
    split at h
    · split at h
      · exact timesynchAsLeader_arming h
      · cases h
        exact .refl _
    · cases h

/-- **What application code does to lists and timers**, when all its calls are timely. -/
theorem runEffects_arming : ∀ (l : List Effect) (s : EcNode σ),
    (∀ call, Effect.call call ∈ l → call.Timely s.conn) → runEffects cb l s = .ok s' →
    Arming s.conn s'.conn := by
  intro l
  induction l with
  | nil =>
    intro s _ h
    cases h
    exact .refl _
  | cons e rest ih =>
    intro s htimely h
    cases e with
    | assert b =>
      rw [runEffects] at h
      split at h
      · exact ih s (fun call hmem => htimely call (List.mem_cons_of_mem _ hmem)) h
      · cases h
    | call call =>
      rw [runEffects, bind_eq_ok] at h
      obtain ⟨s₁, hrun, h⟩ := h
      have hcall := ecCall_arming (htimely call List.mem_cons_self) hrun
      -- a call orphans no timer, so the ones behind it are still timely
      refine hcall.trans (ih s₁ (fun call hmem t ht => ?_) h)
      exact hcall.not_orphaned t.timer_ne_timesynch
        (htimely call (List.mem_cons_of_mem _ hmem) t ht)

/-! ### Events -/

theorem acknowledge_arming {t : MsgType} {hdr : Header}
    (h : s.acknowledge cb t t.timer hdr = .ok s') : Arming s.conn s'.conn := by
  unfold acknowledge at h
  split at h
  · cases h
    exact .refl _
  · obtain ⟨c₁, hput, rfl⟩ := tryConn_eq_ok.mp h
    rw [bind_eq_ok] at hput
    obtain ⟨c₂, hput, hset⟩ := hput
    rw [pure_eq_ok] at hset
    obtain ⟨i, hsq, -⟩ := Ec.putUnicast_eq_ok hput
    rw [← hset]
    exact .of_enqueued hsq (Ec.putUnicast_timers hput) (.ctimerSet _ _) rfl
      (.inr ⟨(Ec.ctimerSet_self _ c₂).1, .inl (Ec.ctimerSet_self _ c₂).2⟩)

theorem sendAck_arming {ch : Channel} {hdr : Header} {a : Arrival}
    (h : s.sendAck cb ch hdr a = .ok s') : Arming s.conn s'.conn := by
  unfold sendAck at h
  split at h
  · exact acknowledge_arming (t := .neighborAck) h
  · split at h
    · exact acknowledge_arming (t := .multicastUnicastAck) h
    · cases h
      exact .refl _

/-- A received frame, when all calls of the code it runs are timely. -/
theorem Received.arming {ch : Channel} {pb : Packetbuf} (h : Received A s s' ch pb)
    (htimely : ∀ r ∈ s.upcall A (.receive ch pb), ∀ call, Effect.call call ∈ r.2 →
      call.Timely s.conn) : Arming s.conn s'.conn := by
  cases h with
  | ignored _ h =>
    rw [h]
    exact .refl _
  | acked _ _ _ _ _ _ h =>
    rw [h]
    exact Ec.ackRecv_arming ..
  | duplicate _ _ _ _ _ _ _ h => exact sendAck_arming h
  | @delivered a s₁ ha hacc hdeliver h =>
    have hlog : Arming s.conn
        (s.conn.log (.deliver (callbackFor ch a) (recvArgs pb.p.hdr a))) :=
      .of_lists (fun _ hnil => hnil) rfl
    have hrun : Arming (s.conn.log (.deliver (callbackFor ch a) (recvArgs pb.p.hdr a))) s₁.conn :=
      runEffects_arming _ ⟨_, (A.recv (callbackFor ch a) (recvArgs pb.p.hdr a) s.app).1⟩
        (htimely _ (upcall_of_accepts ha hacc)) hdeliver
    have hstore : Arming s₁.conn (s₁.onConn (Ec.storePacketForDupeChecks pb.p.hdr.id)).conn :=
      .of_lists (fun t hnil => (congrArg (PacketBuffer.prioHeads · t) (Ec.sq_store _)).trans hnil)
        (Ec.store_timers _)
    exact ((hlog.trans hrun).trans hstore).trans (sendAck_arming h)
  | synch _ _ h => exact timesynchRecv_arming h

/-- The callback of a timer whose event has been taken. -/
theorem timerCallback_noStall {T : Timer} {radio : Bool} (hc : s.conn.NoStallBut T)
    (h : s.timerCallback cb T radio = .ok s') : s'.conn.NoStall := by
  cases T with
  | neighborData =>
    obtain ⟨c, hsend, rfl⟩ := tryConn_eq_ok.mp h
    exact hc.sendNeighborData hsend
  | multicastUnicastData =>
    obtain ⟨c, hsend, rfl⟩ := tryConn_eq_ok.mp h
    exact hc.sendMulticastUnicastData hsend
  | timesynch =>
    exact (timesynchAsLeader_arming h).noStall fun t ht => hc t ht t.timer_ne_timesynch
  | meshData =>
    rw [← Except.ok.inj h]
    exact hc.sendMeshData
  | neighborAck =>
    rw [← Except.ok.inj h]
    change (Ec.sendNeighborAck radio s.conn).NoStall
    unfold Ec.sendNeighborAck
    exact Ec.NoStallBut.sendOnce (t := .neighborAck) hc
  | broadcastData =>
    rw [← Except.ok.inj h]
    change (Ec.sendBroadcastData radio s.conn).NoStall
    unfold Ec.sendBroadcastData
    exact Ec.NoStallBut.sendOnce (t := .broadcastData) hc
  | multicastUnicastAck =>
    rw [← Except.ok.inj h]
    change (Ec.sendMulticastUnicastAck radio s.conn).NoStall
    unfold Ec.sendMulticastUnicastAck
    exact Ec.NoStallBut.sendOnce (t := .multicastUnicastAck) hc
  | timesynchData =>
    rw [← Except.ok.inj h]
    change (Ec.sendTimesynchData radio s.conn).NoStall
    unfold Ec.sendTimesynchData
    exact Ec.NoStallBut.sendOnce (t := .timesynchData) hc

end EcNode

/-- The application code an event runs enqueues no data packet on a list whose timer is
orphaned. -/
def TimerGuard (A : Application σ ε) (s : EcNode σ) (ev : NodeEvent ε) : Prop :=
  ∀ r ∈ s.upcall A ev, ∀ call, Effect.call call ∈ r.2 → call.Timely s.conn

/-- **An event stalls no list.** -/
theorem Ec.NoStall.step {A : Application σ ε} {ev : NodeEvent ε} {s s' : EcNode σ}
    (hc : s.conn.NoStall) (hg : TimerGuard A s ev) (h : s.step A ev = .ok s') :
    s'.conn.NoStall := by
  cases ev with
  | process e =>
    have hrun : Arming s.conn s'.conn :=
      EcNode.runEffects_arming _ ⟨s.conn, (A.process e s.app).1⟩ (hg _ rfl) h
    exact hrun.noStall hc
  | receive ch pb => exact ((EcNode.received_of_step h).arming hg).noStall hc
  | expire T =>
    rw [← Except.ok.inj h]
    exact hc.ctimerPost
  | timer T radio =>
    rw [EcNode.step] at h
    split at h
    · exact EcNode.timerCallback_noStall hc.ctimerTake h
    · next hlisted =>
      -- nothing waits on a list whose timer is not armed
      rw [← Except.ok.inj h]
      intro t ht hne
      by_cases hT : t.timer = T
      · exact absurd (hT ▸ (hc t ht hne).1) hlisted
      · exact hc.ctimerTake t ht hT hne
  | meshSent =>
    obtain ⟨c, hsent, rfl⟩ := EcNode.tryConn_eq_ok.mp h
    exact (Ec.meshdataSent_arming hsent).noStall hc
  | meshTimeout =>
    rw [← Except.ok.inj h]
    exact (Arming.ctimerSet _ _).noStall hc

end EmergencyNet
