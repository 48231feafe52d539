import EmergencyNet.Conn.Timers

/-!
# Sending queues that stall

A packet that is enqueued while the timer of its list is orphaned waits for a timer that will
not run its callback.  Nothing but an acknowledgement or another event of that timer can change
that, and no packet is enqueued so in a run that meets the guard.

## Main definitions

* `Strands` — what code that handles neither timers nor acknowledgements leaves as it is.

## Main results

* `noStall_step_iff` — an event stalls a list exactly when it does not meet the guard.
* `noStall_of_reachable` — **no list stalls in a guarded run.**
* `not_noStall` — a packet that is never sent.
-/

namespace EmergencyNet

variable {σ ε : Type*}

/-! ### A timer that is orphaned stays so -/

/-- Code that handles no timer and no acknowledgement: it leaves an orphaned timer of a data
list as it is, and takes no packet off the list. -/
structure Strands (t : MsgType) (c c' : Ec) : Prop where
  timer : c.Orphaned t.timer → c'.timers t.timer = c.timers t.timer
  list : c.sq.prioHeads t ≠ [] → c'.sq.prioHeads t ≠ []

namespace Strands

variable {t : MsgType} {c c' c₁ : Ec}

theorem refl (t : MsgType) (c : Ec) : Strands t c c := ⟨fun _ => rfl, id⟩

theorem orphaned (h : Strands t c c') (ho : c.Orphaned t.timer) : c'.Orphaned t.timer := by
  unfold Ec.Orphaned
  rw [h.timer ho]
  exact ho

theorem trans (h : Strands t c c₁) (h' : Strands t c₁ c') : Strands t c c' :=
  ⟨fun ho => (h'.timer (h.orphaned ho)).trans (h.timer ho), h'.list ∘ h.list⟩

theorem of_eq (hsq : c'.sq = c.sq) (htimers : c'.timers = c.timers) : Strands t c c' :=
  ⟨fun _ => by rw [htimers], fun hne => by rwa [hsq]⟩

theorem ctimerSet {T : Timer} (hT : t.timer ≠ T) : Strands t c (c.ctimerSet T) :=
  ⟨fun _ => Ec.ctimerSet_of_ne hT, id⟩

theorem of_enqueued {t' : MsgType} {i : ℕ} {bp : BufferedPacket}
    (hsq : c.sq.Enqueued t' i bp c'.sq) (htimers : c'.timers = c.timers) : Strands t c c' := by
  refine ⟨fun _ => by rw [htimers], fun hne => ?_⟩
  rw [hsq.prioHeads]
  by_cases heq : t = t'
  · rw [heq, addTail_self]
    simp
  · rwa [addTail_of_ne heq]

theorem sendData {t' : MsgType} {ns : Option NeighborSet} {a : SendArgs}
    (h : c.sendData t' t'.timer ns a = .ok c') :
    Strands t c c' ∧ (t = t' → c'.sq.prioHeads t ≠ []) := by
  unfold Ec.sendData at h
  rw [bind_eq_ok] at h
  obtain ⟨c₁, hput, h⟩ := h
  rw [pure_eq_ok] at h
  obtain ⟨i, hsq, -⟩ := Ec.putBroadcast_eq_ok hput
  have hstore : Strands t c₁ (c₁.storePacketForDupeChecks a.id) :=
    .of_eq (Ec.sq_store _) (Ec.store_timers _)
  have hputs := (of_enqueued (t := t) hsq (Ec.putBroadcast_timers hput)).trans hstore
  have hne : t = t' → (c₁.storePacketForDupeChecks a.id).sq.prioHeads t ≠ [] := by
    intro heq
    rw [Ec.sq_store, hsq.prioHeads, heq, addTail_self]
    simp
  subst h
  change Strands t c (if (c₁.storePacketForDupeChecks a.id).ctimerExpired t'.timer then
    (c₁.storePacketForDupeChecks a.id).ctimerSet t'.timer else c₁.storePacketForDupeChecks a.id) ∧ _
  refine ⟨?_, fun heq => ?_⟩
  · split
    · next hexpired =>
      by_cases heq : t = t'
      · -- the `etimer` of an orphaned timer runs
        subst heq
        refine ⟨fun ho => ?_, hputs.list⟩
        have hactive := (hputs.orphaned ho).1
        simp [Ec.ctimerExpired, hactive] at hexpired
      · exact hputs.trans (.ctimerSet fun hT => heq (MsgType.timer_injective hT))
    · exact hputs
  · rw [Ec.sq_ite_ctimerSet]
    exact hne heq

theorem ecMesh {dest : Rimeaddr} {seqno : UInt8} {data : List UInt8} (ht : t ≠ .meshData)
    (h : c.ecMesh dest seqno data = .ok c') : Strands t c c' := by
  unfold Ec.ecMesh at h
  rw [bind_eq_ok] at h
  obtain ⟨c₁, hput, h⟩ := h
  rw [pure_eq_ok] at h
  obtain ⟨i, hsq, -⟩ := Ec.putUnicast_eq_ok hput
  have hput := of_enqueued (t := t) hsq (Ec.putUnicast_timers hput)
  rw [← h]
  split
  · exact hput.trans (.ctimerSet fun hT => ht (MsgType.timer_injective hT))
  · exact hput

theorem putTimesynch {hdr : Header} (ht : t ≠ .timesynchData) (h : c.putTimesynch hdr = .ok c') :
    Strands t c c' := by
  unfold Ec.putTimesynch at h
  rw [bind_eq_ok] at h
  obtain ⟨c₁, hput, h⟩ := h
  rw [pure_eq_ok] at h
  obtain ⟨i, hsq, -⟩ := Ec.putBroadcast_eq_ok hput
  have hput := of_enqueued (t := t) hsq (Ec.putBroadcast_timers hput)
  subst h
  have hset : Strands t c₁ (c₁.ctimerSet .timesynchData) :=
    .ctimerSet fun hT => ht (MsgType.timer_injective hT)
  exact (hput.trans hset).trans (.ctimerSet t.timer_ne_timesynch)

end Strands

namespace EcNode

variable {cb : EcCallbacks σ} {s s' : EcNode σ} {A : Application σ ε} {t : MsgType}

theorem ecCall_strands {call : EcCall} (ht : t.IsData) (h : call.run cb s = .ok s') :
    Strands t s.conn s'.conn ∧ (t ∈ call.enqueues → s'.conn.sq.prioHeads t ≠ []) := by
  have hmesh : t ≠ .meshData := ht.ne (by decide)
  have hts : t ≠ .timesynchData := ht.ne (by decide)
  -- the calls that enqueue no data packet
  have hno : ∀ {c : Ec}, Strands t s.conn c → call.enqueues = none →
      Strands t s.conn c ∧ (t ∈ call.enqueues → c.sq.prioHeads t ≠ []) := fun hc hnone =>
    ⟨hc, fun hmem => by rw [hnone] at hmem; cases hmem⟩
  cases call with
  | reliableBroadcastNs ns a =>
    obtain ⟨c, hrun, rfl⟩ := tryConn_eq_ok.mp h
    unfold Ec.ecReliableBroadcastNs at hrun
    cases ns with
    | none => cases hrun
    | some ns =>
      simp only at hrun
      -- nothing is enqueued when the set of neighbours is empty
      split at hrun
      · next hlen =>
        obtain ⟨hstrands, hne⟩ := Strands.sendData (t := t) hrun
        refine ⟨hstrands, fun hmem => hne ?_⟩
        rw [EcCall.enqueues, if_pos hlen] at hmem
        exact (Option.some.inj hmem).symm
      · next hlen =>
        cases hrun
        exact hno (.refl _ _) (if_neg hlen)
  | broadcast ns a =>
    obtain ⟨c, hrun, rfl⟩ := tryConn_eq_ok.mp h
    obtain ⟨hstrands, hne⟩ := Strands.sendData (t := t) hrun
    exact ⟨hstrands, fun hmem => hne (Option.some.inj hmem).symm⟩
  | reliableMulticast receivers a =>
    obtain ⟨c, hrun, rfl⟩ := tryConn_eq_ok.mp h
    obtain ⟨hstrands, hne⟩ := Strands.sendData (t := t) hrun
    exact ⟨hstrands, fun hmem => hne (Option.some.inj hmem).symm⟩
  | reliableUnicast destination a =>
    obtain ⟨c, hrun, rfl⟩ := tryConn_eq_ok.mp h
    obtain ⟨hstrands, hne⟩ := Strands.sendData (t := t) hrun
    exact ⟨hstrands, fun hmem => hne (Option.some.inj hmem).symm⟩
  | mesh destination seqno data =>
    obtain ⟨c, hrun, rfl⟩ := tryConn_eq_ok.mp h
    exact hno (.ecMesh hmesh hrun) rfl
  | timesynchOn =>
    cases h
    exact hno (.of_eq rfl rfl) rfl
  | timesynchOff =>
    cases h
    exact hno ⟨fun _ => Function.update_of_ne t.timer_ne_timesynch .., id⟩ rfl
  | timesynchNetwork =>
    refine hno ?_ rfl
    change s.ecTimesynchNetwork cb = .ok s' at h
    unfold ecTimesynchNetwork at h
    split at h
    · split at h
      · unfold timesynchAsLeader at h
        rw [bind_eq_ok] at h
        obtain ⟨s₁, hput, h⟩ := h
        obtain ⟨c₁, hrun, rfl⟩ := tryConn_eq_ok.mp hput
        rw [callTimesynch_conn h]
        have hlevel : Strands t s.conn (s.onConn fun c => { c with
            ts := ⟨c.ts.isOn, s.conn.ts.seqno + 1, (cb.addr s.app).u8₀, s.conn.ts.seqno⟩ }).conn :=
          .of_eq rfl rfl
        exact hlevel.trans (.putTimesynch hts hrun)
      · cases h
        exact .refl _ _
    · cases h

/-- Application code that enqueues a data packet while the timer of its list is orphaned leaves
the packet waiting for it. -/
theorem runEffects_strands (ht : t.IsData) : ∀ (l : List Effect) (s : EcNode σ),
    runEffects cb l s = .ok s' → Strands t s.conn s'.conn ∧
      ∀ call, Effect.call call ∈ l → t ∈ call.enqueues → s'.conn.sq.prioHeads t ≠ [] := by
  intro l
  induction l with
  | nil =>
    intro s h
    cases h
    exact ⟨.refl _ _, fun _ hmem => absurd hmem List.not_mem_nil⟩
  | cons e rest ih =>
    intro s h
    cases e with
    | assert b =>
      rw [runEffects] at h
      split at h
      · obtain ⟨hstrands, hne⟩ := ih s h
        refine ⟨hstrands, fun call hmem => hne call ?_⟩
        exact (List.mem_cons.mp hmem).resolve_left (fun heq => by cases heq)
      · cases h
    | call call =>
      rw [runEffects, bind_eq_ok] at h
      obtain ⟨s₁, hrun, h⟩ := h
      obtain ⟨hcall, hne₁⟩ := ecCall_strands ht hrun
      obtain ⟨hstrands, hne⟩ := ih s₁ h
      refine ⟨hcall.trans hstrands, fun call' hmem ht' => ?_⟩
      rcases List.mem_cons.mp hmem with heq | hmem
      · cases heq
        exact hstrands.list (hne₁ ht')
      · exact hne call' hmem ht'

theorem acknowledge_strands {t' : MsgType} {hdr : Header} (ht : t ≠ t')
    (h : s.acknowledge cb t' t'.timer hdr = .ok s') : Strands t s.conn s'.conn := by
  unfold acknowledge at h
  split at h
  · cases h
    exact .refl _ _
  · obtain ⟨c₁, hput, rfl⟩ := tryConn_eq_ok.mp h
    rw [bind_eq_ok] at hput
    obtain ⟨c₂, hput, hset⟩ := hput
    rw [pure_eq_ok] at hset
    obtain ⟨i, hsq, -⟩ := Ec.putUnicast_eq_ok hput
    rw [← hset]
    have hput := Strands.of_enqueued (t := t) hsq (Ec.putUnicast_timers hput)
    exact hput.trans (.ctimerSet fun hT => ht (MsgType.timer_injective hT))

theorem sendAck_strands {ch : Channel} {hdr : Header} {a : Arrival} (ht : t.IsData)
    (h : s.sendAck cb ch hdr a = .ok s') : Strands t s.conn s'.conn := by
  have hne : t ≠ .neighborAck := ht.ne (by decide)
  have hne' : t ≠ .multicastUnicastAck := ht.ne (by decide)
  unfold sendAck at h
  split at h
  · exact acknowledge_strands hne h
  · split at h
    · exact acknowledge_strands hne' h
    · cases h
      exact .refl _ _

end EcNode

theorem EcCall.isData_of_enqueues {call : EcCall} {t : MsgType} (h : t ∈ call.enqueues) :
    t.IsData := by
  cases call with
  | reliableBroadcastNs ns a =>
    cases ns with
    | none => cases h
    | some ns =>
      rw [enqueues] at h
      split at h
      · exact .inl (Option.some.inj h).symm
      · cases h
  | broadcast ns a => exact .inr (.inl (Option.some.inj h).symm)
  | reliableMulticast receivers a => exact .inr (.inr (Option.some.inj h).symm)
  | reliableUnicast destination a => exact .inr (.inr (Option.some.inj h).symm)
  | mesh _ _ _ | timesynchOn | timesynchOff | timesynchNetwork => cases h

/-- **An event stalls a list** exactly when the code it runs enqueues a packet on a list whose
timer is orphaned. -/
theorem noStall_step_iff {A : Application σ ε} {ev : NodeEvent ε} {s s' : EcNode σ}
    (hc : s.conn.NoStall) (h : s.step A ev = .ok s') : s'.conn.NoStall ↔ TimerGuard A s ev := by
  refine ⟨fun hc' r hr call hmem t ht ho => ?_, fun hg => hc.step hg h⟩
  have hdata := EcCall.isData_of_enqueues ht
  have hmesh : t ≠ .meshData := hdata.ne (by decide)
  have hstranded : Strands t s.conn s'.conn ∧ s'.conn.sq.prioHeads t ≠ [] := by
    cases ev with
    | process e =>
      cases hr
      obtain ⟨hstrands, hne⟩ := EcNode.runEffects_strands hdata _ ⟨s.conn, _⟩ h
      exact ⟨hstrands, hne call hmem ht⟩
    | receive ch pb =>
      cases EcNode.received_of_step h with
      | ignored hcode _ => rw [hcode] at hr; cases hr
      | acked hcode _ _ _ _ _ _ => rw [hcode] at hr; cases hr
      | duplicate hcode _ _ _ _ _ _ _ => rw [hcode] at hr; cases hr
      | synch hcode _ _ => rw [hcode] at hr; cases hr
      | @delivered a s₁ ha hacc hdeliver hack =>
        rw [EcNode.upcall_of_accepts ha hacc] at hr
        cases hr
        have hlog : Strands t s.conn
            (s.conn.log (.deliver (EcNode.callbackFor ch a) (EcNode.recvArgs pb.p.hdr a))) :=
          .of_eq rfl rfl
        obtain ⟨hrun, hne⟩ := EcNode.runEffects_strands hdata _ ⟨_, _⟩ hdeliver
        have hstore : Strands t s₁.conn
            (s₁.onConn (Ec.storePacketForDupeChecks pb.p.hdr.id)).conn :=
          .of_eq (Ec.sq_store _) (Ec.store_timers _)
        have hthen := hstore.trans (EcNode.sendAck_strands hdata hack)
        exact ⟨(hlog.trans hrun).trans hthen, hthen.list (hne call hmem ht)⟩
    | expire _ | timer _ _ | meshSent | meshTimeout => cases hr
  obtain ⟨hstrands, hne⟩ := hstranded
  have hlisted := (hc' t hmesh hne).1
  rw [(hstrands.orphaned ho).2] at hlisted
  cases hlisted

/-! ### Runs -/

instance (A : Application σ ε) (s : EcNode σ) (ev : NodeEvent ε) : Decidable (TimerGuard A s ev) :=
  decidable_of_iff (∀ r ∈ s.upcall A ev, ∀ call ∈ r.2.filterMap Effect.ecCall,
      call.Timely s.conn) <| by
    simp only [List.mem_filterMap, Effect.ecCall_eq_some]
    refine forall₂_congr fun r _ => ⟨fun h call hmem => h call ⟨_, hmem, rfl⟩, ?_⟩
    rintro h call ⟨e, hmem, rfl⟩
    exact h call hmem

/-- **No list stalls in a guarded run**: whenever packets wait on a list, its timer is armed; and
an event that does not meet the guard stalls one. -/
theorem noStall_of_reachable {A : Application σ ε} {s : EcNode σ}
    (h : (connMachine A).ReachableWhen (TimerGuard A) s) : s.conn.NoStall ∧
      ∀ ev s', (connMachine A).step ev s s' → (s'.conn.NoStall ↔ TimerGuard A s ev) := by
  have hc : s.conn.NoStall := by
    refine h.invariant (I := fun s => s.conn.NoStall) (fun s hinit t _ hne => ?_)
      fun s ev s' hc hg hstep => hc.step hg hstep.2
    rw [show s.conn = .opened from hinit] at hne
    exact absurd rfl hne
  exact ⟨hc, fun ev s' hstep => noStall_step_iff hc hstep.2⟩

/-! ### A packet that is never sent -/

/-- Node `1.0` broadcasts packet `q` for its neighbour `2.0`. -/
def pairSend (q : UInt8) : NodeEvent (List Effect) :=
  .process [.call (.reliableBroadcastNs (some (.single ⟨2, 0⟩)) ⟨⟨1, 0⟩, ⟨1, 0⟩, 0, q, []⟩)]

/-- The neighbour acknowledges the packet. -/
def pairAck (q : UInt8) : NodeEvent (List Effect) :=
  .receive .neighbor ((Frame.mk (initUnicastPacket PacketFlags.ack 0 ⟨1, 0⟩ ⟨2, 0⟩ q)
    (unicastBody ⟨1, 0⟩ [])).received [])

/-- The timer for neighbour data expires, and its event is handled. -/
def pairFires : List (NodeEvent (List Effect)) := [.expire .neighborData, .timer .neighborData true]

/-- Node `1.0`, with the one neighbour `2.0`. -/
def lonePair : Application Unit (List Effect) := .scripted ⟨1, 0⟩ (.single ⟨2, 0⟩)

/-- A packet is enqueued while the timer set by an acknowledgement is running. -/
theorem noStall_pair : ∃ s, (connMachine lonePair).ReachableWhen (TimerGuard lonePair) s ∧
    s.conn.sq.prioHeads .neighborData ≠ [] ∧ (s.conn.timers .neighborData).Armed := by
  have h : ((Machine.run (EcNode.advance lonePair) (pairSend 5 :: pairFires ++ [pairAck 5, pairSend 6])
      ⟨.opened, ()⟩).map fun s => decide (s.conn.sq.prioHeads .neighborData ≠ [])) =
      some true := by decide +kernel
  obtain ⟨s, hrun, hne⟩ := Option.map_eq_some_iff.mp h
  have hne := of_decide_eq_true hne
  have hinit : (connMachine lonePair).init ⟨.opened, ()⟩ := rfl
  have hreach : (connMachine lonePair).ReachableWhen (TimerGuard lonePair) s :=
    Machine.ReachableWhen.of_run (b := fun s ev => decide (TimerGuard lonePair s ev))
      (fun _ _ => of_decide_eq_true) (fun _ _ _ => connMachine_step_of_advance) _
      (.init hinit) (by decide +kernel) hrun
  exact ⟨s, hreach, hne, (noStall_of_reachable hreach).1 .neighborData (by decide) hne⟩

/-- **A packet that is never sent**: an acknowledgement sets the timer while an event of it is
under way; the event takes the timer off the list, and the next packet finds its `etimer`
running.  When that expires nothing happens any more. -/
theorem not_noStall : ∃ s, (connMachine lonePair).Reachable s ∧
    s.conn.sq.prioHeads .neighborData ≠ [] ∧ s.conn.timers .neighborData = ⟨false, false, 0⟩ ∧
      ¬ s.conn.NoStall := by
  have h : ((Machine.run (EcNode.advance lonePair) (pairSend 5 :: pairFires ++
      [.expire .neighborData, pairAck 5, .timer .neighborData true, pairSend 6] ++ pairFires)
      ⟨.opened, ()⟩).map fun s => decide (s.conn.sq.prioHeads .neighborData ≠ [] ∧
        s.conn.timers .neighborData = ⟨false, false, 0⟩)) = some true := by decide +kernel
  obtain ⟨s, hrun, hs⟩ := Option.map_eq_some_iff.mp h
  obtain ⟨hne, htimer⟩ := of_decide_eq_true hs
  refine ⟨s, connMachine_reachable_of_run rfl hrun, hne, htimer, fun hstall => ?_⟩
  have harmed := hstall .neighborData (by decide) hne
  rw [show s.conn.timers (MsgType.timer .neighborData) = _ from htimer] at harmed
  exact absurd harmed.1 Bool.false_ne_true

end EmergencyNet
