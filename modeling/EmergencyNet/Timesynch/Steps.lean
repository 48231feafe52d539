import EmergencyNet.Conn.Upcall

/-!
# What the code for time synchronisation does

The functions for time synchronisation change the level and sequence number a node follows,
the list of its time synchronisation packets, and a timer.  What they do to the list is an
enqueued packet, a packet sent, or nothing.

## Main definitions

* `Ec.tsQueue`, `Ec.level` — the queued time synchronisation packets, and the level followed.
* `TsChange` — the ways the code for time synchronisation can change the two.
* `Ec.Synchronises` — the invariant of a node that takes part.

## Main results

* `EcNode.timesynchRecv_change`, `EcNode.timesynchAsLeader_change`, .. — **what each function
  does.**
-/

namespace EmergencyNet

variable {σ : Type*}

/-- `timesynch_rimeaddr_to_authority`, as a number. -/
def Rimeaddr.authority (a : Rimeaddr) : ℕ := a.u8₀.toNat

/-- The level of a node that has heard of no leader: `AUTHORITY_LEVEL_MAX`, as a number. -/
def noAuthority : ℕ := 0xFF

namespace Ec

variable {c c' : Ec}

/-- The headers of the queued time synchronisation packets, oldest first. -/
def tsQueue (c : Ec) : List Header :=
  (c.sq.prioHeads .timesynchData).map fun i => (c.sq.item i).p.hdr

/-- `authority_level`, as a number. -/
def level (c : Ec) : ℕ := c.ts.authorityLevel.toNat

/-- The node has enqueued a time synchronisation packet of its own. -/
def Led (own : Rimeaddr) (c : Ec) : Prop :=
  ∃ i ns a, Action.enqueue .timesynchData i ns a ∈ c.trace ∧ a.originator = own

/-- The invariant of a node that takes part in time synchronisation: what it follows is no
worse than itself, and while it follows another node its timer is running. -/
structure Synchronises (own : Rimeaddr) (c : Ec) : Prop where
  isOn : c.ts.isOn = true
  level : c.level = noAuthority ∨ c.level ≤ own.authority
  active : c.level < own.authority → (c.timers .timesynch).active = true
  led : (∃ i ns a, Action.enqueue .timesynchData i ns a ∈ c.trace) → c.level ≠ noAuthority

end Ec

/-- The time synchronisation frames among the actions, oldest first. -/
def tsFrames (l : List Action) : List Frame :=
  (l.filterMap fun
    | .frame .timesynch _ f => some f
    | _ => none).reverse

/-- The ways the code for time synchronisation changes the level and the queue; a packet that is
enqueued comes from an originator in `src`. -/
inductive TsChange (src : Rimeaddr → Prop) (c c' : Ec) : Prop
  /-- Neither changes. -/
  | keeps {l : List Action} (hlevel : c'.level = c.level) (hqueue : c'.tsQueue = c.tsQueue)
      (htrace : c'.trace = l ++ c.trace) (hsent : tsFrames l = [])
  /-- The node follows the originator of the packet it enqueues. -/
  | takes {l : List Action} (hdr : Header) (hlevel : c'.level = hdr.originator.authority)
      (hle : c'.level ≤ c.level) (hsrc : src hdr.originator)
      (hqueue : c'.tsQueue = c.tsQueue ++ [hdr])
      (htrace : c'.trace = l ++ c.trace) (hsent : tsFrames l = [])
  /-- The oldest packet is sent. -/
  | sends {l : List Action} (f : Frame) (hlevel : c'.level = c.level)
      (hqueue : c.tsQueue = f.hdr :: c'.tsQueue)
      (htrace : c'.trace = l ++ c.trace) (hsent : tsFrames l = [f])

namespace TsChange

variable {src src' : Rimeaddr → Prop} {c c₀ c' : Ec}

theorem mono (h : TsChange src c c') (hsrc : ∀ o, src o → src' o) : TsChange src' c c' := by
  cases h with
  | keeps hlevel hqueue htrace hsent => exact .keeps hlevel hqueue htrace hsent
  | takes hdr hlevel hle ho hqueue htrace hsent =>
    exact .takes hdr hlevel hle (hsrc _ ho) hqueue htrace hsent
  | sends f hlevel hqueue htrace hsent => exact .sends f hlevel hqueue htrace hsent

/-- A change depends on the level, the queue and the trace before it only. -/
theorem congr (h : TsChange src c c') (hl : c.level = c₀.level) (hq : c.tsQueue = c₀.tsQueue)
    (ht : c.trace = c₀.trace) : TsChange src c₀ c' := by
  cases h with
  | keeps hlevel hqueue htrace hsent =>
    exact .keeps (hlevel.trans hl) (hqueue.trans hq) (ht ▸ htrace) hsent
  | takes hdr hlevel hle ho hqueue htrace hsent =>
    exact .takes hdr hlevel (hle.trans hl.le) ho (hq ▸ hqueue) (ht ▸ htrace) hsent
  | sends f hlevel hqueue htrace hsent =>
    exact .sends f (hlevel.trans hl) (hq ▸ hqueue) (ht ▸ htrace) hsent

theorem level_le (h : TsChange src c c') : c'.level ≤ c.level := by
  cases h with
  | keeps hlevel _ _ _ => exact hlevel.le
  | takes _ _ hle _ _ _ _ => exact hle
  | sends _ hlevel _ _ _ => exact hlevel.le

end TsChange

namespace Ec

variable {c c' : Ec}

/-- A packet is enqueued as the last one. -/
theorem putTimesynch_queue {hdr : Header} (h : c.putTimesynch hdr = .ok c') :
    c'.tsQueue = c.tsQueue ++ [hdr] ∧ c'.ts = c.ts ∧ (c'.timers .timesynch).active = true ∧
      ∃ i, c'.trace = .enqueue .timesynchData i none
        ⟨hdr.originator, hdr.sender, hdr.hops, hdr.seqno, []⟩ :: c.trace := by
  unfold putTimesynch at h
  rw [bind_eq_ok] at h
  obtain ⟨c₁, hput, h⟩ := h
  rw [pure_eq_ok] at h
  have hts : c₁.ts = c.ts := putBroadcast_ts hput
  obtain ⟨i, hsq, -, htrace, -⟩ := putBroadcast_eq_ok hput
  have hqueue : c₁.tsQueue = c.tsQueue ++ [hdr] := by
    unfold tsQueue
    rw [hsq.prioHeads, addTail_self, List.map_append]
    congr 1
    · refine List.map_congr_left fun j hj => ?_
      have hne : j ≠ i := fun heq => hsq.fresh .timesynchData (heq ▸ hj)
      rw [hsq.item_of_ne j hne]
    · simp [hsq.item_self, PacketBuffer.written]
  subst h
  refine ⟨hqueue, hts, ?_, i, htrace⟩
  simp [ctimerSet, setTimer]

/-- The packet that is sent is the oldest one. -/
theorem sendTimesynchData_cases (radio : Bool) (c : Ec) :
    (c.sendTimesynchData radio).ts = c.ts ∧
    (c.sendTimesynchData radio).timers .timesynch = c.timers .timesynch ∧
    ((c.sendTimesynchData radio).tsQueue = c.tsQueue ∧
        (c.sendTimesynchData radio).trace = c.trace ∨
      ∃ i hdr, c.tsQueue = hdr :: (c.sendTimesynchData radio).tsQueue ∧
        (c.sendTimesynchData radio).trace =
          .free i :: .frame .timesynch i ⟨hdr, []⟩ :: c.trace) := by
  refine ⟨sendOnce_ts, ?_, ?_⟩
  · unfold sendTimesynchData sendOnce
    cases c.sq.first .timesynchData with
    | none => rfl
    | some i =>
      cases radio with
      | false => simp [ctimerSet, setTimer]
      | true =>
        simp only [if_true]
        split <;> simp [ctimerSet, setTimer, freePacket, log]
  · -- the packet is sent and freed, or left where it is
    unfold sendTimesynchData sendOnce
    cases hfirst : c.sq.first .timesynchData with
    | none => exact .inl ⟨rfl, rfl⟩
    | some i =>
      cases radio with
      | false => exact .inl ⟨rfl, rfl⟩
      | true =>
        right
        obtain ⟨rest, hheads⟩ : ∃ rest, c.sq.prioHeads .timesynchData = i :: rest := by
          rw [PacketBuffer.first] at hfirst
          exact List.head?_eq_some_iff.mp hfirst
        have hfree : ∀ c' : Ec, c'.sq = c.sq.free i →
            c.tsQueue = (c.sq.item i).p.hdr :: c'.tsQueue := by
          intro c' hsq
          unfold tsQueue
          rw [hsq, hheads]
          simp [hheads]
        simp only [if_true]
        refine ⟨i, (c.sq.item i).p.hdr, hfree _ ?_, ?_⟩ <;> split <;> rfl

end Ec

/-! ### The events -/

namespace EcNode

open Ec

variable {cb : EcCallbacks σ} {s s' : EcNode σ} {own : Rimeaddr}

/-- Who leads a round is on its own level. -/
theorem timesynchAsLeader_level (h : s.timesynchAsLeader cb = .ok s') :
    s'.conn.level = (cb.addr s.app).authority := by
  unfold timesynchAsLeader at h
  rw [bind_eq_ok] at h
  obtain ⟨s₁, hput, hcall⟩ := h
  rw [callTimesynch_conn hcall]
  obtain ⟨c₁, hrun, rfl⟩ := tryConn_eq_ok.mp hput
  obtain ⟨-, hts, -⟩ := putTimesynch_queue hrun
  rw [level, hts]
  rfl

/-- Leading a round, at a node that follows nobody better. -/
theorem timesynchAsLeader_change (h : s.timesynchAsLeader cb = .ok s') (haddr : cb.addr s.app = own)
    (hown : own.authority < noAuthority) (hs : s.conn.Synchronises own)
    (hle : own.authority ≤ s.conn.level) :
    TsChange (· = own) s.conn s'.conn ∧ s'.conn.Synchronises own ∧
      s'.conn.level = own.authority := by
  have hlevel : s'.conn.level = own.authority := haddr ▸ timesynchAsLeader_level h
  unfold timesynchAsLeader at h
  rw [bind_eq_ok] at h
  obtain ⟨s₁, hput, hcall⟩ := h
  rw [callTimesynch_conn hcall] at hlevel ⊢
  obtain ⟨c₁, hrun, rfl⟩ := tryConn_eq_ok.mp hput
  obtain ⟨hqueue, hts, hactive, i, htrace⟩ := putTimesynch_queue hrun
  change c₁.level = own.authority at hlevel
  have hon : c₁.ts.isOn = true := by
    rw [hts]
    exact hs.isOn
  refine ⟨.takes _ ?_ (hlevel ▸ hle) haddr hqueue (l := [_]) htrace rfl, ⟨hon, ?_, ?_, ?_⟩, hlevel⟩
  · rw [hlevel, ← haddr]
    rfl
  · exact .inr hlevel.le
  · exact fun _ => hactive
  · rw [hlevel]
    exact fun _ => hown.ne

/-- `ec_timesynch_network` leads a round unless the timer runs, as it does while the node
follows another one. -/
theorem ecTimesynchNetwork_change (h : s.ecTimesynchNetwork cb = .ok s')
    (haddr : cb.addr s.app = own) (hown : own.authority < noAuthority)
    (hs : s.conn.Synchronises own) :
    TsChange (· = own) s.conn s'.conn ∧ s'.conn.Synchronises own := by
  unfold ecTimesynchNetwork at h
  split at h
  · split at h
    · next hexpired =>
      have hle : own.authority ≤ s.conn.level := by
        rw [← not_lt]
        intro hlt
        simp [ctimerExpired, hs.active hlt] at hexpired
      obtain ⟨hchange, hs', -⟩ := timesynchAsLeader_change h haddr hown hs hle
      exact ⟨hchange, hs'⟩
    · cases h
      exact ⟨.keeps (l := []) rfl rfl rfl rfl, hs⟩
  · cases h

/-- Following the originator of a packet, and passing the packet on. -/
theorem forwardTimesynch_change {hdr : Header}
    (h : (s.onConn fun c => { c with ts := { s.conn.ts with
      authorityLevel := hdr.originator.u8₀
      authoritySeqno := hdr.seqno } }).forwardTimesynch cb hdr = .ok s')
    (ho : hdr.originator.authority < noAuthority)
    (hs : s.conn.Synchronises own) (hle : hdr.originator.authority ≤ s.conn.level)
    (hown : hdr.originator.authority ≤ own.authority) :
    TsChange (fun o => o = own ∨ o = hdr.originator) s.conn s'.conn ∧ s'.conn.Synchronises own ∧
      s'.conn.level = hdr.originator.authority := by
  obtain ⟨c₁, hrun, rfl⟩ := tryConn_eq_ok.mp h
  obtain ⟨hqueue, hts, hactive, i, htrace⟩ := putTimesynch_queue hrun
  have hlevel : c₁.level = hdr.originator.authority := by
    rw [level, hts]
    rfl
  have hon : c₁.ts.isOn = true := by
    rw [hts]
    exact hs.isOn
  refine ⟨.takes
    (initBroadcastPacket PacketFlags.timesynch (hdr.hops + 1) hdr.originator _ hdr.seqno)
    hlevel (hlevel ▸ hle) (.inr rfl) hqueue (l := [_]) htrace rfl, ⟨hon, ?_, ?_, ?_⟩, hlevel⟩
  · exact .inr (hlevel ▸ hown)
  · exact fun _ => hactive
  · rw [hlevel]
    exact fun _ => ho.ne

/-- A received packet: afterwards the node follows nobody worse than its originator. -/
theorem timesynchRecv_change {pb : Packetbuf} (h : s.timesynchRecv cb pb = .ok s')
    (haddr : cb.addr s.app = own) (hown : own.authority < noAuthority)
    (ho : pb.p.hdr.originator.authority < noAuthority) (hs : s.conn.Synchronises own) :
    TsChange (fun o => o = own ∨ o = pb.p.hdr.originator) s.conn s'.conn ∧
      s'.conn.Synchronises own ∧ s'.conn.level ≤ pb.p.hdr.originator.authority := by
  -- a packet that is ignored
  have hquiet : ∀ s₁ : EcNode σ, s₁.conn = s.conn → s.conn.level ≤ pb.p.hdr.originator.authority →
      TsChange (fun o => o = own ∨ o = pb.p.hdr.originator) s.conn s₁.conn ∧
        s₁.conn.Synchronises own ∧ s₁.conn.level ≤ pb.p.hdr.originator.authority := by
    intro s₁ heq hle
    rw [heq]
    exact ⟨.keeps (l := []) rfl rfl rfl rfl, hs, hle⟩
  unfold timesynchRecv at h
  simp only at h
  rw [if_pos hs.isOn] at h
  split at h
  swap
  · cases h
  split at h
  · -- a better leader, unless the node itself is better still
    next hlt =>
    have hlt : pb.p.hdr.originator.authority < s.conn.level := UInt8.lt_iff_toNat_lt.mp hlt
    rw [bind_eq_ok] at h
    obtain ⟨s₁, h, hcall⟩ := h
    rw [callTimesynch_conn hcall]
    split at h
    · next husurp =>
      rw [haddr] at husurp
      have husurp : own.authority < pb.p.hdr.originator.authority :=
        UInt8.lt_iff_toNat_lt.mp husurp
      have hle : own.authority ≤ s.conn.level := (husurp.trans hlt).le
      obtain ⟨hchange, hs₁, hlevel⟩ := timesynchAsLeader_change h haddr hown hs hle
      exact ⟨hchange.mono fun _ => .inl, hs₁, hlevel.le.trans husurp.le⟩
    · next husurp =>
      rw [haddr] at husurp
      have husurp : pb.p.hdr.originator.authority ≤ own.authority :=
        not_lt.mp fun hlt => husurp (UInt8.lt_iff_toNat_lt.mpr hlt)
      obtain ⟨hchange, hs₁, hlevel⟩ := forwardTimesynch_change h ho hs hlt.le husurp
      exact ⟨hchange, hs₁, hlevel.le⟩
  · next hlt =>
    have hge : s.conn.level ≤ pb.p.hdr.originator.authority :=
      not_lt.mp fun h => hlt (UInt8.lt_iff_toNat_lt.mpr h)
    split at h
    · -- the leader the node follows
      next heq =>
      have hlevel : pb.p.hdr.originator.authority = s.conn.level := congrArg UInt8.toNat heq
      have hle : pb.p.hdr.originator.authority ≤ own.authority :=
        hlevel ▸ hs.level.resolve_left (hlevel ▸ ho.ne)
      split at h
      · rw [bind_eq_ok] at h
        obtain ⟨s₁, h, hcall⟩ := h
        rw [callTimesynch_conn hcall]
        obtain ⟨hchange, hs₁, hlevel'⟩ := forwardTimesynch_change h ho hs hlevel.le hle
        exact ⟨hchange, hs₁, hlevel'.le⟩
      · split at h
        · exact hquiet s' (callTimesynch_conn h) hge
        · cases h
          exact hquiet s rfl hge
    · cases h
      exact hquiet s rfl hge

/-- A timer of the time synchronisation expires; not the one of a node that follows another. -/
theorem expire_change {t : Timer} (ht : t = .timesynch ∨ t = .timesynchData)
    (hleads : t = .timesynch → own.authority ≤ s.conn.level) (hs : s.conn.Synchronises own) :
    TsChange (· = own) s.conn (s.onConn (ctimerPost t)).conn ∧
      (s.onConn (ctimerPost t)).conn.Synchronises own := by
  refine ⟨.keeps (l := []) rfl rfl rfl rfl, hs.isOn, hs.level, fun hlt => ?_, hs.led⟩
  rcases ht with rfl | rfl
  · exact absurd hlt (not_lt.mpr (hleads rfl))
  · have hne : Timer.timesynch ≠ .timesynchData := by decide
    change (Function.update s.conn.timers _ _ Timer.timesynch).active = true
    rw [Function.update_of_ne hne]
    exact hs.active hlt

/-- The event of the timer that makes a node lead, when the timer is on `ctimer_list`. -/
theorem level_timer {ε : Type*} {A : Application σ ε} {radio : Bool}
    (h : s.step A (.timer .timesynch radio) = .ok s')
    (hlisted : (s.conn.timers .timesynch).listed = true) :
    s'.conn.level = (A.addr s.app).authority := by
  rw [step, if_pos hlisted] at h
  exact timesynchAsLeader_level (s := s.onConn (ctimerTake .timesynch)) h

/-- The event of a timer of the time synchronisation is handled. -/
theorem timer_change {ε : Type*} {A : Application σ ε} {t : Timer} {radio : Bool}
    (h : s.step A (.timer t radio) = .ok s') (ht : t = .timesynch ∨ t = .timesynchData)
    (haddr : A.addr s.app = own) (hown : own.authority < noAuthority)
    (hleads : t = .timesynch → (s.conn.timers .timesynch).listed = true →
      own.authority ≤ s.conn.level) (hs : s.conn.Synchronises own) :
    TsChange (· = own) s.conn s'.conn ∧ s'.conn.Synchronises own := by
  -- taking the event of a timer does not change whether a timer runs
  have htake : ((s.onConn (ctimerTake t)).conn.timers .timesynch).active =
      (s.conn.timers .timesynch).active := by
    change (Function.update s.conn.timers _ _ Timer.timesynch).active = _
    rcases ht with rfl | rfl
    · rw [Function.update_self]
    · rw [Function.update_of_ne (by decide)]
  have hs₁ : (s.onConn (ctimerTake t)).conn.Synchronises own :=
    ⟨hs.isOn, hs.level, fun hlt => htake.trans (hs.active hlt), hs.led⟩
  rw [step] at h
  by_cases hlisted : (s.conn.timers t).listed = true
  swap
  · rw [if_neg hlisted] at h
    rw [← Except.ok.inj h]
    exact ⟨.keeps (l := []) rfl rfl rfl rfl, hs₁⟩
  rw [if_pos hlisted] at h
  -- the timer of the leader starts a round, the other one sends what is queued
  rcases ht with rfl | rfl
  · obtain ⟨hchange, hs', -⟩ := timesynchAsLeader_change h haddr hown hs₁ (hleads rfl hlisted)
    exact ⟨hchange.congr rfl rfl rfl, hs'⟩
  · rw [← Except.ok.inj h]
    obtain ⟨hts, htimer, hqueue⟩ := sendTimesynchData_cases radio
      (s.onConn (ctimerTake .timesynchData)).conn
    have hlevel : (sendTimesynchData radio (s.onConn (ctimerTake .timesynchData)).conn).level =
        s.conn.level := congrArg (UInt8.toNat ∘ Timesynch.authorityLevel) hts
    have hsync : (sendTimesynchData radio (s.onConn (ctimerTake .timesynchData)).conn).Synchronises
        own := by
      refine ⟨?_, hlevel ▸ hs.level, fun hlt => ?_, ?_⟩
      · rw [hts]
        exact hs.isOn
      · rw [htimer]
        exact hs₁.active (hlevel ▸ hlt)
      · rw [hlevel]
        rintro ⟨i, ns, a, hmem⟩
        refine hs.led ⟨i, ns, a, ?_⟩
        rcases hqueue with ⟨-, htrace⟩ | ⟨j, hdr, -, htrace⟩
        · rwa [htrace] at hmem
        · rw [htrace] at hmem
          simpa [onConn, ctimerTake, setTimer] using hmem
    refine ⟨?_, hsync⟩
    rcases hqueue with ⟨hqueue, htrace⟩ | ⟨j, hdr, hqueue, htrace⟩
    · exact .keeps (l := []) hlevel hqueue htrace rfl
    · exact .sends (l := [_, _]) ⟨hdr, []⟩ hlevel hqueue htrace rfl

end EcNode

end EmergencyNet
