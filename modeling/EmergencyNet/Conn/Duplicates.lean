import EmergencyNet.Conn.Moves
import EmergencyNet.Lib.Window

/-!
# At-most-once delivery

A node keeps the pairs of the packets it has handled in the duplicate queue and delivers a
packet only when its pair is not there.  The queue is the window of the history of stores.
A pair that is in the queue when the node sends a packet with it is not stored again, so the
window counts from the first store.

## Main definitions

* `stores` — the history of stores.
* `DupeWindow` — the duplicate queue is the window of the history of stores.
* `Settled` — every delivery of a pair was of one that is not in the window, and has been
  followed by a store of it.
* `OthersStored` — enough other pairs have been stored.

## Main results

* `atMostOnce_of_reachable` — **between two deliveries of a pair `DUPE_QUEUE_LENGTH` other
  pairs are stored.**
* `not_atMostOnce_resend` — a packet sent again is not protected again.
-/

namespace EmergencyNet

variable {env : MoveEnv} {c c' : Ec} {l l₁ l₂ : List Action}

/-! ### The history of stores -/

/-- The pair an action stores. -/
def Action.stored : Action → Option PacketId
  | .store id => some id
  | _ => none

/-- The pairs stored, newest first. -/
def stores (l : List Action) : List PacketId := l.filterMap Action.stored

@[simp] theorem stores_nil : stores [] = [] := rfl

@[simp] theorem stores_append : stores (l₁ ++ l₂) = stores l₁ ++ stores l₂ := List.filterMap_append

@[simp] theorem stores_cons_store (id : PacketId) : stores (.store id :: l) = id :: stores l := rfl

/-- The action neither stores a pair nor calls a callback. -/
def Action.Silent : Action → Prop
  | .store _ | .deliver _ _ => False
  | _ => True

theorem stores_of_silent (h : ∀ a ∈ l, a.Silent) : stores l = [] := by
  rw [stores, List.filterMap_eq_nil_iff]
  intro a ha
  cases a with
  | store id => exact (h _ ha).elim
  | _ => rfl

/-- The connection has stored and delivered nothing. -/
structure Ec.SilentTo (c c' : Ec) : Prop where
  dq : c'.dq = c.dq
  trace : ∃ l, c'.trace = l ++ c.trace ∧ ∀ a ∈ l, a.Silent

namespace Ec.SilentTo

theorem refl (c : Ec) : c.SilentTo c := ⟨rfl, [], rfl, fun _ h => by cases h⟩

theorem trans {c₁ : Ec} (h : c.SilentTo c₁) (h' : c₁.SilentTo c') : c.SilentTo c' := by
  obtain ⟨hdq, l, hl, hsilent⟩ := h
  obtain ⟨hdq', l', hl', hsilent'⟩ := h'
  refine ⟨hdq'.trans hdq, l' ++ l, by rw [hl', hl, List.append_assoc], fun a ha => ?_⟩
  rcases List.mem_append.mp ha with ha | ha
  · exact hsilent' a ha
  · exact hsilent a ha

/-- One action that is silent. -/
theorem of_action {a : Action} (hdq : c'.dq = c.dq) (htrace : c'.trace = a :: c.trace)
    (ha : a.Silent) : c.SilentTo c' := by
  refine ⟨hdq, [a], htrace, fun b hb => ?_⟩
  rw [List.mem_singleton] at hb
  exact hb ▸ ha

theorem of_same (h : c.Same c') : c.SilentTo c' := ⟨h.dq, [], h.trace, fun _ h => by cases h⟩

end Ec.SilentTo

theorem Ec.silentTo_freePacket (i : ℕ) : c.SilentTo (c.freePacket i) :=
  .of_action (a := .free i) rfl rfl trivial

theorem Ec.Drops.silentTo {t : MsgType} {limit : UInt8} (h : Ec.Drops t limit c c') :
    c.SilentTo c' := by
  induction h with
  | refl => exact .refl c
  | tail _ hdrop ih =>
    obtain ⟨i, -, -, rfl⟩ := hdrop
    exact ih.trans (Ec.silentTo_freePacket i)

theorem Ec.silentTo_sendNeighborData {radio : Bool} (h : c.sendNeighborData radio = .ok c') :
    c.SilentTo c' := by
  obtain ⟨c₁, hdrops, -, hsent⟩ := sendNeighborData_cases h
  cases hsent with
  | emptied => exact hdrops.silentTo
  | refused => exact hdrops.silentTo.trans (.of_same (Ec.same_ctimerSet _))
  | @sent i j f => exact hdrops.silentTo.trans (.of_action (a := .frame .neighbor i f) rfl rfl trivial)

theorem EcNode.silentTo_ackRecv (timer : Timer) (hdr : Header) :
    c.SilentTo (EcNode.ackRecv timer hdr c) := by
  obtain ⟨-, heq⟩ | ⟨i, -, -, hdq, ⟨-, htrace⟩ | ⟨-, htrace⟩⟩ := EcNode.ackRecv_cases timer hdr c
  · rw [heq]
    exact .refl c
  · exact .of_action hdq htrace trivial
  · exact ⟨hdq, [], htrace, fun _ h => by cases h⟩

/-- A move is silent, or stores one pair. -/
theorem Move.silent_or_store (h : Move env c c') :
    c.SilentTo c' ∨ ∃ id, c.isDupe id = false ∧ c'.dq = Ec.dqPush c.dq id ∧
      c'.trace = .store id :: c.trace := by
  cases h with
  | quiet h => exact .inl (.of_same h)
  | data _ _ _ _ _ hdq htrace => exact .inl (.of_action hdq htrace trivial)
  | @store _ a _ hnew _ hdq htrace => exact .inr ⟨a.id, hnew, hdq, htrace⟩
  | control _ _ _ hdq htrace => exact .inl (.of_action hdq htrace trivial)
  | confirm _ _ _ _ _ hdq htrace => exact .inl (.of_action hdq htrace trivial)
  | acked => exact .inl (EcNode.silentTo_ackRecv _ _)
  | once _ _ _ _ hdq htrace =>
    refine .inl ⟨hdq, [_, _], htrace, fun a ha => ?_⟩
    simp only [List.mem_cons, List.not_mem_nil, or_false] at ha
    rcases ha with rfl | rfl <;> trivial
  | neighborData _ h => exact .inl (Ec.silentTo_sendNeighborData h)
  | targeted _ _ _ hdq htrace => exact .inl (.of_action hdq htrace trivial)
  | meshed _ _ hdq htrace => exact .inl (.of_action hdq htrace trivial)
  | dropped _ _ hdq htrace => exact .inl (.of_action hdq htrace trivial)

/-! ### The window -/

/-- The duplicate queue holds the pairs stored last, none of which was stored while it was
there. -/
structure DupeWindow (c : Ec) : Prop where
  dq : c.dq.toList = (stores c.trace).take dupeQueueLength
  windowed : Windowed dupeQueueLength (stores c.trace)

theorem dupeWindow_opened : DupeWindow .opened := ⟨rfl, trivial⟩

theorem Move.dupeWindow (h : Move env c c') (hw : DupeWindow c) : DupeWindow c' := by
  obtain ⟨hdq, l, htrace, hsilent⟩ | ⟨id, hnew, hdq, htrace⟩ := h.silent_or_store
  · have hstores : stores c'.trace = stores c.trace := by
      rw [htrace, stores_append, stores_of_silent hsilent, List.nil_append]
    exact ⟨by rw [hdq, hstores, hw.dq], by rw [hstores]; exact hw.windowed⟩
  · have hstores : stores c'.trace = id :: stores c.trace := by rw [htrace, stores_cons_store]
    have hfresh : id ∉ (stores c.trace).take dupeQueueLength := by
      rw [← hw.dq, ← Ec.isDupe_iff, hnew]
      simp
    refine ⟨?_, ?_⟩
    · rw [hdq, Ec.toList_dqPush, hw.dq, hstores, dupeQueueLength, List.take_succ_cons,
        List.take_succ_cons, List.take_take]
      rfl
    · rw [hstores]
      exact ⟨hfresh, hw.windowed⟩

theorem Moves.dupeWindow (h : Moves env c c') (hw : DupeWindow c) : DupeWindow c' := by
  induction h with
  | refl => exact hw
  | tail _ hmove ih => exact hmove.dupeWindow ih

/-! ### Deliveries -/

/-- No callback was called. -/
def NoDelivery (l : List Action) : Prop := ∀ k r, .deliver k r ∉ l

theorem NoDelivery.append (h₁ : NoDelivery l₁) (h₂ : NoDelivery l₂) : NoDelivery (l₁ ++ l₂) :=
  fun k r h => (List.mem_append.mp h).elim (h₁ k r) (h₂ k r)

/-- Moves call no callback. -/
theorem Moves.trace (h : Moves env c c') : ∃ l, c'.trace = l ++ c.trace ∧ NoDelivery l := by
  induction h with
  | refl => exact ⟨[], rfl, fun k r h => by cases h⟩
  | tail _ hmove ih =>
    obtain ⟨l, htrace, hno⟩ := ih
    obtain ⟨-, m, hm, hsilent⟩ | ⟨id, -, -, hm⟩ := hmove.silent_or_store
    · have hnom : NoDelivery m := fun k r hmem => hsilent _ hmem
      exact ⟨m ++ l, by rw [hm, htrace, List.append_assoc], hnom.append hno⟩
    · have hnom : NoDelivery [.store id] := fun k r hmem => by simp at hmem
      exact ⟨[.store id] ++ l, by rw [hm, htrace]; rfl, hnom.append hno⟩

theorem Moves.mem_trace {a : Action} (h : Moves env c c') (ha : a ∈ c.trace) : a ∈ c'.trace := by
  obtain ⟨l, htrace, -⟩ := h.trace
  rw [htrace]
  exact List.mem_append_right l ha

theorem Ec.trace_store (id : PacketId) :
    ∃ l, (c.storePacketForDupeChecks id).trace = l ++ c.trace := by
  unfold Ec.storePacketForDupeChecks
  split
  · exact ⟨[], rfl⟩
  · exact ⟨[.store id], rfl⟩

/-- What was done stays done. -/
theorem Shape.trace (h : Shape env c c') : ∃ l, c'.trace = l ++ c.trace := by
  cases h with
  | moves h =>
    obtain ⟨l, hl, -⟩ := h.trace
    exact ⟨l, hl⟩
  | @received k r c₁ _ _ h₁ h₂ =>
    obtain ⟨l₁, hl₁, -⟩ := h₁.trace
    obtain ⟨l, hl⟩ := Ec.trace_store (c := c₁) r.id
    obtain ⟨l₂, hl₂, -⟩ := h₂.trace
    refine ⟨l₂ ++ l ++ l₁ ++ [.deliver k r], ?_⟩
    rw [hl₂, hl, hl₁]
    simp [Ec.log]

/-- Every delivery was of a pair outside the window, and its pair was stored before the next
one. -/
def Settled (l : List Action) : Prop :=
  ∀ l₁ k r l₂, l = l₁ ++ .deliver k r :: l₂ →
    r.id ∉ (stores l₂).take dupeQueueLength ∧
      ∃ m m', l₁ = m' ++ m ∧ r.id ∈ stores m ∧ NoDelivery m

/-- Where a delivery stands in a history that has been extended. -/
theorem append_eq_append_cons {a : Action} {new old : List Action}
    (h : new ++ old = l₁ ++ a :: l₂) :
    (∃ m, new = l₁ ++ a :: m ∧ l₂ = m ++ old) ∨ ∃ m, l₁ = new ++ m ∧ old = m ++ a :: l₂ := by
  obtain ⟨m, hl₁, hold⟩ | ⟨m, hnew, hcons⟩ := List.append_eq_append_iff.mp h
  · exact .inr ⟨m, hl₁, hold⟩
  · cases m with
    | nil => exact .inr ⟨[], by rw [hnew, List.append_nil, List.append_nil], hcons.symm⟩
    | cons b m =>
      rw [List.cons_append, List.cons.injEq] at hcons
      exact .inl ⟨m, by rw [hnew, hcons.1], hcons.2⟩

/-- Deliveries stay settled when nothing is delivered. -/
theorem Settled.append {new old : List Action} (h : Settled old) (hno : NoDelivery new) :
    Settled (new ++ old) := by
  intro l₁ k r l₂ heq
  obtain ⟨m, hnew, -⟩ | ⟨m, hl₁, hold⟩ := append_eq_append_cons heq
  · refine absurd ?_ (hno k r)
    rw [hnew]
    exact List.mem_append_right l₁ List.mem_cons_self
  · obtain ⟨hfresh, m₁, m₂, hm, hstored, hnom⟩ := h m k r l₂ hold
    exact ⟨hfresh, m₁, new ++ m₂, by rw [hl₁, hm, List.append_assoc], hstored, hnom⟩

/-- A delivery is settled once its pair has been stored. -/
theorem Settled.append_delivery {new old : List Action} {k : Callback} {r : RecvArgs}
    (h : Settled old) (hfresh : r.id ∉ (stores old).take dupeQueueLength) (hno : NoDelivery new)
    (hstored : r.id ∈ stores new) : Settled (new ++ .deliver k r :: old) := by
  intro l₁ k' r' l₂ heq
  obtain ⟨m, hnew, -⟩ | ⟨m, hl₁, hold⟩ := append_eq_append_cons heq
  · refine absurd ?_ (hno k' r')
    rw [hnew]
    exact List.mem_append_right l₁ List.mem_cons_self
  · cases m with
    | nil =>
      rw [List.nil_append, List.cons.injEq, Action.deliver.injEq] at hold
      obtain ⟨⟨-, rfl⟩, rfl⟩ := hold
      exact ⟨hfresh, new, [], by rw [hl₁, List.append_nil, List.nil_append], hstored, hno⟩
    | cons b m =>
      rw [List.cons_append, List.cons.injEq] at hold
      obtain ⟨hfresh', m₁, m₂, hm, hstored', hnom⟩ := h m k' r' l₂ hold.2
      exact ⟨hfresh', m₁, new ++ b :: m₂, by rw [hl₁, hm]; simp, hstored', hnom⟩

/-- The window and the deliveries before an event, after it. -/
theorem Shape.settled (h : Shape env c c') (hw : DupeWindow c) (hs : Settled c.trace) :
    DupeWindow c' ∧ Settled c'.trace := by
  cases h with
  | moves h =>
    obtain ⟨l, htrace, hno⟩ := h.trace
    exact ⟨h.dupeWindow hw, htrace ▸ hs.append hno⟩
  | @received k r c₁ _ hnew h₁ h₂ =>
    have hwlog : DupeWindow (c.log (.deliver k r)) := ⟨hw.dq, hw.windowed⟩
    have hw₁ : DupeWindow c₁ := h₁.dupeWindow hwlog
    have hfresh : r.id ∉ (stores c.trace).take dupeQueueLength := by
      rw [← hw.dq, ← Ec.isDupe_iff, hnew]
      simp
    obtain ⟨l₁, htrace₁, hno₁⟩ := h₁.trace
    obtain ⟨l₂, htrace₂, hno₂⟩ := h₂.trace
    cases hdupe : c₁.isDupe r.id with
    | true =>
      -- the callback has sent a packet with the pair of the one it was given
      rw [Ec.store_of_isDupe hdupe] at h₂ htrace₂
      have hstored : r.id ∈ stores l₁ := by
        have hmem := Ec.isDupe_iff.mp hdupe
        rw [hw₁.dq, htrace₁, stores_append] at hmem
        exact mem_of_mem_take_append hmem hfresh
      refine ⟨h₂.dupeWindow hw₁, ?_⟩
      have hsettled : Settled (l₁ ++ .deliver k r :: c.trace) :=
        hs.append_delivery hfresh hno₁ hstored
      rw [htrace₂, htrace₁]
      exact hsettled.append hno₂
    | false =>
      have hstore : Move .any c₁ (c₁.storePacketForDupeChecks r.id) := by
        rw [Ec.store_of_not_isDupe hdupe]
        exact .store (a := ⟨r.originator, r.sender, r.hops, r.seqno, []⟩) trivial hdupe rfl rfl rfl
      refine ⟨h₂.dupeWindow (hstore.dupeWindow hw₁), ?_⟩
      have hno : NoDelivery (.store r.id :: l₁) := by
        have hone : NoDelivery [.store r.id] := fun k r hmem => by simp at hmem
        exact hone.append hno₁
      have hsettled : Settled (.store r.id :: l₁ ++ .deliver k r :: c.trace) :=
        hs.append_delivery hfresh hno List.mem_cons_self
      rw [htrace₂, Ec.store_of_not_isDupe hdupe]
      change Settled (l₂ ++ (.store r.id :: c₁.trace))
      rw [htrace₁]
      exact hsettled.append hno₂

/-! ### Runs -/

/-- Enough pairs other than `id` have been stored, all of them different. -/
def OthersStored (l : List Action) (id : PacketId) : Prop :=
  ∃ w : List PacketId, w.Sublist (stores l) ∧ w.Nodup ∧ w.length = dupeQueueLength ∧ id ∉ w

/-- A pair that was stored and is delivered has left the window in between. -/
theorem others_of_settled {a b : List PacketId} {k : Callback} {r : RecvArgs}
    (hw : Windowed dupeQueueLength (stores (l₁ ++ .deliver k r :: l)))
    (hs : Settled (l₁ ++ .deliver k r :: l)) (hl : stores l = a ++ r.id :: b) :
    ∃ w : List PacketId, w.Sublist a ∧ w.Nodup ∧ w.length = dupeQueueLength ∧ r.id ∉ w := by
  obtain ⟨hfresh, -⟩ := hs l₁ k r l rfl
  have hwl : Windowed dupeQueueLength (stores l) := by
    rw [stores_append] at hw
    exact hw.of_append
  rw [hl] at hwl hfresh
  exact hwl.exists_others hfresh

variable {σ ε : Type*} {A : Application σ ε}

theorem settled_of_reachable {s : EcNode σ} (h : (connMachine A).Reachable s) :
    DupeWindow s.conn ∧ Settled s.conn.trace := by
  refine h.invariant (I := fun s => DupeWindow s.conn ∧ Settled s.conn.trace) ?_ ?_
  · intro s hinit
    rw [show s.conn = .opened from hinit]
    refine ⟨dupeWindow_opened, fun l₁ k r l₂ heq => ?_⟩
    exact absurd heq (by simp [Ec.opened])
  · intro s ev s' hinv _ hstep
    exact (EcNode.step_shape (ev.fits_any A s s') hstep.2).settled hinv.1 hinv.2

/-- **Between two deliveries of a pair enough other pairs are stored**, and also between a
store of a pair and its delivery; the duplicate queue holds the pairs stored last, none
twice; and a packet that is sent has its pair there. -/
theorem atMostOnce_of_reachable {s : EcNode σ} (h : (connMachine A).Reachable s) :
    s.conn.dq.toList.Nodup ∧ s.conn.dq.toList = (stores s.conn.trace).take dupeQueueLength ∧
    (∀ l₁ l₂ l₃ k k' r r', s.conn.trace = l₁ ++ .deliver k' r' :: (l₂ ++ .deliver k r :: l₃) →
      r'.id = r.id → OthersStored l₂ r.id) ∧
    (∀ l₁ l₂ l₃ k r, s.conn.trace = l₁ ++ .deliver k r :: (l₂ ++ .store r.id :: l₃) →
      OthersStored l₂ r.id) ∧
    (∀ t timer ns a c', s.conn.sendData t timer ns a = .ok c' → c'.isDupe a.id = true) := by
  obtain ⟨hw, hs⟩ := settled_of_reachable h
  refine ⟨hw.dq ▸ hw.windowed.nodup_take, hw.dq, ?_, ?_, ?_⟩
  · intro l₁ l₂ l₃ k k' r r' htrace hid
    have hw' := hw.windowed
    rw [htrace] at hw' hs
    obtain ⟨-, m, m', hm, hstored, hno⟩ := hs (l₁ ++ .deliver k' r' :: l₂) k r l₃ (by simp)
    -- the pair was stored before the second delivery
    have hl₂ : r.id ∈ stores l₂ := by
      obtain ⟨n, -, rfl⟩ | ⟨n, -, hn⟩ := append_eq_append_cons hm.symm
      · rw [stores_append]
        exact List.mem_append_right _ hstored
      · refine absurd ?_ (hno k' r')
        rw [hn]
        exact List.mem_append_right n List.mem_cons_self
    obtain ⟨a, b, hab⟩ := List.append_of_mem hl₂
    have hstores : stores (l₂ ++ .deliver k r :: l₃) = a ++ r'.id :: (b ++ stores l₃) := by
      rw [hid, stores_append, hab, List.append_assoc, List.cons_append]
      rfl
    obtain ⟨w, hsub, hnodup, hlen, hmem⟩ := others_of_settled hw' hs hstores
    exact ⟨w, hsub.trans (hab ▸ List.sublist_append_left a _), hnodup, hlen, hid ▸ hmem⟩
  · intro l₁ l₂ l₃ k r htrace
    have hw' := hw.windowed
    rw [htrace] at hw' hs
    exact others_of_settled hw' hs (by rw [stores_append, stores_cons_store])
  · intro t timer ns a c' hsend
    unfold Ec.sendData at hsend
    rw [bind_eq_ok] at hsend
    obtain ⟨c₁, -, hsend⟩ := hsend
    rw [pure_eq_ok] at hsend
    have hstored := Ec.isDupe_store c₁ a.id
    have hdq := (Ec.same_ite (c := c₁.storePacketForDupeChecks a.id)
      (p := (c₁.storePacketForDupeChecks a.id).ctimerExpired timer = true) timer).dq
    rw [← hsend, Ec.isDupe_iff]
    rw [Ec.isDupe_iff] at hstored
    exact hdq ▸ hstored

/-! ### A packet sent again -/

/-- The packet the node sends twice. -/
def resentArgs : SendArgs := ⟨⟨1, 0⟩, ⟨1, 0⟩, 0, 0, []⟩

/-- A broadcast frame with sequence number `i` of the given originator, from node `2.0`. -/
def floodFrame (originator : Rimeaddr) (i : UInt8) : Packetbuf :=
  (Frame.mk (initBroadcastPacket 0 1 originator ⟨2, 0⟩ i) []).received []

/-- The node sends a packet, hears 23 others, sends the packet again, hears one more, and
then the packet comes back. -/
def resendRun : List (NodeEvent (List Effect)) :=
  let send : NodeEvent (List Effect) := .process [.call (.broadcast none resentArgs)]
  let hear i : NodeEvent (List Effect) := .receive .broadcast (floodFrame ⟨3, 0⟩ (UInt8.ofNat i))
  send :: (List.range 23).map hear ++ [send, hear 23, .receive .broadcast (floodFrame ⟨1, 0⟩ 0)]

/-- The packet that comes back, as it is delivered. -/
def resentBack : RecvArgs := ⟨⟨1, 0⟩, ⟨2, 0⟩, 1, 0, [], 0⟩

theorem run_resend : ∃ s : EcNode Unit,
    Machine.run (EcNode.advance (.scripted ⟨1, 0⟩ .empty)) resendRun ⟨.opened, ()⟩ = some s ∧
      s.conn.trace.take 5 = [.store (⟨1, 0⟩, 0), .deliver .broadcastRecv resentBack,
        .store (⟨3, 0⟩, 23), .deliver .broadcastRecv ⟨⟨3, 0⟩, ⟨2, 0⟩, 1, 23, [], 0⟩,
        .enqueue .broadcastData 1 none resentArgs] := by
  have h : ((Machine.run (EcNode.advance (.scripted ⟨1, 0⟩ .empty)) resendRun
      (⟨.opened, ()⟩ : EcNode Unit)).map fun s => s.conn.trace.take 5) =
      some [.store (⟨1, 0⟩, 0), .deliver .broadcastRecv resentBack,
        .store (⟨3, 0⟩, 23), .deliver .broadcastRecv ⟨⟨3, 0⟩, ⟨2, 0⟩, 1, 23, [], 0⟩,
        .enqueue .broadcastData 1 none resentArgs] := by decide +kernel
  obtain ⟨s, hrun, htrace⟩ := Option.map_eq_some_iff.mp h
  exact ⟨s, hrun, htrace⟩

/-- **A packet sent again is not protected again**: it is delivered to the node that sent it
although a single pair has been stored in between. -/
theorem not_atMostOnce_resend :
    ∃ s : EcNode Unit, (connMachine (Application.scripted ⟨1, 0⟩ .empty)).Reachable s ∧
      ∃ l₁ k r l₂ t i ns a l₃,
        s.conn.trace = l₁ ++ .deliver k r :: (l₂ ++ .enqueue t i ns a :: l₃) ∧
        a.id = r.id ∧ (stores l₂).length = 1 := by
  obtain ⟨s, hrun, htrace⟩ := run_resend
  refine ⟨s, connMachine_reachable_of_run rfl hrun, [.store (⟨1, 0⟩, 0)], .broadcastRecv, resentBack,
    [.store (⟨3, 0⟩, 23), .deliver .broadcastRecv ⟨⟨3, 0⟩, ⟨2, 0⟩, 1, 23, [], 0⟩],
    .broadcastData, 1, none, resentArgs, s.conn.trace.drop 5, ?_, rfl, rfl⟩
  calc s.conn.trace = s.conn.trace.take 5 ++ s.conn.trace.drop 5 := (List.take_append_drop 5 _).symm
    _ = _ := by rw [htrace]; rfl

/-- The window in the run in which the packet comes back. -/
theorem atMostOnce_resend : ∃ s : EcNode Unit,
    (connMachine (Application.scripted ⟨1, 0⟩ .empty)).Reachable s ∧
      s.conn.trace.head? = some (.store resentBack.id) ∧ s.conn.dq.toList.Nodup ∧
      s.conn.dq.toList = (stores s.conn.trace).take dupeQueueLength := by
  obtain ⟨s, hrun, htrace⟩ := run_resend
  have hreach := connMachine_reachable_of_run rfl hrun
  obtain ⟨hnodup, hdq, -⟩ := atMostOnce_of_reachable hreach
  have hhead : s.conn.trace.head? = (s.conn.trace.take 5).head? := by
    cases s.conn.trace <;> rfl
  exact ⟨s, hreach, by rw [hhead, htrace]; rfl, hnodup, hdq⟩

end EmergencyNet
