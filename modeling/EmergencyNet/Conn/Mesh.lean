import EmergencyNet.Conn.Duplicates

/-!
# Mesh packets and the mesh

The mesh hands a packet on at once when it knows a route.  Otherwise it keeps a copy, of one
packet at most, and looks for a route; the copy is handed on when one is found, and given up
when none is found in time.  The connection frees the first mesh packet of its list whenever
the mesh reports that a packet was handed on.  That is the packet that was handed on as long as
the mesh holds no copy of a packet that is no longer on the list.

## Main definitions

* `MeshNode`, `MeshNode.step` — a connection on top of the mesh, and its events.
* `meshMachine` — the runs of a connection on top of the mesh.
* `MeshNode.Right` — every report has freed the packet that was handed on.
* `MeshNode.KeepsUp` — the sender leaves the mesh no copy of a packet it frees.
* `MeshNode.OfNode` — the connection is that of a node, the mesh being outside of it.

## Main results

* `MeshNode.right_of_reachable` — **every report frees the packet that was handed on**, in a run
  whose events meet the condition.
* `MeshNode.not_right_of_not_keepsUp` — where the condition fails first, a route that is found
  next frees another packet, or there is none to free.
* `MeshNode.ofNode_of_reachable` — the runs on top of the mesh are runs of a node.
* `MeshNode.not_right` — a run in which a report frees another packet, and one in which there is
  none to free.
-/

namespace EmergencyNet

variable {c c' : Ec} {t : MsgType} {i j : ℕ} {x : Action} {l : List Action}

/-! ### Copies of packets -/

/-- What the mesh is given of a packet. -/
structure MeshCopy where
  destination : Rimeaddr
  /-- The sequence number, and the data behind it. -/
  payload : List UInt8
  /-- Which packet it is a copy of; this is read by nothing. -/
  packet : ℕ
  deriving DecidableEq

/-- The number of the packet in slot `i`: how much had been done when it was enqueued. -/
def packetNumber (i : ℕ) : List Action → ℕ
  | [] => 0
  | .enqueue _ j _ _ :: l => if j = i then l.length else packetNumber i l
  | _ :: l => packetNumber i l

theorem packetNumber_cons (h : ∀ t ns a, x ≠ .enqueue t i ns a) :
    packetNumber i (x :: l) = packetNumber i l := by
  cases x with
  | enqueue t j ns a =>
    have hne : j ≠ i := by
      rintro rfl
      exact h t ns a rfl
    rw [packetNumber, if_neg hne]
  | _ => rfl

theorem packetNumber_enqueue (t : MsgType) (ns : Option NeighborSet) (a : SendArgs) :
    packetNumber i (.enqueue t i ns a :: l) = l.length := by
  rw [packetNumber, if_pos rfl]

/-- The copy `send_mesh_data` makes of the packet in slot `i`. -/
def Ec.meshCopy (c : Ec) (i : ℕ) : MeshCopy :=
  let p := (c.sq.item i).p
  ⟨rimeaddrAt p.data 0, p.hdr.seqno :: memRead (p.data.drop 2) (c.sq.item i).dataLen.toNat,
    packetNumber i c.trace⟩

/-! ### The mesh -/

/-- A connection on top of the mesh. -/
structure MeshNode where
  conn : Ec
  /-- `queued_data` of `struct mesh_conn`, with `queued_data_dest`. -/
  queuedData : Option MeshCopy
  /-- For each run of `meshdata_sent`, newest first, what the mesh had handed on, and the packet
  that was freed; this is read by nothing. -/
  completed : List (MeshCopy × Option MeshCopy)

/-- What happens to a connection on top of the mesh.  `hop` is whether the mesh knows a route, and
`room` whether there is memory for a copy. -/
inductive MeshEvent
  /-- The application calls `ec_mesh`. -/
  | ecMesh (destination : Rimeaddr) (seqno : UInt8) (data : List UInt8)
  /-- The timer for mesh packets expires. -/
  | expire
  /-- The event of the expired timer is handled. -/
  | timer (hop room : Bool)
  /-- A route to `dest` was found. -/
  | foundRoute (dest : Rimeaddr) (hop : Bool)
  /-- No route was found. -/
  | routeTimedOut

/-- The event is a call by the application. -/
def MeshEvent.isCall : MeshEvent → Bool
  | .ecMesh _ _ _ => true
  | _ => false

namespace MeshNode

/-- The connection after `f`, if `f` ends. -/
def tryConn (s : MeshNode) (f : Ec → Except Fault Ec) : Except Fault MeshNode :=
  match f s.conn with
  | .error e => .error e
  | .ok c => .ok { s with conn := c }

/-- The mesh has handed `q` on and calls `sent`. -/
def sent (q : MeshCopy) (s : MeshNode) : Except Fault MeshNode :=
  { s with completed := (q, (s.conn.sq.first .meshData).map s.conn.meshCopy) :: s.completed }.tryConn
    Ec.meshdataSent

/-- `mesh_send`. -/
def meshSend (q : MeshCopy) (hop room : Bool) (s : MeshNode) : Except Fault MeshNode :=
  if hop then s.sent q
  -- an older copy is freed, and there is a new one if there is memory for it
  else .ok { s with queuedData := if room then some q else none }

/-- `send_mesh_data`, with what the mesh does with the packet it is given. -/
def sendMeshData (hop room : Bool) (s : MeshNode) : Except Fault MeshNode :=
  let s' : MeshNode := { s with conn := s.conn.sendMeshData }
  match (Ec.dropSpent maxTimesSent (s.conn.sq.prioHeads .meshData) s.conn).2 with
  | none => .ok s'
  | some i => s'.meshSend (s'.conn.meshCopy i) hop room

/-- `found_route`. -/
def foundRoute (dest : Rimeaddr) (hop : Bool) (s : MeshNode) : Except Fault MeshNode :=
  match s.queuedData with
  | none => .ok s
  | some q =>
    if dest = q.destination then
      let s := { s with queuedData := none }
      if hop then s.sent q else .ok { s with conn := s.conn.meshdataTimeout }
    else .ok s

/-- `route_timed_out`. -/
def routeTimedOut (s : MeshNode) : MeshNode :=
  { s with conn := s.conn.meshdataTimeout, queuedData := none }

/-- The event can occur. -/
def Enabled (s : MeshNode) : MeshEvent → Prop
  | .expire => (s.conn.timers .meshData).active = true
  | .timer _ _ => 0 < (s.conn.timers .meshData).posted
  | _ => True

instance (s : MeshNode) (e : MeshEvent) : Decidable (s.Enabled e) := by
  rcases e <;> unfold Enabled <;> infer_instance

/-- The code that handles an event. -/
def step : MeshEvent → MeshNode → Except Fault MeshNode
  | .ecMesh destination seqno data, s => s.tryConn (Ec.ecMesh destination seqno data)
  | .expire, s => .ok { s with conn := s.conn.ctimerPost .meshData }
  | .timer hop room, s =>
    let s' := { s with conn := s.conn.ctimerTake .meshData }
    if (s.conn.timers .meshData).listed then s'.sendMeshData hop room else .ok s'
  | .foundRoute dest hop, s => s.foundRoute dest hop
  | .routeTimedOut, s => .ok s.routeTimedOut

/-- One event, `none` when it cannot occur or the code that handles it goes wrong. -/
def advance (e : MeshEvent) (s : MeshNode) : Option MeshNode :=
  if s.Enabled e then (s.step e).toOption else none

/-- A connection that was just opened, on top of a mesh without a copy. -/
def opened : MeshNode := ⟨.opened, none, []⟩

end MeshNode

/-- A connection on top of the mesh as a transition system. -/
def meshMachine : Machine MeshNode MeshEvent where
  init s := s = .opened
  step e s s' := s.Enabled e ∧ s.step e = .ok s'

namespace MeshNode

variable {s s' s₁ : MeshNode} {e : MeshEvent} {q : MeshCopy}

/-- Every run of `meshdata_sent` has freed the packet the mesh had handed on. -/
def Right (s : MeshNode) : Prop := ∀ x ∈ s.completed, x.2 = some x.1

instance (s : MeshNode) : Decidable s.Right := by unfold Right; infer_instance

/-- If `send_mesh_data` runs while the mesh holds a copy, it finds a packet that was sent less than
`MAX_TIMES_SENT` times, and the mesh knows no route for it: the copy is replaced. -/
def KeepsUp (s : MeshNode) : MeshEvent → Prop
  | .timer hop _ => (s.conn.timers .meshData).listed = true → s.queuedData.isSome = true →
      hop = false ∧ ∃ i ∈ s.conn.sq.prioHeads .meshData, (s.conn.sq.item i).timesSent < maxTimesSent
  | _ => True

instance (s : MeshNode) (e : MeshEvent) : Decidable (s.KeepsUp e) := by
  unfold KeepsUp
  split <;> infer_instance

end MeshNode

/-! ### The mesh packets of the connection -/

namespace Ec

/-- A change that leaves a packet alone, and enqueues nothing in its slot. -/
theorem meshCopy_eq (hp : (c'.sq.item j).p = (c.sq.item j).p)
    (hlen : (c'.sq.item j).dataLen = (c.sq.item j).dataLen) (htrace : c'.trace = x :: c.trace)
    (hx : ∀ t ns a, x ≠ .enqueue t j ns a) : c'.meshCopy j = c.meshCopy j := by
  unfold meshCopy
  rw [hp, hlen, htrace, packetNumber_cons hx]

theorem meshCopy_freePacket : (c.freePacket i).meshCopy j = c.meshCopy j := by
  have hitem : (c.freePacket i).sq.item j = c.sq.item j := PacketBuffer.free_item
  exact meshCopy_eq (x := .free i) (by rw [hitem]) (by rw [hitem]) rfl fun _ _ _ h => by cases h

theorem Drops.meshCopy {limit : UInt8} (h : Drops t limit c c') :
    c'.meshCopy j = c.meshCopy j := by
  induction h with
  | refl => rfl
  | tail _ hdrop ih =>
    obtain ⟨i, -, -, rfl⟩ := hdrop
    exact meshCopy_freePacket.trans ih

/-- What `send_mesh_data` does: packets are dropped, and the first that is left is counted and
given to the mesh. -/
theorem sendMeshData_cases (c : Ec) : ∃ c₁, Drops .meshData maxTimesSent c c₁ ∧
    c₁.sq.first .meshData = c.unspent .meshData maxTimesSent ∧
    (c.unspent .meshData maxTimesSent = none ∧ c.sendMeshData = c₁ ∨
      ∃ i, c.unspent .meshData maxTimesSent = some i ∧ c.sendMeshData =
        { c₁ with sq := c₁.sq.modify i .incrementTimesSent }.log
          (.mesh i (c₁.meshCopy i).destination (c₁.meshCopy i).payload)) := by
  obtain ⟨hdrops, hleft, hfirst⟩ := dropSpent_drops .meshData maxTimesSent _ c rfl
  unfold sendMeshData
  generalize dropSpent maxTimesSent (c.sq.prioHeads .meshData) c = res at hdrops hleft hfirst ⊢
  obtain ⟨c₁, left⟩ := res
  refine ⟨c₁, hdrops, hfirst, ?_⟩
  cases left with
  | none => exact .inl ⟨hleft.symm, rfl⟩
  | some i => exact .inr ⟨i, hleft.symm, rfl⟩

/-- The mesh packets that are left are copied as before. -/
theorem meshCopy_sendMeshData (c : Ec) (j : ℕ) : c.sendMeshData.meshCopy j = c.meshCopy j := by
  obtain ⟨c₁, hdrops, -, ⟨-, heq⟩ | ⟨i, -, heq⟩⟩ := sendMeshData_cases c
  · rw [heq, hdrops.meshCopy]
  · rw [heq, ← hdrops.meshCopy]
    have hkeep : ((c₁.sq.modify i .incrementTimesSent).item j).p = (c₁.sq.item j).p ∧
        ((c₁.sq.modify i .incrementTimesSent).item j).dataLen = (c₁.sq.item j).dataLen := by
      by_cases hji : j = i
      · rw [hji, PacketBuffer.modify_item_self]
        exact ⟨rfl, rfl⟩
      · rw [PacketBuffer.modify_item_of_ne _ hji]
        exact ⟨rfl, rfl⟩
    exact meshCopy_eq (x := .mesh i _ _) hkeep.1 hkeep.2 rfl fun _ _ _ h => by cases h

theorem first_sendMeshData (c : Ec) :
    c.sendMeshData.sq.first .meshData = c.unspent .meshData maxTimesSent := by
  obtain ⟨c₁, -, hfirst, ⟨-, heq⟩ | ⟨i, -, heq⟩⟩ := sendMeshData_cases c
  · rw [heq, hfirst]
  · rw [heq]
    exact hfirst

/-- A packet that is enqueued for the mesh comes last. -/
theorem ecMesh_eq_ok {dest : Rimeaddr} {seqno : UInt8} {data : List UInt8}
    (h : c.ecMesh dest seqno data = .ok c') : ∃ i bp a, c.sq.Enqueued .meshData i bp c'.sq ∧
      c'.trace = .enqueue .meshData i none a :: c.trace := by
  unfold ecMesh at h
  rw [bind_eq_ok] at h
  obtain ⟨c₁, hput, h⟩ := h
  rw [pure_eq_ok] at h
  obtain ⟨i, hsq, -, htrace⟩ := putUnicast_eq_ok hput
  have hsame : c₁.Same c' := h ▸ same_ite .meshData
  rw [← hsame.sq] at hsq
  exact ⟨i, _, _, hsq, hsame.trace.trans htrace⟩

/-- The first mesh packet stays first, and is copied as before. -/
theorem first_ecMesh {dest : Rimeaddr} {seqno : UInt8} {data : List UInt8}
    (h : c.ecMesh dest seqno data = .ok c') (hfirst : c.sq.first .meshData = some j) :
    c'.sq.first .meshData = some j ∧ c'.meshCopy j = c.meshCopy j := by
  obtain ⟨i, bp, a, hsq, htrace⟩ := ecMesh_eq_ok h
  have hji : j ≠ i := fun heq => hsq.fresh .meshData (heq ▸ PacketBuffer.mem_of_first hfirst)
  constructor
  · obtain ⟨rest, hrest⟩ := List.head?_eq_some_iff.mp hfirst
    rw [PacketBuffer.first, hsq.prioHeads, addTail_self, hrest]
    rfl
  · have hitem : c'.sq.item j = c.sq.item j := hsq.item_of_ne j hji
    refine meshCopy_eq (by rw [hitem]) (by rw [hitem]) htrace fun _ _ _ heq => ?_
    cases heq
    exact hji rfl

end Ec

/-! ### The invariant -/

namespace MeshNode

variable {s s' s₁ : MeshNode} {e : MeshEvent} {q : MeshCopy} {hop room : Bool}

/-- The mesh holds at most a copy of the first mesh packet. -/
def HoldsFirst (s : MeshNode) : Prop :=
  ∀ q, s.queuedData = some q → ∃ i, s.conn.sq.first .meshData = some i ∧ s.conn.meshCopy i = q

/-- All reports so far were right, and the next will be. -/
structure Matched (s : MeshNode) : Prop where
  right : s.Right
  queued : s.HoldsFirst

theorem matched_opened : opened.Matched :=
  ⟨fun _ hx => absurd hx List.not_mem_nil, fun _ hq => by cases hq⟩

theorem tryConn_eq_ok {f : Ec → Except Fault Ec} :
    s.tryConn f = .ok s' ↔ ∃ c, f s.conn = .ok c ∧ s' = { s with conn := c } := by
  unfold tryConn
  cases f s.conn with
  | error e => simp
  | ok c => simp [eq_comm]

theorem sent_of_first (hfirst : s.conn.sq.first .meshData = some i) : s.sent q =
    .ok ⟨(s.conn.freePacket i).ctimerSet .meshData, s.queuedData,
      (q, some (s.conn.meshCopy i)) :: s.completed⟩ := by
  unfold sent tryConn Ec.meshdataSent
  simp only [hfirst, Option.map_some]

theorem sent_of_empty (hnone : s.conn.sq.first .meshData = none) :
    s.sent q = .error .assertFailed := by
  unfold sent tryConn Ec.meshdataSent
  simp only [hnone]

theorem Right.cons (h : s.Right) (hc : s'.completed = (q, some q) :: s.completed) : s'.Right := by
  intro x hx
  rw [hc] at hx
  rcases List.mem_cons.mp hx with rfl | hx
  · rfl
  · exact h x hx

/-- `send_mesh_data` gives the mesh the first packet that was sent less often. -/
theorem sendMeshData_eq (s : MeshNode) (hop room : Bool) : s.sendMeshData hop room =
    match s.conn.unspent .meshData maxTimesSent with
    | none => .ok { s with conn := s.conn.sendMeshData }
    | some i => { s with conn := s.conn.sendMeshData }.meshSend (s.conn.meshCopy i) hop room := by
  obtain ⟨-, hleft, -⟩ := Ec.dropSpent_drops .meshData maxTimesSent _ s.conn rfl
  unfold sendMeshData
  simp only [hleft, Ec.meshCopy_sendMeshData]

/-- The mesh is given a packet: it is handed on and freed, or a copy of it is all the mesh holds. -/
theorem Matched.sendMeshData (h : s.Matched) (hkeeps : s.queuedData.isSome = true →
      hop = false ∧ s.conn.unspent .meshData maxTimesSent ≠ none) :
    ∃ s', s.sendMeshData hop room = .ok s' ∧ s'.Matched := by
  rw [sendMeshData_eq]
  have hfirst : s.conn.sendMeshData.sq.first .meshData = s.conn.unspent .meshData maxTimesSent :=
    Ec.first_sendMeshData s.conn
  cases hleft : s.conn.unspent .meshData maxTimesSent with
  | none =>
    refine ⟨_, rfl, h.right, fun q hq => ?_⟩
    have hsome : s.queuedData.isSome = true := Option.isSome_iff_exists.mpr ⟨q, hq⟩
    exact absurd hleft (hkeeps hsome).2
  | some i =>
    rw [hleft] at hfirst
    simp only [meshSend]
    cases hop with
    | true =>
      -- the first packet is handed on at once; the mesh held no copy
      rw [if_pos rfl, sent_of_first hfirst]
      refine ⟨_, rfl, h.right.cons (q := s.conn.meshCopy i) ?_, fun q hq => ?_⟩
      · simp only [Ec.meshCopy_sendMeshData]
      · have hsome : s.queuedData.isSome = true := Option.isSome_iff_exists.mpr ⟨q, hq⟩
        cases (hkeeps hsome).1
    | false =>
      rw [if_neg Bool.false_ne_true]
      refine ⟨_, rfl, h.right, fun q hq => ⟨i, hfirst, ?_⟩⟩
      cases room with
      | false => cases hq
      | true =>
        cases hq
        exact Ec.meshCopy_sendMeshData s.conn i

theorem Matched.foundRoute (h : s.Matched) (dest : Rimeaddr) (hop : Bool) :
    ∃ s', s.foundRoute dest hop = .ok s' ∧ s'.Matched := by
  unfold MeshNode.foundRoute
  cases hq : s.queuedData with
  | none => exact ⟨s, rfl, h⟩
  | some q =>
    simp only
    split
    · obtain ⟨i, hfirst, hcopy⟩ := h.queued q hq
      cases hop with
      | true =>
        have hsent := sent_of_first (s := { s with queuedData := none }) (q := q) hfirst
        rw [if_pos rfl, hsent]
        refine ⟨_, rfl, h.right.cons (q := q) ?_, fun q' hq' => by cases hq'⟩
        exact congrArg (fun y => (q, some y) :: s.completed) hcopy
      | false =>
        rw [if_neg Bool.false_ne_true]
        exact ⟨_, rfl, h.right, fun q' hq' => by cases hq'⟩
    · exact ⟨s, rfl, h⟩

theorem Matched.ecMesh {destination : Rimeaddr} {seqno : UInt8} {data : List UInt8} (h : s.Matched)
    (hstep : s.step (.ecMesh destination seqno data) = .ok s') : s'.Matched := by
  obtain ⟨c, hrun, rfl⟩ := tryConn_eq_ok.mp hstep
  refine ⟨h.right, fun q hq => ?_⟩
  obtain ⟨i, hfirst, hcopy⟩ := h.queued q hq
  obtain ⟨hfirst', hcopy'⟩ := Ec.first_ecMesh hrun hfirst
  exact ⟨i, hfirst', hcopy'.trans hcopy⟩

/-- The condition, for the packet `send_mesh_data` finds. -/
theorem unspent_ne_none (h : ∃ i ∈ c.sq.prioHeads t, (c.sq.item i).timesSent < maxTimesSent) :
    c.unspent t maxTimesSent ≠ none := by
  obtain ⟨i, hi, hless⟩ := h
  intro hnone
  have hno := List.find?_eq_none.mp hnone i hi
  exact hno (decide_eq_true hless)

/-- **What an event that is no call does.** -/
theorem Matched.step (h : s.Matched) (hcall : e.isCall = false) (hok : s.KeepsUp e) :
    ∃ s', s.step e = .ok s' ∧ s'.Matched := by
  cases e with
  | ecMesh => cases hcall
  | expire => exact ⟨_, rfl, h.right, h.queued⟩
  | timer hop room =>
    have htake : MeshNode.Matched { s with conn := s.conn.ctimerTake .meshData } :=
      ⟨h.right, h.queued⟩
    rw [MeshNode.step]
    split
    · next hlisted =>
      refine htake.sendMeshData fun hsome => ?_
      obtain ⟨hhop, hless⟩ := hok hlisted hsome
      exact ⟨hhop, unspent_ne_none hless⟩
    · exact ⟨_, rfl, htake⟩
  | foundRoute dest hop => exact h.foundRoute dest hop
  | routeTimedOut => exact ⟨_, rfl, h.right, fun q hq => by cases hq⟩

theorem matched_of_reachable (hs : meshMachine.ReachableWhen KeepsUp s) : s.Matched := by
  refine hs.invariant (I := Matched) ?_ ?_
  · rintro s rfl
    exact matched_opened
  · rintro s e s' hm hok ⟨-, hstep⟩
    by_cases hcall : e.isCall = true
    · cases e with
      | ecMesh destination seqno data => exact hm.ecMesh hstep
      | _ => cases hcall
    · obtain ⟨s₁, hstep₁, hm₁⟩ := hm.step (by simpa using hcall) hok
      rw [hstep] at hstep₁
      cases hstep₁
      exact hm₁

/-- A packet that is handed on at once is the first of its list, whatever the mesh holds. -/
theorem exists_sendMeshData (s : MeshNode) (hop room : Bool) :
    ∃ s', s.sendMeshData hop room = .ok s' := by
  rw [sendMeshData_eq]
  have hfirst : s.conn.sendMeshData.sq.first .meshData = s.conn.unspent .meshData maxTimesSent :=
    Ec.first_sendMeshData s.conn
  cases hleft : s.conn.unspent .meshData maxTimesSent with
  | none => exact ⟨_, rfl⟩
  | some i =>
    rw [hleft] at hfirst
    simp only [meshSend]
    split
    · rw [sent_of_first hfirst]
      exact ⟨_, rfl⟩
    · exact ⟨_, rfl⟩

/-- **Every report frees the packet that was handed on**, in a run in which `send_mesh_data`
replaces the copy the mesh holds, and no report finds the list empty. -/
theorem right_of_reachable (hs : meshMachine.ReachableWhen KeepsUp s) :
    s.Right ∧ ∀ e, e.isCall = false → ∃ s', s.step e = .ok s' := by
  have hm : s.Matched := matched_of_reachable hs
  refine ⟨hm.right, fun e hcall => ?_⟩
  cases e with
  | ecMesh => cases hcall
  | timer hop room =>
    rw [step]
    split
    · exact exists_sendMeshData _ hop room
    · exact ⟨_, rfl⟩
  | expire | foundRoute _ _ | routeTimedOut =>
    obtain ⟨s', hstep, -⟩ := hm.step hcall trivial
    exact ⟨s', hstep⟩

end MeshNode

/-! ### Copies that are left behind -/

/-- The mesh packets have different numbers, all of them used up. -/
structure Ec.MeshNumbered (c : Ec) : Prop where
  below : ∀ i ∈ c.sq.prioHeads .meshData, (c.meshCopy i).packet < c.trace.length
  distinct : ∀ i ∈ c.sq.prioHeads .meshData, ∀ j ∈ c.sq.prioHeads .meshData,
    (c.meshCopy i).packet = (c.meshCopy j).packet → i = j

namespace Ec

theorem MeshNumbered.keeps (h : c.MeshNumbered)
    (hheads : ∀ i ∈ c'.sq.prioHeads .meshData, i ∈ c.sq.prioHeads .meshData)
    (hcopy : ∀ i, c'.meshCopy i = c.meshCopy i) (htrace : c.trace.length ≤ c'.trace.length) :
    c'.MeshNumbered := by
  refine ⟨fun i hi => ?_, fun i hi j hj heq => ?_⟩
  · rw [hcopy]
    exact lt_of_lt_of_le (h.below i (hheads i hi)) htrace
  · rw [hcopy, hcopy] at heq
    exact h.distinct i (hheads i hi) j (hheads j hj) heq

theorem MeshNumbered.freePacket (h : c.MeshNumbered) (i : ℕ) : (c.freePacket i).MeshNumbered :=
  h.keeps (fun _ hj => (PacketBuffer.mem_free.mp hj).1) (fun _ => meshCopy_freePacket)
    (Nat.le_succ _)

theorem heads_sendMeshData (c : Ec) :
    (c.sendMeshData.sq.prioHeads .meshData).Sublist (c.sq.prioHeads .meshData) := by
  obtain ⟨c₁, hdrops, -, ⟨-, heq⟩ | ⟨i, -, heq⟩⟩ := sendMeshData_cases c
  · rw [heq]
    exact hdrops.heads _
  · rw [heq]
    exact hdrops.heads _

theorem MeshNumbered.sendMeshData (h : c.MeshNumbered) : c.sendMeshData.MeshNumbered := by
  have hmoves : Moves .any c c.sendMeshData := sendMeshData_moves
  obtain ⟨l, hl, -⟩ := hmoves.trace
  refine h.keeps (fun i hi => (heads_sendMeshData c).subset hi) (meshCopy_sendMeshData c) ?_
  rw [hl, List.length_append]
  omega

theorem MeshNumbered.ecMesh {dest : Rimeaddr} {seqno : UInt8} {data : List UInt8}
    (h : c.MeshNumbered) (hrun : c.ecMesh dest seqno data = .ok c') : c'.MeshNumbered := by
  obtain ⟨k, bp, a, hsq, htrace⟩ := ecMesh_eq_ok hrun
  have hnew : (c'.meshCopy k).packet = c.trace.length := by
    change packetNumber k c'.trace = _
    rw [htrace, packetNumber_enqueue]
  -- the other slots keep their packets
  have hold : ∀ i, i ≠ k → (c'.meshCopy i).packet = (c.meshCopy i).packet := by
    intro i hik
    change packetNumber i c'.trace = packetNumber i c.trace
    rw [htrace, packetNumber_cons]
    intro t ns a heq
    cases heq
    exact hik rfl
  have hmem : ∀ {i}, i ∈ c'.sq.prioHeads .meshData → i = k ∨ i ≠ k ∧ i ∈ c.sq.prioHeads .meshData := by
    intro i hi
    rw [hsq.prioHeads, mem_addTail] at hi
    rcases hi with hi | ⟨-, hi⟩
    · exact .inr ⟨fun heq => hsq.fresh .meshData (heq ▸ hi), hi⟩
    · exact .inl hi
  refine ⟨fun i hi => ?_, fun i hi j hj heq => ?_⟩
  · rw [htrace, List.length_cons]
    rcases hmem hi with rfl | ⟨hik, hi⟩
    · omega
    · have hlt := h.below i hi
      rw [hold i hik]
      omega
  · -- an older packet has a smaller number than the new one
    rcases hmem hi with rfl | ⟨hik, hi⟩ <;> rcases hmem hj with rfl | ⟨hjk, hj⟩
    · rfl
    · have hlt := h.below j hj
      rw [hnew, hold j hjk] at heq
      omega
    · have hlt := h.below i hi
      rw [hnew, hold i hik] at heq
      omega
    · rw [hold i hik, hold j hjk] at heq
      exact h.distinct i hi j hj heq

theorem MeshNumbered.of_same (h : c.MeshNumbered) (hsame : c.Same c') : c'.MeshNumbered := by
  have hcopy : ∀ i, c'.meshCopy i = c.meshCopy i := fun i => by
    rw [meshCopy, meshCopy, hsame.sq, hsame.trace]
  exact h.keeps (fun i hi => hsame.sq ▸ hi) hcopy (by rw [hsame.trace])

end Ec

namespace MeshNode

variable {s s' s₁ : MeshNode} {e : MeshEvent} {q : MeshCopy} {hop room : Bool}

theorem sent_numbered (h : s.conn.MeshNumbered) (hsent : s.sent q = .ok s') :
    s'.conn.MeshNumbered := by
  cases hfirst : s.conn.sq.first .meshData with
  | none =>
    rw [sent_of_empty hfirst] at hsent
    cases hsent
  | some i =>
    rw [sent_of_first hfirst] at hsent
    cases hsent
    exact (h.freePacket i).of_same (Ec.same_ctimerSet _)

theorem step_numbered (h : s.conn.MeshNumbered) (hstep : s.step e = .ok s') :
    s'.conn.MeshNumbered := by
  cases e with
  | ecMesh destination seqno data =>
    obtain ⟨c, hrun, rfl⟩ := tryConn_eq_ok.mp hstep
    exact h.ecMesh hrun
  | expire =>
    cases hstep
    exact h.of_same ⟨rfl, rfl, rfl⟩
  | timer hop room =>
    -- `send_mesh_data` counts a packet or drops packets, and may free one when it is sent at once
    have htake : (s.conn.ctimerTake .meshData).MeshNumbered := h.of_same (Ec.same_ctimerTake _)
    rw [step] at hstep
    split at hstep
    · rw [sendMeshData_eq] at hstep
      have hsend := htake.sendMeshData
      split at hstep
      · cases hstep
        exact hsend
      · unfold meshSend at hstep
        split at hstep
        · exact sent_numbered hsend hstep
        · cases hstep
          exact hsend
    · cases hstep
      exact htake
  | foundRoute dest hop =>
    rw [step, MeshNode.foundRoute] at hstep
    split at hstep
    · cases hstep
      exact h
    · split at hstep
      · simp only at hstep
        split at hstep
        · exact sent_numbered (s := { s with queuedData := none }) h hstep
        · cases hstep
          exact h.of_same (Ec.same_ctimerSet _)
      · cases hstep
        exact h
  | routeTimedOut =>
    cases hstep
    exact h.of_same (Ec.same_ctimerSet _)

theorem numbered_of_reachable {ok : MeshNode → MeshEvent → Prop}
    (hs : meshMachine.ReachableWhen ok s) : s.conn.MeshNumbered := by
  refine hs.invariant (I := fun s => s.conn.MeshNumbered) ?_ ?_
  · rintro s rfl
    exact ⟨fun i hi => absurd hi List.not_mem_nil, fun i hi => absurd hi List.not_mem_nil⟩
  · rintro s e s' h - ⟨-, hstep⟩
    exact step_numbered h hstep

/-- A route that is found for the copy `q` of a packet that is no longer on the list. -/
theorem not_right_of_stale (hq : s.queuedData = some q)
    (hstale : ∀ i ∈ s.conn.sq.prioHeads .meshData, s.conn.meshCopy i ≠ q)
    (hstep : s.step (.foundRoute q.destination true) = .ok s') : ¬ s'.Right := by
  rw [step, MeshNode.foundRoute] at hstep
  simp only [hq, if_true] at hstep
  cases hfirst : s.conn.sq.first .meshData with
  | none =>
    rw [sent_of_empty (s := { s with queuedData := none }) hfirst] at hstep
    cases hstep
  | some i =>
    rw [sent_of_first (s := { s with queuedData := none }) hfirst] at hstep
    cases hstep
    intro hright
    have hfreed := hright _ List.mem_cons_self
    exact hstale i (PacketBuffer.mem_of_first hfirst) (Option.some.inj hfreed)

/-- Where `send_mesh_data` does not replace the copy the mesh holds, the packet it is a copy of is
gone. -/
theorem stale_of_sendMeshData (hm : s.Matched) (hnum : s.conn.MeshNumbered)
    (hq : s.queuedData = some q)
    (hnot : ¬ (hop = false ∧ s.conn.unspent .meshData maxTimesSent ≠ none))
    (hstep : s.sendMeshData hop room = .ok s') :
    s'.queuedData = some q ∧ ∀ i ∈ s'.conn.sq.prioHeads .meshData, s'.conn.meshCopy i ≠ q := by
  obtain ⟨h, hh, hcopy⟩ := hm.queued q hq
  have hfirst := Ec.first_sendMeshData s.conn
  rw [sendMeshData_eq] at hstep
  cases hleft : s.conn.unspent .meshData maxTimesSent with
  | none =>
    -- all mesh packets were dropped
    rw [hleft] at hstep hfirst
    cases hstep
    refine ⟨hq, fun i hi => ?_⟩
    rw [List.head?_eq_none_iff.mp hfirst] at hi
    cases hi
  | some i =>
    have hhop : hop = true := by
      cases hop with
      | true => rfl
      | false => exact absurd ⟨rfl, by rw [hleft]; simp⟩ hnot
    subst hhop
    rw [hleft] at hstep hfirst
    simp only [meshSend, if_true] at hstep
    rw [sent_of_first (s := { s with conn := s.conn.sendMeshData }) hfirst] at hstep
    cases hstep
    refine ⟨hq, fun k hk heq => ?_⟩
    obtain ⟨hk, hki⟩ := PacketBuffer.mem_free.mp hk
    have hcopies : ((s.conn.sendMeshData.freePacket i).ctimerSet .meshData).meshCopy k =
        s.conn.meshCopy k := Ec.meshCopy_freePacket.trans (Ec.meshCopy_sendMeshData s.conn k)
    -- a packet with the number of the first one is the first one, so it was sent
    have hkh : k = h := by
      refine hnum.distinct k ((Ec.heads_sendMeshData s.conn).subset hk) h
        (PacketBuffer.mem_of_first hh) ?_
      rw [hcopy, ← heq, hcopies]
    subst hkh
    have hstays : s.conn.sendMeshData.sq.first .meshData = some k :=
      PacketBuffer.first_of_sublist hh (Ec.heads_sendMeshData s.conn) hk
    exact hki (Option.some.inj (hstays.symm.trans hfirst))

/-- **The condition is needed**: where it fails first, the mesh is left with a copy of a packet
that is gone, and a route that is found for it next frees another packet or finds none. -/
theorem not_right_of_not_keepsUp (hs : meshMachine.ReachableWhen KeepsUp s)
    (hnot : ¬ s.KeepsUp e) (hstep : s.step e = .ok s') : ∃ q, s'.queuedData = some q ∧
      ∀ s'', s'.step (.foundRoute q.destination true) = .ok s'' → ¬ s''.Right := by
  cases e with
  | timer hop room =>
    simp only [KeepsUp, not_forall] at hnot
    obtain ⟨hlisted, hsome, hnot⟩ := hnot
    obtain ⟨q, hq⟩ := Option.isSome_iff_exists.mp hsome
    have hm : s.Matched := matched_of_reachable hs
    have htake : MeshNode.Matched { s with conn := s.conn.ctimerTake .meshData } :=
      ⟨hm.right, hm.queued⟩
    have hnum : (s.conn.ctimerTake .meshData).MeshNumbered :=
      (numbered_of_reachable hs).of_same (Ec.same_ctimerTake _)
    have hleft : ¬ (hop = false ∧
        (s.conn.ctimerTake .meshData).unspent .meshData maxTimesSent ≠ none) := by
      rintro ⟨hhop, hne⟩
      obtain ⟨i, hi⟩ := Option.ne_none_iff_exists'.mp hne
      exact hnot ⟨hhop, i, List.mem_of_find?_eq_some hi, Ec.lt_of_unspent hi⟩
    rw [step, if_pos hlisted] at hstep
    obtain ⟨hq', hstale⟩ := stale_of_sendMeshData htake hnum hq hleft hstep
    exact ⟨q, hq', fun s'' hfound => not_right_of_stale hq' hstale hfound⟩
  | _ => exact absurd trivial hnot

/-! ### Runs -/

section Node

variable {addr : Rimeaddr} {ns : NeighborSet}

/-- The connection is that of a node that runs nothing but the calls of the application. -/
def OfNode (addr : Rimeaddr) (ns : NeighborSet) (s : MeshNode) : Prop :=
  (connMachine (.scripted addr ns)).Reachable ⟨s.conn, ()⟩

theorem OfNode.sent (h : s.OfNode addr ns) (hsent : s.sent q = .ok s') : s'.OfNode addr ns := by
  obtain ⟨c, hrun, rfl⟩ := tryConn_eq_ok.mp hsent
  have hstep : EcNode.step (.scripted addr ns) .meshSent ⟨s.conn, ()⟩ = .ok ⟨c, ()⟩ :=
    EcNode.tryConn_eq_ok.mpr ⟨c, hrun, rfl⟩
  exact h.next (e := .meshSent) trivial ⟨trivial, hstep⟩

theorem OfNode.timeout (h : s.OfNode addr ns) (hconn : s'.conn = s.conn.meshdataTimeout) :
    s'.OfNode addr ns := by
  unfold OfNode
  rw [hconn]
  exact h.next (e := .meshTimeout) trivial ⟨trivial, rfl⟩

theorem OfNode.ecMesh {destination : Rimeaddr} {seqno : UInt8} {data : List UInt8}
    (h : s.OfNode addr ns) (hstep : s.step (.ecMesh destination seqno data) = .ok s') :
    s'.OfNode addr ns := by
  obtain ⟨c, hrun, rfl⟩ := tryConn_eq_ok.mp hstep
  have hcall : EcCall.run (Application.scripted addr ns).toEcCallbacks
      (.mesh destination seqno data) ⟨s.conn, ()⟩ = .ok ⟨c, ()⟩ :=
    EcNode.tryConn_eq_ok.mpr ⟨c, hrun, rfl⟩
  have hprocess : EcNode.step (.scripted addr ns)
      (.process [.call (.mesh destination seqno data)]) ⟨s.conn, ()⟩ = .ok ⟨c, ()⟩ := by
    change EcNode.runEffects _ [.call (.mesh destination seqno data)] ⟨s.conn, ()⟩ = _
    rw [EcNode.runEffects, bind_eq_ok]
    exact ⟨_, hcall, rfl⟩
  exact h.next (e := .process [.call (.mesh destination seqno data)]) trivial ⟨trivial, hprocess⟩

theorem OfNode.timer (h : s.OfNode addr ns) (hen : s.Enabled (.timer hop room))
    (hstep : s.step (.timer hop room) = .ok s') : s'.OfNode addr ns := by
  have hen' : EcNode.Enabled (ε := List Effect) ⟨s.conn, ()⟩ (.timer .meshData false) := hen
  rw [step] at hstep
  split at hstep
  · next hlisted =>
    -- the mesh has its own radio; the node of the model sends nothing here
    have hfires : EcNode.step (.scripted addr ns) (.timer .meshData false) ⟨s.conn, ()⟩ =
        .ok ⟨(s.conn.ctimerTake .meshData).sendMeshData, ()⟩ := by
      rw [EcNode.step, if_pos hlisted]
      rfl
    have hsends : OfNode addr ns
        { s with conn := (s.conn.ctimerTake .meshData).sendMeshData } :=
      h.next (e := .timer .meshData false) trivial ⟨hen', hfires⟩
    rw [sendMeshData_eq] at hstep
    split at hstep
    · cases hstep
      exact hsends
    · unfold meshSend at hstep
      split at hstep
      · exact hsends.sent hstep
      · cases hstep
        exact hsends
  · next hlisted =>
    have htakes : EcNode.step (.scripted addr ns) (.timer .meshData false) ⟨s.conn, ()⟩ =
        .ok ⟨s.conn.ctimerTake .meshData, ()⟩ := by
      rw [EcNode.step, if_neg hlisted]
      rfl
    cases hstep
    exact h.next (e := .timer .meshData false) trivial ⟨hen', htakes⟩

theorem OfNode.foundRoute {dest : Rimeaddr} (h : s.OfNode addr ns)
    (hstep : s.step (.foundRoute dest hop) = .ok s') : s'.OfNode addr ns := by
  rw [step, MeshNode.foundRoute] at hstep
  split at hstep
  · cases hstep
    exact h
  · split at hstep
    · simp only at hstep
      split at hstep
      · exact OfNode.sent (s := { s with queuedData := none }) h hstep
      · cases hstep
        exact h.timeout rfl
    · cases hstep
      exact h

/-- **The connection of a run on top of the mesh is that of a run of a node**, with the callbacks of
the mesh as events of their own. -/
theorem ofNode_of_reachable (addr : Rimeaddr) (ns : NeighborSet) (hs : meshMachine.Reachable s) :
    s.OfNode addr ns := by
  refine hs.invariant (I := OfNode addr ns) ?_ ?_
  · rintro s rfl
    exact .init rfl
  · rintro s e s' h - ⟨hen, hstep⟩
    cases e with
    | ecMesh destination seqno data => exact h.ecMesh hstep
    | expire =>
      cases hstep
      exact h.next (e := .expire .meshData) trivial ⟨hen, rfl⟩
    | timer hop room => exact h.timer hen hstep
    | foundRoute dest hop => exact h.foundRoute hstep
    | routeTimedOut =>
      cases hstep
      exact h.timeout rfl

end Node

/-- The state a list of events leads to. -/
theorem step_of_advance (h : s.advance e = some s') : meshMachine.step e s s' := by
  unfold advance at h
  split at h
  · next hen => exact ⟨hen, toOption_eq_some.mp h⟩
  · cases h

theorem reachable_of_run {evs : List MeshEvent} (hrun : Machine.run advance evs opened = some s) :
    meshMachine.Reachable s :=
  Machine.Reachable.of_run (fun _ _ _ => step_of_advance) evs (.init rfl) hrun

/-- The packets `[1]` and `[2]` are sent to `2.0` and `3.0`; the mesh knows no route at first. -/
def twoPackets : List MeshEvent :=
  [.ecMesh ⟨2, 0⟩ 1 [1], .expire, .timer false true, .ecMesh ⟨3, 0⟩ 2 [2]]

/-- The route to `2.0` is found before the timer goes off again. -/
theorem right_twoPackets : ∃ s, meshMachine.ReachableWhen KeepsUp s ∧ s.completed.length = 2 ∧
    s.Right := by
  have hrun : ((Machine.run advance (twoPackets ++ [.foundRoute ⟨2, 0⟩ true, .expire,
      .timer true true]) opened).map fun s => s.completed.length) = some 2 := by decide +kernel
  obtain ⟨s, hrun, hlen⟩ := Option.map_eq_some_iff.mp hrun
  have hinit : meshMachine.init opened := rfl
  have hs : meshMachine.ReachableWhen KeepsUp s :=
    Machine.ReachableWhen.of_run (b := fun s e => decide (s.KeepsUp e))
      (fun _ _ => of_decide_eq_true) (fun _ _ _ => step_of_advance) _ (.init hinit)
      (by decide +kernel) hrun
  exact ⟨s, hs, hlen, (right_of_reachable hs).1⟩

/-- **A report frees another packet**: the mesh hands the first packet on when it is given it again,
and once more from its copy when the route is found; by then the second packet is the first of the
list.  When that one was handed on as well, there is none to free. -/
theorem not_right : (∃ s, meshMachine.Reachable s ∧ ¬ s.Right) ∧
    ∃ s, meshMachine.Reachable s ∧ s.step (.foundRoute ⟨2, 0⟩ true) = .error .assertFailed := by
  constructor
  · have hrun : ((Machine.run advance (twoPackets ++ [.expire, .timer true true,
        .foundRoute ⟨2, 0⟩ true]) opened).map fun s => decide s.Right) = some false := by
      decide +kernel
    obtain ⟨s, hrun, hright⟩ := Option.map_eq_some_iff.mp hrun
    exact ⟨s, reachable_of_run hrun, of_decide_eq_false hright⟩
  · have hrun : ((Machine.run advance (twoPackets ++ [.expire, .timer true true, .expire,
        .timer true true]) opened).map fun s =>
          (s.queuedData.map MeshCopy.destination, s.conn.sq.first .meshData)) =
        some (some ⟨2, 0⟩, none) := by decide +kernel
    obtain ⟨s, hrun, h⟩ := Option.map_eq_some_iff.mp hrun
    obtain ⟨hqueued, hfirst⟩ := Prod.mk.inj h
    obtain ⟨q, hq, hdest⟩ := Option.map_eq_some_iff.mp hqueued
    refine ⟨s, reachable_of_run hrun, ?_⟩
    rw [step, MeshNode.foundRoute]
    simp only [hq, hdest, if_true]
    exact sent_of_empty (s := { s with queuedData := none }) hfirst

end MeshNode

end EmergencyNet
