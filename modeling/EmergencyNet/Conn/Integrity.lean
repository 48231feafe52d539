import EmergencyNet.Conn.Duplicates
import EmergencyNet.Conn.Order
import Mathlib.Data.List.Forall2

/-!
# Integrity and order of the reliable broadcast

A node and one of those that hear it.  Frames reach the neighbour in the order in which they
were sent, and any of them may be lost.  What the neighbour's callback is given in these frames
are packets that were handed over, unchanged and in the order in which they were handed over,
some left out and some repeated.

## Main definitions

* `Link`, `linkMachine` — the two nodes and the frames under way.
* `InOrderOf` — the calls of a callback are for packets of a list, in order.

## Main results

* `inOrder_of_reachable` — **a neighbour is given what was handed over, in order**, and a frame
  carries the first packet of the list exactly when it is sent with its own header and data.
* `not_inOrder` — a packet is sent with the header and the data of one that was dropped.
-/

namespace EmergencyNet

variable {σ τ ε δ : Type*}

/-! ### The two nodes -/

/-- A node, one that hears it, and what goes from the one to the other. -/
structure Link (σ τ : Type*) where
  sender : EcNode σ
  receiver : EcNode τ
  /-- The frames of the sender on their way, oldest first. -/
  air : List Frame
  /-- What the callback of the receiver was given in frames of the sender, oldest first. -/
  heard : List RecvArgs

/-- The events of the two nodes. -/
inductive LinkEvent (ε δ : Type*)
  /-- An event of the sender. -/
  | sends (ev : NodeEvent ε)
  /-- The oldest frame is received; `stale` is what lies behind it in the buffer. -/
  | hears (stale : List UInt8)
  /-- The oldest frame is lost. -/
  | loses
  /-- Another event of the receiver. -/
  | acts (ev : NodeEvent δ)

/-- What the callback for neighbour data was called with, oldest first. -/
def neighborRecvs (l : List Action) : List RecvArgs :=
  l.reverse.filterMap fun x => match x with
    | .deliver .neighborRecv r => some r
    | _ => none

namespace Link

/-- The frames the sender sends on the way to `s'` are put on their way. -/
def sent (L : Link σ τ) (s' : EcNode σ) : Link σ τ :=
  { L with
    sender := s'
    air := L.air ++
      (neighborFrames s'.conn.trace).drop (neighborFrames L.sender.conn.trace).length }

/-- The receiver goes to `t'` on the reception of a frame, with `rest` left on the way. -/
def took (L : Link σ τ) (rest : List Frame) (t' : EcNode τ) : Link σ τ :=
  { L with
    receiver := t'
    air := rest
    heard := L.heard ++
      (neighborRecvs t'.conn.trace).drop (neighborRecvs L.receiver.conn.trace).length }

/-- The event meets the condition on the states in which neighbour data is sent. -/
def SendsOwn (L : Link σ τ) : LinkEvent ε δ → Prop
  | .sends ev => L.sender.FiresWhen Ec.SendsOwn ev
  | _ => True

instance (L : Link σ τ) (e : LinkEvent ε δ) : Decidable (L.SendsOwn e) := by
  unfold SendsOwn
  split <;> infer_instance

end Link

/-- The two nodes as a transition system: they start with connections just opened. -/
def linkMachine (A : Application σ ε) (B : Application τ δ) :
    Machine (Link σ τ) (LinkEvent ε δ) where
  init L := L.sender.conn = .opened ∧ L.receiver.conn = .opened ∧ L.air = [] ∧ L.heard = []
  step
    | .sends ev, L, L' => ∃ s', (connMachine A).step ev L.sender s' ∧ L' = L.sent s'
    | .hears stale, L, L' => ∃ f rest t', L.air = f :: rest ∧
        (connMachine B).step (.receive .neighbor (f.received stale)) L.receiver t' ∧
        L' = L.took rest t'
    | .loses, L, L' => ∃ f rest, L.air = f :: rest ∧ L' = { L with air := rest }
    | .acts ev, L, L' => ∃ t', (connMachine B).step ev L.receiver t' ∧
        L' = { L with receiver := t' }

/-! ### What is heard -/

/-- The calls `rs` are for packets of the list, in its order, some left out and some repeated. -/
def InOrderOf (rs : List RecvArgs) (as : List SendArgs) : Prop :=
  ∃ ks : List ℕ, ks.Pairwise (· ≤ ·) ∧
    List.Forall₂ (fun k r => ∃ a, as[k]? = some a ∧ r.Carries a) ks rs

/-- Call `r` of a callback is what a node makes of frame `f`. -/
def Frame.Reads (f : Frame) (r : RecvArgs) : Prop :=
  ∃ self stale a, receivePacket self (f.received stale) = some a ∧ a.isForUs = true ∧
    r = EcNode.recvArgs f.hdr a

/-- The frame is one of data, and `r` is what a node makes of it. -/
def Frame.Gives (f : Frame) (r : RecvArgs) : Prop := f.isData = true ∧ f.Reads r

theorem neighborRecvs_append {l m : List Action} :
    neighborRecvs (l ++ m) = neighborRecvs m ++ neighborRecvs l := by
  rw [neighborRecvs, List.reverse_append, List.filterMap_append]
  rfl

theorem neighborRecvs_of_noDelivery {l : List Action} (h : NoDelivery l) : neighborRecvs l = [] := by
  rw [neighborRecvs, List.filterMap_eq_nil_iff]
  intro x hx
  cases x with
  | deliver k r => exact absurd (List.mem_reverse.mp hx) (h k r)
  | _ => rfl

theorem Moves.neighborRecvs_eq {env : MoveEnv} {c c' : Ec} (h : Moves env c c') :
    neighborRecvs c'.trace = neighborRecvs c.trace := by
  obtain ⟨l, htrace, hno⟩ := h.trace
  rw [htrace, neighborRecvs_append, neighborRecvs_of_noDelivery hno, List.append_nil]

/-- A frame on the neighbour channel makes the callback be called once at most. -/
theorem heard_of_step {B : Application τ δ} {t t' : EcNode τ} {f : Frame} {stale : List UInt8}
    (h : t.step B (.receive .neighbor (f.received stale)) = .ok t') :
    neighborRecvs t'.conn.trace = neighborRecvs t.conn.trace ∨
      ∃ r, f.Gives r ∧ neighborRecvs t'.conn.trace = neighborRecvs t.conn.trace ++ [r] := by
  have hsends : EcNode.CallbackSends .any B.toEcCallbacks (f.received stale).p.hdr :=
    fun _ _ _ _ _ _ _ _ => trivial
  obtain hmoves | ⟨a, ha, hfor, hdata, hrec⟩ :=
    EcNode.neighborRecv_cases hsends (fun _ => trivial) trivial h
  · exact .inl hmoves.neighborRecvs_eq
  · cases hrec with
    | moves hmoves => exact .inl hmoves.neighborRecvs_eq
    | @delivered c₁ _ _ h₁ h₂ =>
      refine .inr ⟨EcNode.recvArgs f.hdr a, ⟨?_, _, _, a, ha, hfor, rfl⟩, ?_⟩
      · change (!f.hdr.isPacketFlagSet PacketFlags.ack) = true
        rw [show f.hdr.isPacketFlagSet PacketFlags.ack = false from hdata]
        rfl
      · have hstore : neighborRecvs (c₁.storePacketForDupeChecks f.hdr.id).trace =
            neighborRecvs c₁.trace := by
          unfold Ec.storePacketForDupeChecks
          split
          · rfl
          · exact neighborRecvs_append (l := [.store f.hdr.id]).trans (List.append_nil _)
        calc neighborRecvs t'.conn.trace
            = neighborRecvs (c₁.storePacketForDupeChecks f.hdr.id).trace := h₂.neighborRecvs_eq
          _ = neighborRecvs c₁.trace := hstore
          _ = neighborRecvs ([.deliver .neighborRecv (EcNode.recvArgs f.hdr a)] ++ t.conn.trace) :=
            h₁.neighborRecvs_eq
          _ = _ := neighborRecvs_append

/-! ### The invariant -/

/-- The sender keeps its frames in order; what is heard was given in frames that were sent before
those on the way. -/
structure Link.Keeps (L : Link σ τ) : Prop where
  orderly : Orderly L.sender.conn
  heard : ∃ hs : List Frame, (hs ++ L.air).Sublist (neighborFrames L.sender.conn.trace) ∧
    List.Forall₂ Frame.Gives hs L.heard

namespace Link.Keeps

variable {A : Application σ ε} {B : Application τ δ} {L L' : Link σ τ}

theorem sent (h : L.Keeps) {ev : NodeEvent ε} {s' : EcNode σ}
    (hown : L.sender.FiresWhen Ec.SendsOwn ev) (hstep : L.sender.step A ev = .ok s') :
    (L.sent s').Keeps := by
  have hshape := hown.shape Ec.SendsOwn.same hstep
  refine ⟨hshape.orderly (fun _ h => h) h.orderly, ?_⟩
  obtain ⟨hs, hsub, hgives⟩ := h.heard
  obtain ⟨l, hl⟩ := hshape.trace
  refine ⟨hs, ?_, hgives⟩
  change (hs ++ (L.air ++ (neighborFrames s'.conn.trace).drop _)).Sublist (neighborFrames _)
  change (hs ++ (L.air ++ _)).Sublist (neighborFrames s'.conn.trace)
  rw [hl, neighborFrames_append, List.drop_left, ← List.append_assoc]
  exact hsub.append_right _

theorem took (h : L.Keeps) {f : Frame} {rest : List Frame} {t' : EcNode τ} {stale : List UInt8}
    (hair : L.air = f :: rest)
    (hstep : L.receiver.step B (.receive .neighbor (f.received stale)) = .ok t') :
    (L.took rest t').Keeps := by
  obtain ⟨hs, hsub, hgives⟩ := h.heard
  rw [hair] at hsub
  refine ⟨h.orderly, ?_⟩
  obtain hsame | ⟨r, hr, hnew⟩ := heard_of_step hstep
  · -- the frame is ignored, which is as if it had been lost
    have hheard : (L.took rest t').heard = L.heard := by
      change L.heard ++ (neighborRecvs t'.conn.trace).drop _ = L.heard
      rw [hsame, List.drop_length, List.append_nil]
    refine ⟨hs, ?_, hheard ▸ hgives⟩
    exact ((List.sublist_cons_self f rest).append_left hs).trans hsub
  · have hheard : (L.took rest t').heard = L.heard ++ [r] := by
      change L.heard ++ (neighborRecvs t'.conn.trace).drop _ = L.heard ++ [r]
      rw [hnew, List.drop_left]
    refine ⟨hs ++ [f], ?_, ?_⟩
    · change (hs ++ [f] ++ rest).Sublist _
      rw [List.append_assoc, List.singleton_append]
      exact hsub
    · rw [hheard]
      exact List.rel_append hgives (.cons hr .nil)

theorem step {e : LinkEvent ε δ} (h : L.Keeps) (hown : L.SendsOwn e)
    (hstep : (linkMachine A B).step e L L') : L'.Keeps := by
  cases e with
  | sends ev =>
    obtain ⟨s', ⟨-, hrun⟩, rfl⟩ := hstep
    exact h.sent hown hrun
  | hears stale =>
    obtain ⟨f, rest, t', hair, ⟨-, hrun⟩, rfl⟩ := hstep
    exact h.took hair hrun
  | loses =>
    obtain ⟨f, rest, hair, rfl⟩ := hstep
    obtain ⟨hs, hsub, hgives⟩ := h.heard
    rw [hair] at hsub
    exact ⟨h.orderly, hs, ((List.sublist_cons_self f rest).append_left hs).trans hsub, hgives⟩
  | acts ev =>
    obtain ⟨t', -, rfl⟩ := hstep
    exact ⟨h.orderly, h.heard⟩

/-- What is heard are packets that were handed over, in order. -/
theorem inOrder (h : L.Keeps) : InOrderOf L.heard (offers L.sender.conn.trace) := by
  obtain ⟨fs, ls, hnumbered⟩ := h.orderly.numbered
  obtain ⟨hs, hsub, hgives⟩ := h.heard
  -- the frames that were heard are frames of data
  obtain ⟨hdata, hreads⟩ := (List.forall₂_and_left (R := Frame.Reads) _ _).mp hgives
  have hsent : hs.Sublist (fs.map Prod.snd) := by
    rw [hnumbered.frames, ← List.filter_eq_self.mpr hdata]
    exact ((List.sublist_append_left hs _).trans hsub).filter _
  obtain ⟨fs', hfs, rfl⟩ := List.sublist_map_iff.mp hsent
  refine ⟨fs'.map Prod.fst, ?_, ?_⟩
  · exact hnumbered.sorted.sublist ((hfs.map Prod.fst).trans (List.sublist_append_left _ _))
  · rw [List.forall₂_map_left_iff] at hreads ⊢
    have hboth := (List.forall₂_and_left _ _).mpr ⟨fun p hp => hnumbered.sent p (hfs.subset hp), hreads⟩
    refine hboth.imp fun p r hpr => ?_
    obtain ⟨⟨a, ha, hcarries⟩, self, stale, arr, harr, hfor, rfl⟩ := hpr
    exact ⟨a, ha, hcarries.received (hnumbered.short a (List.mem_of_getElem? ha)) harr hfor⟩

end Link.Keeps

/-- **A neighbour is given what was handed over, in order**, in every run in which neighbour data
is sent only with its own header and data; and in the next step a frame carries the first packet
of the list, the one whose count grows, exactly when it is sent so. -/
theorem inOrder_of_reachable {A : Application σ ε} {B : Application τ δ} {L : Link σ τ}
    (h : (linkMachine A B).ReachableWhen Link.SendsOwn L) :
    InOrderOf L.heard (offers L.sender.conn.trace) ∧
      ∀ ev s', (connMachine A).step ev L.sender s' →
        (SendsHead L.sender.conn s'.conn ↔ L.sender.FiresWhen Ec.SendsOwn ev) := by
  have hkeeps : L.Keeps := by
    refine h.invariant (I := Link.Keeps) (fun L hinit => ?_) fun L e L' hL hok hstep =>
      hL.step hok hstep
    obtain ⟨hsender, -, hair, hheard⟩ := hinit
    refine ⟨hsender ▸ orderly_opened, [], ?_, hheard ▸ .nil⟩
    rw [hair]
    exact List.nil_sublist _
  exact ⟨hkeeps.inOrder, fun ev s' hstep => sendsHead_step_iff hkeeps.orderly hstep.2⟩

/-! ### A packet sent as another -/

namespace Link

/-- One event, `none` when it cannot occur or the code that handles it goes wrong. -/
def advance (A : Application σ ε) (B : Application τ δ) :
    LinkEvent ε δ → Link σ τ → Option (Link σ τ)
  | .sends ev, L => (L.sender.advance A ev).map L.sent
  | .hears stale, L => match L.air with
    | [] => none
    | f :: rest =>
      (L.receiver.advance B (.receive .neighbor (f.received stale))).map (L.took rest)
  | .loses, L => match L.air with
    | [] => none
    | _ :: rest => some { L with air := rest }
  | .acts ev, L => (L.receiver.advance B ev).map fun t' => { L with receiver := t' }

theorem step_of_advance {A : Application σ ε} {B : Application τ δ} {e : LinkEvent ε δ}
    {L L' : Link σ τ} (h : L.advance A B e = some L') : (linkMachine A B).step e L L' := by
  cases e with
  | sends ev =>
    obtain ⟨s', hs', rfl⟩ := Option.map_eq_some_iff.mp h
    exact ⟨s', connMachine_step_of_advance hs', rfl⟩
  | hears stale =>
    cases hair : L.air with
    | nil => simp [advance, hair] at h
    | cons f rest =>
      simp only [advance, hair] at h
      obtain ⟨t', ht', rfl⟩ := Option.map_eq_some_iff.mp h
      exact ⟨f, rest, t', hair, connMachine_step_of_advance ht', rfl⟩
  | loses =>
    cases hair : L.air with
    | nil => simp [advance, hair] at h
    | cons f rest =>
      simp only [advance, hair, Option.some.injEq] at h
      exact ⟨f, rest, hair, h.symm⟩
  | acts ev =>
    obtain ⟨t', ht', rfl⟩ := Option.map_eq_some_iff.mp h
    exact ⟨t', connMachine_step_of_advance ht', rfl⟩

/-- Node `1.0`, heard by node `2.0`. -/
abbrev pairMachine : Machine (Link Unit Unit) (LinkEvent (List Effect) (List Effect)) :=
  linkMachine (.scripted ⟨1, 0⟩ (.single ⟨2, 0⟩)) (.scripted ⟨2, 0⟩ (.single ⟨1, 0⟩))

/-- The two nodes at the start. -/
def pairOpened : Link Unit Unit := ⟨⟨.opened, ()⟩, ⟨.opened, ()⟩, [], []⟩

/-- The state after a list of events. -/
def pairRun (es : List (LinkEvent (List Effect) (List Effect))) : Option (Link Unit Unit) :=
  Machine.run (advance (.scripted ⟨1, 0⟩ (.single ⟨2, 0⟩)) (.scripted ⟨2, 0⟩ (.single ⟨1, 0⟩)))
    es pairOpened

/-- Node `1.0` hands packet `q` over. -/
def pairOffers (q : UInt8) (data : List UInt8) : LinkEvent (List Effect) (List Effect) :=
  .sends (.process [.call (.reliableBroadcastNs (some (.single ⟨2, 0⟩)) ⟨⟨1, 0⟩, ⟨1, 0⟩, 0, q, data⟩)])

/-- The timer for neighbour data expires, and its event is handled. -/
def pairSends : List (LinkEvent (List Effect) (List Effect)) :=
  [.sends (.expire .neighborData), .sends (.timer .neighborData true)]

/-- A packet is handed over, its first frame is lost, and the second is heard. -/
theorem inOrder_pair : ∃ L, pairMachine.ReachableWhen SendsOwn L ∧
    L.heard = [⟨⟨1, 0⟩, ⟨1, 0⟩, 0, 1, [1, 2, 3, 7], 3⟩] ∧
      InOrderOf L.heard (offers L.sender.conn.trace) := by
  have h : (pairRun ([pairOffers 1 [1, 2, 3], pairOffers 2 [9]] ++ pairSends ++ [.loses] ++ pairSends ++
      [.hears [7]])).map (fun L => L.heard) = some [⟨⟨1, 0⟩, ⟨1, 0⟩, 0, 1, [1, 2, 3, 7], 3⟩] := by
    decide +kernel
  obtain ⟨L, hrun, hheard⟩ := Option.map_eq_some_iff.mp h
  have hinit : pairMachine.init pairOpened := ⟨rfl, rfl, rfl, rfl⟩
  have hreach : pairMachine.ReachableWhen SendsOwn L :=
    Machine.ReachableWhen.of_run (b := fun L e => decide (L.SendsOwn e))
      (fun _ _ => of_decide_eq_true) (fun _ _ _ => step_of_advance) _
      (.init hinit) (by decide +kernel) hrun
  exact ⟨L, hreach, hheard, (inOrder_of_reachable hreach).1⟩

/-- **A packet is sent with the header and the data of one that was dropped**: packet 1 is sent
ten times and never acknowledged; then it is dropped, and packet 2 is sent as packet 1, cut to
its own length. -/
theorem not_inOrder : ∃ L, pairMachine.Reachable L ∧
    L.heard = [⟨⟨1, 0⟩, ⟨1, 0⟩, 0, 1, [1], 1⟩] ∧
      ¬ InOrderOf L.heard (offers L.sender.conn.trace) := by
  have h : (pairRun ([pairOffers 1 [1, 2, 3], pairOffers 2 [9]] ++
      (List.replicate 10 (pairSends ++ [.loses])).flatten ++ pairSends ++ [.hears []])).map
      (fun L => (L.heard, offers L.sender.conn.trace)) =
        some ([⟨⟨1, 0⟩, ⟨1, 0⟩, 0, 1, [1], 1⟩],
          [⟨⟨1, 0⟩, ⟨1, 0⟩, 0, 1, [1, 2, 3]⟩, ⟨⟨1, 0⟩, ⟨1, 0⟩, 0, 2, [9]⟩]) := by
    decide +kernel
  obtain ⟨L, hrun, hL⟩ := Option.map_eq_some_iff.mp h
  obtain ⟨hheard, hoffers⟩ := Prod.mk.inj hL
  have hinit : pairMachine.init pairOpened := ⟨rfl, rfl, rfl, rfl⟩
  have hreach : pairMachine.Reachable L :=
    Machine.Reachable.of_run (fun _ _ _ => step_of_advance) _ (.init hinit) hrun
  refine ⟨L, hreach, hheard, ?_⟩
  rintro ⟨ks, -, hcalls⟩
  rw [hheard, hoffers] at hcalls
  obtain ⟨k, _, ⟨a, ha, hcarries⟩, -, -⟩ := List.forall₂_cons_right_iff.mp hcalls
  -- neither of the two packets has this payload
  have hmem := List.mem_of_getElem? ha
  simp only [List.mem_cons, List.not_mem_nil, or_false] at hmem
  rcases hmem with rfl | rfl
  · exact absurd hcarries.dataLen (by decide)
  · exact absurd hcarries.seqno (by decide)

end Link

end EmergencyNet
