import EmergencyNet.Conn.Handover

/-!
# Broadcasts are sent once and in order

A packet that is handed to `ec_broadcast` is sent once, whatever the radio refuses in between:
the frames that were sent, followed by the frames of the packets still queued, are the frames of
the packets that were handed over, in their order.  Nothing else is sent as a broadcast.  Only an
acknowledgement that matches a queued broadcast, which no receiver of broadcasts sends, can take
one out of the queue.

## Main definitions

* `Ec.floodLine` — the broadcasts that were sent, and those that are queued.
* `floodsOffered` — the broadcasts that were handed over.
* `Ec.LineGrows` — what is handed over joins the broadcasts, and nothing else changes them.
* `EcNode.AcksFlood` — an acknowledgement is received that matches a queued broadcast.

## Main results

* `PacketMove.floodLine` — what a move adds to both.
* `floodsSent_of_reachable` — **broadcasts are sent in the order in which they were handed over,
  none twice, and without such acknowledgements none is lost.**
-/

namespace EmergencyNet

variable {σ ε : Type*} {c c' : Ec}

/-- The frame in which packet `a` is broadcast. -/
def SendArgs.floodFrame (a : SendArgs) : Frame :=
  ⟨initBroadcastPacket 0 a.hops a.originator a.sender a.seqno, a.data⟩

/-- The frame of the packet that was handed to `ec_broadcast`. -/
def Action.floodOffered : Action → Option Frame
  | .enqueue .broadcastData _ _ a => some a.floodFrame
  | _ => none

/-- The frame that was sent, if it is one for all: no acknowledgement, and for no particular
neighbours. -/
def Action.flood : Action → Option Frame
  | .frame .broadcast _ f => if f.hdr.flags = PacketFlags.broadcast then some f else none
  | _ => none

/-- The frames of the packets that were handed to `ec_broadcast`, oldest first. -/
def floodsOffered (l : List Action) : List Frame := l.reverse.filterMap Action.floodOffered

/-- The broadcast frames that were sent, oldest first. -/
def floodsSent (l : List Action) : List Frame := l.reverse.filterMap Action.flood

theorem floodsOffered_append {l m : List Action} :
    floodsOffered (l ++ m) = floodsOffered m ++ floodsOffered l := by
  rw [floodsOffered, List.reverse_append, List.filterMap_append]
  rfl

theorem floodsSent_append {l m : List Action} :
    floodsSent (l ++ m) = floodsSent m ++ floodsSent l := by
  rw [floodsSent, List.reverse_append, List.filterMap_append]
  rfl

namespace Ec

/-- The frames of the broadcasts that are queued, in the order of the list. -/
def queuedFloods (c : Ec) : List Frame :=
  (c.sq.prioHeads .broadcastData).map fun i => (c.sq.item i).args.floodFrame

/-- The broadcasts that were sent and then those that are queued. -/
def floodLine (c : Ec) : List Frame := floodsSent c.trace ++ c.queuedFloods

/-- The packets on the list are the same, up to what is no part of their frames. -/
theorem queuedFloods_eq (hheads : c'.sq.prioHeads .broadcastData = c.sq.prioHeads .broadcastData)
    (hsq : c.sq.Shrinks .broadcastData c'.sq) : c'.queuedFloods = c.queuedFloods := by
  unfold queuedFloods
  rw [hheads]
  apply List.map_congr_left
  intro i hi
  obtain ⟨hp, hlen⟩ := hsq.same i (hheads ▸ hi)
  rw [BufferedPacket.args_congr hp hlen]

/-- A list that has only lost packets. -/
theorem queuedFloods_sublist (hsq : c.sq.Shrinks .broadcastData c'.sq) :
    c'.queuedFloods.Sublist c.queuedFloods := by
  have hsame : c'.queuedFloods =
      (c'.sq.prioHeads .broadcastData).map fun i => (c.sq.item i).args.floodFrame := by
    apply List.map_congr_left
    intro i hi
    obtain ⟨hp, hlen⟩ := hsq.same i hi
    rw [BufferedPacket.args_congr hp hlen]
  rw [hsame]
  exact hsq.list.map _

end Ec

/-- Neither hands a broadcast over nor sends one. -/
def Action.NoFlood (x : Action) : Prop := x.flood = none ∧ x.floodOffered = none

theorem floods_of_noFlood {l : List Action} (h : ∀ x ∈ l, x.NoFlood) :
    floodsSent l = [] ∧ floodsOffered l = [] := by
  constructor
  · exact List.filterMap_eq_nil_iff.mpr fun x hx => (h x (List.mem_reverse.mp hx)).1
  · exact List.filterMap_eq_nil_iff.mpr fun x hx => (h x (List.mem_reverse.mp hx)).2

section Moves

variable {E : MayHandOver} {K : Header → Prop} {l : List Action}

/-- What neither touches the list of broadcasts nor adds to the history of them. -/
theorem Ec.floodLine_eq (hqueued : c'.queuedFloods = c.queuedFloods)
    (htrace : c'.trace = l ++ c.trace) (hl : ∀ x ∈ l, x.NoFlood) :
    c'.floodLine = c.floodLine ∧ floodsOffered c'.trace = floodsOffered c.trace := by
  obtain ⟨hfloods, hoffered⟩ := floods_of_noFlood hl
  constructor
  · rw [floodLine, floodLine, htrace, floodsSent_append, hfloods, List.append_nil, hqueued]
  · rw [htrace, floodsOffered_append, hoffered, List.append_nil]

/-- A packet that is freed from another list. -/
theorem PacketBuffer.prioHeads_free_of_ne {pb : PacketBuffer} {t t' : MsgType} {i : ℕ}
    (hi : i ∈ pb.prioHeads t') (ht : t ≠ t') : (pb.free i).prioHeads t = pb.prioHeads t := by
  rw [free_prioHeads]
  exact List.erase_of_not_mem fun hmem => ht (pb.unique t t' i hmem hi)

/-- Packets dropped from another list. -/
theorem Ec.Drops.prioHeads_of_ne {t t' : MsgType} {limit : UInt8} (h : Ec.Drops t' limit c c')
    (ht : t ≠ t') : c'.sq.prioHeads t = c.sq.prioHeads t := by
  induction h with
  | refl => rfl
  | tail _ hdrop ih =>
    obtain ⟨i, hi, -, rfl⟩ := hdrop
    exact (PacketBuffer.prioHeads_free_of_ne hi ht).trans ih

/-- A frame with other flags is none for all. -/
theorem Action.noFlood_frame {ch : Channel} {i : ℕ} {f : Frame}
    (h : ch = .broadcast → f.hdr.flags ≠ PacketFlags.broadcast) :
    (Action.frame ch i f).NoFlood := by
  refine ⟨?_, rfl⟩
  cases ch with
  | broadcast => exact if_neg (h rfl)
  | neighbor | timesynch => rfl

/-- From `c` to `c'` the packets that were handed over have joined the line behind the others, and
none has left it. -/
def Ec.LineGrows (c c' : Ec) : Prop :=
  ∃ new, c'.floodLine = c.floodLine ++ new ∧ floodsOffered c'.trace = floodsOffered c.trace ++ new

namespace Ec.LineGrows

variable {t : MsgType} {i : ℕ} {a : SendArgs} {f : Frame} {x : Action}

theorem refl (c : Ec) : c.LineGrows c := ⟨[], (List.append_nil _).symm, (List.append_nil _).symm⟩

theorem trans {c₁ : Ec} (h : c.LineGrows c₁) (h' : c₁.LineGrows c') : c.LineGrows c' := by
  obtain ⟨new, hline, hoffered⟩ := h
  obtain ⟨new', hline', hoffered'⟩ := h'
  refine ⟨new ++ new', ?_, ?_⟩
  · rw [hline', hline, List.append_assoc]
  · rw [hoffered', hoffered, List.append_assoc]

/-- What leaves the broadcasts alone. -/
theorem kept (hqueued : c'.queuedFloods = c.queuedFloods) (htrace : c'.trace = l ++ c.trace)
    (hl : ∀ x ∈ l, x.NoFlood) : c.LineGrows c' := by
  obtain ⟨hline, hoffered⟩ := floodLine_eq hqueued htrace hl
  exact ⟨[], by rw [hline, List.append_nil], by rw [hoffered, List.append_nil]⟩

/-- One action that leaves them alone. -/
theorem kept_one (hqueued : c'.queuedFloods = c.queuedFloods) (htrace : c'.trace = x :: c.trace)
    (hx : x.NoFlood) : c.LineGrows c' :=
  kept (l := [x]) hqueued htrace fun _ hy => List.mem_singleton.mp hy ▸ hx

/-- A packet of another list is sent, and freed. -/
theorem sent_other (ht : t ≠ .broadcastData) (hi : i ∈ c.sq.prioHeads t)
    (hsq : c'.sq = c.sq.free i) (htrace : c'.trace = .free i :: x :: c.trace) (hx : x.NoFlood) :
    c.LineGrows c' := by
  refine kept (l := [.free i, x]) (queuedFloods_eq ?_ (hsq ▸ .free i)) htrace ?_
  · rw [hsq, PacketBuffer.prioHeads_free_of_ne hi (Ne.symm ht)]
  · intro y hy
    simp only [List.mem_cons, List.not_mem_nil, or_false] at hy
    rcases hy with rfl | rfl
    · exact ⟨rfl, rfl⟩
    · exact hx

/-- A packet joins another list. -/
theorem enqueued_other {bp : BufferedPacket} {ns : Option NeighborSet} (ht : t ≠ .broadcastData)
    (hsq : c.sq.Enqueued t i bp c'.sq) (htrace : c'.trace = .enqueue t i ns a :: c.trace) :
    c.LineGrows c' := by
  refine kept_one (queuedFloods_eq ?_ (.of_enqueued hsq (Ne.symm ht))) htrace ⟨rfl, ?_⟩
  · rw [hsq.prioHeads, addTail_of_ne (Ne.symm ht)]
  · cases t with
    | broadcastData => exact absurd rfl ht
    | _ => rfl

/-- A broadcast is handed over: it goes to the end of the list. -/
theorem enqueued {ns : Option NeighborSet} (hlen : a.data.length ≤ 24)
    (hsq : c.sq.Enqueued .broadcastData i (PacketBuffer.written
      (initBroadcastPacket 0 a.hops a.originator a.sender a.seqno) [] a.data ns
        (c.sq.item i)) c'.sq)
    (htrace : c'.trace = .enqueue .broadcastData i ns a :: c.trace) : c.LineGrows c' := by
  have hold : ∀ j ∈ c.sq.prioHeads .broadcastData, c'.sq.item j = c.sq.item j := fun j hj =>
    hsq.item_of_ne j fun heq => hsq.fresh _ (heq ▸ hj)
  have hqueued : c'.queuedFloods = c.queuedFloods ++ [a.floodFrame] := by
    rw [queuedFloods, hsq.prioHeads, addTail_self, List.map_append]
    congr 1
    · apply List.map_congr_left
      intro j hj
      rw [hold j hj]
    · rw [List.map_singleton, hsq.item_self, PacketBuffer.args_written hlen]
  have hsent : floodsSent c'.trace = floodsSent c.trace := by
    rw [htrace]
    exact (floodsSent_append (l := [.enqueue .broadcastData i ns a])).trans (List.append_nil _)
  refine ⟨[a.floodFrame], ?_, ?_⟩
  · rw [floodLine, floodLine, hsent, hqueued, List.append_assoc]
  · rw [htrace]
    exact floodsOffered_append (l := [.enqueue .broadcastData i ns a])

/-- A broadcast is sent: it stays in the line, in which it is the first of those that are queued. -/
theorem sent (hhdr : (c.sq.item i).p.hdr = (c.sq.item i).args.floodFrame.hdr)
    (hfirst : c.sq.first .broadcastData = some i) (hsq : c'.sq = c.sq.free i)
    (htrace : c'.trace = .free i ::
      .frame .broadcast i ⟨(c.sq.item i).p.hdr, (c.sq.item i).args.data⟩ :: c.trace) :
    c.LineGrows c' := by
  obtain ⟨rest, hrest⟩ : ∃ rest, c.sq.prioHeads .broadcastData = i :: rest :=
    List.head?_eq_some_iff.mp hfirst
  have hqueued : c.queuedFloods = (c.sq.item i).args.floodFrame :: c'.queuedFloods := by
    have hheads : c'.sq.prioHeads .broadcastData = rest := by
      rw [hsq, PacketBuffer.free_prioHeads, hrest, List.erase_cons_head]
    rw [queuedFloods, hrest, List.map_cons, queuedFloods, hheads, hsq]
    simp only [PacketBuffer.free_item]
  have hsent : floodsSent c'.trace = floodsSent c.trace ++ [(c.sq.item i).args.floodFrame] := by
    rw [htrace, hhdr]
    exact floodsSent_append (l := [.free i, .frame .broadcast i (c.sq.item i).args.floodFrame])
  refine ⟨[], ?_, ?_⟩
  · rw [floodLine, floodLine, hsent, hqueued, List.append_assoc, List.append_nil]
    rfl
  · rw [htrace]
    exact floodsOffered_append (l := [.free i, .frame .broadcast i _])

/-- The callback for neighbour data frees packets of its own list, and sends on another channel. -/
theorem sendNeighborData {radio : Bool} (h : c.sendNeighborData radio = .ok c') :
    c.LineGrows c' := by
  obtain ⟨c₁, hdrops, -, hsent⟩ := sendNeighborData_cases h
  obtain ⟨l, hl, hfree⟩ := hdrops.trace
  have hheads := hdrops.prioHeads_of_ne (t := .broadcastData) (by decide)
  have hdropped : c.LineGrows c₁ := by
    refine kept (queuedFloods_eq hheads (.drops hdrops)) hl fun x hx => ?_
    obtain ⟨i, rfl⟩ := hfree x hx
    exact ⟨rfl, rfl⟩
  cases hsent with
  | emptied => exact hdropped
  | refused => exact hdropped.trans (kept (l := []) rfl rfl fun x hx => absurd hx List.not_mem_nil)
  | @sent i j f =>
    refine hdropped.trans (kept_one (x := .frame .neighbor i f) ?_ rfl ?_)
    · exact queuedFloods_eq rfl (.incrementTimesSent j)
    · exact Action.noFlood_frame fun h => by cases h

/-- A frame for particular neighbours has the flag of a unicast or a multicast. -/
theorem targeted (hf : targetedFrame (c.sq.item i).p (c.sq.item i) = some f)
    (hsq : c'.sq = c.sq.modify i .incrementTimesSent)
    (htrace : c'.trace = .frame .broadcast i f :: c.trace) : c.LineGrows c' := by
  refine kept_one (queuedFloods_eq (by rw [hsq]; rfl) (hsq ▸ .incrementTimesSent i)) htrace ?_
  refine Action.noFlood_frame fun _ hflags => ?_
  unfold targetedFrame at hf
  simp only at hf
  split at hf
  · cases hf
  · cases hf
    have hflags : PacketFlags.unicast ||| 0 = PacketFlags.broadcast := hflags
    exact absurd hflags (by decide)
  · cases hf
    have hflags : PacketFlags.multicast ||| 0 = PacketFlags.broadcast := hflags
    exact absurd hflags (by decide)

end Ec.LineGrows

/-- **What a move adds to the broadcasts**: what it hands over. -/
theorem PacketMove.floodLine (h : PacketMove E (fun _ => False) c c') (hc : c.Accounted E) :
    c.LineGrows c' := by
  cases h with
  | same hsq htrace =>
    exact .kept (l := []) (Ec.queuedFloods_eq (by rw [hsq]) (hsq ▸ .refl _ _)) htrace
      fun _ hx => absurd hx List.not_mem_nil
  | stored _ hsq htrace | delivered hsq htrace =>
    exact .kept_one (Ec.queuedFloods_eq (by rw [hsq]) (hsq ▸ .refl _ _)) htrace ⟨rfl, rfl⟩
  | @data _ t i ns a _ _ hlen hsq htrace =>
    by_cases hflood : t = .broadcastData
    · subst hflood
      exact .enqueued hlen hsq htrace
    · exact .enqueued_other hflood hsq htrace
  | control ht _ hsq htrace =>
    exact .enqueued_other (fun heq => ht (.inr (.inl heq))) hsq htrace
  | acked _ hK => exact hK.elim
  | @confirms _ t ch i body ht hi hsq htrace =>
    refine .sent_other ?_ hi hsq htrace (Action.noFlood_frame fun _ hflags => ?_)
    · rcases ht with rfl | rfl <;> decide
    · -- the flag of an acknowledgement is none of those of a broadcast
      have hack := hc.acks t ht i hi
      rw [Header.isPacketFlagSet, hflags] at hack
      exact absurd hack (by decide)
  | @floods _ i hfirst hsq htrace =>
    obtain ⟨hdata, -⟩ := hc.queued _ (.inr (.inl rfl)) i (PacketBuffer.mem_of_first hfirst)
    exact .sent hdata.hdr_eq hfirst hsq htrace
  | synchs hi hsq htrace =>
    exact .sent_other (by decide) hi hsq htrace (Action.noFlood_frame fun h => by cases h)
  | neighborData h => exact .sendNeighborData h
  | targeted _ hf hsq htrace => exact .targeted hf hsq htrace
  | @meshed _ i _ _ _ hsq htrace =>
    exact .kept_one (Ec.queuedFloods_eq (by rw [hsq]; rfl) (hsq ▸ .incrementTimesSent i)) htrace
      ⟨rfl, rfl⟩
  | @dropped _ i hi hsq htrace =>
    refine .kept_one (Ec.queuedFloods_eq ?_ (hsq ▸ .free i)) htrace ⟨rfl, rfl⟩
    rw [hsq, PacketBuffer.prioHeads_free_of_ne hi (by decide)]

theorem PacketMoves.floodLine (h : PacketMoves E (fun _ => False) c c') (hc : c.Accounted E) :
    c.LineGrows c' := by
  have hboth : c'.Accounted E ∧ c.LineGrows c' := by
    induction h with
    | refl => exact ⟨hc, .refl c⟩
    | tail _ hmove ih => exact ⟨hmove.accounted ih.1, ih.2.trans (hmove.floodLine ih.1)⟩
  exact hboth.2

end Moves

/-! ### Acknowledgements -/

/-- An acknowledgement that leaves list `t` alone is for a packet on another list. -/
theorem PacketBuffer.prioHeads_acked_of_notMem {pb : PacketBuffer} {t : MsgType} {i : ℕ}
    {a : Rimeaddr} (h : i ∉ pb.prioHeads t) : (pb.acked i a).prioHeads t = pb.prioHeads t := by
  unfold acked
  split
  · rw [free_prioHeads, modify_prioHeads]
    exact List.erase_of_not_mem h
  · rw [modify_prioHeads]

namespace EcNode

variable {A : Application σ ε} {s s' : EcNode σ} {ev : NodeEvent ε}

/-- An acknowledgement is received that matches a queued broadcast before any other packet. -/
def AcksFlood (s : EcNode σ) : NodeEvent ε → Prop
  | .receive _ pb => pb.p.hdr.isPacketFlagSet PacketFlags.ack = true ∧
      ∃ i ∈ s.conn.sq.prioHeads .broadcastData,
        s.conn.sq.find (originatorSeqnoCmp pb.p.hdr) = some i
  | _ => False

instance (s : EcNode σ) (ev : NodeEvent ε) : Decidable (s.AcksFlood ev) := by
  rcases ev <;> unfold AcksFlood <;> infer_instance

/-- What the reception of an acknowledgement does to the broadcasts. -/
theorem floodLine_ackRecv (timer : Timer) (hdr : Header) (c : Ec) :
    floodsOffered (ackRecv timer hdr c).trace = floodsOffered c.trace ∧
      (ackRecv timer hdr c).floodLine.Sublist c.floodLine ∧
      ((∀ i ∈ c.sq.prioHeads .broadcastData, c.sq.find (originatorSeqnoCmp hdr) ≠ some i) →
        (ackRecv timer hdr c).floodLine = c.floodLine) := by
  obtain ⟨-, heq⟩ | ⟨i, hfind, hsq, -, htrace⟩ := ackRecv_cases timer hdr c
  · rw [heq]
    exact ⟨rfl, List.Sublist.refl _, fun _ => rfl⟩
  · obtain ⟨l, hl, hno⟩ : ∃ l, (ackRecv timer hdr c).trace = l ++ c.trace ∧
        ∀ x ∈ l, x.NoFlood := by
      rcases htrace with ⟨-, hfree⟩ | ⟨-, hkept⟩
      · refine ⟨[.free i], hfree, fun x hx => ?_⟩
        rw [List.mem_singleton.mp hx]
        exact ⟨rfl, rfl⟩
      · exact ⟨[], hkept, fun x hx => absurd hx List.not_mem_nil⟩
    have hshrinks : c.sq.Shrinks .broadcastData (ackRecv timer hdr c).sq :=
      shrinks_ackRecv _ timer hdr
    obtain ⟨hsent, hoffered⟩ := floods_of_noFlood hno
    have hsent' : floodsSent (ackRecv timer hdr c).trace = floodsSent c.trace := by
      rw [hl, floodsSent_append, hsent, List.append_nil]
    refine ⟨?_, ?_, fun hnot => ?_⟩
    · rw [hl, floodsOffered_append, hoffered, List.append_nil]
    · rw [Ec.floodLine, Ec.floodLine, hsent']
      exact (List.Sublist.refl _).append (Ec.queuedFloods_sublist hshrinks)
    · have hi : i ∉ c.sq.prioHeads .broadcastData := fun hmem => hnot i hmem hfind
      have hheads : (ackRecv timer hdr c).sq.prioHeads .broadcastData =
          c.sq.prioHeads .broadcastData := by
        rw [hsq, PacketBuffer.prioHeads_acked_of_notMem hi]
      exact (Ec.floodLine_eq (Ec.queuedFloods_eq hheads hshrinks) hl hno).1

/-- Any call may be made. -/
theorem handsOver_any (call : EcCall) : call.HandsOver fun _ _ _ => True := by
  cases call <;> simp [EcCall.HandsOver]

/-- **What an event does to the broadcasts.** -/
theorem floodLine_step (hc : s.conn.Accounted fun _ _ _ => True) (h : s.step A ev = .ok s') :
    s.conn.LineGrows s'.conn ∨
    (s.AcksFlood ev ∧ s'.conn.floodLine.Sublist s.conn.floodLine ∧
      floodsOffered s'.conn.trace = floodsOffered s.conn.trace) := by
  by_cases hack : ∃ ch pb, ev = .receive ch pb ∧
      pb.p.hdr.isPacketFlagSet PacketFlags.ack = true
  · obtain ⟨ch, pb, rfl, hflag⟩ := hack
    cases received_of_step h with
    | ignored _ h => exact .inl (h ▸ .refl _)
    | acked _ _ _ _ _ _ h =>
      obtain ⟨hoffered, hsub, heq⟩ := floodLine_ackRecv (ackedTimer ch) pb.p.hdr s.conn
      by_cases hflood : s.AcksFlood (.receive (ε := ε) ch pb)
      · rw [h]
        exact .inr ⟨hflood, hsub, hoffered⟩
      · have hnot : ∀ i ∈ s.conn.sq.prioHeads .broadcastData,
            s.conn.sq.find (originatorSeqnoCmp pb.p.hdr) ≠ some i := fun i hi hfind =>
          hflood ⟨hflag, i, hi, hfind⟩
        rw [h]
        refine .inl ⟨[], ?_, ?_⟩
        · exact (heq hnot).trans (List.append_nil _).symm
        · exact hoffered.trans (List.append_nil _).symm
    | duplicate _ _ _ _ hdata => exact absurd (hflag.symm.trans hdata) (by simp)
    | delivered _ hacc => exact absurd (hflag.symm.trans hacc.2.2.1) (by simp)
    | synch _ _ h =>
      have hmoves : PacketMoves (fun _ _ _ => True) (fun _ => False) s.conn s'.conn :=
        timesynchRecv_packetMoves h
      exact .inl (hmoves.floodLine hc)
  · have hmoves : PacketMoves (fun _ _ _ => True) (fun _ => False) s.conn s'.conn := by
      refine step_packetMoves (fun r _ call _ => handsOver_any call) ?_ h
      exact fun ch pb hev hflag => hack ⟨ch, pb, hev, hflag⟩
    exact .inl (hmoves.floodLine hc)

end EcNode

/-! ### Runs -/

/-- **Broadcasts are sent in the order in which they were handed over and none twice**: the frames
that were sent, followed by those of the packets that are queued, are frames of packets that were
handed to `ec_broadcast`, in their order.  As long as no acknowledgement matches a queued
broadcast they are the frames of all these packets. -/
theorem floodsSent_of_reachable {A : Application σ ε} {ok : EcNode σ → NodeEvent ε → Prop}
    {s : EcNode σ} (h : (connMachine A).ReachableWhen ok s) :
    (floodsSent s.conn.trace ++ s.conn.queuedFloods).Sublist (floodsOffered s.conn.trace) ∧
      ((∀ s ev, ok s ev → ¬ s.AcksFlood ev) →
        floodsSent s.conn.trace ++ s.conn.queuedFloods = floodsOffered s.conn.trace) := by
  have hall : s.conn.Accounted (fun _ _ _ => True) ∧
      s.conn.floodLine.Sublist (floodsOffered s.conn.trace) ∧
      ((∀ s ev, ok s ev → ¬ s.AcksFlood ev) → s.conn.floodLine = floodsOffered s.conn.trace) := by
    refine h.invariant (I := fun s => s.conn.Accounted (fun _ _ _ => True) ∧
      s.conn.floodLine.Sublist (floodsOffered s.conn.trace) ∧
      ((∀ s ev, ok s ev → ¬ s.AcksFlood ev) →
        s.conn.floodLine = floodsOffered s.conn.trace)) (fun s hinit => ?_) ?_
    · rw [hinit]
      exact ⟨.opened, List.Sublist.refl _, fun _ => rfl⟩
    · rintro s ev s' ⟨hacc, hsub, heq⟩ hok ⟨-, hstep⟩
      have hmoves : PacketMoves (fun _ _ _ => True) (fun _ => True) s.conn s'.conn :=
        EcNode.step_packetMoves (fun r _ call _ => EcNode.handsOver_any call)
          (fun _ _ _ _ => trivial) hstep
      refine ⟨hmoves.accounted hacc, ?_⟩
      obtain ⟨new, hline, hoffered⟩ | ⟨hflood, hline, hoffered⟩ := EcNode.floodLine_step hacc hstep
      · rw [hline, hoffered]
        exact ⟨hsub.append (List.Sublist.refl new), fun hno => by rw [heq hno]⟩
      · rw [hoffered]
        exact ⟨hline.trans hsub, fun hno => absurd hflood (hno s ev hok)⟩
  exact hall.2

/-- Node `1.0` hands broadcast `q` over. -/
def offersFlood (q : UInt8) : NodeEvent (List Effect) :=
  .process [.call (.broadcast none ⟨⟨1, 0⟩, ⟨1, 0⟩, 0, q, [q]⟩)]

/-- The radio takes or refuses a broadcast. -/
def sendsFlood (radio : Bool) : List (NodeEvent (List Effect)) :=
  [.expire .broadcastData, .timer .broadcastData radio]

/-- Three broadcasts, of which the radio refuses one at first; two have been sent, in order. -/
theorem floods_three : ∃ s, (connMachine (.scripted ⟨1, 0⟩ (.single ⟨2, 0⟩))).ReachableWhen
      (fun s ev => ¬ s.AcksFlood ev) s ∧
    (floodsSent s.conn.trace).map (·.body) = [[5], [6]] ∧
    floodsSent s.conn.trace ++ s.conn.queuedFloods = floodsOffered s.conn.trace := by
  have h : ((Machine.run (EcNode.advance (.scripted ⟨1, 0⟩ (.single ⟨2, 0⟩)))
      ([offersFlood 5, offersFlood 6] ++ sendsFlood true ++ sendsFlood false ++ [offersFlood 7] ++
        sendsFlood true) ⟨.opened, ()⟩).map fun s => (floodsSent s.conn.trace).map (·.body)) =
      some [[5], [6]] := by decide +kernel
  obtain ⟨s, hrun, hsent⟩ := Option.map_eq_some_iff.mp h
  have hinit : (connMachine (.scripted ⟨1, 0⟩ (.single ⟨2, 0⟩))).init ⟨.opened, ()⟩ := rfl
  have hreach : (connMachine (.scripted ⟨1, 0⟩ (.single ⟨2, 0⟩))).ReachableWhen
      (fun s ev => ¬ s.AcksFlood ev) s :=
    Machine.ReachableWhen.of_run (b := fun s ev => decide (¬ s.AcksFlood ev))
      (fun _ _ => of_decide_eq_true) (fun _ _ _ => connMachine_step_of_advance) _ (.init hinit)
      (by decide +kernel) hrun
  exact ⟨s, hreach, hsent, (floodsSent_of_reachable hreach).2 fun _ _ hok => hok⟩

end EmergencyNet
