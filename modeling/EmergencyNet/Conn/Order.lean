import EmergencyNet.Conn.NeighborData

/-!
# The order of neighbour data

Every frame of neighbour data that is sent, and every packet that waits, is numbered by the
packet that was handed over; the numbers of the frames, and behind them those of the list, do
not fall.  A frame that carries the first packet of the list is numbered like it.

## Main definitions

* `offers`, `dataFrames` — what was handed over to be sent, and the frames that were sent.
* `PacketBuffer.Shrinks` — a list that only loses packets.
* `Numbered`, `Orderly` — the invariant of the sender.
* `SendsHead` — a frame carries the first packet of the list, the one whose count grows.

## Main results

* `Shape.orderly` — **an event keeps frames and packets in order** when neighbour data is sent
  only as its own.
* `sendsHead_step_iff` — a frame carries the first packet exactly when it is sent as its own.
-/

namespace EmergencyNet

variable {env : MoveEnv} {c c' : Ec} {l m : List Action} {x : Action}

/-! ### Histories -/

/-- The packet an action hands over for the neighbours. -/
def Action.offer : Action → Option SendArgs
  | .enqueue .neighborData _ _ a => some a
  | _ => none

/-- The frame an action sends on the neighbour channel. -/
def Action.neighborFrame : Action → Option Frame
  | .frame .neighbor _ f => some f
  | _ => none

/-- The packets handed over for the neighbours, oldest first. -/
def offers (l : List Action) : List SendArgs := l.reverse.filterMap Action.offer

/-- The frames sent on the neighbour channel, oldest first. -/
def neighborFrames (l : List Action) : List Frame := l.reverse.filterMap Action.neighborFrame

/-- The frame is no acknowledgement. -/
def Frame.isData (f : Frame) : Bool := !f.hdr.isPacketFlagSet PacketFlags.ack

/-- Those of them that are no acknowledgements. -/
def dataFrames (l : List Action) : List Frame := (neighborFrames l).filter Frame.isData

theorem offers_append : offers (l ++ m) = offers m ++ offers l := by
  rw [offers, List.reverse_append, List.filterMap_append]
  rfl

theorem neighborFrames_append : neighborFrames (l ++ m) = neighborFrames m ++ neighborFrames l := by
  rw [neighborFrames, List.reverse_append, List.filterMap_append]
  rfl

theorem dataFrames_append : dataFrames (l ++ m) = dataFrames m ++ dataFrames l := by
  rw [dataFrames, neighborFrames_append, List.filter_append]
  rfl

theorem offers_cons : offers (x :: l) = offers l ++ offers [x] := offers_append (l := [x])

theorem dataFrames_cons : dataFrames (x :: l) = dataFrames l ++ dataFrames [x] :=
  dataFrames_append (l := [x])

/-- The action neither hands a packet over for the neighbours nor sends one. -/
def Action.Unheard (x : Action) : Prop := offers [x] = [] ∧ dataFrames [x] = []

theorem offers_of_unheard (h : ∀ x ∈ l, x.Unheard) : offers l = [] := by
  induction l with
  | nil => rfl
  | cons x rest ih =>
    have hrest : offers rest = [] := ih fun y hy => h y (List.mem_cons_of_mem x hy)
    have hx : offers [x] = [] := (h x List.mem_cons_self).1
    rw [offers_cons, hrest, hx, List.append_nil]

theorem dataFrames_of_unheard (h : ∀ x ∈ l, x.Unheard) : dataFrames l = [] := by
  induction l with
  | nil => rfl
  | cons x rest ih =>
    have hrest : dataFrames rest = [] := ih fun y hy => h y (List.mem_cons_of_mem x hy)
    have hx : dataFrames [x] = [] := (h x List.mem_cons_self).2
    rw [dataFrames_cons, hrest, hx, List.append_nil]

/-- What a connection has done since is nothing for its neighbours. -/
def Ec.UnheardTo (c c' : Ec) : Prop := ∃ l, c'.trace = l ++ c.trace ∧ ∀ x ∈ l, x.Unheard

namespace Ec.UnheardTo

theorem of_eq (h : c'.trace = c.trace) : c.UnheardTo c' := ⟨[], h, fun _ hx => by cases hx⟩

theorem of_action (h : c'.trace = x :: c.trace) (hx : x.Unheard) : c.UnheardTo c' := by
  refine ⟨[x], h, fun y hy => ?_⟩
  rw [List.mem_singleton] at hy
  exact hy ▸ hx

theorem trans {c₁ : Ec} (h : c.UnheardTo c₁) (h' : c₁.UnheardTo c') : c.UnheardTo c' := by
  obtain ⟨l, hl, hun⟩ := h
  obtain ⟨l', hl', hun'⟩ := h'
  refine ⟨l' ++ l, by rw [hl', hl, List.append_assoc], fun x hx => ?_⟩
  rcases List.mem_append.mp hx with hx | hx
  · exact hun' x hx
  · exact hun x hx

theorem offers_eq (h : c.UnheardTo c') : offers c'.trace = offers c.trace := by
  obtain ⟨l, hl, hun⟩ := h
  rw [hl, offers_append, offers_of_unheard hun, List.append_nil]

theorem dataFrames_eq (h : c.UnheardTo c') : dataFrames c'.trace = dataFrames c.trace := by
  obtain ⟨l, hl, hun⟩ := h
  rw [hl, dataFrames_append, dataFrames_of_unheard hun, List.append_nil]

end Ec.UnheardTo

/-! ### Lists that only lose packets -/

/-- List `t` has only lost packets, and those left are the same but for what was counted and
acknowledged. -/
structure PacketBuffer.Shrinks (t : MsgType) (pb pb' : PacketBuffer) : Prop where
  list : (pb'.prioHeads t).Sublist (pb.prioHeads t)
  same : ∀ i ∈ pb'.prioHeads t, (pb'.item i).p = (pb.item i).p ∧
    (pb'.item i).dataLen = (pb.item i).dataLen

namespace PacketBuffer.Shrinks

variable {pb pb' pb₁ : PacketBuffer} {t t' : MsgType}

theorem refl (t : MsgType) (pb : PacketBuffer) : Shrinks t pb pb :=
  ⟨List.Sublist.refl _, fun _ _ => ⟨rfl, rfl⟩⟩

theorem trans (h : Shrinks t pb pb₁) (h' : Shrinks t pb₁ pb') : Shrinks t pb pb' := by
  refine ⟨h'.list.trans h.list, fun i hi => ?_⟩
  obtain ⟨hp, hlen⟩ := h.same i (h'.list.subset hi)
  obtain ⟨hp', hlen'⟩ := h'.same i hi
  exact ⟨hp'.trans hp, hlen'.trans hlen⟩

/-- A packet enqueued on another list is in a slot of its own. -/
theorem of_enqueued {i : ℕ} {bp : BufferedPacket} (h : pb.Enqueued t' i bp pb') (ht : t ≠ t') :
    Shrinks t pb pb' := by
  have hlist : pb'.prioHeads t = pb.prioHeads t := by rw [h.prioHeads, addTail_of_ne ht]
  refine ⟨hlist ▸ List.Sublist.refl _, fun j hj => ?_⟩
  have hne : j ≠ i := fun heq => h.fresh t (heq ▸ hlist ▸ hj)
  rw [h.item_of_ne j hne]
  exact ⟨rfl, rfl⟩

theorem free (i : ℕ) : Shrinks t pb (pb.free i) := by
  refine ⟨List.erase_sublist, fun j _ => ?_⟩
  rw [free_item]
  exact ⟨rfl, rfl⟩

theorem modify (i : ℕ) {f : BufferedPacket → BufferedPacket} (hp : ∀ bp, (f bp).p = bp.p)
    (hlen : ∀ bp, (f bp).dataLen = bp.dataLen) : Shrinks t pb (pb.modify i f) := by
  refine ⟨List.Sublist.refl _, fun j _ => ?_⟩
  by_cases hj : j = i
  · rw [hj, modify_item_self]
    exact ⟨hp _, hlen _⟩
  · rw [modify_item_of_ne f hj]
    exact ⟨rfl, rfl⟩

theorem incrementTimesSent (i : ℕ) : Shrinks t pb (pb.modify i .incrementTimesSent) :=
  .modify i (fun _ => rfl) fun _ => rfl

theorem acked (i : ℕ) (a : Rimeaddr) : Shrinks t pb (pb.acked i a) := by
  have hmodify : Shrinks t pb (pb.modify i (.neighborAcked a)) :=
    .modify i (fun _ => rfl) fun _ => rfl
  unfold PacketBuffer.acked
  split
  · exact hmodify.trans (.free i)
  · exact hmodify

theorem drops {limit : UInt8} (h : Ec.Drops t' limit c c') : Shrinks t c.sq c'.sq :=
  ⟨h.heads t, fun i _ => ⟨congrArg _ (h.item i), congrArg _ (h.item i)⟩⟩

end PacketBuffer.Shrinks

/-! ### Numbers -/

/-- Frames and queued packets are numbered by the packets that were handed over; the numbers of
the frames in `fs`, and behind them those of the list in `ls`, do not fall. -/
structure Numbered (c : Ec) (fs : List (ℕ × Frame)) (ls : List (ℕ × ℕ)) : Prop where
  frames : fs.map Prod.snd = dataFrames c.trace
  list : ls.map Prod.snd = c.sq.prioHeads .neighborData
  sorted : (fs.map Prod.fst ++ ls.map Prod.fst).Pairwise (· ≤ ·)
  sent : ∀ p ∈ fs, ∃ a, (offers c.trace)[p.1]? = some a ∧ p.2.Carries a
  queued : ∀ p ∈ ls, (offers c.trace)[p.1]? = some (c.sq.item p.2).args ∧ (c.sq.item p.2).IsData
  short : ∀ a ∈ offers c.trace, a.data.length ≤ 24

/-- The frames and the packets that wait are numbered in order, and every acknowledgement that
waits is marked as one. -/
structure Orderly (c : Ec) : Prop where
  numbered : ∃ fs ls, Numbered c fs ls
  acks : ∀ i ∈ c.sq.prioHeads .neighborAck,
    (c.sq.item i).p.hdr.isPacketFlagSet PacketFlags.ack = true

namespace Numbered

variable {fs : List (ℕ × Frame)} {ls : List (ℕ × ℕ)}

/-- The numbers of the packets that are left stay. -/
theorem shrinks (h : Numbered c fs ls) (hlist : c.sq.Shrinks .neighborData c'.sq)
    (htrace : c.UnheardTo c') : ∃ fs ls, Numbered c' fs ls := by
  have hsub : (c'.sq.prioHeads .neighborData).Sublist (ls.map Prod.snd) := h.list ▸ hlist.list
  obtain ⟨ls', hls, hmap⟩ := List.sublist_map_iff.mp hsub
  refine ⟨fs, ls', ?_, hmap.symm, ?_, ?_, ?_, ?_⟩
  · rw [htrace.dataFrames_eq]
    exact h.frames
  · exact h.sorted.sublist ((hls.map Prod.fst).append_left _)
  · rw [htrace.offers_eq]
    exact h.sent
  · intro p hp
    obtain ⟨hoffer, hdata⟩ := h.queued p (hls.subset hp)
    have hmem : p.2 ∈ c'.sq.prioHeads .neighborData := hmap ▸ List.mem_map_of_mem hp
    obtain ⟨hpacket, hlen⟩ := hlist.same p.2 hmem
    rw [htrace.offers_eq, BufferedPacket.args_congr hpacket hlen]
    exact ⟨hoffer, hdata.congr hpacket hlen⟩
  · rw [htrace.offers_eq]
    exact h.short

/-- A packet that is handed over gets the next number. -/
theorem enqueued {i : ℕ} {bp : BufferedPacket} {ns : Option NeighborSet} {a : SendArgs}
    (h : Numbered c fs ls) (hsq : c.sq.Enqueued .neighborData i bp c'.sq) (hargs : bp.args = a)
    (hdata : bp.IsData) (htrace : c'.trace = .enqueue .neighborData i ns a :: c.trace) :
    ∃ fs ls, Numbered c' fs ls := by
  have hoffers : offers c'.trace = offers c.trace ++ [a] := by
    rw [htrace, offers_cons]
    rfl
  have hframes : dataFrames c'.trace = dataFrames c.trace := by
    rw [htrace, dataFrames_cons]
    exact List.append_nil _
  -- the numbers given before are numbers of earlier packets
  have hkeep : ∀ {k : ℕ} {b : SendArgs}, (offers c.trace)[k]? = some b →
      (offers c'.trace)[k]? = some b := by
    intro k b hk
    rw [hoffers, List.getElem?_append_left (List.getElem?_eq_some_iff.mp hk).1]
    exact hk
  have hlt : ∀ k ∈ fs.map Prod.fst ++ ls.map Prod.fst, k < (offers c.trace).length := by
    intro k hk
    rcases List.mem_append.mp hk with hk | hk
    · obtain ⟨p, hp, rfl⟩ := List.mem_map.mp hk
      obtain ⟨b, hb, -⟩ := h.sent p hp
      exact (List.getElem?_eq_some_iff.mp hb).1
    · obtain ⟨p, hp, rfl⟩ := List.mem_map.mp hk
      exact (List.getElem?_eq_some_iff.mp (h.queued p hp).1).1
  refine ⟨fs, ls ++ [((offers c.trace).length, i)], ?_, ?_, ?_, ?_, ?_, ?_⟩
  · rw [hframes]
    exact h.frames
  · rw [List.map_append, h.list, hsq.prioHeads, addTail_self]
    rfl
  · rw [List.map_append, ← List.append_assoc, List.pairwise_append]
    refine ⟨h.sorted, List.pairwise_singleton _ _, fun k hk n hn => ?_⟩
    rw [List.map_singleton, List.mem_singleton] at hn
    exact hn ▸ (hlt k hk).le
  · intro p hp
    obtain ⟨b, hb, hcarries⟩ := h.sent p hp
    exact ⟨b, hkeep hb, hcarries⟩
  · intro p hp
    rcases List.mem_append.mp hp with hp | hp
    · obtain ⟨hoffer, hdata⟩ := h.queued p hp
      have hmem : p.2 ∈ c.sq.prioHeads .neighborData := h.list ▸ List.mem_map_of_mem hp
      have hne : p.2 ≠ i := fun heq => hsq.fresh _ (heq ▸ hmem)
      rw [hsq.item_of_ne p.2 hne]
      exact ⟨hkeep hoffer, hdata⟩
    · rw [List.mem_singleton] at hp
      rw [hp, hsq.item_self, hargs, hoffers]
      exact ⟨List.getElem?_concat_length, hdata⟩
  · intro b hb
    rw [hoffers] at hb
    rcases List.mem_append.mp hb with hb | hb
    · exact h.short b hb
    · rw [List.mem_singleton] at hb
      rw [hb, ← hargs, BufferedPacket.length_args]
      exact hdata.short

/-- A frame that carries the first packet of the list gets the number of that packet. -/
theorem sends {j : ℕ} {f : Frame} (h : Numbered c fs ls) (hfirst : c.sq.first .neighborData = some j)
    (hcarries : f.Carries (c.sq.item j).args)
    (hlist : c'.sq.prioHeads .neighborData = c.sq.prioHeads .neighborData)
    (hsame : c.sq.Shrinks .neighborData c'.sq) (hoffers : offers c'.trace = offers c.trace)
    (hframes : dataFrames c'.trace = dataFrames c.trace ++ [f]) : ∃ fs ls, Numbered c' fs ls := by
  cases ls with
  | nil =>
    have hnil : c.sq.prioHeads .neighborData = [] := h.list.symm
    rw [PacketBuffer.first, hnil] at hfirst
    cases hfirst
  | cons p ls =>
    obtain ⟨k, i⟩ := p
    have hhead : i = j := by
      rw [PacketBuffer.first, ← h.list] at hfirst
      exact Option.some.inj hfirst
    subst hhead
    have hk := (h.queued (k, i) List.mem_cons_self).1
    refine ⟨fs ++ [(k, f)], (k, i) :: ls, ?_, h.list.trans hlist.symm, ?_, ?_, ?_, ?_⟩
    · rw [List.map_append, h.frames, hframes]
      rfl
    · -- the number of the first packet stands between those of the frames and those of the list
      have hsorted := h.sorted
      simp only [List.map_cons, List.map_append, List.map_nil, List.append_assoc,
        List.singleton_append] at hsorted ⊢
      rw [List.pairwise_append, List.pairwise_cons] at hsorted
      obtain ⟨hfs, ⟨hle, hls⟩, hbetween⟩ := hsorted
      rw [List.pairwise_append, List.pairwise_cons, List.pairwise_cons]
      refine ⟨hfs, ⟨?_, hle, hls⟩, ?_⟩
      · intro n hn
        rcases List.mem_cons.mp hn with rfl | hn
        · exact le_rfl
        · exact hle n hn
      · intro m hm n hn
        rcases List.mem_cons.mp hn with rfl | hn
        · exact hbetween m hm n List.mem_cons_self
        · exact hbetween m hm n hn
    · intro p hp
      rw [hoffers]
      rcases List.mem_append.mp hp with hp | hp
      · exact h.sent p hp
      · rw [List.mem_singleton] at hp
        rw [hp]
        exact ⟨_, hk, hcarries⟩
    · intro p hp
      have hmem : p.2 ∈ c'.sq.prioHeads .neighborData := by
        rw [hlist, ← h.list]
        exact List.mem_map_of_mem hp
      obtain ⟨hoffer, hdata⟩ := h.queued p hp
      obtain ⟨hpacket, hlen⟩ := hsame.same p.2 hmem
      rw [hoffers, BufferedPacket.args_congr hpacket hlen]
      exact ⟨hoffer, hdata.congr hpacket hlen⟩
    · rw [hoffers]
      exact h.short

end Numbered

/-! ### Moves of the sender -/

theorem Action.unheard_enqueue {t : MsgType} {i : ℕ} {ns : Option NeighborSet} {a : SendArgs}
    (ht : t ≠ .neighborData) : (Action.enqueue t i ns a).Unheard := by
  cases t with
  | neighborData => exact absurd rfl ht
  | _ => exact ⟨rfl, rfl⟩

/-- An acknowledgement is no frame of data. -/
theorem Action.unheard_frame {ch : Channel} {i : ℕ} {f : Frame}
    (h : ch = .neighbor → f.hdr.isPacketFlagSet PacketFlags.ack = true) :
    (Action.frame ch i f).Unheard := by
  cases ch with
  | neighbor =>
    refine ⟨rfl, ?_⟩
    change [f].filter Frame.isData = []
    rw [List.filter_singleton, Frame.isData, h rfl]
    rfl
  | timesynch => exact ⟨rfl, rfl⟩
  | broadcast => exact ⟨rfl, rfl⟩

theorem Ec.Drops.unheardTo {t : MsgType} {limit : UInt8} (h : Ec.Drops t limit c c') :
    c.UnheardTo c' := by
  induction h with
  | refl => exact .of_eq rfl
  | tail _ hdrop ih =>
    obtain ⟨i, -, -, rfl⟩ := hdrop
    exact ih.trans (.of_action (x := .free i) rfl ⟨rfl, rfl⟩)

theorem EcNode.unheardTo_ackRecv (timer : Timer) (hdr : Header) :
    c.UnheardTo (EcNode.ackRecv timer hdr c) := by
  obtain ⟨-, heq⟩ | ⟨i, -, -, -, ⟨-, htrace⟩ | ⟨-, htrace⟩⟩ := EcNode.ackRecv_cases timer hdr c
  · exact .of_eq (congrArg Ec.trace heq)
  · exact .of_action htrace ⟨rfl, rfl⟩
  · exact .of_eq htrace

theorem EcNode.shrinks_ackRecv (t : MsgType) (timer : Timer) (hdr : Header) :
    c.sq.Shrinks t (EcNode.ackRecv timer hdr c).sq := by
  obtain ⟨-, heq⟩ | ⟨i, -, hsq, -⟩ := EcNode.ackRecv_cases timer hdr c
  · rw [heq]
    exact .refl t _
  · rw [hsq]
    exact .acked i hdr.sender

namespace Orderly

theorem shrinks (h : Orderly c) (hdata : c.sq.Shrinks .neighborData c'.sq)
    (hacks : c.sq.Shrinks .neighborAck c'.sq) (htrace : c.UnheardTo c') : Orderly c' := by
  obtain ⟨fs, ls, hnumbered⟩ := h.numbered
  refine ⟨hnumbered.shrinks hdata htrace, fun i hi => ?_⟩
  rw [(hacks.same i hi).1]
  exact h.acks i (hacks.list.subset hi)

theorem same (h : Orderly c) (hsq : c'.sq = c.sq) (htrace : c.UnheardTo c') : Orderly c' := by
  have hshrinks : ∀ t, c.sq.Shrinks t c'.sq := fun t => hsq ▸ .refl t c.sq
  exact h.shrinks (hshrinks _) (hshrinks _) htrace

/-- A packet that waits for the neighbours is one that was handed over. -/
theorem isData (h : Orderly c) {i : ℕ} (hi : i ∈ c.sq.prioHeads .neighborData) :
    (c.sq.item i).IsData := by
  obtain ⟨fs, ls, hnumbered⟩ := h.numbered
  rw [← hnumbered.list] at hi
  obtain ⟨p, hp, rfl⟩ := List.mem_map.mp hi
  exact (hnumbered.queued p hp).2

theorem drops (h : Orderly c) {t : MsgType} {limit : UInt8} (hdrops : Ec.Drops t limit c c') :
    Orderly c' :=
  h.shrinks (.drops hdrops) (.drops hdrops) hdrops.unheardTo

/-- The frame built from the first packet of the list and the first that is left carries a packet
with the header and the data of one and the length of the other. -/
theorem carries (h : Orderly c) {i j : ℕ} {f : Frame} (hfirst : c.sq.first .neighborData = some i)
    (hleft : c.unspent .neighborData maxTimesSentMesh = some j)
    (hframe : Ec.neighborDataFrame (c.sq.item i).p (c.sq.item j) = some f) :
    f.Carries (BufferedPacket.args { c.sq.item j with p := (c.sq.item i).p }) ∧
      (BufferedPacket.args { c.sq.item j with p := (c.sq.item i).p }).data.length ≤ 24 := by
  have hi : (c.sq.item i).IsData := h.isData (PacketBuffer.mem_of_first hfirst)
  have hj : (c.sq.item j).IsData := h.isData (List.mem_of_find?_eq_some hleft)
  have hboth : BufferedPacket.IsData { c.sq.item j with p := (c.sq.item i).p } :=
    ⟨hi.flags, hj.short⟩
  exact ⟨carries_neighborDataFrame hboth hframe, by rw [BufferedPacket.length_args]; exact hj.short⟩

/-- The packets sent once on the neighbour channel are acknowledgements. -/
theorem unheardTo_once (h : Orderly c) {t : MsgType} {ch : Channel} {i : ℕ} {body : List UInt8}
    (hch : ch = .neighbor → t = .neighborAck) (hi : i ∈ c.sq.prioHeads t)
    (htrace : c'.trace = .free i :: .frame ch i ⟨(c.sq.item i).p.hdr, body⟩ :: c.trace) :
    c.UnheardTo c' := by
  refine ⟨[_, _], htrace, fun x hx => ?_⟩
  simp only [List.mem_cons, List.not_mem_nil, or_false] at hx
  rcases hx with rfl | rfl
  · exact ⟨rfl, rfl⟩
  · refine Action.unheard_frame fun hneighbor => h.acks i ?_
    rw [← hch hneighbor]
    exact hi

theorem sendNeighborData (h : Orderly c) {radio : Bool} (hown : radio = true → c.SendsOwn)
    (hsend : c.sendNeighborData radio = .ok c') : Orderly c' := by
  obtain ⟨c₁, hdrops, hfirst, hsent⟩ := Ec.sendNeighborData_cases hsend
  have hc₁ : Orderly c₁ := h.drops hdrops
  cases hsent with
  | emptied => exact hc₁
  | refused => exact hc₁.same rfl (.of_eq rfl)
  | @sent i j f hradio hhead hleft hframe =>
    have hcarries : f.Carries (c₁.sq.item j).args := by
      rw [hdrops.item, ← hown hradio i hhead j hleft]
      exact (h.carries hhead hleft hframe).1
    obtain ⟨fs, ls, hnumbered⟩ := hc₁.numbered
    have htrace : dataFrames (.frame .neighbor i f :: c₁.trace) = dataFrames c₁.trace ++ [f] := by
      rw [dataFrames_cons]
      change _ ++ [f].filter Frame.isData = _
      rw [List.filter_singleton, Frame.isData, hcarries.not_ack]
      rfl
    refine ⟨hnumbered.sends (hfirst.trans hleft) hcarries rfl (.incrementTimesSent j) ?_ htrace, ?_⟩
    · change offers (Action.frame .neighbor i f :: c₁.trace) = offers c₁.trace
      rw [offers_cons]
      exact List.append_nil _
    · have hack : c₁.sq.Shrinks .neighborAck (c₁.sq.modify j .incrementTimesSent) :=
        .incrementTimesSent j
      intro k hk
      change ((c₁.sq.modify j .incrementTimesSent).item k).p.hdr.isPacketFlagSet _ = true
      rw [(hack.same k hk).1]
      exact hc₁.acks k hk

end Orderly

variable {P : Ec → Prop}

/-- A move keeps frames and packets in order, when neighbour data is sent only as its own. -/
theorem Move.orderly (hP : ∀ c, P c → c.SendsOwn) (h : Move (.firesWhen P) c c')
    (hc : Orderly c) : Orderly c' := by
  cases h with
  | quiet h => exact hc.same h.sq (.of_eq h.trace)
  | @data _ t i ns a ht _ _ hlen hsq _ htrace =>
    have hack : t ≠ .neighborAck := ht.elim (fun h => by simp [h]) fun h => by
      rcases h with h | h <;> simp [h]
    -- neighbour data gets the next number; what comes on another list has none
    by_cases hdata : t = .neighborData
    · subst hdata
      obtain ⟨fs, ls, hnumbered⟩ := hc.numbered
      have hacks : c.sq.Shrinks .neighborAck c'.sq := .of_enqueued hsq (by decide)
      refine ⟨hnumbered.enqueued hsq (PacketBuffer.args_written hlen)
        (PacketBuffer.isData_written hlen) htrace, fun k hk => ?_⟩
      rw [(hacks.same k hk).1]
      exact hc.acks k (hacks.list.subset hk)
    · exact hc.shrinks (.of_enqueued hsq (Ne.symm hdata)) (.of_enqueued hsq (Ne.symm hack))
        (.of_action htrace (Action.unheard_enqueue hdata))
  | store _ _ hsq _ htrace => exact hc.same hsq (.of_action htrace ⟨rfl, rfl⟩)
  | @control _ t i ns a bp ht _ hsq _ htrace =>
    have hne : t ≠ .neighborData ∧ t ≠ .neighborAck := by rcases ht with rfl | rfl <;> decide
    exact hc.shrinks (.of_enqueued hsq hne.1.symm) (.of_enqueued hsq hne.2.symm)
      (.of_action htrace (Action.unheard_enqueue hne.1))
  | @confirm _ t i ns a bp own ht _ hdr _ hhdr hsq _ htrace =>
    have hne : t ≠ .neighborData := by rcases ht with rfl | rfl <;> decide
    have hunheard : c.UnheardTo c' := .of_action htrace (Action.unheard_enqueue hne)
    obtain ⟨fs, ls, hnumbered⟩ := hc.numbered
    refine ⟨hnumbered.shrinks (.of_enqueued hsq hne.symm) hunheard, fun k hk => ?_⟩
    -- the only new entry on the list of acknowledgements is the one enqueued
    by_cases hki : k = i
    · rw [hki, hsq.item_self, hhdr, EcNode.ackHeader, isPacketFlagSet_initUnicastPacket]
      decide
    · rw [hsq.prioHeads, mem_addTail] at hk
      rw [hsq.item_of_ne k hki]
      exact hc.acks k (hk.resolve_right fun h => hki h.2)
  | @acked timer hdr =>
    exact hc.shrinks (EcNode.shrinks_ackRecv _ _ _) (EcNode.shrinks_ackRecv _ _ _)
      (EcNode.unheardTo_ackRecv _ _)
  | once _ hch hi hsq _ htrace =>
    exact hc.shrinks (hsq ▸ .free _) (hsq ▸ .free _) (hc.unheardTo_once hch hi htrace)
  | neighborData hfires h => exact hc.sendNeighborData (fun hradio => hP c (hfires hradio)) h
  | targeted _ _ hsq _ htrace =>
    refine hc.shrinks (hsq ▸ .incrementTimesSent _) (hsq ▸ .incrementTimesSent _) ?_
    exact .of_action htrace (Action.unheard_frame fun h => by cases h)
  | meshed _ hsq _ htrace =>
    exact hc.shrinks (hsq ▸ .incrementTimesSent _) (hsq ▸ .incrementTimesSent _)
      (.of_action htrace ⟨rfl, rfl⟩)
  | dropped _ hsq _ htrace =>
    exact hc.shrinks (hsq ▸ .free _) (hsq ▸ .free _) (.of_action htrace ⟨rfl, rfl⟩)

theorem Moves.orderly (hP : ∀ c, P c → c.SendsOwn) (h : Moves (.firesWhen P) c c')
    (hc : Orderly c) : Orderly c' := by
  induction h with
  | refl => exact hc
  | tail _ hmove ih => exact hmove.orderly hP ih

theorem Orderly.log_deliver (h : Orderly c) (k : Callback) (r : RecvArgs) :
    Orderly (c.log (.deliver k r)) :=
  h.same rfl (.of_action (x := .deliver k r) rfl ⟨rfl, rfl⟩)

theorem Ec.unheardTo_store (id : PacketId) : c.UnheardTo (c.storePacketForDupeChecks id) := by
  unfold Ec.storePacketForDupeChecks
  split
  · exact .of_eq rfl
  · exact .of_action (x := .store id) rfl ⟨rfl, rfl⟩

theorem Orderly.store (h : Orderly c) (id : PacketId) : Orderly (c.storePacketForDupeChecks id) := by
  refine h.same ?_ (Ec.unheardTo_store id)
  unfold Ec.storePacketForDupeChecks
  split <;> rfl

/-- **An event keeps frames and packets in order**, when neighbour data is sent only as its
own. -/
theorem Shape.orderly (hP : ∀ c, P c → c.SendsOwn) (h : Shape (.firesWhen P) c c')
    (hc : Orderly c) : Orderly c' := by
  cases h with
  | moves h => exact h.orderly hP hc
  | received _ h₁ h₂ => exact h₂.orderly hP ((h₁.orderly hP (hc.log_deliver _ _)).store _)

theorem orderly_opened : Orderly .opened := by
  refine ⟨⟨[], [], ?_⟩, fun i hi => by cases hi⟩
  refine ⟨rfl, rfl, List.Pairwise.nil, ?_, ?_, ?_⟩
  · exact fun p hp => absurd hp List.not_mem_nil
  · exact fun p hp => absurd hp List.not_mem_nil
  · exact fun a ha => absurd ha List.not_mem_nil

/-! ### Which frames are sent -/

/-- When the radio takes no neighbour data, no frame of data is sent. -/
theorem Move.dataFrames_eq (h : Move (.firesWhen fun _ => False) c c') (hc : Orderly c) :
    dataFrames c'.trace = dataFrames c.trace := by
  cases h with
  | quiet h => rw [h.trace]
  | data _ _ _ _ _ _ htrace | store _ _ _ _ htrace | control _ _ _ _ htrace
  | confirm _ _ _ _ _ _ htrace | meshed _ _ _ htrace | dropped _ _ _ htrace
  | targeted _ _ _ _ htrace =>
    rw [htrace, dataFrames_cons]
    exact List.append_nil _
  | acked => exact (EcNode.unheardTo_ackRecv _ _).dataFrames_eq
  | once _ hch hi _ _ htrace => exact (hc.unheardTo_once hch hi htrace).dataFrames_eq
  | neighborData hfires h =>
    obtain ⟨c₁, hdrops, -, hsent⟩ := Ec.sendNeighborData_cases h
    cases hsent with
    | emptied => exact hdrops.unheardTo.dataFrames_eq
    | refused => exact hdrops.unheardTo.dataFrames_eq
    | sent hradio => exact (hfires hradio).elim

theorem Moves.dataFrames_eq (h : Moves (.firesWhen fun _ => False) c c') (hc : Orderly c) :
    dataFrames c'.trace = dataFrames c.trace := by
  induction h with
  | refl => rfl
  | tail hmoves hmove ih =>
    have hbefore := Moves.orderly (fun _ h => h.elim) hmoves hc
    exact (hmove.dataFrames_eq hbefore).trans ih

theorem Shape.dataFrames_eq (h : Shape (.firesWhen fun _ => False) c c') (hc : Orderly c) :
    dataFrames c'.trace = dataFrames c.trace := by
  cases h with
  | moves h => exact h.dataFrames_eq hc
  | @received k r c₁ _ _ h₁ h₂ =>
    have hlog : Orderly (c.log (.deliver k r)) := hc.log_deliver k r
    have hc₁ : Orderly c₁ := h₁.orderly (fun _ h => h.elim) hlog
    calc dataFrames c'.trace
        = dataFrames (c₁.storePacketForDupeChecks r.id).trace := h₂.dataFrames_eq (hc₁.store _)
      _ = dataFrames c₁.trace := (Ec.unheardTo_store r.id).dataFrames_eq
      _ = dataFrames (.deliver k r :: c.trace) := h₁.dataFrames_eq hlog
      _ = dataFrames c.trace := by rw [dataFrames_cons]; exact List.append_nil _

/-- A frame of data that has been sent carries the first packet of the list, and it is that
packet whose count has grown. -/
def SendsHead (c c' : Ec) : Prop :=
  ∀ f, dataFrames c'.trace = dataFrames c.trace ++ [f] →
    ∃ j, c'.sq.first .neighborData = some j ∧ f.Carries (c'.sq.item j).args ∧
      c'.sq.item j = (c.sq.item j).incrementTimesSent

theorem sendsHead_of_eq (h : dataFrames c'.trace = dataFrames c.trace) : SendsHead c c' := by
  intro f hf
  rw [h] at hf
  simp at hf

/-- Neighbour data that is sent is the first packet exactly when it is sent as its own. -/
theorem Orderly.sendsHead_iff (hc : Orderly c) (h : c.sendNeighborData true = .ok c') :
    SendsHead c c' ↔ c.SendsOwn := by
  obtain ⟨c₁, hdrops, hfirst, hsent⟩ := Ec.sendNeighborData_cases h
  cases hsent with
  | emptied hnone =>
    refine iff_of_true (sendsHead_of_eq hdrops.unheardTo.dataFrames_eq) fun i _ j hj => ?_
    rw [hnone] at hj
    cases hj
  | refused hradio => cases hradio
  | @sent i j f _ hhead hleft hframe =>
    obtain ⟨hcarries, hshort⟩ := hc.carries hhead hleft hframe
    have hframes : dataFrames (.frame .neighbor i f :: c₁.trace) = dataFrames c.trace ++ [f] := by
      rw [dataFrames_cons, hdrops.unheardTo.dataFrames_eq]
      change _ ++ [f].filter Frame.isData = _
      rw [List.filter_singleton, Frame.isData, hcarries.not_ack]
      rfl
    have hitem : (c₁.sq.modify j .incrementTimesSent).item j = (c.sq.item j).incrementTimesSent := by
      rw [PacketBuffer.modify_item_self, hdrops.item]
    -- header and data are those of `i`, first before the drops, the rest that of `j`, first after
    have hown : c.SendsOwn ↔ BufferedPacket.args { c.sq.item j with p := (c.sq.item i).p } =
        (c.sq.item j).args := by
      refine ⟨fun h => h i hhead j hleft, fun h i' hi' j' hj' => ?_⟩
      rw [hhead] at hi'
      rw [hleft] at hj'
      cases hi'
      cases hj'
      exact h
    rw [hown]
    constructor
    · intro hsends
      obtain ⟨j', hj', hcarries', -⟩ := hsends f hframes
      have hjj : j = j' := Option.some.inj ((hfirst.trans hleft).symm.trans hj')
      subst hjj
      change f.Carries ((c₁.sq.modify j .incrementTimesSent).item j).args at hcarries'
      rw [hitem] at hcarries'
      refine hcarries.inj hcarries' hshort ?_
      rw [BufferedPacket.length_args]
      exact (hc.isData (List.mem_of_find?_eq_some hleft)).short
    · intro hargs f' hf'
      have hff : f = f' := by
        have heq := hframes.symm.trans hf'
        simpa using heq
      subst hff
      refine ⟨j, hfirst.trans hleft, ?_, hitem⟩
      change f.Carries ((c₁.sq.modify j .incrementTimesSent).item j).args
      rw [hitem]
      rw [hargs] at hcarries
      exact hcarries

/-- **A frame of data carries the first packet of the list exactly when it is sent with the
packet's own header and data.** -/
theorem sendsHead_step_iff {σ ε : Type*} {A : Application σ ε} {ev : NodeEvent ε}
    {s s' : EcNode σ} (hc : Orderly s.conn) (h : s.step A ev = .ok s') :
    SendsHead s.conn s'.conn ↔ s.FiresWhen Ec.SendsOwn ev := by
  by_cases hquiet : s.FiresWhen (fun _ => False) ev
  · have hshape := hquiet.shape (fun _ h => h) h
    refine iff_of_true (sendsHead_of_eq (hshape.dataFrames_eq hc)) ?_
    unfold EcNode.FiresWhen at hquiet ⊢
    split
    · exact fun hlisted => (hquiet hlisted).elim
    · trivial
  · unfold EcNode.FiresWhen at hquiet ⊢
    split at hquiet
    · next =>
      have hlisted : (s.conn.timers .neighborData).listed = true := by
        by_contra hnot
        exact hquiet fun hlisted => hnot hlisted
      rw [EcNode.step, if_pos hlisted] at h
      obtain ⟨c₁, hsend, rfl⟩ := EcNode.tryConn_eq_ok.mp h
      have htaken : Orderly (s.conn.ctimerTake .neighborData) := hc.same rfl (.of_eq rfl)
      have hiff : SendsHead s.conn c₁ ↔ s.conn.SendsOwn := htaken.sendsHead_iff hsend
      simp only [hlisted, forall_const]
      exact hiff
    · exact absurd trivial hquiet

end EmergencyNet
