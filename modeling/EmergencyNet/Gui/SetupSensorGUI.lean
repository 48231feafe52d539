import EmergencyNet.App.Setup
import EmergencyNet.Conn.Faults
import EmergencyNet.Conn.Frames
import EmergencyNet.Gui.SerialCommunication
import EmergencyNet.Sensor.Application

/-!
# The set-up command

The way of a node's set-up: the GUI writes a line, the node at the serial port takes it apart
with `strtok` and broadcasts the packet it describes, and the node that awaits its set-up reads
it in `setup_parse`.  The packet of a node with the greatest number of neighbours is as long as
`MAX_PACKET_SIZE` allows no packet to be.

## Main definitions

* `SetupSensorGUI.setSensorActionPerformed`, `SetupPacket.command` — the line.
* `sendSetupPacket` — how `fire_process` takes it apart.
* `SetupPacket.Reaches` — the line has the effect its packet describes.

## Main results

* `sendSetupPacket_command` — **every line is taken apart as it was put together.**
* `SetupPacket.reaches_iff` — **a set-up with fewer than `MAX_NEIGHBORS` neighbours arrives, one
  with `MAX_NEIGHBORS` does not.**
* `SetupPacket.sendSetupCommand_eight` — it ends in an assertion.
-/

namespace EmergencyNet

/-! ### The line -/

/-- What the command starts with. -/
def setupCommand : Text := "send_setup_packet".toList

/-- `SetupSensorGUI.setSensorActionPerformed`: the line for the texts of its fields; `none` when
one that must be filled in is empty. -/
def SetupSensorGUI.setSensorActionPerformed (rimeID xCoord yCoord : Text) (isExit : Bool)
    (neighbors : Text) : Option Text :=
  if rimeID ≠ [] ∧ xCoord ≠ [] ∧ yCoord ≠ [] then
    some (setupCommand ++ ':' :: (rimeID ++ ':' :: (xCoord ++ '.' :: (yCoord ++ ':' ::
      ((if isExit then ['1'] else ['0']) ++ ':' :: neighbors)))))
  else none

/-- Addresses with colons between them. -/
def Rimeaddr.texts : List Rimeaddr → Text
  | [] => []
  | [a] => a.text
  | a :: b :: rest => a.text ++ ':' :: texts (b :: rest)

/-- The command for a packet: `send_setup_packet:a.b:x.y:is_exit_node:n1a.n1b:...`. -/
def SetupPacket.command (sp : SetupPacket) : Text :=
  setupCommand ++ ':' :: (sp.newAddr.text ++ ':' ::
    (Text.ofNat (uint8ToUint16 sp.newCoord.x).toNat ++ '.' ::
      (Text.ofNat (uint8ToUint16 sp.newCoord.y).toNat ++ ':' ::
        (Text.ofNat sp.isExitNode.toNat ++ ':' :: Rimeaddr.texts sp.neighbors))))

/-- The line of the GUI is the command for the packet whose fields were typed. -/
theorem setSensorActionPerformed_text (sp : SetupPacket) (isExit : Bool)
    (hexit : sp.isExitNode = isExit.toUInt8) :
    SetupSensorGUI.setSensorActionPerformed sp.newAddr.text
      (Text.ofNat (uint8ToUint16 sp.newCoord.x).toNat)
      (Text.ofNat (uint8ToUint16 sp.newCoord.y).toNat) isExit (Rimeaddr.texts sp.neighbors) =
        some sp.command := by
  have haddr : sp.newAddr.text ≠ [] := by simp [Rimeaddr.text]
  have htext : (if isExit then ['1'] else ['0']) = Text.ofNat sp.isExitNode.toNat := by
    rw [hexit]
    cases isExit <;> rfl
  rw [SetupSensorGUI.setSensorActionPerformed, if_pos ⟨haddr, Text.ofNat_ne_nil, Text.ofNat_ne_nil⟩,
    htext, SetupPacket.command]

/-- What the driver of the serial port keeps of a line: `BUFSIZE - 1` characters. -/
def serialLine (typed : Text) : Text := typed.take 127

/-! ### Taking it apart -/

/-- `(uint8_t)atoi(entry)`. -/
def atoiUint8 (entry : Text) : UInt8 := UInt8.ofInt (Text.atoi entry)

/-- `(uint16_t)atoi(entry)`. -/
def atoiUint16 (entry : Text) : UInt16 := UInt16.ofInt (Text.atoi entry)

/-- The loop over the neighbours; `none` where it asserts. -/
def parseNeighbors (s : Text) : Option (List Rimeaddr) :=
  match _h₀ : s.strtok '.' with
  | none => some []
  | some (entry₀, s₁) =>
    match _h₁ : s₁.strtok ':' with
    | none => none
    | some (entry₁, s₂) => (parseNeighbors s₂).map (⟨atoiUint8 entry₀, atoiUint8 entry₁⟩ :: ·)
termination_by s.length
decreasing_by
  have hlt := Text.length_strtok _h₀
  have hlt' := Text.length_strtok _h₁
  omega

/-- The `send_setup_packet` command of `fire_process`, up to the packet; `none` where it
asserts. -/
def sendSetupPacket (data : Text) : Option SetupPacket := do
  let (_, s) ← data.strtok ':'
  let (addr₀, s) ← s.strtok '.'
  let (addr₁, s) ← s.strtok ':'
  let (x, s) ← s.strtok '.'
  let (y, s) ← s.strtok ':'
  let (isExitNode, s) ← s.strtok ':'
  let neighbors ← parseNeighbors s
  guard (UInt8.ofNat neighbors.length ≠ 0)
  return {
    newAddr := ⟨atoiUint8 addr₀, atoiUint8 addr₁⟩
    newCoord := ⟨uint16ToUint8 (atoiUint16 x), uint16ToUint8 (atoiUint16 y)⟩
    isExitNode := atoiUint8 isExitNode
    neighbors := neighbors }

@[simp] theorem atoiUint8_ofNat (b : UInt8) : atoiUint8 (Text.ofNat b.toNat) = b := by
  have hlt : b.toNat < 2 ^ 8 := b.toNat_lt
  have hmod : ((b.toNat : ℤ) % 2 ^ 8).toNat = b.toNat := by omega
  rw [atoiUint8, Text.atoi_ofNat, UInt8.ofInt, hmod, UInt8.ofNat_toNat]

@[simp] theorem atoiUint16_ofNat (x : UInt16) : atoiUint16 (Text.ofNat x.toNat) = x := by
  have hlt : x.toNat < 2 ^ 16 := x.toNat_lt
  have hmod : ((x.toNat : ℤ) % 2 ^ 16).toNat = x.toNat := by omega
  rw [atoiUint16, Text.atoi_ofNat, UInt16.ofInt, hmod, UInt16.ofNat_toNat]

/-- The first token of an address. -/
theorem strtok_text (a : Rimeaddr) (rest : Text) :
    (a.text ++ rest).strtok '.' =
      some (Text.ofNat a.u8₀.toNat, Text.ofNat a.u8₁.toNat ++ rest) := by
  rw [Rimeaddr.text, List.append_assoc, List.cons_append]
  exact Text.strtok_append Text.ofNat_ne_nil (Text.not_mem_ofNat (by decide))

/-- A number in front of a separator. -/
theorem strtok_ofNat {d : Char} (hd : d.isDigit = false) (n : ℕ) (rest : Text) :
    (Text.ofNat n ++ d :: rest).strtok d = some (Text.ofNat n, rest) :=
  Text.strtok_append Text.ofNat_ne_nil (Text.not_mem_ofNat hd)

theorem parseNeighbors_nil : parseNeighbors [] = some [] := by
  unfold parseNeighbors
  rfl

/-- One round of the loop. -/
theorem parseNeighbors_step {s s₁ s₂ entry₀ entry₁ : Text} (h₀ : s.strtok '.' = some (entry₀, s₁))
    (h₁ : s₁.strtok ':' = some (entry₁, s₂)) :
    parseNeighbors s = (parseNeighbors s₂).map (⟨atoiUint8 entry₀, atoiUint8 entry₁⟩ :: ·) := by
  rw [parseNeighbors]
  split
  · next h => exact nomatch h₀.symm.trans h
  · next h =>
    cases h₀.symm.trans h
    split
    · next h' => exact nomatch h₁.symm.trans h'
    · next h' =>
      cases h₁.symm.trans h'
      rfl

/-- **The neighbours are read back.** -/
theorem parseNeighbors_texts :
    ∀ l : List Rimeaddr, parseNeighbors (Rimeaddr.texts l) = some l
  | [] => parseNeighbors_nil
  | [a] => by
    have h₀ : a.text.strtok '.' = some (Text.ofNat a.u8₀.toNat, Text.ofNat a.u8₁.toNat) := by
      simpa only [List.append_nil] using strtok_text a []
    have h₁ : (Text.ofNat a.u8₁.toNat).strtok ':' = some (Text.ofNat a.u8₁.toNat, []) :=
      Text.strtok_of_notMem Text.ofNat_ne_nil (Text.not_mem_ofNat (by decide))
    rw [Rimeaddr.texts, parseNeighbors_step h₀ h₁, parseNeighbors_nil]
    simp
  | a :: b :: rest => by
    rw [Rimeaddr.texts, parseNeighbors_step (strtok_text a _) (strtok_ofNat (by decide) _ _),
      parseNeighbors_texts (b :: rest)]
    simp

/-- **Every command is taken apart as it was put together.** -/
theorem sendSetupPacket_command (sp : SetupPacket) (hne : sp.neighbors ≠ [])
    (hlen : sp.neighbors.length < 256) : sendSetupPacket sp.command = some sp := by
  have hname : sp.command.strtok ':' = some (setupCommand, _) :=
    Text.strtok_append (by decide) (by decide)
  have hnum : UInt8.ofNat sp.neighbors.length ≠ 0 := by
    have hpos := List.length_pos_of_ne_nil hne
    rw [ne_eq, ← UInt8.toNat_inj, UInt8.toNat_ofNat']
    change ¬ sp.neighbors.length % 256 = 0
    omega
  rw [sendSetupPacket, hname]
  simp only [Option.bind_eq_bind, Option.bind_some, strtok_text, strtok_ofNat (d := '.') rfl,
    strtok_ofNat (d := ':') rfl, parseNeighbors_texts, guard, if_pos hnum, atoiUint8_ofNat,
    atoiUint16_ofNat]
  simp

/-! ### The length of the line -/

theorem length_ofNat_uint8 (b : UInt8) : (Text.ofNat b.toNat).length ≤ 3 :=
  (Nat.length_toDigits_le_iff (by decide) (by decide)).mpr
    (lt_of_lt_of_le b.toNat_lt (by decide))

theorem length_ofNat_uint16 (x : UInt16) : (Text.ofNat x.toNat).length ≤ 5 :=
  (Nat.length_toDigits_le_iff (by decide) (by decide)).mpr
    (lt_of_lt_of_le x.toNat_lt (by decide))

theorem Rimeaddr.length_text (a : Rimeaddr) : a.text.length ≤ 7 := by
  have h₀ := length_ofNat_uint8 a.u8₀
  have h₁ := length_ofNat_uint8 a.u8₁
  rw [Rimeaddr.text, List.length_append, List.length_cons]
  omega

theorem Rimeaddr.length_texts : ∀ l : List Rimeaddr, (Rimeaddr.texts l).length ≤ 8 * l.length
  | [] => Nat.le_refl 0
  | [a] => by
    have ha := a.length_text
    rw [Rimeaddr.texts, List.length_singleton]
    omega
  | a :: b :: rest => by
    have ha := a.length_text
    have ih := Rimeaddr.length_texts (b :: rest)
    rw [Rimeaddr.texts, List.length_append, List.length_cons, List.length_cons (a := a)]
    omega

/-- The driver of the serial port keeps the whole of a command. -/
theorem serialLine_command (sp : SetupPacket) (hlen : sp.neighbors.length ≤ maxNeighbors) :
    serialLine sp.command = sp.command := by
  have haddr := sp.newAddr.length_text
  have hx := length_ofNat_uint16 (uint8ToUint16 sp.newCoord.x)
  have hy := length_ofNat_uint16 (uint8ToUint16 sp.newCoord.y)
  have hexit := length_ofNat_uint8 sp.isExitNode
  have hnbrs := Rimeaddr.length_texts sp.neighbors
  have hname : setupCommand.length = 17 := by decide
  have hcommand : sp.command.length ≤ 127 := by
    unfold maxNeighbors at hlen
    simp only [SetupPacket.command, List.length_append, List.length_cons, hname]
    omega
  exact List.take_of_length_le hcommand

/-! ### Broadcasting the packet -/

/-- The branch of the command in `fire_process`. -/
def EcNode.sendSetupCommand (data : Text) (s : EcNode Node) : Except Fault (EcNode Node) :=
  if setupCommand.isPrefixOf data then
    match sendSetupPacket data with
    | none => .error .assertFailed
    | some sp => s.step mainRegSensor (.process (.serial (.sendSetupPacket sp)))
  else .ok s

/-- The packet as the node hands it over. -/
def EcNode.setupArgs (sp : SetupPacket) (s : EcNode Node) : SendArgs :=
  ⟨s.app.rimeaddrNodeAddr, s.app.rimeaddrNodeAddr, 0, s.app.seqno, sp.bytes⟩

/-- The frame `send_broadcast_data` sends for the packet in slot `i`. -/
def Ec.broadcastFrame (c : Ec) (i : ℕ) : Frame :=
  ⟨(c.sq.item i).p.hdr, memRead (c.sq.item i).p.data (c.sq.item i).dataLen.toNat⟩

theorem Ec.sendBroadcastData_sends {c : Ec} {i : ℕ} (h : c.sq.first .broadcastData = some i) :
    .frame .broadcast i (c.broadcastFrame i) ∈ (c.sendBroadcastData true).trace := by
  unfold Ec.sendBroadcastData Ec.sendOnce
  rw [h]
  simp only [if_true]
  split <;> simp [Ec.ctimerSet, Ec.setTimer, Ec.freePacket, Ec.log, Ec.broadcastFrame]

/-- The command runs `ec_broadcast`. -/
theorem EcNode.sendSetupCommand_eq (sp : SetupPacket) (s : EcNode Node) (hne : sp.neighbors ≠ [])
    (hlen : sp.neighbors.length ≤ maxNeighbors) :
    s.sendSetupCommand (serialLine sp.command) =
      EcNode.tryConn ⟨s.conn, s.app.step (.serial (.sendSetupPacket sp), s.app.now)⟩
        (Ec.ecBroadcast s.app.connNs (s.setupArgs sp)) := by
  have hname : setupCommand.isPrefixOf sp.command = true :=
    List.isPrefixOf_iff_prefix.mpr (List.prefix_append _ _)
  have hcalls : (s.app.step (.serial (.sendSetupPacket sp), s.app.now)).calls =
      [.assert (decide (sp.neighbors ≠ [])), .call (.broadcast s.app.connNs (s.setupArgs sp))] := rfl
  rw [serialLine_command sp hlen, sendSetupCommand, if_pos hname,
    sendSetupPacket_command sp hne (lt_of_le_of_lt hlen (by decide))]
  change runEffects _ (s.app.step (.serial (.sendSetupPacket sp), s.app.now)).calls
    ⟨s.conn, s.app.step (.serial (.sendSetupPacket sp), s.app.now)⟩ = _
  rw [hcalls, runEffects, decide_eq_true hne, if_pos rfl, runEffects, EcCall.run]
  cases EcNode.tryConn _ (Ec.ecBroadcast s.app.connNs (s.setupArgs sp)) <;> rfl

/-! ### What becomes of the command -/

/-- The command for the packet `sp` has the effect it describes: it ends without an assertion,
the packet is queued, every node reads it from the frame, and a node that listens and awaits its
set-up is then set up as the packet says. -/
def SetupPacket.Reaches (sp : SetupPacket) (s : EcNode Node) : Prop :=
  ∃ s' i, s.sendSetupCommand (serialLine sp.command) = .ok s' ∧
    s'.conn.sq.prioHeads .broadcastData = s.conn.sq.prioHeads .broadcastData ++ [i] ∧
    (s'.conn.broadcastFrame i).DecodesTo.{0} .broadcast (s.setupArgs sp) (fun _ => True) ∧
    ∀ r : RecvArgs, r.Yields (s.setupArgs sp) → ∀ t : Node, t.Listens →
      t.state.isAwaitingSetupPacket = true → Node.SetUp sp (Node.ecBroadcastsRecv r t)

/-- `setup_parse` at a node that awaits its set-up. -/
theorem setUp_ecBroadcastsRecv {sp : SetupPacket} {s : EcNode Node} {r : RecvArgs} {t : Node}
    (hlen : sp.neighbors.length ≤ maxNeighbors) (hr : r.Yields (s.setupArgs sp)) (ht : t.Listens)
    (hwait : t.state.isAwaitingSetupPacket = true) :
    Node.SetUp sp (Node.ecBroadcastsRecv r t) := by
  have hbytes : memRead r.data sp.bytes.length = sp.bytes := by
    have hpayload : memRead r.data r.dataLen.toNat = sp.bytes := hr.payload
    have hdataLen : r.dataLen.toNat = sp.bytes.length := hr.dataLen
    rwa [hdataLen] at hpayload
  have hread := SetupPacket.read_of_memRead (lt_of_le_of_lt hlen (by decide)) hbytes
  have htype : packetTypeAt r.data = some .setup := by
    have hbyte : byteAt r.data 0 = byteAt sp.bytes 0 := by
      rw [← hbytes, byteAt_memRead (by rw [sp.length_bytes, setupPacketSize]; omega)]
    rw [packetTypeAt, hbyte]
    rfl
  have hrecv : Node.ecBroadcastsRecv r t = Node.setupParse r.data false
      { t with state := { t.state with isAwaitingSetupPacket := false } } := by
    simp [Node.ecBroadcastsRecv, Node.ignoredInResetMode, ht.1, ht.2, Node.sensorBroadcastsRecv,
      htype, hwait]
  rw [hrecv]
  exact Node.setUp_setupParse hread hlen false _

/-- What `ec_broadcast` does with a packet that fits into a queue with room for it. -/
theorem Ec.exists_ecBroadcast {c : Ec} (ns : Option NeighborSet) {a : SendArgs}
    (hroom : c.sq.size ≠ sendingQueueLength)
    (hlen : broadcastPacketHdrSize + a.data.length < maxPacketSize) :
    ∃ c' i, c.ecBroadcast ns a = .ok c' ∧ c.sq.Enqueued .broadcastData i (PacketBuffer.written
      (initBroadcastPacket 0 a.hops a.originator a.sender a.seqno) [] a.data ns (c.sq.item i)) c'.sq := by
  obtain ⟨i, sq, hput⟩ := PacketBuffer.exists_put_eq_ok (t := .broadcastData)
    (initBroadcastPacket 0 a.hops a.originator a.sender a.seqno) [] ns hroom hlen
  have hqueue : ∃ c₁, c.putBroadcast (initBroadcastPacket 0 a.hops a.originator a.sender a.seqno)
      a.data ns .broadcastData = .ok c₁ ∧ c₁.sq = sq := by
    unfold Ec.putBroadcast PacketBuffer.broadcastPacket
    rw [hput]
    exact ⟨_, rfl, rfl⟩
  obtain ⟨c₁, hqueue, hsq⟩ := hqueue
  refine ⟨_, i, bind_eq_ok.mpr ⟨c₁, hqueue, rfl⟩, ?_⟩
  rw [Ec.sq_ite_ctimerSet, Ec.sq_store, hsq]
  exact (PacketBuffer.put_eq_ok hput).1

namespace SetupPacket

/-- **The command for at most `MAX_NEIGHBORS` neighbours has its effect exactly when there are
fewer, and the sending queue has room for a packet.** -/
theorem reaches_iff (sp : SetupPacket) (s : EcNode Node) (hne : sp.neighbors ≠ [])
    (hlen : sp.neighbors.length ≤ maxNeighbors) : sp.Reaches s ↔
      sp.neighbors.length < maxNeighbors ∧ s.conn.sq.size < sendingQueueLength := by
  have hbytes : (s.setupArgs sp).data.length = 9 + 2 * sp.neighbors.length := sp.length_bytes
  have hhdr : broadcastPacketHdrSize = 7 := rfl
  have hmax : maxPacketSize = 32 := rfl
  have hnum : maxNeighbors = 8 := rfl
  have hsize := s.conn.sq.size_le
  constructor
  · rintro ⟨s', i, hsent, -⟩
    rw [EcNode.sendSetupCommand_eq sp s hne hlen, EcNode.tryConn_eq_ok] at hsent
    obtain ⟨c, hc, -⟩ := hsent
    unfold Ec.ecBroadcast Ec.sendData at hc
    rw [bind_eq_ok] at hc
    obtain ⟨c₁, hput, -⟩ := hc
    obtain ⟨-, -, -, -, hfits⟩ := Ec.putBroadcast_eq_ok hput
    have hroom : s.conn.sq.size ≠ sendingQueueLength := fun hfull => by
      rw [Ec.putBroadcast_eq_sendingQueueFull.mpr hfull] at hput
      cases hput
    omega
  · rintro ⟨hfew, hroom⟩
    obtain ⟨c, i, hc, henq⟩ := Ec.exists_ecBroadcast s.app.connNs (a := s.setupArgs sp)
      (c := s.conn) (Nat.ne_of_lt hroom) (by omega)
    refine ⟨_, i, (EcNode.sendSetupCommand_eq sp s hne hlen).trans
      (EcNode.tryConn_eq_ok.mpr ⟨c, hc, rfl⟩), ?_, ?_, fun r hr t ht hwait =>
        setUp_ecBroadcastsRecv hlen hr ht hwait⟩
    · change c.sq.prioHeads .broadcastData = _
      rw [henq.prioHeads, addTail_self]
    · have hframe : c.broadcastFrame i = ⟨initBroadcastPacket 0 (s.setupArgs sp).hops
          (s.setupArgs sp).originator (s.setupArgs sp).sender (s.setupArgs sp).seqno,
            (s.setupArgs sp).data⟩ := by
        have hdataLen : (UInt8.ofNat (s.setupArgs sp).data.length).toNat =
            (s.setupArgs sp).data.length := by
          rw [UInt8.toNat_ofNat']
          omega
        rw [Ec.broadcastFrame, henq.item_self, PacketBuffer.written]
        simp only [List.nil_append, hdataLen, memRead_memWrite]
      change (c.broadcastFrame i).DecodesTo _ _ _
      rw [hframe]
      exact Frame.decodesTo_broadcast (by decide) (by omega)

/-! ### The greatest number of neighbours -/

/-- A set-up of a node at `(100, 110)`, an exit, with neighbours `2.0`, `3.0`, ... -/
def upTo (n : ℕ) : SetupPacket where
  newAddr := ⟨1, 0⟩
  newCoord := ⟨⟨0, 100⟩, ⟨0, 110⟩⟩
  isExitNode := 1
  neighbors := (List.range n).map fun i => ⟨UInt8.ofNat (i + 2), 0⟩

/-- Seven neighbours. -/
theorem reaches_seven : (upTo 7).Reaches (.poweredUp rimeaddrNull none) :=
  (reaches_iff (upTo 7) (.poweredUp rimeaddrNull none) (by decide) (by decide)).mpr
    ⟨by decide, by decide⟩

/-- **The command for `MAX_NEIGHBORS` neighbours ends in an assertion**, at a node that has just
powered up. -/
theorem sendSetupCommand_eight : (upTo 8).neighbors.length = maxNeighbors ∧
    EcNode.sendSetupCommand (serialLine (upTo 8).command) (.poweredUp rimeaddrNull none) =
      .error .assertFailed := by
  refine ⟨by decide, ?_⟩
  rw [EcNode.sendSetupCommand_eq (upTo 8) _ (by decide) (by decide), tryConn_eq_error,
    Ec.ecBroadcast, Ec.sendData_eq_error, Ec.putBroadcast_eq_error,
    PacketBuffer.put_eq_assertFailed]
  decide

end SetupPacket

end EmergencyNet
