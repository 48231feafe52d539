import EmergencyNet.App.Handlers
import EmergencyNet.Gui.SensorNode

/-!
# Node reports

The way of a node report from a node to the map: `ec_mesh_recv` of `main_reg_sensor.c`
prints it at the sink, and `GUI/SerialCommunication.java` reads the line and keeps the report
as a text, in which it later changes the fire flag.  The sink's `int` has 16 bits, so `%d`
prints the coordinates from `2 ^ 15` on as negative numbers.

## Main definitions

* `Node.ecMeshRecv` — the line the sink prints.
* `SerialCommunication`, with `plotMap`, `changeFireStatus`, `cleanFire`.
* `Node.ReportSurvives` — a node's report is what the map shows of it.

## Main results

* `Node.plotMap_report` — the text of a report that `plotMap` keeps.
* `Node.reportSurvives_iff` — **a report survives exactly when both coordinates are below
  `2 ^ 15`.**
-/

namespace EmergencyNet

/-! ### Printing a report -/

/-- The text of an address, printed with `%d.%d`. -/
def Rimeaddr.text (a : Rimeaddr) : Text := Text.ofNat a.u8₀.toNat ++ '.' :: Text.ofNat a.u8₁.toNat

/-- `%d` of a `uint16_t`, which is printed as an `int` of 16 bits. -/
def printUint16 (x : UInt16) : Text := Text.ofInt x.toInt16.toInt

/-- `%d` of an `int8_t`. -/
def printInt8 (b : UInt8) : Text := Text.ofInt b.toInt8.toInt

/-- What the line of a report starts with. -/
def reportPrefix : Text := "@NODE_REPORT_PACKET:".toList

/-- What the line of an emergency starts with. -/
def emergencyPrefix : Text := "@EMERGENCY_PACKET:".toList

/-- What the line of the end of an emergency starts with. -/
def antiEmergencyPrefix : Text := "@ANTI_EMERGENCY_PACKET:".toList

/-- `ec_mesh_recv`: what it prints for a report of `originator`; `none` where it asserts. -/
def Node.ecMeshRecv (originator : Rimeaddr) (data : List UInt8) : Option Text :=
  match packetTypeAt data with
  | some .nodeReport =>
    some (reportPrefix ++ (originator.text ++ ':' ::
      (printUint16 (uint8ToUint16 (coordinateAt data 1).x) ++ '.' ::
        (printUint16 (uint8ToUint16 (coordinateAt data 1).y) ++ ':' ::
          (printInt8 (byteAt data 5) ++ ':' :: (printInt8 (byteAt data 6) ++ ['\n']))))))
  | _ => none

/-! ### Keeping it -/

/-- `SerialCommunication`: the reports and the fire announcements that have come in. -/
structure SerialCommunication where
  data : List Text
  fireData : List Text
  deriving DecidableEq

namespace SerialCommunication

/-- `input.readLine()` of a line that has been printed. -/
def readLine (printed : Text) : Text := printed.takeWhile (· ≠ '\n')

/-- What stands behind the prefix of a line. -/
def behindPrefix (line : Text) : Option Text := line.substringFrom (line.indexOf ':' + 1)

/-- `if(!list.contains(line)) list.addElement(line)`. -/
def addNew (line : Text) (list : List Text) : List Text :=
  if line ∈ list then list else list ++ [line]

/-- What marks the end of a fire in `fireData`. -/
def cleanPrefix : Text := "clean:".toList

/-- What `plotMap` does with a line. -/
def plotMap (line : Text) (c : SerialCommunication) : Option SerialCommunication :=
  if reportPrefix.isPrefixOf line then
    (behindPrefix line).map fun report => { c with data := addNew report c.data }
  else if emergencyPrefix.isPrefixOf line then
    (behindPrefix line).map fun rimeID => { c with fireData := addNew rimeID c.fireData }
  else if antiEmergencyPrefix.isPrefixOf line then
    (behindPrefix line).map fun rimeID =>
      { c with fireData := addNew (cleanPrefix ++ rimeID) c.fireData }
  else some c

/-- `changeFireStatus`; `none` where it throws. -/
def changeFireStatus (index : ℕ) (val : Text) (c : SerialCommunication) :
    Option SerialCommunication := do
  let string ← c.data[index]?
  let element ← SensorNode.changeFire string val
  return { c with data := c.data.set index element }

/-- The loop of `cleanFire` over the places before `i`. -/
def removeBefore (temp : Text) : ℕ → List Text → List Text
  | 0, l => l
  | i + 1, l => removeBefore temp i (if l[i]? = some temp then l.eraseIdx i else l)

/-- `cleanFire`; `none` where it throws. -/
def cleanFire (index : ℕ) (c : SerialCommunication) : Option SerialCommunication := do
  let temp ← c.fireData[index]?
  if cleanPrefix.isPrefixOf temp then
    let temp ← behindPrefix temp
    return { c with fireData := removeBefore temp index (c.fireData.eraseIdx index) }
  else return c

variable {c : SerialCommunication} {i : ℕ}

/-- What stands behind a prefix whose only separator is its last character. -/
theorem behindPrefix_append {pre p : Text} (line : Text) (h : pre = p ++ [':']) (hp : ':' ∉ p) :
    behindPrefix (pre ++ line) = some line := by
  rw [h, List.append_assoc]
  exact Text.substringFrom_indexOf hp

/-- The text of a node is kept with another flag. -/
theorem changeFireStatus_text {sn : SensorNode} (h : c.data[i]? = some sn.text) (b : Bool) :
    c.changeFireStatus i (SensorNode.flagText b) =
      some { c with data := c.data.set i (sn.setOnFire b).text } := by
  simp only [changeFireStatus, h, SensorNode.changeFire_text, Option.bind_eq_bind,
    Option.bind_some]
  rfl

end SerialCommunication

/-! ### A report on the map -/

namespace Node

open SensorNode SerialCommunication

variable {s : Node}

/-- What the map is to show of a node. -/
def sensorNode (s : Node) : SensorNode where
  rimeID := s.rimeaddrNodeAddr.text
  xCoordinate := (uint8ToUint16 s.coordinateNode.x).toNat
  yCoordinate := (uint8ToUint16 s.coordinateNode.y).toNat
  isOnFire := s.state.isBurning
  isExit := s.state.isExitNode

/-- What the line of a node's report says about it. -/
def reported (s : Node) : SensorNode :=
  { s.sensorNode with
    xCoordinate := (uint8ToUint16 s.coordinateNode.x).toInt16.toInt
    yCoordinate := (uint8ToUint16 s.coordinateNode.y).toInt16.toInt }

/-- The line that is printed for the report of a node. -/
def reportLine (s : Node) : Text := reportPrefix ++ (s.reported.text ++ ['\n'])

/-- The report of a node survives: `plotMap` keeps a text that is parsed into what the map is
to show of the node, and changing the fire in it changes that alone. -/
def ReportSurvives (s : Node) : Prop :=
  ∃ printed text, ecMeshRecv s.rimeaddrNodeAddr s.nodeReportBytes = some printed ∧
    (∀ c, plotMap (readLine printed) c = some { c with data := addNew text c.data }) ∧
    parseSensorNode text = some s.sensorNode ∧
    ∀ (c : SerialCommunication) (i : ℕ) (b : Bool), c.data[i]? = some text →
      ∃ text', c.changeFireStatus i (flagText b) = some { c with data := c.data.set i text' } ∧
        parseSensorNode text' = some (s.sensorNode.setOnFire b)

theorem notMem_rimeaddrText {c : Char} (hdigit : c.isDigit = false) (hdot : c ≠ '.')
    (a : Rimeaddr) : c ∉ a.text := by
  have hno : ∀ n, c ∉ Text.ofNat n := fun n => Text.not_mem_ofNat hdigit
  simp [Rimeaddr.text, hno, hdot]

/-- The number `%d` prints for a `uint16_t`. -/
theorem toInt_toInt16 (x : UInt16) :
    x.toInt16.toInt = if x.toNat < 2 ^ 15 then (x.toNat : ℤ) else x.toNat - 2 ^ 16 := by
  change x.toBitVec.toInt = _
  rw [BitVec.toInt_eq_toNat_cond]
  change (if 2 * x.toNat < 2 ^ 16 then (x.toNat : ℤ) else x.toNat - 2 ^ 16) = _
  have hlt := x.toNat_lt
  split <;> split <;> omega

theorem wellFormed_reported (s : Node) : s.reported.WellFormed where
  rimeID := notMem_rimeaddrText (by decide) (by decide) _
  xLow := by
    have hlt := (uint8ToUint16 s.coordinateNode.x).toNat_lt
    change _ ≤ (uint8ToUint16 s.coordinateNode.x).toInt16.toInt
    rw [toInt_toInt16]
    split <;> omega
  xHigh := by
    have hlt := (uint8ToUint16 s.coordinateNode.x).toNat_lt
    change (uint8ToUint16 s.coordinateNode.x).toInt16.toInt < _
    rw [toInt_toInt16]
    split <;> omega
  yLow := by
    have hlt := (uint8ToUint16 s.coordinateNode.y).toNat_lt
    change _ ≤ (uint8ToUint16 s.coordinateNode.y).toInt16.toInt
    rw [toInt_toInt16]
    split <;> omega
  yHigh := by
    have hlt := (uint8ToUint16 s.coordinateNode.y).toNat_lt
    change (uint8ToUint16 s.coordinateNode.y).toInt16.toInt < _
    rw [toInt_toInt16]
    split <;> omega

theorem printInt8_toUInt8 (b : Bool) : printInt8 b.toUInt8 = flagText b := by
  cases b <;> decide

/-- The line printed for the report of a node. -/
theorem ecMeshRecv_report (s : Node) :
    ecMeshRecv s.rimeaddrNodeAddr s.nodeReportBytes = some s.reportLine := by
  have htype : packetTypeAt s.nodeReportBytes = some .nodeReport := packetTypeAt_cons _ _
  have hcoord : coordinateAt s.nodeReportBytes 1 = s.coordinateNode := rfl
  have hburning : byteAt s.nodeReportBytes 5 = s.state.isBurning.toUInt8 := rfl
  have hexit : byteAt s.nodeReportBytes 6 = s.state.isExitNode.toUInt8 := rfl
  rw [ecMeshRecv, htype]
  simp only [hcoord, hburning, hexit, printInt8_toUInt8, reportLine, text_eq]
  simp [reported, sensorNode, printUint16]

/-- **`plotMap` keeps the text of the report.** -/
theorem plotMap_report (s : Node) (c : SerialCommunication) :
    plotMap (readLine s.reportLine) c = some { c with data := addNew s.reported.text c.data } := by
  have hnl : ∀ ch ∈ reportPrefix ++ s.reported.text, decide (ch ≠ '\n') = true := by
    have hx : ∀ z, '\n' ∉ Text.ofInt z := fun z => Text.not_mem_ofInt (by decide) (by decide)
    have haddr : '\n' ∉ s.reported.rimeID := notMem_rimeaddrText (by decide) (by decide) _
    have hflag : ∀ b, '\n' ∉ flagText b := fun b => by cases b <;> decide
    intro ch hmem
    rw [decide_eq_true_iff]
    rintro rfl
    have hpre : '\n' ∉ reportPrefix := by decide
    rw [text_eq] at hmem
    simp [hpre, hx, haddr, hflag] at hmem
  have hline : readLine s.reportLine = reportPrefix ++ s.reported.text := by
    rw [readLine, reportLine, ← List.append_assoc, List.takeWhile_append_of_pos hnl]
    simp
  have hpre : reportPrefix.isPrefixOf (reportPrefix ++ s.reported.text) = true := by
    rw [List.isPrefixOf_iff_prefix]
    exact List.prefix_append _ _
  have hsplit : reportPrefix = "@NODE_REPORT_PACKET".toList ++ [':'] := by decide
  have hbehind := behindPrefix_append s.reported.text hsplit (by decide)
  rw [hline, plotMap, if_pos hpre, hbehind]
  rfl

/-- What is kept of a report is parsed into what its line says. -/
theorem reportSurvives_reported (h : s.reported = s.sensorNode) : s.ReportSurvives := by
  refine ⟨s.reportLine, s.reported.text, s.ecMeshRecv_report, s.plotMap_report, ?_, ?_⟩
  · rw [parseSensorNode_text s.wellFormed_reported, h]
  · intro c i b hi
    have hchange := changeFireStatus_text hi b
    refine ⟨(s.reported.setOnFire b).text, hchange, ?_⟩
    rw [parseSensorNode_text (s.wellFormed_reported.setOnFire b), h]

theorem reported_of_survives (h : s.ReportSurvives) : s.reported = s.sensorNode := by
  obtain ⟨printed, text, hprint, hplot, hparse, -⟩ := h
  rw [ecMeshRecv_report, Option.some.injEq] at hprint
  have hkept := hplot ⟨[], []⟩
  rw [← hprint, plotMap_report, Option.some.injEq, SerialCommunication.mk.injEq] at hkept
  have htext : s.reported.text = text := by simpa [addNew] using hkept.1
  rw [← htext, parseSensorNode_text s.wellFormed_reported, Option.some.injEq] at hparse
  exact hparse

/-- **A report survives exactly when both coordinates are below `2 ^ 15`.** -/
theorem reportSurvives_iff (s : Node) : s.ReportSurvives ↔
    (uint8ToUint16 s.coordinateNode.x).toNat < 2 ^ 15 ∧
      (uint8ToUint16 s.coordinateNode.y).toNat < 2 ^ 15 := by
  have hcoord : s.reported = s.sensorNode ↔
      (uint8ToUint16 s.coordinateNode.x).toInt16.toInt = (uint8ToUint16 s.coordinateNode.x).toNat ∧
      (uint8ToUint16 s.coordinateNode.y).toInt16.toInt =
        (uint8ToUint16 s.coordinateNode.y).toNat := by
    simp [reported, sensorNode]
  have hprinted : ∀ x : UInt16, x.toInt16.toInt = x.toNat ↔ x.toNat < 2 ^ 15 := fun x => by
    rw [toInt_toInt16]
    split <;> omega
  rw [← hprinted, ← hprinted, ← hcoord]
  exact ⟨reported_of_survives, reportSurvives_reported⟩

/-- **A node at `(40000, 0)` is shown at `(-25536, 0)`.** -/
theorem not_reportSurvives_far : ¬ ReportSurvives
    { zero ⟨1, 0⟩ none with coordinateNode := ⟨uint16ToUint8 40000, uint16ToUint8 0⟩ } := by
  intro h
  have hx := congrArg SensorNode.xCoordinate (reported_of_survives h)
  exact absurd hx (by decide)

end Node

end EmergencyNet
