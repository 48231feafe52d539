import EmergencyNet.Lib.Text

/-!
# The nodes of the map

`GUI/SensorNode.java`: what the map shows of a node, and the text of a report it is parsed
from.

## Main definitions

* `SensorNode`, `SensorNode.parseSensorNode` — a node of the map and its parser.
* `SensorNode.text` — the text of a node.
* `SensorNode.changeFire` — the text with another flag in the place of the fire.

## Main results

* `SensorNode.parseSensorNode_text` — **a node is parsed from its text.**
* `SensorNode.changeFire_text` — **changing the fire changes nothing else.**
-/

namespace EmergencyNet

/-- `SensorNode`. -/
structure SensorNode where
  rimeID : Text
  xCoordinate : ℤ
  yCoordinate : ℤ
  isOnFire : Bool
  isExit : Bool
  deriving DecidableEq

namespace SensorNode

/-- `setOnFire`. -/
def setOnFire (isOnFire : Bool) (sn : SensorNode) : SensorNode := { sn with isOnFire := isOnFire }

/-- The text of a flag, as it is compared with `"0"`. -/
def flagText (b : Bool) : Text := if b then ['1'] else ['0']

/-- `parseSensorNode`, which reads `a.b:x.y:fire:exit`; `none` where it throws. -/
def parseSensorNode (nodeData : Text) : Option SensorNode := do
  let s := nodeData
  -- the address
  let rime ← s.substring 0 (s.indexOf ':')
  let s ← s.substringFrom (s.indexOf ':' + 1)
  -- the coordinate
  let x ← (← s.substring 0 (s.indexOf '.')).parseInt
  let s ← s.substringFrom (s.indexOf '.' + 1)
  let y ← (← s.substring 0 (s.indexOf ':')).parseInt
  let s ← s.substringFrom (s.indexOf ':' + 1)
  -- the flags
  let fire ← s.substring 0 (s.indexOf ':')
  let s ← s.substringFrom (s.indexOf ':' + 1)
  return ⟨rime, x, y, fire != flagText false, s != flagText false⟩

/-- What `changeFireStatus` makes of the text of a node: the character before the last
separator is replaced. -/
def changeFire (s val : Text) : Option Text := do
  let i := s.lastIndexOf ':'
  let front ← s.substring 0 (i - 1)
  let back ← s.substringFrom i
  return front ++ val ++ back

/-! ### The text of a node -/

/-- The text of a node, up to its flags. -/
def place (sn : SensorNode) : Text :=
  sn.rimeID ++ ':' :: (Text.ofInt sn.xCoordinate ++ '.' :: (Text.ofInt sn.yCoordinate ++ [':']))

/-- The text of a node. -/
def text (sn : SensorNode) : Text :=
  sn.place ++ flagText sn.isOnFire ++ ':' :: flagText sn.isExit

/-- The address has no separator in it, and the coordinates are numbers of 32 bits. -/
structure WellFormed (sn : SensorNode) : Prop where
  rimeID : ':' ∉ sn.rimeID
  xLow : -2 ^ 31 ≤ sn.xCoordinate
  xHigh : sn.xCoordinate < 2 ^ 31
  yLow : -2 ^ 31 ≤ sn.yCoordinate
  yHigh : sn.yCoordinate < 2 ^ 31

variable {sn : SensorNode}

theorem WellFormed.setOnFire (h : sn.WellFormed) (b : Bool) : (sn.setOnFire b).WellFormed :=
  ⟨h.rimeID, h.xLow, h.xHigh, h.yLow, h.yHigh⟩

theorem colon_notMem_flagText (b : Bool) : ':' ∉ flagText b := by cases b <;> decide

@[simp] theorem flagText_ne_false (b : Bool) : (flagText b != flagText false) = b := by
  cases b <;> rfl

/-- The text with its separators in the order in which they are searched. -/
theorem text_eq (sn : SensorNode) : sn.text =
    sn.rimeID ++ ':' :: (Text.ofInt sn.xCoordinate ++ '.' :: (Text.ofInt sn.yCoordinate ++
      ':' :: (flagText sn.isOnFire ++ ':' :: flagText sn.isExit))) := by
  simp [text, place]

/-- **A node is parsed from its text.** -/
theorem parseSensorNode_text (h : sn.WellFormed) : parseSensorNode sn.text = some sn := by
  have hx : '.' ∉ Text.ofInt sn.xCoordinate := Text.not_mem_ofInt (by decide) (by decide)
  have hy : ':' ∉ Text.ofInt sn.yCoordinate := Text.not_mem_ofInt (by decide) (by decide)
  have hfire := colon_notMem_flagText sn.isOnFire
  rw [text_eq, parseSensorNode]
  simp only [Text.substring_indexOf h.rimeID, Text.substringFrom_indexOf h.rimeID,
    Text.substring_indexOf hx, Text.substringFrom_indexOf hx, Text.substring_indexOf hy,
    Text.substringFrom_indexOf hy, Text.substring_indexOf hfire,
    Text.substringFrom_indexOf hfire, Text.parseInt_ofInt h.xLow h.xHigh,
    Text.parseInt_ofInt h.yLow h.yHigh, Option.bind_eq_bind, Option.bind_some]
  simp

/-- **Changing the fire changes nothing else.** -/
theorem changeFire_text (sn : SensorNode) (b : Bool) :
    changeFire sn.text (flagText b) = some (sn.setOnFire b).text := by
  obtain ⟨c, hc⟩ : ∃ c, flagText sn.isOnFire = [c] := by cases sn.isOnFire <;> exact ⟨_, rfl⟩
  have hlast : sn.text.lastIndexOf ':' = (sn.place ++ [c]).length := by
    rw [text, hc]
    exact Text.lastIndexOf_append (colon_notMem_flagText _)
  have hfront : sn.text.substring 0 (sn.text.lastIndexOf ':' - 1) = some sn.place := by
    have hlen : ((sn.place ++ [c]).length : ℤ) - 1 = sn.place.length := by simp
    rw [hlast, hlen, text, List.append_assoc, Text.substring_append]
  have hback : sn.text.substringFrom (sn.text.lastIndexOf ':') =
      some (':' :: flagText sn.isExit) := by
    rw [hlast, text, hc, Text.substringFrom_append]
  rw [changeFire]
  simp only [hfront, hback, Option.bind_eq_bind, Option.bind_some]
  rfl

end SensorNode

end EmergencyNet
