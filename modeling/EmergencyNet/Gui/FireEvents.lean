import EmergencyNet.Gui.SensorNetworkGUI
import EmergencyNet.Lib.Machine

/-!
# What the map shows of the fires

Lines about fires come in while the map polls.  A line that repeats an announcement still
listed is dropped, also when the contrary has been listed behind it: then the map works the
older announcement off, and shows the contrary of the last line.

## Main definitions

* `GuiEvent`, `Watch`, `watchMachine` — lines and polls in any order, with the last line about
  each node.
* `Watch.KeepsLine` — the line is not dropped in favour of an older contrary one.

## Main results

* `Watch.shows_last` — **in a guarded run no poll throws, and after a poll without new data the
  map shows of each node what the last line said.**
* `Watch.shows_dropped` — a run with a dropped line.
-/

namespace EmergencyNet

open SerialCommunication

/-- What happens at the map. -/
inductive GuiEvent
  /-- The sink's line about a fire, or the end of one. -/
  | line (a : Announcement)
  /-- A call of `checkNewData`. -/
  | poll
  /-- `GUIRunner` replaces the map by a new one, whose constructor polls. -/
  | restart

/-- The line the sink prints for an announcement. -/
def Announcement.line (a : Announcement) : Text :=
  (if a.fire then emergencyPrefix else antiEmergencyPrefix) ++ a.rimeID

/-- The map, the nodes as they have been reported, the last line about each node, and whether
the map has just been polled without new data. -/
structure Watch where
  gui : SensorNetworkGUI
  reports : List SensorNode
  last : Text → Option Bool
  settled : Bool

namespace Watch

/-- What happens; `none` where the code throws, and for a line about a node that has not been
reported. -/
def advance : GuiEvent → Watch → Option Watch
  | .line a, w =>
    if a.rimeID ∈ w.reports.map (·.rimeID) then
      (plotMap a.line w.gui.serialCom).map fun c =>
        { w with
          gui := { w.gui with serialCom := c }
          last := Function.update w.last a.rimeID (some a.fire)
          settled := false }
    else none
  | .poll, w => w.gui.checkNewData.map fun r => { w with gui := r.1, settled := !r.2 }
  | .restart, w =>
    (SensorNetworkGUI.checkNewData
      { serialCom := w.gui.serialCom, nodeVector := [], oldNodeVector := [],
        oldFireVector := [] }).map fun r => { w with gui := r.1, settled := false }

/-- The nodes as the last lines leave them; a node without a line stays as it was reported. -/
def shown (w : Watch) : List SensorNode :=
  w.reports.map fun sn => sn.setOnFire ((w.last sn.rimeID).getD sn.isOnFire)

/-- The map has been polled, if at all, when the first `k` nodes had been reported. -/
def Starts (w : Watch) : Prop :=
  (∀ sn ∈ w.reports, sn.WellFormed) ∧ w.last = (fun _ => none) ∧ w.settled = false ∧
    ∃ k, w.gui = ⟨⟨w.reports.map SensorNode.text, []⟩, w.reports.take k, w.reports.take k, []⟩

/-- The list of announcements does not have this one before its contrary, and the node of a
fire that has ended has been reported once. -/
def KeepsLine (w : Watch) : GuiEvent → Prop
  | .line a =>
    ¬ [a.text, Announcement.text ⟨a.rimeID, !a.fire⟩].Sublist w.gui.serialCom.fireData ∧
      (a.fire = false → (w.reports.map (·.rimeID)).count a.rimeID = 1)
  | .poll | .restart => True

instance (w : Watch) (e : GuiEvent) : Decidable (w.KeepsLine e) := by
  rcases e <;> unfold KeepsLine <;> infer_instance

end Watch

/-- The map as a transition system. -/
def watchMachine : Machine Watch GuiEvent where
  init := Watch.Starts
  step e w w' := w.advance e = some w'

namespace Watch

variable {w w' : Watch} {b : Board} {L : List Announcement} {a : Announcement}

/-- A line with one prefix does not start with another. -/
theorem not_isPrefixOf_append {p q : Text} (r : Text) (hpq : p.isPrefixOf q = false)
    (hqp : q.isPrefixOf p = false) : ¬ p.isPrefixOf (q ++ r) := by
  rw [List.isPrefixOf_iff_prefix]
  intro hpre
  rcases List.prefix_or_prefix_of_prefix hpre (List.prefix_append q r) with h | h
  · rw [List.isPrefixOf_iff_prefix.mpr h] at hpq
    cases hpq
  · rw [List.isPrefixOf_iff_prefix.mpr h] at hqp
    cases hqp

/-- A line about a fire is listed unless it is already. -/
theorem plotMap_line (a : Announcement) (c : SerialCommunication) :
    plotMap a.line c = some { c with fireData := addNew a.text c.fireData } := by
  have hstart : ∀ pre r : Text, pre.isPrefixOf (pre ++ r) = true := fun pre r =>
    List.isPrefixOf_iff_prefix.mpr (List.prefix_append pre r)
  obtain ⟨r, v⟩ := a
  cases v with
  | true =>
    have hreport := not_isPrefixOf_append (p := reportPrefix) (q := emergencyPrefix) r
      (by decide) (by decide)
    have hsplit : emergencyPrefix = "@EMERGENCY_PACKET".toList ++ [':'] := by decide
    have hbehind := behindPrefix_append r hsplit (by decide)
    change plotMap (emergencyPrefix ++ r) c = _
    rw [plotMap, if_neg hreport, if_pos (hstart _ r), hbehind]
    rfl
  | false =>
    have hreport := not_isPrefixOf_append (p := reportPrefix) (q := antiEmergencyPrefix) r
      (by decide) (by decide)
    have hfire := not_isPrefixOf_append (p := emergencyPrefix) (q := antiEmergencyPrefix) r
      (by decide) (by decide)
    have hsplit : antiEmergencyPrefix = "@ANTI_EMERGENCY_PACKET".toList ++ [':'] := by decide
    have hbehind := behindPrefix_append r hsplit (by decide)
    change plotMap (antiEmergencyPrefix ++ r) c = _
    rw [plotMap, if_neg hreport, if_neg hfire, if_pos (hstart _ r), hbehind]
    rfl

/-! ### The invariant -/

/-- The map stands for the board `b` and has last worked off the announcements `L`; the flags
come to what the last lines say; and where the board's list begins `L`, they are there. -/
structure Inv (w : Watch) (b : Board) (L : List Announcement) : Prop where
  shows : w.gui.Shows b
  length_le : w.gui.nodeVector.length ≤ b.nodes.length
  outlook : b.outlook = w.shown
  old : w.gui.oldFireVector = L.map Announcement.text
  noColon : ∀ a ∈ L, ':' ∉ a.rimeID
  worked : b.fires <+: L → ∀ sn ∈ b.nodes, ∀ v, Announcement.lastOf sn.rimeID L = some v →
    sn.isOnFire = v
  settled : w.settled = true → b.fires = L ∧ w.gui.nodeVector = b.nodes

/-- The board has the nodes that have been reported. -/
theorem Inv.rimeIDs (h : Inv w b L) : b.nodes.map (·.rimeID) = w.reports.map (·.rimeID) := by
  have hids := congrArg (List.map (·.rimeID)) h.outlook
  rw [Board.outlook, shown, List.map_map, List.map_map] at hids
  exact hids

theorem inv_starts (h : w.Starts) : Inv w ⟨w.reports, []⟩ [] := by
  obtain ⟨hwf, hlast, hsettled, k, hgui⟩ := h
  refine ⟨⟨?_, ?_, hwf, ?_, ?_, List.nodup_nil⟩, ?_, ?_, ?_, ?_, ?_, ?_⟩
  · rw [hgui]
  · rw [hgui]
    rfl
  · intro a ha
    cases ha
  · intro a ha
    cases ha
  · rw [hgui]
    exact List.length_take_le' _ _
  · rw [Board.outlook, shown, hlast]
    rfl
  · rw [hgui]
    rfl
  · intro a ha
    cases ha
  · intro _ sn _ v hv
    cases hv
  · intro hs
    rw [hsettled] at hs
    cases hs

/-- The announcements listed are those worked off last exactly when their texts are. -/
theorem Inv.fireData_eq_iff (h : Inv w b L) :
    w.gui.serialCom.fireData = w.gui.oldFireVector ↔ b.fires = L := by
  rw [h.shows.fireData, h.old]
  refine ⟨fun heq => ?_, fun heq => by rw [heq]⟩
  have hcolon : ∀ a ∈ b.fires, ':' ∉ a.rimeID := fun a ha =>
    SensorNetworkGUI.colon_notMem_of_reported h.shows.wellFormed (h.shows.reported a ha)
  exact SensorNetworkGUI.map_text_injective _ _ hcolon h.noColon heq

/-- The announcements listed after a line about `a`. -/
def heard (b : Board) (a : Announcement) : List Announcement :=
  if a ∈ b.fires then b.fires else b.fires ++ [a]

theorem eq_or_mem_of_mem_heard {c : Announcement} (hc : c ∈ heard b a) : c ∈ b.fires ∨ c = a := by
  unfold heard at hc
  split at hc
  · exact .inl hc
  · simpa using hc

theorem prefix_heard : b.fires <+: heard b a := by
  unfold heard
  split
  · exact List.prefix_rfl
  · exact List.prefix_append _ _

theorem nodup_heard (h : b.fires.Nodup) : (heard b a).Nodup := by
  unfold heard
  split
  · exact h
  · next hno => exact h.append (List.nodup_singleton a) (by simpa using hno)

/-- The line is the last that is said about its node, unless it is dropped in favour of an older
contrary one. -/
theorem lastOf_heard_self (h : ¬ [a, ⟨a.rimeID, !a.fire⟩].Sublist b.fires) :
    Announcement.lastOf a.rimeID (heard b a) = some a.fire := by
  unfold heard
  split
  · next hlisted => exact Announcement.lastOf_of_mem hlisted h
  · exact Announcement.lastOf_concat_self

/-- Nothing changes for the others. -/
theorem lastOf_heard_of_ne {r : Text} (hr : a.rimeID ≠ r) :
    Announcement.lastOf r (heard b a) = Announcement.lastOf r b.fires := by
  unfold heard
  split
  · rfl
  · exact Announcement.lastOf_concat_of_ne hr

/-- A node after a line. -/
def told (a : Announcement) (sn : SensorNode) : SensorNode :=
  if a.rimeID = sn.rimeID then sn.setOnFire a.fire else sn

/-- The flags of a board after a line come to what the line says. -/
theorem outlook_heard (h : ¬ [a, ⟨a.rimeID, !a.fire⟩].Sublist b.fires) :
    (⟨b.nodes, heard b a⟩ : Board).outlook = b.outlook.map (told a) := by
  rw [Board.outlook, Board.outlook, List.map_map]
  apply List.map_congr_left
  intro sn _
  change sn.setOnFire ((Announcement.lastOf sn.rimeID (heard b a)).getD sn.isOnFire) =
    if a.rimeID = sn.rimeID then sn.setOnFire a.fire else sn.setOnFire (b.value sn)
  split
  · next hr =>
    rw [← hr, lastOf_heard_self h]
    rfl
  · next hr =>
    rw [lastOf_heard_of_ne hr]
    rfl

/-- So do the last lines. -/
theorem shown_told (w : Watch) (a : Announcement) :
    w.shown.map (told a) = w.reports.map fun sn => sn.setOnFire
      ((Function.update w.last a.rimeID (some a.fire) sn.rimeID).getD sn.isOnFire) := by
  rw [shown, List.map_map]
  apply List.map_congr_left
  intro sn _
  change (if a.rimeID = sn.rimeID then sn.setOnFire a.fire
    else sn.setOnFire ((w.last sn.rimeID).getD sn.isOnFire)) = _
  split
  · next hr =>
    rw [← hr, Function.update_self]
    rfl
  · next hr => rw [Function.update_of_ne (Ne.symm hr)]

/-- The texts listed after a line. -/
theorem Inv.addNew_text (h : Inv w b L) (hcolon : ':' ∉ a.rimeID) :
    addNew a.text w.gui.serialCom.fireData = (heard b a).map Announcement.text := by
  have hiff : a.text ∈ w.gui.serialCom.fireData ↔ a ∈ b.fires := by
    rw [h.shows.fireData, List.mem_map]
    refine ⟨fun ⟨c, hc, hca⟩ => ?_, fun hmem => ⟨a, hmem, rfl⟩⟩
    have hcc := SensorNetworkGUI.colon_notMem_of_reported h.shows.wellFormed
      (h.shows.reported c hc)
    exact SensorNetworkGUI.text_injective hcc hcolon hca ▸ hc
  simp only [addNew, hiff, heard]
  split
  · exact h.shows.fireData
  · rw [h.shows.fireData, List.map_append]
    rfl

/-- A line that has come in is what is said last about its node. -/
theorem Inv.line (h : Inv w b L) (hok : w.KeepsLine (.line a))
    (hstep : w.advance (.line a) = some w') : ∃ b', Inv w' b' L := by
  obtain ⟨hkeeps, honce⟩ := hok
  have hreported : a.rimeID ∈ w.reports.map (·.rimeID) := by
    by_contra hno
    rw [advance, if_neg hno] at hstep
    cases hstep
  rw [advance, if_pos hreported, plotMap_line, Option.map_some, Option.some.injEq] at hstep
  subst hstep
  have hcolon : ':' ∉ a.rimeID :=
    SensorNetworkGUI.colon_notMem_of_reported h.shows.wellFormed (h.rimeIDs ▸ hreported)
  have hlast : ¬ [a, ⟨a.rimeID, !a.fire⟩].Sublist b.fires := fun hsub => hkeeps <| by
    rw [h.shows.fireData]
    exact hsub.map Announcement.text
  refine ⟨⟨b.nodes, heard b a⟩, ⟨h.shows.data, h.addNew_text hcolon, h.shows.wellFormed, ?_, ?_,
    nodup_heard h.shows.nodup⟩, h.length_le, ?_, h.old, h.noColon, fun hpre => ?_, fun hs => ?_⟩
  · intro c hc
    rcases eq_or_mem_of_mem_heard hc with hc | rfl
    · exact h.shows.reported c hc
    · exact h.rimeIDs ▸ hreported
  · intro c hc hfire
    rcases eq_or_mem_of_mem_heard hc with hc | rfl
    · exact h.shows.once c hc hfire
    · exact h.rimeIDs ▸ honce hfire
  · rw [outlook_heard hlast, h.outlook, shown_told]
    rfl
  · exact h.worked (prefix_heard.trans hpre)
  · cases hs

/-- A poll does not throw and keeps the invariant. -/
theorem Inv.poll (h : Inv w b L) : ∃ g n, w.gui.checkNewData = some (g, n) ∧
    ∃ b' L', Inv { w with gui := g, settled := !n } b' L' := by
  obtain ⟨g, n, hpoll, hcases⟩ := SensorNetworkGUI.checkNewData_spec h.shows h.length_le
  refine ⟨g, n, hpoll, ?_⟩
  rcases hcases with ⟨hsame, htracks, hnodes, hold⟩ | ⟨-, htracks, hold, hnone⟩
  · have hfires := h.fireData_eq_iff.mp hsame
    exact ⟨b, L, htracks.toShows, hnodes ▸ le_rfl, h.outlook, hold.trans h.old, h.noColon, h.worked,
      fun _ => ⟨hfires, hnodes⟩⟩
  · have hlen : g.nodeVector.length = b.processAll.nodes.length := by
      have hids := congrArg List.length htracks.nodeVector
      rwa [List.length_map, List.length_map] at hids
    refine ⟨b.processAll, b.fires, htracks.toShows, hlen.le, ?_, ?_, ?_, ?_, ?_⟩
    · exact (Board.outlook_processFrom _ _ _ h.shows.nodup).trans h.outlook
    · exact hold.trans h.shows.fireData
    · exact fun a ha => SensorNetworkGUI.colon_notMem_of_reported h.shows.wellFormed
        (h.shows.reported a ha)
    · exact fun hpre sn hsn v hv => Board.value_of_prefix h.shows.nodup hpre hsn hv
    · intro hs
      obtain ⟨hnil, hnodes⟩ := hnone (by simpa using hs)
      have hall : b.processAll = b := by
        rw [Board.processAll, hnil]
        rfl
      rw [hall]
      exact ⟨rfl, hnodes⟩

theorem Inv.unsettle (h : Inv w b L) : Inv { w with settled := false } b L :=
  ⟨h.shows, h.length_le, h.outlook, h.old, h.noColon, h.worked, fun hs => by cases hs⟩

/-- A new map keeps the invariant. -/
theorem Inv.restart (h : Inv w b L) : Inv { w with
    gui := ⟨w.gui.serialCom, [], [], []⟩, settled := false } b [] where
  shows := ⟨h.shows.data, h.shows.fireData, h.shows.wellFormed, h.shows.reported, h.shows.once,
    h.shows.nodup⟩
  length_le := Nat.zero_le _
  outlook := h.outlook
  old := rfl
  noColon := fun a ha => by cases ha
  worked := fun _ sn _ v hv => by cases hv
  settled := fun hs => by cases hs

/-- In every guarded run the invariant holds. -/
theorem inv_of_reachable (h : watchMachine.ReachableWhen KeepsLine w) : ∃ b L, Inv w b L := by
  refine h.invariant (I := fun w => ∃ b L, Inv w b L) (fun w hw => ⟨_, _, inv_starts hw⟩) ?_
  rintro w e w' ⟨b, L, hinv⟩ hok hstep
  cases e with
  | line a =>
    obtain ⟨b', hb'⟩ := hinv.line hok hstep
    exact ⟨b', L, hb'⟩
  | poll =>
    obtain ⟨g, n, hpoll, b', L', hb'⟩ := hinv.poll
    have hw' : (w.gui.checkNewData.map fun r => { w with gui := r.1, settled := !r.2 }) = some w' :=
      hstep
    rw [hpoll, Option.map_some, Option.some.injEq] at hw'
    exact ⟨b', L', hw' ▸ hb'⟩
  | restart =>
    obtain ⟨g, n, hpoll, b', L', hb'⟩ := hinv.restart.poll
    have hw' : (SensorNetworkGUI.checkNewData ⟨w.gui.serialCom, [], [], []⟩).map
      (fun r => { w with gui := r.1, settled := false }) = some w' := hstep
    rw [hpoll, Option.map_some, Option.some.injEq] at hw'
    exact ⟨b', L', hw' ▸ hb'.unsettle⟩

/-! ### What is shown -/

/-- Once nothing is new, the nodes are what they come to. -/
theorem Inv.nodes_eq_shown (h : Inv w b L) (hs : w.settled = true) : b.nodes = w.shown := by
  obtain ⟨hfires, -⟩ := h.settled hs
  rw [← h.outlook, Board.outlook]
  conv_lhs => rw [← List.map_id b.nodes]
  apply List.map_congr_left
  intro sn hsn
  have hvalue : b.value sn = sn.isOnFire := by
    rw [Board.value]
    cases hlast : Announcement.lastOf sn.rimeID b.fires with
    | none => rfl
    | some v =>
      rw [h.worked (hfires ▸ List.prefix_rfl) sn hsn v (hfires ▸ hlast)]
      rfl
  rw [hvalue]
  rfl

/-- **In a run in which no line is dropped in favour of an older contrary one, no poll throws,
and after a poll without new data the map and the reports show of each node what the last line
about it said**, and of a node without a line what was reported. -/
theorem shows_last (h : watchMachine.ReachableWhen KeepsLine w) :
    w.gui.checkNewData.isSome = true ∧
      (w.settled = true → w.gui.nodeVector = w.shown ∧
        w.gui.serialCom.data.map SensorNode.parseSensorNode = w.shown.map some) := by
  obtain ⟨b, L, hinv⟩ := inv_of_reachable h
  constructor
  · obtain ⟨g, n, hpoll, -⟩ := hinv.poll
    rw [hpoll]
    rfl
  · intro hs
    obtain ⟨-, hnodes⟩ := hinv.settled hs
    have hshown := hinv.nodes_eq_shown hs
    refine ⟨hnodes.trans hshown, ?_⟩
    rw [hinv.shows.data, ← hshown, List.map_map]
    apply List.map_congr_left
    intro sn hsn
    exact SensorNode.parseSensorNode_text (hinv.shows.wellFormed sn hsn)

/-! ### Runs -/

/-- A map that has been told of one node, `1.0`, which does not burn. -/
def oneNode : Watch where
  gui := ⟨⟨["1.0:5.6:0:0".toList], []⟩, [], [], []⟩
  reports := [⟨"1.0".toList, 5, 6, false, false⟩]
  last := fun _ => none
  settled := false

theorem starts_oneNode : oneNode.Starts := by
  refine ⟨?_, rfl, rfl, 0, ?_⟩
  · intro sn hsn
    rw [List.mem_singleton.mp hsn]
    exact ⟨by decide, by decide, by decide, by decide, by decide⟩
  · exact congrArg (fun t => (⟨⟨[t], []⟩, [], [], []⟩ : SensorNetworkGUI)) (by decide)

/-- A fire at the node, and its end. -/
def fireAt : GuiEvent := .line ⟨"1.0".toList, true⟩

/-- The end of the fire. -/
def endAt : GuiEvent := .line ⟨"1.0".toList, false⟩

/-- A fire that ends and breaks out again, with polls between, is shown. -/
theorem shows_last_oneNode : ∃ w, watchMachine.ReachableWhen KeepsLine w ∧ w.settled = true ∧
    w.last "1.0".toList = some true ∧ w.gui.nodeVector = w.shown := by
  have h : ((Machine.run advance [fireAt, .poll, endAt, .poll, .poll, .poll, fireAt, .poll, .poll]
      oneNode).map fun w => decide (w.settled = true ∧ w.last "1.0".toList = some true)) =
      some true := by decide +kernel
  obtain ⟨w, hrun, heq⟩ := Option.map_eq_some_iff.mp h
  obtain ⟨hsettled, hlast⟩ := of_decide_eq_true heq
  have hreach : watchMachine.ReachableWhen KeepsLine w :=
    Machine.ReachableWhen.of_run (b := fun w e => decide (w.KeepsLine e))
      (fun _ _ h => of_decide_eq_true h) (fun _ _ _ h => h) _ (.init starts_oneNode)
      (by decide +kernel) hrun
  exact ⟨w, hreach, hsettled, hlast, ((shows_last hreach).2 hsettled).1⟩

/-- **A fire that breaks out again before the map has been polled is not shown.** -/
theorem shows_dropped : ∃ w, watchMachine.Reachable w ∧ w.settled = true ∧
    w.last "1.0".toList = some true ∧ ∀ sn ∈ w.gui.nodeVector, sn.isOnFire = false := by
  have h : ((Machine.run advance [fireAt, endAt, fireAt, .poll, .poll, .poll] oneNode).map
      fun w => decide (w.settled = true ∧ w.last "1.0".toList = some true ∧
        ∀ sn ∈ w.gui.nodeVector, sn.isOnFire = false)) = some true := by decide +kernel
  obtain ⟨w, hrun, heq⟩ := Option.map_eq_some_iff.mp h
  have hreach : watchMachine.Reachable w :=
    Machine.Reachable.of_run (fun _ _ _ h => h) _ (.init starts_oneNode) hrun
  exact ⟨w, hreach, of_decide_eq_true heq⟩

end Watch

end EmergencyNet
