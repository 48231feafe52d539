import EmergencyNet.Gui.FireEvents
import EmergencyNet.Sensor.Alarms

/-!
# From a fire to the map

The sink prints a line for each alarm and each end of an alarm that reaches it, a thread of
the map's machine reads the lines one by one, and the map polls what has been read.  The lines
are read in the order in which they were printed, however far the reader is behind.

## Main definitions

* `Node.broadcastsPrint` — the line `ec_broadcasts_recv` prints, `Node.announces` — what it
  stands for.
* `Station`, `StationEvent`, `Station.machine` — the network, the lines on their way, and the
  map.
* `Station.Told` — a fire from which the news can have come to the sink.

## Main results

* `Node.readLine_broadcastsPrint` — the line that is read is the one that was meant.
* `Station.Inv.net_step` — an event of the network keeps the invariant.
* `Station.map_of_reachable` — **once all is read and polled, the map shows of each node what was
  last printed of it, and shows no fire that neither was reported nor has been.**
-/

namespace EmergencyNet

open SerialCommunication

/-! ### What the sink prints -/

/-- The line of an announcement as it is printed. -/
def Announcement.printed (a : Announcement) : Text := a.line ++ ['\n']

namespace Node

variable {s : Node} {r : RecvArgs} {a : Announcement}

/-- What `ec_broadcasts_recv` prints: a line for each of the two kinds of emergency packets, at the
sink only. -/
def broadcastsPrint (r : RecvArgs) (s : Node) : Option Text :=
  if s.ignoredInResetMode r then none
  else if s.state.isSinkNode then
    match packetTypeAt r.data with
    | some .emergency => some (emergencyPrefix ++ (r.originator.text ++ ['\n']))
    | some .antiEmergency => some (antiEmergencyPrefix ++ (r.originator.text ++ ['\n']))
    | _ => none
  else none

/-- What the line that is printed says. -/
def announces (r : RecvArgs) (s : Node) : Option Announcement :=
  if s.ignoredInResetMode r = false ∧ s.state.isSinkNode = true then
    match packetTypeAt r.data with
    | some .emergency => some ⟨r.originator.text, true⟩
    | some .antiEmergency => some ⟨r.originator.text, false⟩
    | _ => none
  else none

theorem broadcastsPrint_eq (r : RecvArgs) (s : Node) :
    s.broadcastsPrint r = (s.announces r).map Announcement.printed := by
  unfold broadcastsPrint announces
  cases s.ignoredInResetMode r with
  | true => rfl
  | false =>
    cases s.state.isSinkNode with
    | false => rfl
    | true =>
      simp only [Bool.false_eq_true, ↓reduceIte, and_self]
      split
      · exact congrArg some (List.append_assoc emergencyPrefix r.originator.text ['\n']).symm
      · exact congrArg some (List.append_assoc antiEmergencyPrefix r.originator.text ['\n']).symm
      · rfl

/-- What is announced is about the node the packet comes from, and a fire is announced for an
alarm only. -/
theorem announces_spec (h : s.announces r = some a) : a.rimeID = r.originator.text ∧
    (a.fire = true → packetTypeAt r.data = some .emergency) := by
  unfold announces at h
  split at h
  · split at h
    · next htype =>
      cases h
      exact ⟨rfl, fun _ => htype⟩
    · cases h
      exact ⟨rfl, fun hfire => Bool.noConfusion hfire⟩
    · cases h
  · cases h

end Node

/-- The text of an address is on one line. -/
theorem Rimeaddr.newline_notMem_text (a : Rimeaddr) : '\n' ∉ a.text := by
  intro hmem
  rcases List.mem_append.mp hmem with hmem | hmem
  · exact Text.not_mem_ofNat (by decide) hmem
  · rcases List.mem_cons.mp hmem with hdot | hmem
    · exact absurd hdot (by decide)
    · exact Text.not_mem_ofNat (by decide) hmem

/-- A printed line is read up to its end. -/
theorem Announcement.readLine_printed {a : Announcement} (h : '\n' ∉ a.rimeID) :
    readLine a.printed = a.line := by
  have hkind : '\n' ∉ (if a.fire then emergencyPrefix else antiEmergencyPrefix) := by
    split <;> decide
  have hall : ∀ c ∈ a.line, decide (c ≠ '\n') = true := by
    intro c hc
    rw [decide_eq_true_eq]
    rintro rfl
    rcases List.mem_append.mp hc with hc | hc
    · exact hkind hc
    · exact h hc
  change (a.line ++ ['\n']).takeWhile (· ≠ '\n') = a.line
  rw [List.takeWhile_append_of_pos hall]
  exact List.append_nil _

/-- **The line that is read is the one that was meant.** -/
theorem Node.readLine_broadcastsPrint (r : RecvArgs) (s : Node) :
    (s.broadcastsPrint r).map readLine = (s.announces r).map Announcement.line := by
  rw [Node.broadcastsPrint_eq, Option.map_map]
  cases h : s.announces r with
  | none => rfl
  | some a =>
    have hline : '\n' ∉ a.rimeID :=
      (Node.announces_spec h).1 ▸ Rimeaddr.newline_notMem_text r.originator
    exact congrArg some (Announcement.readLine_printed hline)

/-- What is said last of a node has been said. -/
theorem Announcement.exists_of_lastOf {r : Text} {l : List Announcement} {v : Bool}
    (h : Announcement.lastOf r l = some v) : ∃ a ∈ l, a.rimeID = r ∧ a.fire = v := by
  obtain ⟨a, ha, hfire⟩ := Option.map_eq_some_iff.mp h
  obtain ⟨hmem, hr⟩ := Announcement.mem_about.mp (List.mem_of_getLast? ha)
  exact ⟨a, hmem, hr, hfire⟩

/-- The lines of two announcements differ. -/
theorem Announcement.line_injective {a b : Announcement} (h : a.line = b.line) : a = b := by
  obtain ⟨ar, av⟩ := a
  obtain ⟨br, bv⟩ := b
  have hkind : ∀ x y : Text, emergencyPrefix ++ x ≠ antiEmergencyPrefix ++ y := fun x y heq => by
    -- they differ in the second character
    have hsecond := congrArg (fun t : Text => t[1]?) heq
    rw [List.getElem?_append_left (by decide), List.getElem?_append_left (by decide)] at hsecond
    exact absurd hsecond (by decide)
  cases av <;> cases bv
  · exact congrArg (Announcement.mk · false) (List.append_cancel_left h)
  · exact absurd h.symm (hkind br ar)
  · exact absurd h (hkind ar br)
  · exact congrArg (Announcement.mk · true) (List.append_cancel_left h)

/-! ### The station -/

variable {ι : Type*}

/-- The network, the lines the sink has printed and those of them that have not been read, oldest
first, and the map. -/
structure Station (ι : Type*) where
  net : SensorNet ι
  announced : List Announcement
  unread : List Text
  watch : Watch

/-- What happens. -/
inductive StationEvent (ι : Type*)
  /-- An event of the network. -/
  | net (e : EcNetEvent ι ProcessEvent)
  /-- The thread that listens to the sink reads the line of an announcement. -/
  | read (a : Announcement)
  /-- The map polls. -/
  | poll
  /-- The map is replaced by a new one. -/
  | restart

namespace Station

/-- The broadcast that is handed to the application of the sink in an event. -/
def sinkHears [DecidableEq ι] (sink : ι) (S : SensorNet ι) (e : EcNetEvent ι ProcessEvent) :
    Option RecvArgs :=
  if e.node = sink then
    match e.event with
    | .receive ch pb =>
      match (S.nodes sink).delivery mainRegSensor.toEcCallbacks ch pb with
      | some (.broadcastRecv, r) => some r
      | _ => none
    | _ => none
  else none

/-- What is printed in an event of the network. -/
def prints [DecidableEq ι] (sink : ι) (S : SensorNet ι) (e : EcNetEvent ι ProcessEvent) :
    Option Text :=
  (sinkHears sink S e).bind fun r => (S.nodes sink).app.broadcastsPrint r

/-- What it says. -/
def tells [DecidableEq ι] (sink : ι) (S : SensorNet ι) (e : EcNetEvent ι ProcessEvent) :
    Option Announcement :=
  (sinkHears sink S e).bind fun r => (S.nodes sink).app.announces r

/-- The station after the network has gone on to `net`. -/
def goOn [DecidableEq ι] (sink : ι) (e : EcNetEvent ι ProcessEvent) (net : SensorNet ι)
    (S : Station ι) : Station ι where
  net := net
  announced := S.announced ++ (tells sink S.net e).toList
  unread := S.unread ++ (prints sink S.net e).toList
  watch := S.watch

/-- The station after the oldest line, that of `a`, has been read; `none` if it is not. -/
def readOldest (a : Announcement) (S : Station ι) : Option (Station ι) :=
  match S.unread with
  | [] => none
  | line :: rest =>
    if readLine line = a.line then
      (S.watch.advance (.line a)).map fun w => { S with unread := rest, watch := w }
    else none

/-- The station as a transition system: at the start nothing has been printed. -/
def machine [DecidableEq ι] (radio : ι → ι → Prop) (sink : ι) :
    Machine (Station ι) (StationEvent ι) where
  init S := (SensorNet.machine radio).init S.net ∧ S.announced = [] ∧ S.unread = [] ∧
    S.watch.Starts
  step e S S' := match e with
    | .net e => ∃ net, (SensorNet.machine radio).step e S.net net ∧ S' = S.goOn sink e net
    | .read a => S.readOldest a = some S'
    | .poll => (S.watch.advance .poll).map (fun w => { S with watch := w }) = some S'
    | .restart => (S.watch.advance .restart).map (fun w => { S with watch := w }) = some S'

/-- A line that is read is not dropped in favour of an older contrary one, and the node of a fire
that has ended has been reported once. -/
def KeepsLine (S : Station ι) : StationEvent ι → Prop
  | .read a => S.watch.KeepsLine (.line a)
  | .net _ | .poll | .restart => True

instance (S : Station ι) (e : StationEvent ι) : Decidable (S.KeepsLine e) := by
  rcases e <;> unfold KeepsLine <;> infer_instance

/-- There has been a fire at a node with address `r` from which news can have come to `sink`. -/
def Told (radio : ι → ι → Prop) (F : List (Fire ι)) (sink : ι) (r : Text) : Prop :=
  ∃ fire ∈ F, fire.originator.text = r ∧ Relation.ReflTransGen radio fire.node sink

/-- The network and the map have run, the lines read and unread are those printed, what was read
is what the map was last told, and no fire is announced that has not been. -/
structure Inv [DecidableEq ι] (radio : ι → ι → Prop) (sink : ι) (S : Station ι) : Prop where
  net : (SensorNet.machine radio).Reachable S.net
  watch : watchMachine.ReachableWhen Watch.KeepsLine S.watch
  lines : ∃ heard rest, S.announced = heard ++ rest ∧ S.unread = rest.map Announcement.printed ∧
    ∀ r, S.watch.last r = Announcement.lastOf r heard
  oneLine : ∀ a ∈ S.announced, '\n' ∉ a.rimeID
  told : ∀ a ∈ S.announced, a.fire = true → Told radio S.net.fires sink a.rimeID

section Steps

variable [DecidableEq ι] {radio : ι → ι → Prop} {sink : ι} {S S' : Station ι}

/-- What is printed is the line of what it says. -/
theorem prints_eq (sink : ι) (S : SensorNet ι) (e : EcNetEvent ι ProcessEvent) :
    prints sink S e = (tells sink S e).map Announcement.printed := by
  unfold prints tells
  cases sinkHears sink S e with
  | none => rfl
  | some r => exact Node.broadcastsPrint_eq r _

/-- What is announced is what the sink heard of a node, in whose frame it came. -/
theorem tells_spec {S : SensorNet ι} {e : EcNetEvent ι ProcessEvent} {a : Announcement}
    (hpossible : EcNet.Possible S.nodes e) (h : tells sink S e = some a) :
    ∃ u ch f stale r, e = .hears u sink ch f stale ∧ f ∈ framesOn ch (S.nodes u).conn.trace ∧
      (S.nodes sink).delivery mainRegSensor.toEcCallbacks ch (f.received stale) =
        some (.broadcastRecv, r) ∧ (S.nodes sink).app.announces r = some a := by
  obtain ⟨r, hr, ha⟩ := Option.bind_eq_some_iff.mp h
  unfold sinkHears at hr
  split at hr
  · next hnode =>
    cases e with
    | own v ev =>
      cases ev with
      | receive ch pb => cases hpossible
      | _ => cases hr
    | hears u v ch f stale =>
      cases hnode
      change (match (S.nodes v).delivery mainRegSensor.toEcCallbacks ch (f.received stale) with
        | some (.broadcastRecv, r) => some r
        | _ => none) = some r at hr
      split at hr
      · next hd =>
        cases hr
        exact ⟨u, ch, f, stale, _, rfl, hpossible, hd, ha⟩
      · cases hr
  · cases hr

omit [DecidableEq ι] in
theorem Told.mono {F F' : List (Fire ι)} {r : Text} (h : Told radio F sink r) (hF : F ⊆ F') :
    Told radio F' sink r := by
  obtain ⟨fire, hfire, h⟩ := h
  exact ⟨fire, hF hfire, h⟩

/-- A fire is announced when one has been. -/
theorem told_of_tells {S S' : SensorNet ι} {e : EcNetEvent ι ProcessEvent} {a : Announcement}
    (hS : (SensorNet.machine radio).Reachable S) (hstep : (SensorNet.machine radio).step e S S')
    (h : tells sink S e = some a) :
    '\n' ∉ a.rimeID ∧ (a.fire = true → Told radio S.fires sink a.rimeID) := by
  obtain ⟨hpossible, hrange, -⟩ := hstep
  obtain ⟨u, ch, f, stale, r, rfl, hf, hd, ha⟩ := tells_spec hpossible h
  obtain ⟨hid, htype⟩ := Node.announces_spec ha
  rw [hid]
  refine ⟨Rimeaddr.newline_notMem_text _, fun hfire => ?_⟩
  have hread : FloodPacket.read r.data = some (.emergency (coordinateAt r.data 1)) := by
    rw [FloodPacket.read, htype hfire]
  obtain ⟨-, -, halarm⟩ := SensorNet.alarms_of_reachable hS sink
  obtain ⟨fire, hmem, horiginator, -, n, hroute, -⟩ := halarm u ch f stale _ r _ hrange hf hd hread
  exact ⟨fire, hmem, congrArg Rimeaddr.text horiginator, hroute.reflTransGen⟩

/-- **An event of the network keeps the invariant.** -/
theorem Inv.net_step (h : Inv radio sink S) {e : EcNetEvent ι ProcessEvent} {net : SensorNet ι}
    (hstep : (SensorNet.machine radio).step e S.net net) : Inv radio sink (S.goOn sink e net) := by
  obtain ⟨heard, rest, hannounced, hunread, hlast⟩ := h.lines
  have hfires : S.net.fires ⊆ net.fires := by
    obtain ⟨-, -, s', -, rfl⟩ := hstep
    exact List.subset_append_right _ _
  have hnew : ∀ a ∈ S.announced ++ (tells sink S.net e).toList,
      a ∈ S.announced ∨ tells sink S.net e = some a := fun a ha =>
    (List.mem_append.mp ha).imp_right Option.mem_toList.mp
  refine { net := h.net.next trivial hstep, watch := h.watch, lines := ?_, oneLine := ?_, told := ?_ }
  · refine ⟨heard, rest ++ (tells sink S.net e).toList, ?_, ?_, hlast⟩
    · change S.announced ++ _ = _
      rw [hannounced, List.append_assoc]
    · change S.unread ++ (prints sink S.net e).toList = _
      rw [hunread, prints_eq, List.map_append]
      cases tells sink S.net e <;> rfl
  · intro a ha
    rcases hnew a ha with ha | ha
    · exact h.oneLine a ha
    · exact (told_of_tells h.net hstep ha).1
  · intro a ha hfire
    rcases hnew a ha with ha | ha
    · exact (h.told a ha hfire).mono hfires
    · exact ((told_of_tells h.net hstep ha).2 hfire).mono hfires

/-- What the map is told last, after a line. -/
theorem last_of_line {w w' : Watch} {a : Announcement} (h : w.advance (.line a) = some w') (r : Text) :
    w'.last r = if r = a.rimeID then some a.fire else w.last r := by
  change (if a.rimeID ∈ w.reports.map (·.rimeID) then _ else none) = some w' at h
  split at h
  · obtain ⟨c, -, rfl⟩ := Option.map_eq_some_iff.mp h
    exact Function.update_apply ..
  · cases h

/-- Reading a line keeps the invariant. -/
theorem Inv.read_step (h : Inv radio sink S) {a : Announcement} (hok : S.watch.KeepsLine (.line a))
    (hstep : S.readOldest a = some S') : Inv radio sink S' := by
  obtain ⟨heard, rest, hannounced, hunread, hlast⟩ := h.lines
  unfold readOldest at hstep
  cases rest with
  | nil =>
    rw [hunread] at hstep
    cases hstep
  | cons b rest =>
    rw [hunread] at hstep
    change (if readLine b.printed = a.line then _ else none) = _ at hstep
    split at hstep
    · next hline =>
      have hb : '\n' ∉ b.rimeID := h.oneLine b (by rw [hannounced]; simp)
      rw [Announcement.readLine_printed hb] at hline
      -- the line is that of the oldest announcement that has not been read
      cases Announcement.line_injective hline
      obtain ⟨w, hw, rfl⟩ := Option.map_eq_some_iff.mp hstep
      refine ⟨h.net, h.watch.next hok hw, ?_, h.oneLine, h.told⟩
      refine ⟨heard ++ [a], rest, by rw [hannounced, List.append_cons], rfl, fun r => ?_⟩
      rw [last_of_line hw]
      split
      · next hr => rw [hr, Announcement.lastOf_concat_self]
      · next hr => rw [Announcement.lastOf_concat_of_ne (Ne.symm hr), hlast]
    · cases hstep

/-- So does a step of the map that tells it nothing. -/
theorem Inv.watch_step (h : Inv radio sink S) {e : GuiEvent} {w : Watch} (hok : S.watch.KeepsLine e)
    (hstep : S.watch.advance e = some w) (hlast : w.last = S.watch.last) :
    Inv radio sink { S with watch := w } where
  net := h.net
  watch := h.watch.next hok hstep
  lines := by
    obtain ⟨heard, rest, hannounced, hunread, hl⟩ := h.lines
    exact ⟨heard, rest, hannounced, hunread, fun r => hlast ▸ hl r⟩
  oneLine := h.oneLine
  told := h.told

/-- The invariant holds in every run whose lines are kept. -/
theorem inv_of_reachable (h : (machine radio sink).ReachableWhen KeepsLine S) : Inv radio sink S := by
  refine h.invariant (I := fun S => Inv radio sink S) ?_ ?_
  · rintro S ⟨hnet, hannounced, hunread, hwatch⟩
    refine ⟨.init hnet, .init hwatch, ⟨[], [], hannounced, hunread, ?_⟩, ?_, ?_⟩
    · intro r
      rw [hwatch.2.1]
      rfl
    · intro a ha
      rw [hannounced] at ha
      cases ha
    · intro a ha
      rw [hannounced] at ha
      cases ha
  · intro S e S' hinv hok hstep
    cases e with
    | net e =>
      obtain ⟨net, hnet, rfl⟩ := hstep
      exact hinv.net_step hnet
    | read a => exact hinv.read_step hok hstep
    | poll =>
      obtain ⟨w, hw, rfl⟩ := Option.map_eq_some_iff.mp hstep
      obtain ⟨r, -, rfl⟩ := Option.map_eq_some_iff.mp hw
      exact hinv.watch_step (e := .poll) trivial hw rfl
    | restart =>
      obtain ⟨w, hw, rfl⟩ := Option.map_eq_some_iff.mp hstep
      obtain ⟨r, -, rfl⟩ := Option.map_eq_some_iff.mp hw
      exact hinv.watch_step (e := .restart) trivial hw rfl

/-- The nodes that were reported, each with what was announced of it last. -/
def toldOf (S : Station ι) : List SensorNode :=
  S.watch.reports.map fun sn =>
    sn.setOnFire ((Announcement.lastOf sn.rimeID S.announced).getD sn.isOnFire)

/-- **From a fire to the map**: in a run in which no line is dropped, and fires end only of nodes
that were reported once, once all lines have been read and a poll brought nothing new, the map shows
of each node what was last printed of it; and a node it shows on fire was reported so, or there has
been a fire at a node with its address, and the news can have come from there to the sink. -/
theorem map_of_reachable (h : (machine radio sink).ReachableWhen KeepsLine S)
    (hread : S.unread = []) (hsettled : S.watch.settled = true) :
    S.watch.gui.nodeVector = S.toldOf ∧
      ∀ sn ∈ S.watch.gui.nodeVector, sn.isOnFire = true →
        (∃ sn' ∈ S.watch.reports, sn'.rimeID = sn.rimeID ∧ sn'.isOnFire = true) ∨
          Told radio S.net.fires sink sn.rimeID := by
  have hinv := inv_of_reachable h
  obtain ⟨heard, rest, hannounced, hunread, hlast⟩ := hinv.lines
  rw [hread] at hunread
  rw [List.map_eq_nil_iff.mp hunread.symm, List.append_nil] at hannounced
  have hshown : S.watch.shown = S.toldOf := by
    unfold Watch.shown toldOf
    apply List.map_congr_left
    intro sn _
    rw [hlast, hannounced]
  have hmap : S.watch.gui.nodeVector = S.toldOf := by
    obtain ⟨b, L, hw⟩ := Watch.inv_of_reachable hinv.watch
    rw [(hw.settled hsettled).2, hw.nodes_eq_shown hsettled, hshown]
  refine ⟨hmap, fun sn hsn hfire => ?_⟩
  rw [hmap] at hsn
  obtain ⟨sn', hsn', rfl⟩ := List.mem_map.mp hsn
  change (Announcement.lastOf sn'.rimeID S.announced).getD sn'.isOnFire = true at hfire
  cases hlast' : Announcement.lastOf sn'.rimeID S.announced with
  | none =>
    rw [hlast', Option.getD_none] at hfire
    exact .inl ⟨sn', hsn', rfl, hfire⟩
  | some v =>
    rw [hlast', Option.getD_some] at hfire
    subst hfire
    obtain ⟨a, ha, hrime, hafire⟩ := Announcement.exists_of_lastOf hlast'
    exact .inr (hrime ▸ hinv.told a ha hafire)

end Steps

/-! ### A fire that is seen on the map -/

/-- One event, `none` when it cannot occur or the code that handles it goes wrong. -/
def advance [DecidableEq ι] (radio : ι → ι → Prop) [DecidableRel radio] (sink : ι) :
    StationEvent ι → Station ι → Option (Station ι)
  | .net e, S => (S.net.advance radio e).map fun net => S.goOn sink e net
  | .read a, S => S.readOldest a
  | .poll, S => (S.watch.advance .poll).map fun w => { S with watch := w }
  | .restart, S => (S.watch.advance .restart).map fun w => { S with watch := w }

theorem step_of_advance [DecidableEq ι] {radio : ι → ι → Prop} [DecidableRel radio] {sink : ι}
    {e : StationEvent ι} {S S' : Station ι} (h : S.advance radio sink e = some S') :
    (machine radio sink).step e S S' := by
  cases e with
  | net e =>
    obtain ⟨net, hnet, rfl⟩ := Option.map_eq_some_iff.mp h
    exact ⟨net, SensorNet.step_of_advance hnet, rfl⟩
  | read a => exact h
  | poll => exact h
  | restart => exact h

/-- Node `2.0` is the sink, and the map knows of node `1.0`. -/
def pairStation : Station Bool := ⟨SensorNet.pairPowered, [], [], .oneNode⟩

/-- Node `1.0` is set up, reads a fire and sends the alarm, which the sink hears. -/
def pairNews : List (StationEvent Bool) :=
  ([SensorNet.does false (.serial (.simulationSetup ⟨⟨1, 0⟩, ⟨⟨0, 3⟩, ⟨0, 0⟩⟩, 1, [⟨2, 0⟩]⟩)),
    SensorNet.does true (.serial .sink), SensorNet.does false (.serial .init)] ++
    SensorNet.pairAlarm ++ [EcNetEvent.hears false true .broadcast SensorNet.pairAlarmFrame []]).map .net

/-- The line is read, and the map polls twice. -/
def pairPolls : List (StationEvent Bool) := [.read ⟨"1.0".toList, true⟩, .poll, .poll]

/-- The map shows the fire. -/
theorem map_pair : ∃ S, (machine SensorNet.pairRadio true).ReachableWhen KeepsLine S ∧
    S.watch.gui.nodeVector = S.toldOf ∧ S.toldOf.map (·.isOnFire) = [true] := by
  have h : ((Machine.run (advance SensorNet.pairRadio true) (pairNews ++ pairPolls)
      pairStation).map fun S => (decide (S.unread = []), S.watch.settled,
        S.toldOf.map (·.isOnFire))) = some (true, true, [true]) := by decide +kernel
  obtain ⟨S, hrun, hS⟩ := Option.map_eq_some_iff.mp h
  obtain ⟨hread, hS⟩ := Prod.mk.inj hS
  obtain ⟨hsettled, hfire⟩ := Prod.mk.inj hS
  have hinit : (machine SensorNet.pairRadio true).init pairStation :=
    ⟨SensorNet.init_pairPowered, rfl, rfl, Watch.starts_oneNode⟩
  have hreach : (machine SensorNet.pairRadio true).ReachableWhen KeepsLine S :=
    Machine.ReachableWhen.of_run (b := fun S e => decide (S.KeepsLine e))
      (fun _ _ h => of_decide_eq_true h) (fun _ _ _ => step_of_advance) _ (.init hinit)
      (by decide +kernel) hrun
  exact ⟨S, hreach, (map_of_reachable hreach (of_decide_eq_true hread) hsettled).1, hfire⟩

end Station

end EmergencyNet
