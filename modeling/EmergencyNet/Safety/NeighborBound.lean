import EmergencyNet.App.Setup
import EmergencyNet.Routing.KeepAlive

/-!
# The neighbour table as a set

Neighbours come from set-up packets, which the node hears, is given over the serial port or
finds in its flash, and one at a time from nodes that introduce themselves.  Nobody counts them,
nobody looks for the address in the table, and the number of neighbours a packet claims to have
is not compared with its length.  What a node stores in its flash it has taken over before, so
as long as the outside keeps to the limits a reset and a restart do so too.

## Main definitions

* `SetupPacket.Proper` — at most `MAX_NEIGHBORS` neighbours, no two the same.
* `NeighborAccess`, `Node.access` — the calls of `neighbors_add` an event makes, and the memory
  that holds the neighbour list it reads or writes.
* `LifeEvent`, `lifeMachine` — a node that is switched on again and again.
* `Node.NeighborGuard` — the limits.

## Main results

* `Node.calls_addNeighbors` — how often `neighbors_add` asserts.
* `Node.Tabled.step`, `Node.Tabled.powerUp` — an event within the limits keeps the table a set.
* `Node.neighborsSafe_of_reachable` — **in a guarded run the table is a bounded set**, and the
  limits are exactly what it takes.
* `Node.not_neighborsSafe` — what goes wrong beyond them.
-/

namespace EmergencyNet

/-- The neighbours fit into the table, and no two are the same. -/
structure SetupPacket.Proper (sp : SetupPacket) : Prop where
  le : sp.neighbors.length ≤ maxNeighbors
  nodup : sp.neighbors.Nodup

instance (sp : SetupPacket) : Decidable sp.Proper :=
  decidable_of_iff (sp.neighbors.length ≤ maxNeighbors ∧ sp.neighbors.Nodup)
    ⟨fun h => ⟨h.1, h.2⟩, fun h => ⟨h.le, h.nodup⟩⟩

/-- What the code for an event does with a list of neighbours. -/
structure NeighborAccess where
  /-- The node when the first neighbour is added. -/
  node : Node
  /-- The addresses `neighbors_add` is called with. -/
  adds : List Rimeaddr
  /-- The size of the memory that holds the list. -/
  size : ℕ
  /-- The number of bytes of it, from the first one on, that are read or written. -/
  touched : ℕ

namespace NeighborAccess

/-- No assertion of `neighbors_add` fails. -/
def Fits (a : NeighborAccess) : Prop := (Node.addNeighbors a.adds a.node).calls = a.node.calls

/-- Nothing outside the memory of the list is read or written. -/
def Inside (a : NeighborAccess) : Prop := a.touched ≤ a.size

instance (a : NeighborAccess) : Decidable a.Inside := by unfold Inside; infer_instance

end NeighborAccess

/-- What happens in the life of a node. -/
inductive LifeEvent
  /-- The node is switched on, with the given flash contents. -/
  | powerUp (addr : Rimeaddr) (flash : Option (List UInt8))
  | app (e : AppEvent × ClockReading)

namespace Node

variable {s s' t : Node} {sp : SetupPacket}

/-! ### Lists of neighbours -/

/-- `setup_parse` of the packet in memory `m` of `size` bytes. -/
def setupAccess (m : List UInt8) (size : ℕ) (s : Node) : NeighborAccess where
  node := setupCleared (SetupPacket.read m) s
  adds := (SetupPacket.read m).neighbors
  size := size
  touched := setupPacketSize + 2 * (SetupPacket.read m).neighbors.length

/-- `reset_system_packet_handler`. -/
def flashAccess (s : Node) : Option NeighborAccess :=
  s.flash.map fun f => s.setupAccess (memRead f setupBufferSize) setupBufferSize

/-- The node takes the setup packet over. -/
def TakesSetup (r : RecvArgs) (s : Node) : Prop :=
  s.Listens ∧ packetTypeAt r.data = some .setup ∧ s.state.isAwaitingSetupPacket = true

instance (r : RecvArgs) (s : Node) : Decidable (s.TakesSetup r) := by
  unfold TakesSetup; infer_instance

/-- The node resets itself. -/
def TakesReset (r : RecvArgs) (s : Node) : Prop :=
  s.Listens ∧ packetTypeAt r.data = some .resetSystem

instance (r : RecvArgs) (s : Node) : Decidable (s.TakesReset r) := by
  unfold TakesReset; infer_instance

/-- What an event does with a list of neighbours, if it does anything with one. -/
def access (s : Node) : LifeEvent → Option NeighborAccess
  | .powerUp addr flash =>
    flash.map fun f => (zero addr flash).setupAccess (memRead f setupBufferSize) setupBufferSize
  | .app (.broadcastRecv r, _) =>
    if s.TakesSetup r then some (s.setupAccess r.data r.dataLen.toNat)
    else if s.TakesReset r then s.flashAccess
    else none
  | .app (.neighborRecv r, _) => if s.TakesReset r then s.flashAccess else none
  | .app (.mcUcRecv r, _) =>
    if packetTypeAt r.data = some .imYourNewNeighbor then some ⟨s, [r.originator], 0, 0⟩ else none
  | .app (.serial (.simulationSetup sp), _) => some (s.setupAccess sp.bytes sp.bytes.length)
  | .app (.serial .sink, _) =>
    some (s.setupAccess (PacketType.setup.toByte :: List.replicate 10 0) 11)
  -- the list is written to the buffer `tmp`, and nothing is added
  | .app (.serial (.sendSetupPacket sp), _) =>
    some ⟨s, [], setupBufferSize, setupPacketSize + 2 * sp.neighbors.length⟩
  | _ => none

/-- No assertion of `neighbors_add` fails in the code for the event, and it does not leave a
list of neighbours. -/
def AccessSafe (s : Node) (e : LifeEvent) : Prop := ∀ a ∈ s.access e, a.Fits ∧ a.Inside

/-! ### Adding neighbours -/

/-- **`neighbors_add` asserts once for each neighbour that finds no room.** -/
theorem calls_addNeighbors : ∀ (l : List Rimeaddr) (s : Node), (addNeighbors l s).calls =
    s.calls ++ List.replicate (l.length - s.ns.unused.length) (.assert false) := by
  intro l
  induction l with
  | nil => intro s; simp [addNeighbors]
  | cons a rest ih =>
    intro s
    cases hadd : neighborsAdd s.ns a with
    | none =>
      have hnil : s.ns.unused = [] := by
        by_contra hne
        obtain ⟨q, hq⟩ := QueueBuffer.exists_pushFront hne (NeighborNode.fresh a)
        rw [neighborsAdd, hq] at hadd
        cases hadd
      have hstep : addNeighbors (a :: rest) s = addNeighbors rest (s.assert false) := by
        simp only [addNeighbors, hadd]
      rw [hstep, ih, hnil]
      change (s.calls ++ [.assert false]) ++ List.replicate (rest.length - s.ns.unused.length) _ = _
      rw [hnil, List.length_nil, Nat.sub_zero, Nat.sub_zero, List.length_cons, List.append_assoc,
        List.replicate_succ]
      rfl
    | some ns =>
      obtain ⟨b, hused, hunused⟩ := QueueBuffer.pushFront_unused hadd
      have hstep : addNeighbors (a :: rest) s = addNeighbors rest (withTable ns s) := by
        simp only [addNeighbors, hadd]
        rfl
      rw [hstep, ih, hunused, List.length_cons, List.length_cons, Nat.add_sub_add_right]
      rfl

theorem fits_iff {a : NeighborAccess} : a.Fits ↔ a.adds.length ≤ a.node.ns.unused.length := by
  rw [NeighborAccess.Fits, calls_addNeighbors, List.append_right_eq_self, List.replicate_eq_nil_iff,
    Nat.sub_eq_zero_iff_le]

/-- A table that has been cleared has room for `MAX_NEIGHBORS` neighbours. -/
theorem fits_setupAccess {m : List UInt8} {size : ℕ} : (s.setupAccess m size).Fits ↔
    (SetupPacket.read m).neighbors.length ≤ maxNeighbors := by
  have hroom : (setupCleared (SetupPacket.read m) s).ns.unused.length = maxNeighbors := by
    have hlen := (setupCleared (SetupPacket.read m) s).ns.length_used_add_length_unused
    have hnil : (setupCleared (SetupPacket.read m) s).ns.used.length = 0 := rfl
    rwa [hnil, Nat.zero_add] at hlen
  rw [fits_iff]
  change _ ≤ (setupCleared (SetupPacket.read m) s).ns.unused.length ↔ _
  rw [hroom]
  rfl

/-- There is room for one more neighbour as long as there are fewer than `MAX_NEIGHBORS`. -/
theorem fits_single {a : Rimeaddr} {n k : ℕ} :
    (NeighborAccess.mk s [a] n k).Fits ↔ s.ns.size < maxNeighbors := by
  have hlen := s.ns.length_used_add_length_unused
  rw [fits_iff]
  change 1 ≤ s.ns.unused.length ↔ s.ns.used.length < maxNeighbors
  omega

/-! ### What `setup_parse` leaves -/

theorem addrs_of_ns (h : t.ns = s.ns) : t.addrs = s.addrs := by rw [addrs, addrs, h]

/-- The flash after `setup_parse`. -/
theorem flash_setupParse (m : List UInt8) (b : Bool) (s : Node) : (setupParse m b s).flash =
    if b then s.flash
    else some (memRead m (setupPacketSize + 2 * (SetupPacket.read m).neighbors.length)) := by
  unfold setupParse setupFinished
  rfl

theorem length_neighbors_read (m : List UInt8) :
    (SetupPacket.read m).neighbors.length = (byteAt m 8).toNat := by
  rw [SetupPacket.read, List.length_map, List.length_range]

/-- A packet that has been stored is the one that was taken over. -/
theorem read_stored {m : List UInt8} (h : (SetupPacket.read m).neighbors.length ≤ maxNeighbors) :
    SetupPacket.read (memRead (memRead m
      (setupPacketSize + 2 * (SetupPacket.read m).neighbors.length)) setupBufferSize) =
        SetupPacket.read m := by
  rw [length_neighbors_read] at h ⊢
  have hbyte : byteAt (memRead m (setupPacketSize + 2 * (byteAt m 8).toNat)) 8 = byteAt m 8 :=
    byteAt_memRead (by unfold setupPacketSize; omega)
  rw [SetupPacket.read_memRead (by rw [hbyte, setupBufferSize]; omega),
    SetupPacket.read_memRead (Nat.le_refl _)]

/-- A node whose table is a set and whose flash holds a packet within the limits, if any. -/
structure Tabled (s : Node) : Prop where
  nodup : s.addrs.Nodup
  stored : ∀ sp ∈ s.stored, sp.Proper

/-- A set-up within the limits leaves a table that is a set. -/
theorem tabled_setupParse {m : List UInt8} {b : Bool} (hsp : (SetupPacket.read m).Proper)
    (hflash : b = true → ∀ sp ∈ s.stored, sp.Proper) : Tabled (setupParse m b s) := by
  have hset := setUp_setupParse (m := m) rfl hsp.le b s
  refine ⟨?_, fun sp hmem => ?_⟩
  · rw [hset.addrs, List.nodup_reverse]
    exact hsp.nodup
  · rw [stored, flash_setupParse] at hmem
    cases b with
    | true => exact hflash rfl sp hmem
    | false =>
      cases hmem
      change (SetupPacket.read (memRead (memRead m
        (setupPacketSize + 2 * (SetupPacket.read m).neighbors.length)) setupBufferSize)).Proper
      rw [read_stored hsp.le]
      exact hsp

/-- And only such a set-up does. -/
theorem proper_of_nodup {m : List UInt8} {b : Bool}
    (hle : (SetupPacket.read m).neighbors.length ≤ maxNeighbors)
    (h : (setupParse m b s).addrs.Nodup) : (SetupPacket.read m).Proper := by
  rw [(setUp_setupParse (m := m) rfl hle b s).addrs, List.nodup_reverse] at h
  exact ⟨hle, h⟩

theorem Tabled.of_same (h : Tabled s) (haddrs : t.addrs.Sublist s.addrs)
    (hflash : t.flash = s.flash) : Tabled t :=
  ⟨haddrs.nodup h.nodup, by rw [Node.stored, hflash]; exact h.stored⟩

/-! ### Events that add no neighbours -/

theorem addrs_withEntry {i : ℕ} {nn : NeighborNode} (h : nn.addr = (s.ns.item i).addr) :
    (s.withEntry i nn).addrs = s.addrs := by
  unfold addrs
  apply List.map_congr_left
  intro j _
  by_cases hj : j = i
  · rw [hj, withEntry, withTable, QueueBuffer.set_item_self, h]
  · rw [withEntry, withTable, QueueBuffer.set_item_of_ne _ _ hj]

/-- The keep-alive check removes entries and touches no address. -/
theorem addrs_dropSilent : s.dropSilent.addrs.Sublist s.addrs := by
  have hsame : s.dropSilent.addrs = s.dropSilent.ns.used.map fun i => (s.ns.item i).addr := by
    apply List.map_congr_left
    intro i _
    obtain ⟨b, hb⟩ := s.dropSilent_item i
    rw [hb]
    rfl
  rw [hsame]
  exact s.dropSilent_used_sublist.map _

/-- An event that neither sets the node up nor adds a neighbour at most removes some. -/
theorem sublist_outcome {ev : AppEvent} {ads : List PathPacket} (hre : ¬ ev.Reconfigures)
    (hadd : ∀ r, ev ≠ .mcUcRecv r) (ho : Outcome s ev s' ads) :
    s'.addrs.Sublist s.addrs ∧ s'.flash = s.flash := by
  have hroute : ∀ {u : Node}, SameRouting u s' → u.addrs.Sublist s.addrs → u.flash = s.flash →
      s'.addrs.Sublist s.addrs ∧ s'.flash = s.flash := by
    intro u hr haddrs hflash
    have hns : s'.ns = u.ns := congrArg Routing.ns hr.routing
    rw [addrs_of_ns hns]
    exact ⟨haddrs, (congrArg Routing.flash hr.routing).trans hflash⟩
  cases ho with
  | quiet hr => exact hroute hr.toSameRouting (List.Sublist.refl _) rfl
  | configured hev _ => exact absurd hev hre
  | resetMode hev _ _ => exact absurd hev hre
  | newNeighbor _ _ => exact absurd rfl (hadd _)
  | @keepAlive r _ i _ hr =>
    have hentry : (s.withEntry i ((s.ns.item i).setHasSentKeepAlive true)).addrs = s.addrs :=
      addrs_withEntry rfl
    refine hroute hr.toSameRouting ?_ rfl
    rw [hentry]
  | initialized _ _ _ hr => exact hroute hr.toSameRouting (List.Sublist.refl s.addrs) rfl
  | @path r _ _ i p _ _ _ hpath =>
    have hw : (s.pathWritten i p).addrs.Sublist s.addrs := by
      rw [pathWritten, addrs_withEntry (s.entryAfter_addr i p)]
    cases hpath with
    | first _ _ hr => exact hroute hr.toSameRouting hw rfl
    | switched _ _ hr => exact hroute hr.toSameRouting hw rfl
    | kept _ _ hr => exact hroute hr.toSameRouting hw rfl
  | sensed _ _ hr => exact hroute hr.toSameRouting (List.Sublist.refl s.addrs) rfl
  | sensedSent _ _ _ hr _ => exact hroute hr.toSameRouting (List.Sublist.refl s.addrs) rfl
  | dropped _ _ hr => exact hroute hr.toSameRouting addrs_dropSilent rfl
  | droppedSwitched _ _ _ hr => exact hroute hr.toSameRouting addrs_dropSilent rfl

/-! ### Events that set the node up -/

/-- As far as the neighbours and the flash go, `t` is `s` after `setup_parse` of `sp`. -/
def Installed (sp : SetupPacket) (s t : Node) : Prop :=
  ∃ m b u, SetupPacket.read m = sp ∧ t.addrs = (setupParse m b u).addrs ∧
    t.flash = (setupParse m b u).flash ∧ (b = true → u.flash = s.flash)

theorem installed_resetSystem (c : EcCall) (h : s.stored = some sp) :
    Installed sp s (s.call c).resetSystemPacketHandler := by
  obtain ⟨f, hf, hsp⟩ := Option.map_eq_some_iff.mp h
  have hflash : (s.call c).flash = some f := hf
  unfold resetSystemPacketHandler
  rw [hflash]
  exact ⟨memRead f setupBufferSize, true, s.call c, hsp, rfl, rfl, fun _ => rfl⟩

/-- A node that takes a setup packet over does nothing else. -/
theorem ecBroadcastsRecv_setup {r : RecvArgs} (h : s.TakesSetup r) : ecBroadcastsRecv r s =
    setupParse r.data false { s with state := { s.state with isAwaitingSetupPacket := false } } := by
  obtain ⟨⟨hmode, hsink⟩, ht, hwait⟩ := h
  have hig : s.ignoredInResetMode r = false := by rw [ignoredInResetMode, hmode, Bool.false_and]
  rw [ecBroadcastsRecv, hig, if_neg Bool.false_ne_true, hsink, if_neg Bool.false_ne_true,
    sensorBroadcastsRecv, ht]
  simp only
  rw [hwait, if_pos rfl]

theorem listens_of_ignored {r : RecvArgs} {t : PacketType} (ht : packetTypeAt r.data = some t)
    (hne : t ≠ .initializeBestPaths)
    (h : ¬ (s.ignoredInResetMode r || s.state.isSinkNode) = true) : s.Listens := by
  rw [ignoredInResetMode, ht, Bool.or_eq_true, not_or, Bool.and_eq_true, bne_iff_ne] at h
  refine ⟨?_, Bool.eq_false_iff.mpr h.2⟩
  rw [Bool.eq_false_iff]
  exact fun hmode => h.1 ⟨hmode, fun heq => hne (Option.some.inj heq)⟩

theorem installed_handle {ev : AppEvent} (h : s.installs ev = some sp) :
    Installed sp s (handle ev s) := by
  cases ev with
  | broadcastRecv r =>
    simp only [installs] at h
    split at h
    · cases h
    next hoff =>
    split at h
    · next hset =>
      cases h
      have htakes : s.TakesSetup r :=
        ⟨listens_of_ignored hset.1 (by decide) hoff, hset.1, hset.2⟩
      change Installed _ s (ecBroadcastsRecv r s)
      rw [ecBroadcastsRecv_setup htakes]
      exact ⟨r.data, false, _, rfl, rfl, rfl, fun hb => Bool.noConfusion hb⟩
    · -- a reset installs what the flash holds, if it holds anything
      split at h
      · next ht =>
        obtain ⟨hmode, hsink⟩ := listens_of_ignored ht (by decide) hoff
        have hig : s.ignoredInResetMode r = false := by
          rw [ignoredInResetMode, hmode, Bool.false_and]
        change Installed _ s (ecBroadcastsRecv r s)
        rw [ecBroadcastsRecv, hig, if_neg Bool.false_ne_true, hsink, if_neg Bool.false_ne_true,
          sensorBroadcastsRecv, ht]
        exact installed_resetSystem _ h
      · cases h
  | neighborRecv r =>
    simp only [installs] at h
    split at h
    · cases h
    next hoff =>
    split at h
    · next ht =>
      obtain ⟨hmode, hsink⟩ := listens_of_ignored ht (by decide) hoff
      have hig : s.ignoredInResetMode r = false := by
        rw [ignoredInResetMode, hmode, Bool.false_and]
      change Installed _ s (ecNeighborsRecv r s)
      rw [ecNeighborsRecv, hig, if_neg Bool.false_ne_true, hsink, if_neg Bool.false_ne_true,
        neighborsRecv, ht]
      exact installed_resetSystem _ h
    · cases h
  | serial c =>
    cases c with
    | simulationSetup p =>
      cases h
      exact ⟨p.bytes, false, s, rfl, rfl, rfl, fun hb => Bool.noConfusion hb⟩
    | sink =>
      cases h
      exact ⟨_, false, s, rfl, rfl, rfl, fun hb => Bool.noConfusion hb⟩
    | _ => cases h
  | _ => cases h

theorem installed_step {ev : AppEvent × ClockReading} (h : s.installs ev.1 = some sp) :
    Installed sp s (s.step ev) := by
  obtain ⟨ev, c⟩ := ev
  have hwake : (s.wake c).installs ev = s.installs ev := by cases ev <;> rfl
  exact installed_handle (hwake.trans h)

theorem Tabled.installed (h : Tabled s) (hsp : sp.Proper) (hi : Installed sp s t) : Tabled t := by
  obtain ⟨m, b, u, rfl, haddrs, hflash, hkept⟩ := hi
  have hset : Tabled (setupParse m b u) := by
    refine tabled_setupParse hsp fun hb p hp => h.stored p ?_
    rw [Node.stored, hkept hb] at hp
    exact hp
  exact ⟨haddrs ▸ hset.nodup, by rw [Node.stored, hflash]; exact hset.stored⟩

/-! ### The limits -/

/-- A node comes back with the flash it had or with a packet within the limits; a packet it
takes over is within them and has the neighbours it claims to have; a neighbour that introduces
itself is new and finds room; a command names no more neighbours than there is room for. -/
def NeighborGuard (s : Node) : LifeEvent → Prop
  | .powerUp _ flash =>
    flash = s.flash ∨ ∀ f ∈ flash, (SetupPacket.read (memRead f setupBufferSize)).Proper
  | .app (.broadcastRecv r, _) => s.TakesSetup r → (SetupPacket.read r.data).Proper ∧
      setupPacketSize + 2 * (SetupPacket.read r.data).neighbors.length ≤ r.dataLen.toNat
  | .app (.mcUcRecv r, _) => packetTypeAt r.data = some .imYourNewNeighbor →
      neighborsIsNeighbor s.ns r.originator = false ∧ s.ns.size < maxNeighbors
  | .app (.serial (.simulationSetup sp), _) => (SetupPacket.read sp.bytes).Proper
  | .app (.serial (.sendSetupPacket sp), _) => sp.neighbors.length ≤ maxNeighbors
  | _ => True

/-- What a node has stored in its flash is within the limits. -/
theorem Tabled.proper_of_flash (h : Tabled s) {f : List UInt8} (hf : s.flash = some f) :
    (SetupPacket.read (memRead f setupBufferSize)).Proper :=
  h.stored _ (Option.map_eq_some_iff.mpr ⟨f, hf, rfl⟩)

theorem Tabled.proper_of_installs (h : Tabled s) {ev : AppEvent × ClockReading}
    (hg : s.NeighborGuard (.app ev)) (hi : s.installs ev.1 = some sp) : sp.Proper := by
  obtain ⟨ev, c⟩ := ev
  cases ev with
  | broadcastRecv r =>
    simp only [installs] at hi
    split at hi
    · cases hi
    next hoff =>
    split at hi
    · next hset =>
      cases hi
      exact (hg ⟨listens_of_ignored hset.1 (by decide) hoff, hset.1, hset.2⟩).1
    · split at hi
      · exact h.stored sp hi
      · cases hi
  | neighborRecv r =>
    simp only [installs] at hi
    split at hi
    · cases hi
    · split at hi
      · exact h.stored sp hi
      · cases hi
  | serial c =>
    cases c with
    | simulationSetup p =>
      cases hi
      exact hg
    | sink =>
      cases hi
      decide
    | _ => cases hi
  | _ => cases hi

theorem not_mem_addrs {a : Rimeaddr} : neighborsIsNeighbor s.ns a = false ↔ a ∉ s.addrs := by
  rw [Bool.eq_false_iff, Ne, neighborsIsNeighbor_iff]
  rfl

/-- A neighbour that introduces itself goes to the front of the table. -/
theorem addrs_mcUcRecv {r : RecvArgs} (ht : packetTypeAt r.data = some .imYourNewNeighbor)
    (hroom : s.ns.size < maxNeighbors) (c : ClockReading) :
    (s.step (.mcUcRecv r, c)).addrs = r.originator :: s.addrs := by
  have hlen := s.ns.length_used_add_length_unused
  have hone : [r.originator].length ≤ (s.wake c).ns.unused.length := by
    change 1 ≤ s.ns.unused.length
    change s.ns.used.length < maxNeighbors at hroom
    omega
  change (ecMcUcRecv r (s.wake c)).addrs = _
  rw [ecMcUcRecv, ht]
  exact addrs_addNeighbors _ _ hone

theorem Tabled.mcUcRecv (h : Tabled s) {r : RecvArgs} {c : ClockReading}
    (hg : s.NeighborGuard (.app (.mcUcRecv r, c)))
    (hc : Completes (s.step (.mcUcRecv r, c)).calls) : Tabled (s.step (.mcUcRecv r, c)) := by
  have ht : packetTypeAt r.data = some .imYourNewNeighbor := by
    change Completes (ecMcUcRecv r (s.wake c)).calls at hc
    unfold ecMcUcRecv at hc
    split at hc
    · assumption
    · exact absurd hc not_completes_assert_false
  obtain ⟨hnew, hroom⟩ := hg ht
  obtain ⟨calls, heq, -⟩ := addNeighbors_eq [r.originator] (s.wake c)
  refine ⟨?_, ?_⟩
  · rw [addrs_mcUcRecv ht hroom, List.nodup_cons]
    exact ⟨not_mem_addrs.mp hnew, h.nodup⟩
  · have hflash : (s.step (.mcUcRecv r, c)).flash = s.flash := by
      change (ecMcUcRecv r (s.wake c)).flash = _
      rw [ecMcUcRecv, ht]
      change (addNeighbors [r.originator] (s.wake c)).flash = _
      rw [heq]
      rfl
    rw [Node.stored, hflash]
    exact h.stored

/-- **Every event within the limits keeps the table a set.** -/
theorem Tabled.step (h : Tabled s) {ev : AppEvent × ClockReading}
    (hg : s.NeighborGuard (.app ev)) (hc : Completes (s.step ev).calls) : Tabled (s.step ev) := by
  rcases installs_or_outcome hc with (⟨sp, hsp, -⟩ | ⟨-, hr, -⟩) | ⟨hre, -, ho⟩
  · exact h.installed (h.proper_of_installs hg hsp) (installed_step hsp)
  · refine h.of_same ?_ (congrArg Routing.flash hr.routing)
    rw [addrs_of_ns hr.ns]
  obtain ⟨ev, c⟩ := ev
  by_cases hmc : ∃ r, ev = .mcUcRecv r
  · obtain ⟨r, rfl⟩ := hmc
    exact h.mcUcRecv hg hc
  · obtain ⟨haddrs, hflash⟩ := sublist_outcome hre (fun r hr => hmc ⟨r, hr⟩) ho
    exact h.of_same haddrs hflash

theorem tabled_zero (addr : Rimeaddr) : Tabled (resetNodeProperties addr none) :=
  ⟨List.nodup_nil, fun _ hsp => by cases hsp⟩

/-- **So does a restart.** -/
theorem Tabled.powerUp (h : Tabled s) {addr : Rimeaddr} {flash : Option (List UInt8)}
    (hg : s.NeighborGuard (.powerUp addr flash)) : Tabled (resetNodeProperties addr flash) := by
  cases flash with
  | none => exact tabled_zero addr
  | some f =>
    have hsp : (SetupPacket.read (memRead f setupBufferSize)).Proper := by
      rcases hg with hf | hf
      · exact h.proper_of_flash hf.symm
      · exact hf f rfl
    refine tabled_setupParse hsp fun _ sp hmem => ?_
    cases hmem
    exact hsp

/-! ### What the limits are for -/

/-- `setup_parse` of a packet within the limits is safe. -/
theorem setupAccess_safe {m : List UInt8} {size : ℕ} (h : (SetupPacket.read m).Proper)
    (hsize : setupPacketSize + 2 * (SetupPacket.read m).neighbors.length ≤ size) :
    (s.setupAccess m size).Fits ∧ (s.setupAccess m size).Inside :=
  ⟨fits_setupAccess.mpr h.le, hsize⟩

/-- The buffer for a stored packet has room for `MAX_NEIGHBORS` neighbours. -/
theorem buffer_room {sp : SetupPacket} (h : sp.neighbors.length ≤ maxNeighbors) :
    setupPacketSize + 2 * sp.neighbors.length ≤ setupBufferSize := by
  rw [setupBufferSize]
  omega

/-- A packet has at least the neighbours its `num_neighbors` says. -/
theorem bytes_room (sp : SetupPacket) :
    setupPacketSize + 2 * (SetupPacket.read sp.bytes).neighbors.length ≤ sp.bytes.length := by
  have hnum : (SetupPacket.read sp.bytes).neighbors.length = sp.neighbors.length % 256 := by
    rw [length_neighbors_read]
    rfl
  rw [hnum, sp.length_bytes]
  have hmod := Nat.mod_le sp.neighbors.length 256
  omega

theorem Tabled.flashAccess_safe (h : Tabled s) : ∀ a ∈ s.flashAccess, a.Fits ∧ a.Inside := by
  intro a ha
  obtain ⟨f, hf, rfl⟩ := Option.map_eq_some_iff.mp ha
  have hsp := h.proper_of_flash hf
  exact setupAccess_safe hsp (buffer_room hsp.le)

/-- **An event within the limits is safe.** -/
theorem Tabled.accessSafe (h : Tabled s) {e : LifeEvent} (hg : s.NeighborGuard e) :
    s.AccessSafe e := by
  intro a ha
  cases e with
  | powerUp addr flash =>
    obtain ⟨f, rfl, rfl⟩ := Option.map_eq_some_iff.mp ha
    have hsp : (SetupPacket.read (memRead f setupBufferSize)).Proper := by
      rcases hg with hf | hf
      · exact h.proper_of_flash hf.symm
      · exact hf f rfl
    exact setupAccess_safe hsp (buffer_room hsp.le)
  | app ev =>
    obtain ⟨ev, c⟩ := ev
    cases ev with
    | broadcastRecv r =>
      simp only [access] at ha
      split at ha
      · next hset =>
        cases ha
        obtain ⟨hsp, hsize⟩ := hg hset
        exact setupAccess_safe hsp hsize
      · split at ha
        · exact h.flashAccess_safe a ha
        · cases ha
    | neighborRecv r =>
      simp only [access] at ha
      split at ha
      · exact h.flashAccess_safe a ha
      · cases ha
    | mcUcRecv r =>
      simp only [access] at ha
      split at ha
      · next ht =>
        cases ha
        exact ⟨fits_single.mpr (hg ht).2, Nat.le_refl 0⟩
      · cases ha
    | serial c =>
      cases c with
      | simulationSetup sp =>
        cases ha
        exact setupAccess_safe hg (bytes_room sp)
      | sink =>
        cases ha
        exact setupAccess_safe (by decide) (by decide)
      | sendSetupPacket sp =>
        cases ha
        exact ⟨rfl, buffer_room hg⟩
      | _ => cases ha
    | _ => cases ha

end Node

/-- A node from its first power-up on: it is switched on again and again, each time with any
address and any flash contents, and each time goes on as long as no assertion fails. -/
def lifeMachine : Machine Node LifeEvent where
  init s := ∃ addr, s = Node.resetNodeProperties addr none
  step
    | .powerUp addr flash, _, s' => s' = Node.resetNodeProperties addr flash ∧ Completes s'.calls
    | .app e, s, s' => nodeMachine.step e s s'

namespace Node

variable {s s' : Node}

/-- What a node does between two power-ups is part of its life. -/
theorem lifeMachine_of_nodeMachine (h : nodeMachine.Reachable s) : lifeMachine.Reachable s := by
  refine h.invariant (fun s hinit => ?_) fun s e s' hs _ hstep => hs.next (e := .app e) trivial hstep
  obtain ⟨addr, flash, rfl, hc⟩ := hinit
  exact Machine.ReachableWhen.next (e := .powerUp addr flash) (.init ⟨addr, rfl⟩) trivial ⟨rfl, hc⟩

theorem tabled_of_reachable (h : lifeMachine.ReachableWhen NeighborGuard s) : Tabled s := by
  refine h.invariant (I := Tabled) ?_ ?_
  · rintro s ⟨addr, rfl⟩
    exact tabled_zero addr
  · intro s e s' hs hok hstep
    cases e with
    | powerUp addr flash =>
      obtain ⟨rfl, -⟩ := hstep
      exact hs.powerUp hok
    | app ev =>
      obtain ⟨-, rfl, hc⟩ := hstep
      exact hs.step hok hc

/-! ### No other event is safe -/

theorem calls_setupFinished (b : Bool) (f : Option (List UInt8)) (s : Node) :
    (setupFinished b f s).calls = s.calls := by
  cases b <;> rfl

/-- `setup_parse` of a packet whose neighbours fit asserts nothing. -/
theorem calls_setupParse {m : List UInt8} {b : Bool}
    (h : (SetupPacket.read m).neighbors.length ≤ maxNeighbors) :
    (setupParse m b s).calls = s.calls := by
  have hfits : (s.setupAccess m 0).Fits := fits_setupAccess.mpr h
  change (addNeighbors _ (setupCleared (SetupPacket.read m) s)).calls = s.calls at hfits
  exact (calls_setupFinished _ _ _).trans hfits

/-- A node that is switched on or set up with a packet of too many neighbours, or of one
neighbour twice, is not safe. -/
theorem proper_of_setupAccess {m : List UInt8} {size : ℕ} {b : Bool} {u : Node}
    (hfits : (u.setupAccess m size).Fits)
    (hnodup : Completes (setupParse m b s).calls → (setupParse m b s).addrs.Nodup)
    (hc : Completes s.calls) : (SetupPacket.read m).Proper := by
  have hle := fits_setupAccess.mp hfits
  exact proper_of_nodup hle (hnodup (by rw [calls_setupParse hle]; exact hc))

/-- **An event that keeps the table a set without harm is within the limits.** -/
theorem guard_of_accessSafe {e : LifeEvent} (hsafe : s.AccessSafe e)
    (hnodup : ∀ s', lifeMachine.step e s s' → s'.addrs.Nodup) : s.NeighborGuard e := by
  cases e with
  | powerUp addr flash =>
    refine .inr fun f hf => ?_
    cases hf
    exact proper_of_setupAccess (hsafe _ rfl).1 (fun hc => hnodup _ ⟨rfl, hc⟩) completes_nil
  | app ev =>
    obtain ⟨ev, c⟩ := ev
    cases ev with
    | broadcastRecv r =>
      intro hset
      obtain ⟨hfits, hsize⟩ := hsafe (s.setupAccess r.data r.dataLen.toNat) (if_pos hset)
      have hstep : s.step (.broadcastRecv r, c) = setupParse r.data false
          { s.wake c with state := { s.state with isAwaitingSetupPacket := false } } :=
        ecBroadcastsRecv_setup (s := s.wake c) hset
      refine ⟨proper_of_setupAccess (b := false) hfits ?_ (completes_nil : Completes
        { s.wake c with state := { s.state with isAwaitingSetupPacket := false } }.calls), hsize⟩
      rw [← hstep]
      exact fun hc => hnodup _ ⟨trivial, rfl, hc⟩
    | mcUcRecv r =>
      intro ht
      have hfits := (hsafe ⟨s, [r.originator], 0, 0⟩ (if_pos ht)).1
      have hroom := fits_single.mp hfits
      -- the assertion on the table is that there is room
      have hc : Completes (s.step (.mcUcRecv r, c)).calls := by
        have hwake : (NeighborAccess.mk (s.wake c) [r.originator] 0 0).Fits :=
          fits_single.mpr hroom
        change Completes (ecMcUcRecv r (s.wake c)).calls
        rw [ecMcUcRecv, ht]
        exact hwake ▸ completes_nil
      have hnew := hnodup _ ⟨trivial, rfl, hc⟩
      rw [addrs_mcUcRecv ht hroom, List.nodup_cons] at hnew
      exact ⟨not_mem_addrs.mpr hnew.1, hroom⟩
    | serial cmd =>
      cases cmd with
      | simulationSetup sp =>
        exact proper_of_setupAccess (s := s.wake c) (hsafe _ rfl).1
          (fun hc => hnodup _ ⟨trivial, rfl, hc⟩) completes_nil
      | sendSetupPacket sp =>
        have hsize : setupPacketSize + 2 * sp.neighbors.length ≤ setupBufferSize :=
          (hsafe _ rfl).2
        change sp.neighbors.length ≤ maxNeighbors
        rw [setupBufferSize] at hsize
        omega
      | _ => trivial
    | _ => trivial

/-- **In a guarded run the neighbour table is a bounded set**, and an event is within the limits
exactly if no assertion of `neighbors_add` fails in its code, it does not leave a list of
neighbours and the table is a set afterwards. -/
theorem neighborsSafe_of_reachable (h : lifeMachine.ReachableWhen NeighborGuard s) :
    s.ns.size ≤ maxNeighbors ∧ s.addrs.Nodup ∧ ∀ e, s.NeighborGuard e ↔
      s.AccessSafe e ∧ ∀ s', lifeMachine.step e s s' → s'.addrs.Nodup := by
  have ht := tabled_of_reachable h
  refine ⟨s.ns.size_le, ht.nodup, fun e => ⟨fun hg => ⟨ht.accessSafe hg, fun s' hstep => ?_⟩, ?_⟩⟩
  · exact (tabled_of_reachable (h.next hg hstep)).nodup
  · rintro ⟨hsafe, hnodup⟩
    exact guard_of_accessSafe hsafe hnodup

/-! ### Within the limits and beyond them -/

instance (s : Node) (e : LifeEvent) : Decidable (s.NeighborGuard e) := by
  rcases e with _ | ⟨_ | _ | _ | _ | _ | cmd | _ | _ | _, _⟩
  case app.serial => rcases cmd <;> unfold NeighborGuard <;> infer_instance
  all_goals unfold NeighborGuard; infer_instance

/-- One event in the life of a node, `none` where `lifeMachine` has no step. -/
def lifeAdvance : LifeEvent → Node → Option Node
  | .powerUp addr flash, _ =>
    if Completes (resetNodeProperties addr flash).calls then some (resetNodeProperties addr flash)
    else none
  | .app ev, s => s.advance ev

theorem lifeMachine_step_of_lifeAdvance (e : LifeEvent) (s s' : Node)
    (h : lifeAdvance e s = some s') : lifeMachine.step e s s' := by
  cases e with
  | powerUp addr flash =>
    simp only [lifeAdvance] at h
    split at h
    · next hc =>
      cases h
      exact ⟨rfl, hc⟩
    · cases h
  | app ev => exact nodeMachine_step_of_advance h

theorem reachable_of_lifeRun (es : List LifeEvent)
    (hrun : Machine.run lifeAdvance es (resetNodeProperties rimeaddrNull none) = some s) :
    lifeMachine.Reachable s :=
  Machine.Reachable.of_run lifeMachine_step_of_lifeAdvance es (.init ⟨rimeaddrNull, rfl⟩) hrun

/-- The button is pressed and `sp` arrives, with `len` bytes. -/
def airSetup (sp : SetupPacket) (len : UInt8) : List LifeEvent :=
  [.app (.button, ⟨0, 0⟩), .app (.broadcastRecv ⟨⟨90, 0⟩, ⟨90, 0⟩, 0, 0, sp.bytes, len⟩, ⟨0, 0⟩)]

/-- A neighbour introduces itself. -/
def introduction (a : Rimeaddr) : LifeEvent :=
  .app (.mcUcRecv ⟨a, a, 0, 0, [PacketType.imYourNewNeighbor.toByte], 1⟩, ⟨0, 0⟩)

/-- A packet with two neighbours. -/
def twoNeighbors : SetupPacket := ⟨⟨10, 0⟩, ⟨⟨0, 0⟩, ⟨0, 0⟩⟩, 0, [⟨20, 0⟩, ⟨30, 0⟩]⟩

/-- A node that finds a packet in its flash, is set up over the air and hears of a third
neighbour. -/
theorem neighborsSafe_threeNeighbors : ∃ s, lifeMachine.ReachableWhen NeighborGuard s ∧
    s.addrs = [⟨40, 0⟩, ⟨30, 0⟩, ⟨20, 0⟩] ∧ s.addrs.Nodup := by
  have h : ((Machine.run lifeAdvance (.powerUp rimeaddrNull (some twoNeighbors.bytes) ::
      airSetup twoNeighbors 13 ++ [introduction ⟨40, 0⟩]) (resetNodeProperties rimeaddrNull none)).map
      fun s => s.addrs) = some [⟨40, 0⟩, ⟨30, 0⟩, ⟨20, 0⟩] := by decide +kernel
  obtain ⟨s, hrun, haddrs⟩ := Option.map_eq_some_iff.mp h
  have hreach : lifeMachine.ReachableWhen NeighborGuard s :=
    Machine.ReachableWhen.of_run (b := fun s e => decide (s.NeighborGuard e))
      (fun _ _ => of_decide_eq_true) lifeMachine_step_of_lifeAdvance _ (.init ⟨rimeaddrNull, rfl⟩)
      (by decide +kernel) hrun
  exact ⟨s, hreach, haddrs, (neighborsSafe_of_reachable hreach).2.1⟩

instance (a : NeighborAccess) : Decidable a.Fits := decidable_of_iff _ fits_iff.symm

instance (s : Node) (e : LifeEvent) : Decidable (s.AccessSafe e) := by
  unfold AccessSafe
  infer_instance

/-- **Beyond the limits**: a neighbour that introduces itself twice is in the table twice; a
packet that claims eight neighbours and has two makes the node read past its end; a command with
nine neighbours makes it write past the end of its buffer; the ninth neighbour finds no room. -/
theorem not_neighborsSafe :
    (∃ s, lifeMachine.Reachable s ∧ ¬ s.addrs.Nodup) ∧
    (∃ s, lifeMachine.Reachable s ∧ ¬ s.AccessSafe (.app (.broadcastRecv ⟨⟨90, 0⟩, ⟨90, 0⟩, 0, 0,
      twoNeighbors.bytes.set 8 8, 13⟩, ⟨0, 0⟩))) ∧
    (∃ s, lifeMachine.Reachable s ∧ ¬ s.AccessSafe (.app (.serial (.sendSetupPacket
      { twoNeighbors with neighbors := List.replicate 9 ⟨20, 0⟩ }), ⟨0, 0⟩))) ∧
    ∃ s, lifeMachine.Reachable s ∧ ¬ s.AccessSafe (introduction ⟨90, 0⟩) := by
  refine ⟨?_, ?_, ⟨_, .init ⟨rimeaddrNull, rfl⟩, by decide +kernel⟩, ?_⟩
  · have h : ((Machine.run lifeAdvance [introduction ⟨20, 0⟩, introduction ⟨20, 0⟩]
        (resetNodeProperties rimeaddrNull none)).map fun s => s.addrs) =
          some [⟨20, 0⟩, ⟨20, 0⟩] := by decide +kernel
    obtain ⟨s, hrun, haddrs⟩ := Option.map_eq_some_iff.mp h
    exact ⟨s, reachable_of_lifeRun _ hrun, by rw [haddrs]; decide⟩
  · refine ⟨_, reachable_of_lifeRun [.app (.button, ⟨0, 0⟩)] rfl, ?_⟩
    decide +kernel
  · have h : ((Machine.run lifeAdvance
        ([20, 30, 40, 50, 60, 70, 80, 81].map fun a => introduction ⟨a, 0⟩)
        (resetNodeProperties rimeaddrNull none)).map fun s =>
          decide (s.AccessSafe (introduction ⟨90, 0⟩))) = some false := by decide +kernel
    obtain ⟨s, hrun, hsafe⟩ := Option.map_eq_some_iff.mp h
    exact ⟨s, reachable_of_lifeRun _ hrun, of_decide_eq_false hsafe⟩

end Node

end EmergencyNet
