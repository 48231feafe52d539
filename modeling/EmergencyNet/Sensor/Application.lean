import EmergencyNet.App.Calls
import EmergencyNet.Conn.Upcall

/-!
# The sensor node: the application on its connection

`main_reg_sensor.c` on `emergency_conn.c`: the callbacks and the process of the application,
handed to the connection.  A run of the whole node contains a run of the application alone,
so what holds along the runs of the application holds of the application of a whole node.

## Main definitions

* `mainRegSensor` — the application.
* `sensorMachine` — the whole node as a transition system.
* `Node.AgreesWith` — two nodes that differ in the clock and in the calls made.

## Main results

* `app_of_reachable` — **every run of a whole node contains a run of its application.**
-/

namespace EmergencyNet

/-- What the process of the application handles; `clock` is the passing of time. -/
inductive ProcessEvent
  | clock (c : ClockReading)
  | button
  | serial (c : SerialCommand)
  | emergencyCheck (light : UInt16)
  | keepaliveSend
  | keepaliveCheck

/-- The event of the application, if code of the application runs. -/
def ProcessEvent.app : ProcessEvent → Option AppEvent
  | .clock _ => none
  | .button => some .button
  | .serial c => some (.serial c)
  | .emergencyCheck light => some (.emergencyCheck light)
  | .keepaliveSend => some .keepaliveSend
  | .keepaliveCheck => some .keepaliveCheck

/-- The event of the application for a data callback. -/
def Callback.app (r : RecvArgs) : Callback → AppEvent
  | .broadcastRecv => .broadcastRecv r
  | .multicastUnicastRecv => .mcUcRecv r
  | .neighborRecv => .neighborRecv r

namespace Node

/-- What the clock says. -/
def now (s : Node) : ClockReading := ⟨s.rtimerNow, s.offset⟩

/-- The code for an event, with the calls it makes. -/
def react (ev : AppEvent) (s : Node) : Node × List Effect :=
  (s.step (ev, s.now), (s.step (ev, s.now)).calls)

/-- The process: as time passes no code runs. -/
def process : ProcessEvent → Node → Node × List Effect
  | .clock c, s => (s.wake c, [])
  | .button, s => s.react .button
  | .serial c, s => s.react (.serial c)
  | .emergencyCheck light, s => s.react (.emergencyCheck light)
  | .keepaliveSend, s => s.react .keepaliveSend
  | .keepaliveCheck, s => s.react .keepaliveCheck

end Node

/-- `main_reg_sensor.c` as the application of a connection: `ec_cb` and `fire_process`. -/
def mainRegSensor : Application Node ProcessEvent where
  addr := Node.rimeaddrNodeAddr
  ns := Node.connNs
  broadcastRecv r := Node.react (.broadcastRecv r)
  multicastUnicastRecv r := Node.react (.mcUcRecv r)
  neighborRecv r := Node.react (.neighborRecv r)
  timesynch s :=
    let r := s.react .timesynched
    (r.1, decide (Completes r.2))
  process := Node.process

/-- A sensor node as a transition system: it powers up with any address and any flash
contents and opens its connection. -/
def sensorMachine : Machine (EcNode Node) (NodeEvent ProcessEvent) where
  init s := s.conn = .opened ∧
    ∃ addr flash, s.app = Node.resetNodeProperties addr flash ∧ Completes s.app.calls
  step ev s s' := s.Enabled ev ∧ s.step mainRegSensor ev = .ok s'

/-- A node that has just powered up. -/
def EcNode.poweredUp (addr : Rimeaddr) (flash : Option (List UInt8)) : EcNode Node :=
  ⟨.opened, Node.resetNodeProperties addr flash⟩

theorem sensorMachine_init {addr : Rimeaddr} {flash : Option (List UInt8)}
    (h : Completes (Node.resetNodeProperties addr flash).calls) :
    sensorMachine.init (.poweredUp addr flash) := ⟨rfl, addr, flash, rfl, h⟩

theorem sensorMachine_step_of_advance {ev : NodeEvent ProcessEvent} {s s' : EcNode Node}
    (h : s.advance mainRegSensor ev = some s') : sensorMachine.step ev s s' :=
  connMachine_step_of_advance h

theorem sensorMachine_reachable_of_run {addr : Rimeaddr} {flash : Option (List UInt8)}
    {evs : List (NodeEvent ProcessEvent)} {s : EcNode Node}
    (hinit : Completes (Node.resetNodeProperties addr flash).calls)
    (hrun : Machine.run (EcNode.advance mainRegSensor) evs (.poweredUp addr flash) = some s) :
    sensorMachine.Reachable s :=
  Machine.Reachable.of_run (fun _ _ _ => sensorMachine_step_of_advance) evs
    (.init (sensorMachine_init hinit)) hrun

/-! ### The application of a whole node -/

namespace Node

variable {s t n : Node}

/-- Two nodes that differ in the clock and in the calls made. -/
def AgreesWith (s n : Node) : Prop := ∀ c, s.wake c = n.wake c

namespace AgreesWith

theorem refl (s : Node) : s.AgreesWith s := fun _ => rfl

theorem wake (h : s.AgreesWith n) (c : ClockReading) : (s.wake c).AgreesWith n := fun c' => h c'

theorem step_eq (h : s.AgreesWith n) (e : AppEvent × ClockReading) : s.step e = n.step e := by
  rw [step, step, h e.2]

/-- A variable that is neither the clock nor the calls. -/
theorem congr {α : Type*} (h : s.AgreesWith n) (f : Node → α) (hf : ∀ c s, f (s.wake c) = f s) :
    f s = f n := by
  rw [← hf s.now s, ← hf s.now n, h]

theorem bpn (h : s.AgreesWith n) : s.bpn = n.bpn := h.congr _ fun _ _ => rfl

theorem ns (h : s.AgreesWith n) : s.ns = n.ns := h.congr _ fun _ _ => rfl

theorem state (h : s.AgreesWith n) : s.state = n.state := h.congr _ fun _ _ => rfl

theorem ecNs (h : s.AgreesWith n) : s.ecNs = n.ecNs := h.congr _ fun _ _ => rfl

theorem connNs (h : s.AgreesWith n) : s.connNs = n.connNs := h.congr _ fun _ _ => rfl

end AgreesWith

/-- A step of the application, from a state that agrees with a reachable one. -/
theorem reachable_step (hn : nodeMachine.Reachable n) (h : s.AgreesWith n) {e : AppEvent}
    (hen : s.Enabled e) (hc : Completes (s.react e).2) :
    nodeMachine.Reachable (s.react e).1 := by
  have hstep : s.step (e, s.now) = n.step (e, s.now) := h.step_eq _
  have hen' : n.Enabled e := by
    cases e <;> simp only [Enabled] at hen ⊢
    rwa [← h.ecNs, ← h.ns]
  refine hn.next (e := (e, s.now)) trivial ⟨hen', hstep, hc⟩

end Node

open Node

/-- Runs of the callback `timesynch` are steps of the application. -/
theorem agrees_of_synched {s t n : Node} (hn : nodeMachine.Reachable n) (h : s.AgreesWith n)
    (hst : mainRegSensor.Synched s t) : ∃ m, nodeMachine.Reachable m ∧ t.AgreesWith m := by
  induction hst with
  | refl => exact ⟨n, hn, h⟩
  | @tail t u _ hcall ih =>
    obtain ⟨m, hm, ht⟩ := ih
    have hstep : mainRegSensor.timesynch t = ((t.react .timesynched).1,
      decide (Completes (t.react .timesynched).2)) := rfl
    rw [hstep, Prod.mk.injEq, decide_eq_true_iff] at hcall
    obtain ⟨rfl, hc⟩ := hcall
    exact ⟨_, reachable_step (e := .timesynched) hm ht trivial hc, .refl _⟩

/-- The application code an event runs makes no call that switches time synchronisation off. -/
theorem mainRegSensor_on (s : Node) :
    (∀ e, Effect.call .timesynchOff ∉ (mainRegSensor.process e s).2) ∧
      ∀ k r, Effect.call .timesynchOff ∉ (mainRegSensor.recv k r s).2 := by
  constructor
  · intro e
    cases e with
    | clock c => exact List.not_mem_nil
    | button | serial | emergencyCheck | keepaliveSend | keepaliveCheck =>
      exact (adds_step s _).on
  · intro k r
    cases k <;> exact (adds_step s _).on

/-- What `EcNode.step_upcall` says of a sensor node. -/
theorem sensor_ran {ev : NodeEvent ProcessEvent} {s s' : EcNode Node}
    (h : s.step mainRegSensor ev = .ok s') :
    EcNode.Ran mainRegSensor (s.upcall mainRegSensor ev) s s' :=
  EcNode.step_upcall (mainRegSensor_on s.app) h

/-- The event of the application an event of the whole node runs. -/
def EcNode.appEvent (s : EcNode Node) : NodeEvent ProcessEvent → Option AppEvent
  | .process e => e.app
  | .receive ch pb => (s.delivery mainRegSensor.toEcCallbacks ch pb).map fun kr => kr.1.app kr.2
  | _ => none

/-- The code an event runs is the code of its application event. -/
theorem upcall_of_appEvent {s : EcNode Node} {ev : NodeEvent ProcessEvent} {e : AppEvent}
    (h : s.appEvent ev = some e) : s.upcall mainRegSensor ev = some (s.app.react e) := by
  cases ev with
  | process p =>
    cases p with
    | clock c => cases h
    | button | serial | emergencyCheck | keepaliveSend | keepaliveCheck =>
      cases h
      rfl
  | receive ch pb =>
    obtain ⟨⟨k, r⟩, hd, rfl⟩ := Option.map_eq_some_iff.mp h
    change (s.delivery mainRegSensor.toEcCallbacks ch pb).map _ = _
    rw [hd]
    cases k <;> rfl
  | expire | timer | meshSent | meshTimeout => cases h

/-- Without an application event nothing but time passes for the application. -/
theorem upcall_of_appEvent_none {s : EcNode Node} {ev : NodeEvent ProcessEvent}
    (h : s.appEvent ev = none) : s.upcall mainRegSensor ev = none ∨
      ∃ c, s.upcall mainRegSensor ev = some (s.app.wake c, []) := by
  cases ev with
  | process p =>
    cases p with
    | clock c => exact .inr ⟨c, rfl⟩
    | button | serial | emergencyCheck | keepaliveSend | keepaliveCheck => cases h
  | receive ch pb =>
    have hd := Option.map_eq_none_iff.mp h
    left
    change (s.delivery mainRegSensor.toEcCallbacks ch pb).map _ = _
    rw [hd]
    rfl
  | expire | timer | meshSent | meshTimeout => exact .inl rfl

/-- The connection hands over what it may hand over. -/
theorem enabled_of_appEvent {s : EcNode Node} {ev : NodeEvent ProcessEvent} {e : AppEvent}
    (h : s.appEvent ev = some e) : s.app.Enabled e := by
  cases ev with
  | process p => cases p <;> cases h <;> trivial
  | receive ch pb =>
    obtain ⟨⟨k, r⟩, hd, rfl⟩ := Option.map_eq_some_iff.mp h
    obtain ⟨a, -, hacc⟩ := Option.bind_eq_some_iff.mp hd
    split at hacc
    · next hok =>
      cases hacc
      cases ch with
      | timesynch => exact absurd rfl hok.1
      | broadcast =>
        unfold EcNode.callbackFor
        split_ifs <;> trivial
      | neighbor =>
        have hfrom : (s.app.connNs.elim false fun ns =>
            decide (pb.p.hdr.sender ∈ ns.addrs)) = true := hok.2.2.2.1
        unfold connNs at hfrom
        split at hfrom
        · next hns => exact ⟨hns, neighborsIsNeighbor_iff.mpr (of_decide_eq_true hfrom)⟩
        · exact absurd hfrom Bool.false_ne_true
    · cases hacc
  | expire | timer | meshSent | meshTimeout => cases h

/-- **Every run of a whole node contains a run of its application**, up to the clock. -/
theorem app_of_reachable {ok : EcNode Node → NodeEvent ProcessEvent → Prop} {s : EcNode Node}
    (h : sensorMachine.ReachableWhen ok s) : ∃ n, nodeMachine.Reachable n ∧ s.app.AgreesWith n := by
  induction h with
  | init hinit =>
    obtain ⟨-, addr, flash, happ, hc⟩ := hinit
    exact ⟨_, .init ⟨addr, flash, happ, hc⟩, .refl _⟩
  | @next s s' ev _ _ hstep ih =>
    obtain ⟨n, hn, hagree⟩ := ih
    obtain ⟨happ, hc, -, -⟩ := sensor_ran hstep.2
    cases he : s.appEvent ev with
    | some e =>
      rw [upcall_of_appEvent he] at happ hc
      have hreach := reachable_step hn hagree (enabled_of_appEvent he) (hc _ rfl)
      exact agrees_of_synched hreach (.refl _) happ
    | none =>
      rcases upcall_of_appEvent_none he with hcode | ⟨c, hcode⟩
      · rw [hcode] at happ
        exact agrees_of_synched hn hagree happ
      · rw [hcode] at happ
        exact agrees_of_synched hn (hagree.wake c) happ

end EmergencyNet
