import EmergencyNet.Net.Neighbors

/-!
# The interface of the emergency connection

What `emergency_net/emergency_conn.h` offers the application and asks of it.  The
application never reads a result of an `ec_*` function, so a run of application code is
its new state together with the `ec_*` calls it made and the assertions it evaluated, in
order; `Effect` is one such entry.

## Main definitions

* `SendArgs`, `EcCall` — the `ec_*` functions and their arguments.
* `RecvArgs` — the arguments of the `ec_callbacks`.
* `Effect`, `Completes` — what application code did, and that none of its assertions failed.
* `EcCallbacks` — an application, as the connection sees it.
-/

namespace EmergencyNet

/-- The arguments the sending functions share. -/
structure SendArgs where
  originator : Rimeaddr
  sender : Rimeaddr
  hops : UInt8
  seqno : UInt8
  /-- The `data_len` bytes `data` points to. -/
  data : List UInt8
  deriving DecidableEq, Repr

/-- The pair that identifies a packet. -/
abbrev PacketId := Rimeaddr × UInt8

/-- The identity of the packet that is sent. -/
def SendArgs.id (a : SendArgs) : PacketId := (a.originator, a.seqno)

/-- A call of an `ec_*` function.  `ns` is what `c->ns` points to at the time of the
call, `none` for `NULL`. -/
inductive EcCall
  /-- `ec_reliable_broadcast_ns`. -/
  | reliableBroadcastNs (ns : Option NeighborSet) (a : SendArgs)
  /-- `ec_broadcast`. -/
  | broadcast (ns : Option NeighborSet) (a : SendArgs)
  /-- `ec_reliable_multicast`. -/
  | reliableMulticast (receivers : NeighborSet) (a : SendArgs)
  /-- `ec_reliable_unicast`. -/
  | reliableUnicast (destination : Rimeaddr) (a : SendArgs)
  /-- `ec_mesh`. -/
  | mesh (destination : Rimeaddr) (seqno : UInt8) (data : List UInt8)
  /-- `ec_timesynch_on`. -/
  | timesynchOn
  /-- `ec_timesynch_off`. -/
  | timesynchOff
  /-- `ec_timesynch_network`. -/
  | timesynchNetwork

/-- One thing application code did. -/
inductive Effect
  | call (c : EcCall)
  /-- An `ASSERT` whose condition had the given value; the node halts on `false`. -/
  | assert (holds : Bool)

/-- None of the assertions failed: the code ran to its end. -/
def Completes (l : List Effect) : Prop := ∀ b, Effect.assert b ∈ l → b = true

@[simp] theorem completes_nil : Completes [] := fun _ h => by cases h

@[simp] theorem completes_append {l m : List Effect} :
    Completes (l ++ m) ↔ Completes l ∧ Completes m := by
  simp only [Completes, List.mem_append]
  exact ⟨fun h => ⟨fun b hb => h b (.inl hb), fun b hb => h b (.inr hb)⟩,
    fun h b hb => hb.elim (h.1 b) (h.2 b)⟩

@[simp] theorem completes_call {c : EcCall} : Completes [.call c] := fun _ h => by
  simp at h

instance (l : List Effect) : Decidable (Completes l) :=
  decidable_of_iff (l.all fun e => match e with | .assert b => b | .call _ => true) <| by
    rw [List.all_eq_true]
    constructor
    · exact fun h b hb => h _ hb
    · intro h e he
      cases e with
      | call c => rfl
      | assert b => exact h b he

/-- The arguments a data callback is called with. -/
structure RecvArgs where
  originator : Rimeaddr
  sender : Rimeaddr
  hops : UInt8
  seqno : UInt8
  /-- The memory from the address `data` points to on. -/
  data : List UInt8
  dataLen : UInt8
  deriving DecidableEq, Repr

/-- The identity of the packet that is delivered. -/
def RecvArgs.id (r : RecvArgs) : PacketId := (r.originator, r.seqno)

/-- The `data_len` bytes the callback may read. -/
def RecvArgs.payload (r : RecvArgs) : List UInt8 := memRead r.data r.dataLen.toNat

/-- An application with states `σ`: `struct ec_callbacks`, and the two variables of the
application the connection reads. -/
structure EcCallbacks (σ : Type*) where
  /-- `rimeaddr_node_addr`. -/
  addr : σ → Rimeaddr
  /-- What `c->ns` points to, `none` for `NULL`. -/
  ns : σ → Option NeighborSet
  broadcastRecv : RecvArgs → σ → σ × List Effect
  multicastUnicastRecv : RecvArgs → σ → σ × List Effect
  neighborRecv : RecvArgs → σ → σ × List Effect
  /-- The callback makes no `ec_*` call; the flag says whether its assertions held. -/
  timesynch : σ → σ × Bool

end EmergencyNet
