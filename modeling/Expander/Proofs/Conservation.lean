import Mathlib.Data.List.Flatten
import Mathlib.Data.List.Nodup
import Mathlib.Data.List.Pairwise
import Expander.Proofs.Opening

/-!
No transaction is lost or made up.

Between the calls of a host, an accepted transaction that was not handed back is in exactly one
place: in a queue or table of one stage, or among the completions that wait for the host.
-/

set_option autoImplicit false

namespace Expander

/-- Where a transaction can be while it is under way. -/
inductive Place where
  | bridgeRequests
  | deviceRequests
  | pendingReads
  | responseHeap
  | memoryResponses
  | deviceResponses
  | bridgeResponses
  | completions
deriving DecidableEq, Repr

namespace Place

def inside : List Place :=
  [bridgeRequests, deviceRequests, pendingReads, responseHeap, memoryResponses, deviceResponses,
    bridgeResponses]

def all : List Place := inside ++ [completions]

theorem mem_all (place : Place) : place ∈ all := by cases place <;> decide

end Place

def PacketQueue.transactions (q : PacketQueue) : List Transaction :=
  q.entries.map fun entry => entry.packet.transaction

def Stage.transactionsAt (place : Place) (s : Stage) : List Transaction :=
  match place, s with
  | .bridgeRequests, .bridge b => b.requests.transactions
  | .bridgeResponses, .bridge b => b.responses.transactions
  | .deviceRequests, .device d => d.requests.transactions
  | .deviceResponses, .device d => d.responses.transactions
  | .pendingReads, .controller c => c.pending.map fun entry => entry.2.packet.transaction
  | .responseHeap, .controller c => c.responses.toList.map fun r => r.packet.transaction
  | .memoryResponses, .memory m => m.responses.transactions
  | _, _ => []

def Simulation.transactionsAt (s : Simulation) (place : Place) : List Transaction :=
  match place with
  | .completions => s.completions.map Completion.transaction
  | place => s.fabric.nodes.flatMap fun node => node.stage.transactionsAt place

def Simulation.idsAt (s : Simulation) (place : Place) : List TransactionId :=
  (s.transactionsAt place).map Transaction.id

/-- Every transaction that is under way is in one place, and what is handed out is what was
accepted. -/
structure Session.Conserved (h : Session) : Prop where
  numbered : (h.accepted.map Grant.id).Nodup
  /-- An accepted transaction that was not handed back has one entry in one place. -/
  located : ∀ g ∈ h.accepted, g.id ∉ h.returned.map Completion.id →
    ∃ place, g.transaction ∈ h.system.transactionsAt place ∧
      ∀ other, (h.system.idsAt other).count g.id = if other = place then 1 else 0
  /-- Every entry is that of an accepted transaction that was not handed back. -/
  known : ∀ place, ∀ t ∈ h.system.transactionsAt place,
    ∃ g ∈ h.accepted, g.transaction = t ∧ g.id ∉ h.returned.map Completion.id
  once : (h.returned.map Completion.id).Nodup
  /-- A completion that is handed back shows the address, the direction and the issue tick of the
  request that was accepted under its number. -/
  faithful : ∀ c ∈ h.returned, ∃ g ∈ h.accepted, c.transaction = g.transaction

variable {s : Simulation} {h : Session} {machine : Machine} {config : Config}

theorem Stage.transactions_inside (stage : Stage) :
    (Place.inside.flatMap fun place => stage.transactionsAt place : Multiset Transaction) =
      stage.view.calm.packets.map Packet.transaction := by
  cases stage <;>
    simp [Place.inside, transactionsAt, view, Bridge.view, Device.view, Controller.view,
      SystemMemory.view, StageView.calm, StageView.packets, PacketQueue.transactions,
      PacketQueue.packets, Controller.answers, Function.comp_def]

theorem transactions_nodes (nodes : List Node) :
    (Place.inside.flatMap fun place => nodes.flatMap fun node => node.stage.transactionsAt place :
      Multiset Transaction) = held (nodes.map fun node => node.stage.view.calm) := by
  induction nodes with
  | nil => rfl
  | cons node rest ih =>
    have split := List.flatMap_append_perm Place.inside node.stage.transactionsAt
      fun place => rest.flatMap fun node => node.stage.transactionsAt place
    rw [List.map_cons, held_cons, ← ih, ← Stage.transactions_inside, Multiset.coe_add]
    exact Multiset.coe_eq_coe.2 split.symm

theorem Simulation.transactions_all (s : Simulation) :
    (Place.all.flatMap s.transactionsAt : Multiset Transaction) =
      held s.cargo + (s.completions.map Completion.transaction : List Transaction) := by
  rw [Simulation.cargo, ← transactions_nodes, Multiset.coe_add, Place.all, List.flatMap_append,
    List.flatMap_singleton]
  rfl

namespace Session

theorem Standing.transactions_perm (standing : h.Standing) :
    (Place.all.flatMap h.system.transactionsAt ++
      h.returned.map Completion.transaction).Perm (h.accepted.map Grant.transaction) := by
  have conserved := standing.balanced.conserved
  refine Multiset.coe_eq_coe.1 (Eq.trans ?_ conserved)
  rw [← Multiset.coe_add, Simulation.transactions_all, Multiset.add_assoc, ledger, produced,
    Multiset.map_coe, List.map_append, ← Multiset.coe_add]
  exact congrArg _ (Multiset.add_comm _ _)

theorem Standing.conserved (standing : h.Standing) : h.Conserved := by
  have perm := standing.transactions_perm
  have numbered : (h.accepted.map Grant.id).Nodup := by
    refine (List.pairwise_map.2 ?_ : List.Pairwise _ _)
    exact standing.balanced.ascending.imp Nat.ne_of_lt
  have ids : (Place.all.flatMap h.system.idsAt ++ h.returned.map Completion.id).Perm
      (h.accepted.map Grant.id) := by
    have numbers := perm.map Transaction.id
    rw [List.map_append, List.map_flatMap, List.map_map, List.map_map] at numbers
    exact numbers
  obtain ⟨inside, once, apart⟩ := List.nodup_append.1 (ids.nodup_iff.2 numbered)
  obtain ⟨single, disjoint⟩ := List.nodup_flatMap.1 inside
  have known (place : Place) (t : Transaction) (mem : t ∈ h.system.transactionsAt place) :
      ∃ g ∈ h.accepted, g.transaction = t ∧ g.id ∉ h.returned.map Completion.id := by
    have entry : t ∈ Place.all.flatMap h.system.transactionsAt :=
      List.mem_flatMap.2 ⟨place, place.mem_all, mem⟩
    obtain ⟨g, accepted, rfl⟩ := List.mem_map.1 (perm.mem_iff.1 (List.mem_append_left _ entry))
    refine ⟨g, accepted, rfl, fun back => ?_⟩
    have number : g.id ∈ Place.all.flatMap h.system.idsAt :=
      List.mem_flatMap.2 ⟨place, place.mem_all, List.mem_map_of_mem mem⟩
    exact apart _ number _ back rfl
  refine ⟨numbered, fun g accepted waiting => ?_, known, once, fun c back => ?_⟩
  · have entry := perm.mem_iff.2 (List.mem_map_of_mem accepted)
    rcases List.mem_append.1 entry with under | back
    · obtain ⟨place, -, mem⟩ := List.mem_flatMap.1 under
      have number : g.id ∈ h.system.idsAt place := List.mem_map_of_mem mem
      refine ⟨place, mem, fun other => ?_⟩
      split
      next same =>
        subst same
        exact List.count_eq_one_of_mem (single other other.mem_all) number
      next ne =>
        refine List.count_eq_zero.2 fun also => ?_
        have : Std.Symm (Function.onFun List.Disjoint h.system.idsAt) :=
          ⟨fun _ _ => List.disjoint_symm⟩
        exact disjoint.forall other.mem_all place.mem_all ne also number
    · obtain ⟨c, mem, same⟩ := List.mem_map.1 back
      have number : c.id = g.id := congrArg Transaction.id same
      exact absurd (number ▸ List.mem_map_of_mem mem) waiting
  · have entry := perm.mem_iff.1 (List.mem_append_right _ (List.mem_map_of_mem back))
    obtain ⟨g, accepted, same⟩ := List.mem_map.1 entry
    exact ⟨g, accepted, same.symm⟩

/-- No call of the host loses a transaction or makes one up. -/
theorem conserved_run (created : Simulation.create machine config = .ok s) (calls : List HostCall) :
    ((start s).run calls).Conserved :=
  (standing_run created calls).conserved

/-- A read that is handed back before the write that was accepted first. -/
theorem conserved_poll : ∃ s, Simulation.create .standard {} = .ok s ∧
    ((start s).run [.send (.write 0x100000000 [1, 2]), .send (.read 0x1000 8), .poll]).Conserved ∧
    ((start s).run [.send (.write 0x100000000 [1, 2]), .send (.read 0x1000 8),
      .poll]).returned.map Completion.id = [1] :=
  ⟨_, rfl, conserved_run (show Simulation.create .standard {} = _ from rfl) _, by decide +kernel⟩

end Session

end Expander
