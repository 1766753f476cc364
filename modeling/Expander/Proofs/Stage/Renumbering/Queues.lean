import Expander.Proofs.Stage.Refusal

/-!
Queues of packets with other transaction numbers.

What a heap or a queue hands out is what it hands out with the old numbers, with the new ones put on
(`Heap.pop?_map`, `PacketQueue.popReady?_renumber`): no order of theirs looks at numbers.
-/

set_option autoImplicit false

namespace Expander

section Heap

variable {α β : Type} {g : α → β} {before : α → α → Bool} {before' : β → β → Bool}

namespace Tree

def map (g : α → β) : Tree α → Tree β
  | empty => empty
  | node left value right => node (left.map g) (g value) (right.map g)

theorem top?_map (t : Tree α) : (t.map g).top? = t.top?.map g := by
  cases t <;> rfl

theorem insertAt_map (same : ∀ a b, before' (g a) (g b) = before a b) (x : α) (turns : List Bool)
    (t : Tree α) : (t.map g).insertAt before' (g x) turns = (t.insertAt before x turns).map g := by
  induction t generalizing turns with
  | empty => rfl
  | node left value right ihl ihr =>
    simp only [map, insertAt]
    split
    · rw [ihr]
      cases right.insertAt before x turns.tail with
      | empty => rfl
      | node l w r =>
        simp only [map, riseRight, same]
        split <;> rfl
    · rw [ihl]
      cases left.insertAt before x turns.tail with
      | empty => rfl
      | node l w r =>
        simp only [map, riseLeft, same]
        split <;> rfl

theorem removeAt_map (turns : List Bool) (t : Tree α) :
    (t.map g).removeAt turns = (t.removeAt turns).map fun r => (g r.1, r.2.map g) := by
  induction t generalizing turns with
  | empty => rfl
  | node left value right ihl ihr =>
    simp only [map, removeAt, ihl, ihr]
    cases left.removeAt turns.tail <;> cases right.removeAt turns.tail <;> split <;> rfl

theorem sink_map (same : ∀ a b, before' (g a) (g b) = before a b) (x : α) (t : Tree α) :
    (t.map g).sink before' (g x) = (t.sink before x).map g := by
  induction t with
  | empty => rfl
  | node left value right ihl ihr =>
    have first : leftFirst before' (left.map g) (right.map g) = leftFirst before left right := by
      simp only [leftFirst, top?_map]
      cases left.top? <;> cases right.top? <;> simp [same]
    simp only [map, sink, first, top?_map]
    split
    · cases left.top? with
      | none => rfl
      | some a =>
        simp only [Option.map_some, same, ihl]
        split <;> rfl
    · cases right.top? with
      | none => rfl
      | some b =>
        simp only [Option.map_some, same, ihr]
        split <;> rfl

end Tree

namespace Heap

def map (g : α → β) (h : Heap α) : Heap β := ⟨h.size, h.tree.map g⟩

theorem top?_map (h : Heap α) : (h.map g).top? = h.top?.map g := h.tree.top?_map

theorem push_map (same : ∀ a b, before' (g a) (g b) = before a b) (h : Heap α) (x : α) :
    (h.map g).push before' (g x) = (h.push before x).map g :=
  congrArg (Heap.mk _) (Tree.insertAt_map same x _ h.tree)

theorem pop?_map (same : ∀ a b, before' (g a) (g b) = before a b) (h : Heap α) :
    (h.map g).pop? before' = (h.pop? before).map fun r => (g r.1, r.2.map g) := by
  simp only [pop?, map, Tree.top?_map, Tree.removeAt_map]
  cases h.tree.top? with
  | none => rfl
  | some top =>
    cases h.tree.removeAt (turnsTo h.size) with
    | none => rfl
    | some removed => simp only [Option.map_some, Tree.sink_map same]

end Heap

end Heap

variable {f : TransactionId → TransactionId} {now : Tick} {p : Packet}

namespace Packet

def renumber (f : TransactionId → TransactionId) (p : Packet) : Packet := { p with id := f p.id }

@[simp] theorem renumber_respond (p : Packet) (data : List UInt8) :
    (p.renumber f).respond data = (p.respond data).renumber f := rfl

@[simp] theorem renumber_arriveAt (p : Packet) (id : ComponentId) (now : Tick) :
    (p.renumber f).arriveAt id now = (p.arriveAt id now).renumber f := rfl

@[simp] theorem renumber_dropLastHop (p : Packet) :
    (p.renumber f).dropLastHop = p.dropLastHop.renumber f := rfl

@[simp] theorem renumber_chargeHeader (p : Packet) :
    (p.renumber f).chargeHeader = p.chargeHeader.renumber f := rfl

@[simp] theorem addr_renumber (p : Packet) : (p.renumber f).addr = p.addr := rfl

@[simp] theorem size_renumber (p : Packet) : (p.renumber f).size = p.size := rfl

@[simp] theorem headerDelay_renumber (p : Packet) : (p.renumber f).headerDelay = p.headerDelay :=
  rfl

end Packet

def Delivery.renumber (f : TransactionId → TransactionId) : Delivery → Delivery
  | accepted => accepted
  | busy p => busy (p.renumber f)
  | unroutable p => unroutable (p.renumber f)

def Waiting.renumber (f : TransactionId → TransactionId) (w : Waiting) : Waiting :=
  { w with packet := w.packet.renumber f }

namespace PacketQueue

def renumber (f : TransactionId → TransactionId) (q : PacketQueue) : PacketQueue :=
  { q with entries := q.entries.map (Waiting.renumber f) }

variable (q : PacketQueue)

@[simp] theorem isFull_renumber : (q.renumber f).isFull = q.isFull := by
  simp [isFull, renumber]

@[simp] theorem isEmpty_renumber : (q.renumber f).isEmpty = q.isEmpty := by
  simp [isEmpty, renumber]

@[simp] theorem size_renumber : (q.renumber f).size = q.size := by
  simp [size, renumber]

@[simp] theorem headReady_renumber : (q.renumber f).headReady = q.headReady := by
  cases h : q.entries <;> simp [headReady, renumber, Waiting.renumber, h]

@[simp] theorem push?_renumber (ready : Tick) :
    (q.renumber f).push? (p.renumber f) ready = (q.push? p ready).map (renumber f) := by
  simp only [push?, isFull_renumber]
  split
  · rfl
  · simp [renumber, Waiting.renumber]

@[simp] theorem popReady?_renumber :
    (q.renumber f).popReady? now =
      (q.popReady? now).map fun r => (r.1.renumber f, r.2.renumber f) := by
  cases h : q.entries with
  | nil => simp [popReady?, renumber, h]
  | cons w rest =>
    simp only [popReady?, renumber, h, List.map_cons]
    split <;> simp_all [Waiting.renumber]

end PacketQueue

def Reply.renumber {σ : Type} (g : σ → σ) (f : TransactionId → TransactionId)
    (r : Reply σ Delivery) : Reply σ Delivery := ⟨g r.stage, r.actions, r.answer.renumber f⟩

end Expander
