import Expander.Proofs.Transaction
import Expander.Handshake
import Expander.PacketQueue

/-!
Queues whose head has a wake-up.

A queue is roused when its head either waits for a retry or has a wake-up at the tick from which it
may leave, or now if that tick has passed. The wake-ups that count are given as a predicate `due`:
those that are pending, and those that a call has just asked for (`Called`). Every operation of a
stage on one of its queues keeps the queue roused.
-/

set_option autoImplicit false

namespace Expander

def Called (now : Tick) (actions : List Action) (w : Wakeup) : Prop :=
  ∃ tick, Action.wake ⟨tick, w.kind⟩ ∈ actions ∧ w.tick = max tick now

theorem Called.append_left {now : Tick} {first second : List Action} {w : Wakeup}
    (h : Called now first w) : Called now (first ++ second) w := by
  obtain ⟨tick, hmem, htick⟩ := h
  exact ⟨tick, List.mem_append_left _ hmem, htick⟩

theorem Called.append_right {now : Tick} {first second : List Action} {w : Wakeup}
    (h : Called now second w) : Called now (first ++ second) w := by
  obtain ⟨tick, hmem, htick⟩ := h
  exact ⟨tick, List.mem_append_right _ hmem, htick⟩

theorem called_at {now tick : Tick} {kind : EventKind} {actions : List Action}
    (h : Action.at tick kind ∈ actions) : Called now actions ⟨max tick now, kind⟩ :=
  ⟨tick, h, rfl⟩

def OnlyWakes (actions : List Action) : Prop := ∀ a ∈ actions, ∃ w, a = Action.wake w

theorem OnlyWakes.nil : OnlyWakes [] := fun _ h => nomatch h

theorem OnlyWakes.singleton (tick : Tick) (kind : EventKind) : OnlyWakes [.at tick kind] :=
  fun _ h => ⟨⟨tick, kind⟩, List.mem_singleton.1 h⟩

theorem OnlyWakes.ite {condition : Prop} [Decidable condition] (tick : Tick) (kind : EventKind) :
    OnlyWakes (if condition then [.at tick kind] else []) := by
  split
  · exact .singleton tick kind
  · exact .nil

theorem OnlyWakes.append {first second : List Action} (h₁ : OnlyWakes first)
    (h₂ : OnlyWakes second) : OnlyWakes (first ++ second) := by
  intro a ha
  exact (List.mem_append.1 ha).elim (h₁ a) (h₂ a)

theorem OnlyWakes.map_wake (wakes : List Wakeup) : OnlyWakes (wakes.map .wake) := by
  intro a ha
  obtain ⟨w, -, rfl⟩ := List.mem_map.1 ha
  exact ⟨w, rfl⟩

theorem Action.retryRequest_ne_wake (w : Wakeup) : Action.retryRequest ≠ .wake w := by
  intro eq
  cases eq

theorem Action.retryResponse_ne_wake (w : Wakeup) : Action.retryResponse ≠ .wake w := by
  intro eq
  cases eq

theorem OnlyWakes.retryRequest_not_mem {actions : List Action} (h : OnlyWakes actions) :
    Action.retryRequest ∉ actions := by
  intro hmem
  obtain ⟨w, hw⟩ := h _ hmem
  exact Action.retryRequest_ne_wake w hw

theorem OnlyWakes.retryResponse_not_mem {actions : List Action} (h : OnlyWakes actions) :
    Action.retryResponse ∉ actions := by
  intro hmem
  obtain ⟨w, hw⟩ := h _ hmem
  exact Action.retryResponse_ne_wake w hw

/-- A head that does not wait for a retry has a wake-up at the tick from which it may leave, or now
if that tick has passed. -/
def Roused (now : Tick) (due : Wakeup → Prop) (kind : EventKind) (awaiting : Bool)
    (head : Option Tick) : Prop :=
  awaiting = false → ∀ tick, head = some tick → due ⟨max tick now, kind⟩

section Roused

variable {now next : Tick} {due due' : Wakeup → Prop} {kind fired : EventKind} {awaiting : Bool}
  {head : Option Tick}

theorem Roused.mono (h : Roused now due kind awaiting head) (sub : ∀ w, due w → due' w) :
    Roused now due' kind awaiting head :=
  fun free tick first => sub _ (h free tick first)

theorem Roused.later (h : Roused now due kind awaiting head) (le : now ≤ next)
    (ahead : ∀ w, due w → next ≤ w.tick) : Roused next due kind awaiting head := by
  intro free tick first
  have woken := h free tick first
  have bound : next ≤ max tick now := ahead _ woken
  have same : max tick next = max tick now := by grind
  rwa [same]

theorem Roused.ignore (h : Roused now (fun w => w = ⟨now, fired⟩ ∨ due w) kind awaiting head)
    (ne : fired ≠ kind) : Roused now due kind awaiting head := by
  intro free tick first
  cases h free tick first with
  | inl spent => exact absurd (congrArg Wakeup.kind spent).symm ne
  | inr pending => exact pending

theorem roused_awaiting : Roused now due kind true head := fun free => nomatch free

theorem roused_sendAfter :
    Roused now (fun w => due w ∨ Called now ((sendAfter kind now head).map .wake) w) kind awaiting
      head := by
  intro _ tick first
  subst first
  refine .inr ⟨max tick now, ?_, ?_⟩
  · simp [sendAfter]
  · simp

end Roused

namespace PacketQueue

variable {q q' : PacketQueue} {p : Packet} {now ready : Tick}

def packets (q : PacketQueue) : List Packet := q.entries.map fun w => w.packet.bare

theorem push?_eq_some (h : q.push? p ready = some q') :
    q.isFull = false ∧ q' = { q with entries := q.entries ++ [⟨p, ready⟩] } := by
  rw [push?] at h
  split at h
  · cases h
  · rename_i free
    cases h
    exact ⟨Bool.eq_false_iff.2 free, rfl⟩

theorem push?_of_not_full (p : Packet) (ready : Tick) (h : q.isFull = false) :
    q.push? p ready = some { q with entries := q.entries ++ [⟨p, ready⟩] } := by
  rw [push?, h]
  rfl

theorem push?_eq_none (h : q.push? p ready = none) : q.isFull = true := by
  rw [push?] at h
  split at h
  · assumption
  · cases h

theorem popReady?_eq_some (h : q.popReady? now = some (p, q')) :
    ∃ tick, tick ≤ now ∧ q.entries = ⟨p, tick⟩ :: q'.entries ∧ q'.capacity = q.capacity := by
  rw [popReady?] at h
  split at h
  · cases h
  · rename_i w rest hentries
    split at h
    · rename_i ready
      cases h
      exact ⟨w.ready, ready, hentries, rfl⟩
    · cases h

theorem popReady?_eq_none (h : q.popReady? now = none) {tick : Tick}
    (first : q.headReady = some tick) : now < tick := by
  rw [popReady?] at h
  rw [headReady] at first
  split at h
  · rename_i hentries
    simp [hentries] at first
  · rename_i w rest hentries
    split at h
    · cases h
    · rename_i unready
      simp only [hentries, List.head?_cons, Option.map_some, Option.some.injEq] at first
      exact first ▸ Nat.not_le.1 unready

theorem packets_push (h : q.push? p ready = some q') : q'.packets = q.packets ++ [p.bare] := by
  obtain ⟨-, rfl⟩ := push?_eq_some h
  simp [packets]

theorem packets_popReady (h : q.popReady? now = some (p, q')) :
    q.packets = p.bare :: q'.packets := by
  obtain ⟨tick, -, hentries, -⟩ := popReady?_eq_some h
  simp [packets, hentries]

@[simp] theorem packets_pushFront : (q.pushFront p ready).packets = p.bare :: q.packets := rfl

@[simp] theorem capacity_pushFront : (q.pushFront p ready).capacity = q.capacity := rfl

theorem capacity_push (h : q.push? p ready = some q') : q'.capacity = q.capacity := by
  obtain ⟨-, rfl⟩ := push?_eq_some h
  rfl

theorem length_packets : q.packets.length = q.entries.length := List.length_map ..

theorem packets_ne_nil (full : q.isFull = true) (room : q.capacity ≠ some 0) :
    q.packets ≠ [] := by
  rw [← List.length_pos_iff, length_packets]
  cases limit : q.capacity with
  | none => simp [isFull, limit] at full
  | some bound =>
    have pos : 0 < bound := Nat.pos_of_ne_zero fun zero => room (zero ▸ limit)
    simp only [isFull, limit, Option.any_some, decide_eq_true_eq] at full
    exact Nat.lt_of_lt_of_le pos full

theorem packets_eq_nil {due : Wakeup → Prop} {kind : EventKind} {awaiting : Bool}
    (h : Roused now due kind awaiting q.headReady) (none : ∀ w, ¬ due w)
    (free : awaiting = false) : q.packets = [] := by
  cases entries : q.entries with
  | nil => rw [packets, entries, List.map_nil]
  | cons w rest =>
    have first : q.headReady = some w.ready := by
      rw [headReady, entries]
      rfl
    exact absurd (h free w.ready first) (none _)

theorem isFull_congr (length : q'.packets.length = q.packets.length)
    (capacity : q'.capacity = q.capacity) : q'.isFull = q.isFull := by
  rw [length_packets, length_packets] at length
  simp [isFull, length, capacity]

theorem roused_push {due : Wakeup → Prop} {kind : EventKind} {awaiting : Bool}
    (h : Roused now due kind awaiting q.headReady) (push : q.push? p ready = some q') :
    Roused now
      (fun w => due w ∨ Called now (if q.isEmpty && !awaiting then [.at ready kind] else []) w)
      kind awaiting q'.headReady := by
  obtain ⟨-, rfl⟩ := push?_eq_some push
  intro free tick first
  subst free
  cases hentries : q.entries with
  | nil =>
    simp only [headReady, hentries, List.nil_append, List.head?_cons, Option.map_some,
      Option.some.injEq] at first
    subst first
    refine .inr ⟨ready, ?_, rfl⟩
    simp [isEmpty, hentries, Action.at]
  | cons w rest =>
    have same : q.headReady = some tick := by
      simpa [headReady, hentries] using first
    exact .inl (h rfl tick same)

theorem roused_spent {due : Wakeup → Prop} {kind : EventKind} {awaiting : Bool}
    (h : Roused now (fun w => w = ⟨now, kind⟩ ∨ due w) kind awaiting q.headReady)
    (idle : awaiting = false → q.popReady? now = none) :
    Roused now due kind awaiting q.headReady := by
  intro free tick first
  have early : now < tick := popReady?_eq_none (idle free) first
  cases h free tick first with
  | inl spent =>
    have same : max tick now = now := congrArg Wakeup.tick spent
    grind
  | inr pending => exact pending

end PacketQueue

end Expander
