import Expander.Proofs.Chronology
import Expander.Proofs.Clock

/-!
Completions reach the host in the order of time.

What was handed out has reached the host, and whatever waits or leaves to the host later comes to it
no earlier (`Simulation.InTime`). That is so in every state that a system can be in, whatever the
host asks for. A host that is shown the ticks as words sees the same, as long as no tick is larger
than a word (`Session.punctual_run`).
-/

set_option autoImplicit false

namespace Expander

def Completion.Ordered (a b : Completion) : Prop :=
  Tick.word a.completed < Tick.word b.completed ∨
    Tick.word a.completed = Tick.word b.completed ∧ a.id ≤ b.id

namespace Simulation

/-- What was handed out has reached the host, in order, and no waiting completion is earlier. -/
structure InTime (s : Simulation) (handed : List Completion) : Prop where
  past : ∀ c ∈ handed, c.completed ≤ s.now
  waiting : ∀ c ∈ handed, ∀ d ∈ s.completions, c.completed ≤ d.completed
  order : handed.Pairwise fun a b => a.completed ≤ b.completed

variable {s s' : Simulation} {handed : List Completion}

theorem InTime.elapses (inTime : s.InTime handed) (elapses : s.Elapses s') :
    s'.InTime handed where
  past c mem := Nat.le_trans (inTime.past c mem) elapses.now
  waiting c mem d waits := by
    obtain ⟨stamped, completions, late⟩ := elapses.completions
    rw [completions] at waits
    rcases List.mem_append.1 waits with before | new
    · exact inTime.waiting c mem d before
    · exact Nat.le_trans (inTime.past c mem) (late d new)
  order := inTime.order

theorem InTime.take (inTime : s.InTime handed) :
    s.takeCompletions.2.InTime (handed ++ s.takeCompletions.1) where
  past c mem := by
    rcases List.mem_append.1 mem with before | taken
    · exact inTime.past c before
    · exact (mem_takeCompletions.1 taken).2
  waiting c mem d left := by
    obtain ⟨waits, late⟩ := mem_left_takeCompletions.1 left
    rcases List.mem_append.1 mem with before | taken
    · exact inTime.waiting c before d waits
    · exact Nat.le_of_lt (Nat.lt_of_le_of_lt (mem_takeCompletions.1 taken).2 late)
  order := by
    refine List.pairwise_append.2 ⟨inTime.order, ?_, fun c before d taken =>
      inTime.waiting c before d (mem_takeCompletions.1 taken).1⟩
    refine s.ordered_takeCompletions.imp fun {a b} ordered => ?_
    rcases ordered with earlier | ⟨same, -⟩
    · exact Nat.le_of_lt earlier
    · exact Nat.le_of_eq same

/-- Time goes from one tick to another through some systems, and not back on its way. -/
structure Spans (first last : Tick) (systems : List Simulation) : Prop where
  le : first ≤ last
  since : ∀ s ∈ systems, first ≤ s.now
  upTo : ∀ s ∈ systems, s.now ≤ last
  order : systems.Pairwise fun s s' => s.now ≤ s'.now

theorem Spans.single {last : Tick} (le : s.now ≤ last) : Spans s.now last [s] where
  le := le
  since := List.forall_mem_singleton.2 (Nat.le_refl _)
  upTo := List.forall_mem_singleton.2 le
  order := List.pairwise_singleton ..

theorem Spans.append {first middle last : Tick} {before after : List Simulation}
    (left : Spans first middle before) (right : Spans middle last after) :
    Spans first last (before ++ after) where
  le := Nat.le_trans left.le right.le
  since := List.forall_mem_append.2
    ⟨left.since, fun s mem => Nat.le_trans left.le (right.since s mem)⟩
  upTo := List.forall_mem_append.2
    ⟨fun s mem => Nat.le_trans (left.upTo s mem) right.le, right.upTo⟩
  order := List.pairwise_append.2 ⟨left.order, right.order, fun s mem s' mem' =>
    Nat.le_trans (left.upTo s mem) (right.since s' mem')⟩

theorem Spans.widen {first last later : Tick} {systems : List Simulation}
    (spans : Spans first last systems) (le : last ≤ later) : Spans first later systems where
  le := Nat.le_trans spans.le le
  since := spans.since
  upTo s mem := Nat.le_trans (spans.upTo s mem) le
  order := spans.order

theorem spans_drained (due : EventQueue → Option (Event × EventQueue)) (fuel : Nat)
    (s : Simulation) : Spans s.now (drain due fuel s).2.now (drained due fuel s) := by
  induction fuel generalizing s with
  | zero =>
    rw [drain]
    split <;> exact .single (Nat.le_refl _)
  | succ fuel ih =>
    rw [drain, drained]
    cases due s.events with
    | none => exact .single (Nat.le_refl _)
    | some popped =>
      obtain ⟨e, events⟩ := popped
      have le := (s.elapses_popped e events.events).now
      rw [Simulation.popped] at le
      dsimp only
      generalize Simulation.dispatch _ e = handled at le ⊢
      obtain ⟨outcome, next⟩ := handled
      cases outcome with
      | ok => exact .append (.single le) (ih next)
      | error => exact .append (.single le) (.single (Nat.le_refl _))

theorem now_drain_le_runUntil (s : Simulation) (limit : Tick) :
    (drain (fun q => q.popDue limit) s.budget s).2.now ≤ (s.runUntil limit).2.now := by
  rw [runUntil]
  split
  next eq =>
    rw [eq]
    exact Nat.le_max_left ..
  next => exact Nat.le_refl _

theorem now_drain_le_runUntilIdle (s : Simulation) :
    (drain EventQueue.pop s.budget s).2.now ≤ s.runUntilIdle.2.now := by
  rw [runUntilIdle]
  split
  next eq =>
    rw [eq]
    exact Nat.le_max_left ..
  next => exact Nat.le_refl _

theorem spans_polled (fuel : Nat) (s : Simulation) :
    Spans s.now (pollWithin fuel s).2.2.now (polled fuel s) := by
  induction fuel generalizing s with
  | zero => exact .single (Nat.le_refl _)
  | succ fuel ih =>
    have advance (tick : Tick) :
        Spans s.now (pollOn fuel (s.runUntil tick)).2.2.now
          (drained (fun q => q.popDue tick) s.budget s ++
            if (s.runUntil tick).1 = .settled then polled fuel (s.runUntil tick).2
            else [(s.runUntil tick).2]) := by
      have drained := (spans_drained (fun q => q.popDue tick) s.budget s).widen
        (now_drain_le_runUntil s tick)
      generalize s.runUntil tick = run at drained ⊢
      obtain ⟨halt, ran⟩ := run
      cases halt with
      | settled => exact drained.append (ih ran)
      | fault | exhausted => exact drained.append (.single (Nat.le_refl _))
    have waits (tick : Tick) : s.now ≤ max s.now tick := Nat.le_max_left ..
    rw [polled]
    rcases pollWithin_succ fuel s with ⟨tick, next, early, eq⟩ | ⟨completed, waiting, late, eq⟩ |
      ⟨none, none', eq⟩
    · rw [eq, next]
      cases waiting : s.nextCompletion with
      | none => exact advance tick
      | some completed =>
        simp only [if_pos (early completed waiting)]
        exact advance tick
    · rw [eq, waiting]
      cases next : s.nextEventTick with
      | none => exact .single (waits completed)
      | some tick =>
        simp only [if_neg (Nat.not_le_of_lt (late tick next))]
        exact .single (waits completed)
    · rw [eq, none, none']
      exact .single (Nat.le_refl _)

end Simulation

namespace Session

/-- The completions that the host is given for one of its acts. -/
def given (h : Session) : HostAct → List Completion
  | .call call => h.handed call
  | .send _ | .perform _ => []

/-- The lists that the host is given, one list for each of its acts. -/
def handouts (h : Session) : List HostAct → List (List Completion)
  | [] => []
  | act :: acts => h.given act :: (h.act act).handouts acts

/-- How the completions that the host is given follow each other, as words of 64 bits show it. -/
structure Punctual (h : Session) (acts : List HostAct) : Prop where
  /-- Neither an event nor an act of the host takes the time back. -/
  clock : (h.systems acts).Pairwise fun s s' => Tick.word s.now ≤ Tick.word s'.now
  /-- What is handed out has reached the host. -/
  landed : ∀ before act, before ++ [act] <+: acts → ∀ c ∈ (h.acts before).given act,
    Tick.word c.completed ≤ Tick.word (h.acts (before ++ [act])).system.now
  ordered : ∀ handed ∈ h.handouts acts, handed.Pairwise Completion.Ordered
  /-- What is handed out later was not completed earlier. -/
  inOrder : (h.handouts acts).flatten.Pairwise fun a b =>
    Tick.word a.completed ≤ Tick.word b.completed

/-- Time passes and nothing is handed out, or the host takes what has reached it by then. -/
inductive Gives (s : Simulation) : List Completion → Simulation → Prop
  | nothing {s' : Simulation} : s.Elapses s' → Gives s [] s'
  | taken {ran : Simulation} :
      s.Elapses ran → Gives s ran.takeCompletions.1 ran.takeCompletions.2

variable {h : Session} {s s' : Simulation} {handed before : List Completion} {acts : List HostAct}

theorem elapses_immediate (h : Session) {call : HostCall} (immediate : call.immediate = true)
    (keeps : call ≠ .take) : h.system.Elapses (h.after call).system := by
  obtain ⟨now, completions, -⟩ := h.untimed immediate keeps
  exact (Simulation.SameClock.stamps ⟨now, completions⟩).elapses

theorem gives_act (h : Session) (act : HostAct) :
    Gives h.system (h.given act) (h.act act).system := by
  cases act with
  | send r =>
    have same := h.system.sameClock_sendRequest r
    rw [Session.act, send]
    split <;> rename_i eq <;> rw [eq] at same <;> exact .nothing same.stamps.elapses
  | perform r => exact .nothing (h.system.sameClock_accessAtomic r).stamps.elapses
  | call call =>
    cases call with
    | runUntil limit => exact .nothing (h.system.elapses_runUntil limit)
    | runUntilIdle => exact .nothing h.system.elapses_runUntilIdle
    | take => exact .taken (.refl h.system)
    | poll =>
      rcases Simulation.elapses_pollWithin (h.system.budget + 1) h.system with
        ⟨none, elapses⟩ | ⟨ran, elapses, taken⟩
      · have gives := Gives.nothing elapses
        rwa [← none] at gives
      · have gives := Gives.taken elapses
        rwa [← taken] at gives
    | send | atomic | takeRetry | load =>
      refine .nothing (h.elapses_immediate ?_ fun take => ?_)
      · rfl
      · cases take

theorem Gives.le (gives : Gives s handed s') : s.now ≤ s'.now := by
  cases gives with
  | nothing elapses | taken elapses => exact elapses.now

theorem Gives.landed (gives : Gives s handed s') : ∀ c ∈ handed, c.completed ≤ s'.now := by
  cases gives with
  | nothing => exact nofun
  | taken => exact fun c mem => (Simulation.mem_takeCompletions.1 mem).2

theorem Gives.ordered (gives : Gives s handed s') : handed.Pairwise fun a b =>
    a.completed < b.completed ∨ a.completed = b.completed ∧ a.id ≤ b.id := by
  cases gives with
  | nothing => exact List.Pairwise.nil
  | @taken ran => exact ran.ordered_takeCompletions

theorem Gives.inTime (gives : Gives s handed s') (inTime : s.InTime before) :
    s'.InTime (before ++ handed) := by
  cases gives with
  | nothing elapses =>
    rw [List.append_nil]
    exact inTime.elapses elapses
  | taken elapses => exact (inTime.elapses elapses).take

theorem inTime_acts (inTime : h.system.InTime before) (acts : List HostAct) :
    (h.acts acts).system.InTime (before ++ (h.handouts acts).flatten) := by
  induction acts generalizing h before with
  | nil => exact (List.append_nil before).symm ▸ inTime
  | cons act acts ih =>
    have rest := ih ((h.gives_act act).inTime inTime)
    rwa [List.append_assoc] at rest

theorem spans_course (h : Session) (call : HostCall) :
    Simulation.Spans h.system.now (h.after call).system.now (h.course call) := by
  have le := (h.gives_act (.call call)).le
  cases call with
  | runUntil limit =>
    exact (Simulation.spans_drained _ _ _).widen (Simulation.now_drain_le_runUntil ..)
  | runUntilIdle =>
    exact (Simulation.spans_drained _ _ _).widen (Simulation.now_drain_le_runUntilIdle _)
  | poll => exact Simulation.spans_polled _ _
  | send | atomic | take | takeRetry | load => exact .single le

theorem spans_systems (h : Session) (acts : List HostAct) :
    Simulation.Spans h.system.now (h.acts acts).system.now (h.systems acts) := by
  induction acts generalizing h with
  | nil => exact .single (Nat.le_refl _)
  | cons act acts ih =>
    refine .append ?_ (ih (h.act act))
    have le := (h.gives_act act).le
    cases act with
    | call call => exact h.spans_course call
    | send | perform => exact .single le

theorem mem_systems_acts (h : Session) (acts : List HostAct) :
    (h.acts acts).system ∈ h.systems acts := by
  induction acts generalizing h with
  | nil => exact List.mem_singleton_self _
  | cons act acts ih => exact List.mem_append_right _ (ih _)

theorem Fits.now_le (fits : h.Fits acts) : ∀ s ∈ h.systems acts, s.now ≤ lastTick :=
  fun s mem => fits.1 s mem s.now List.mem_cons_self

theorem mem_handouts (mem : handed ∈ h.handouts acts) :
    ∃ before act, before ++ [act] <+: acts ∧ handed = (h.acts before).given act := by
  induction acts generalizing h with
  | nil => cases mem
  | cons first acts ih =>
    rcases List.mem_cons.1 mem with rfl | later
    · exact ⟨[], first, ⟨acts, rfl⟩, rfl⟩
    · obtain ⟨before, act, ⟨rest, split⟩, eq⟩ := ih later
      exact ⟨first :: before, act, ⟨rest, congrArg (first :: ·) split⟩, eq⟩

/-- As long as no tick is larger than a word, completions reach the host in the order of time. -/
theorem punctual_run (fits : h.Fits acts) : h.Punctual acts := by
  have last : (h.acts acts).system.now ≤ lastTick := fits.now_le _ (h.mem_systems_acts acts)
  have before_last {before : List HostAct} {act : HostAct} (part : before ++ [act] <+: acts) :
      (h.acts (before ++ [act])).system.now ≤ lastTick := by
    obtain ⟨rest, rfl⟩ := part
    have onward := (h.acts (before ++ [act])).spans_systems rest
    rw [← acts_append] at onward
    exact Nat.le_trans onward.le last
  have gives (before : List HostAct) (act : HostAct) :
      Gives (h.acts before).system ((h.acts before).given act)
        (h.acts (before ++ [act])).system := by
    rw [acts_append]
    exact (h.acts before).gives_act act
  refine ⟨?_, fun before act part c mem => ?_, fun handed mem => ?_, ?_⟩
  · exact (h.spans_systems acts).order.imp_of_mem fun _ mem le =>
      Tick.word_le_word (fits.now_le _ mem) le
  · exact Tick.word_le_word (before_last part) ((gives before act).landed c mem)
  · obtain ⟨before, act, part, rfl⟩ := mem_handouts mem
    refine (gives before act).ordered.imp_of_mem fun {a b} _ mem' ordered => ?_
    have fits' := Nat.le_trans ((gives before act).landed b mem') (before_last part)
    exact ordered.imp (Tick.word_lt_word fits') fun same => ⟨congrArg Tick.word same.1, same.2⟩
  · have nothing : h.system.InTime [] := ⟨nofun, nofun, List.Pairwise.nil⟩
    have inTime := inTime_acts nothing acts
    rw [List.nil_append] at inTime
    exact inTime.order.imp_of_mem fun {a b} _ mem' le =>
      Tick.word_le_word (Nat.le_trans (inTime.past b mem') last) le

/-- A write of system memory overtakes an earlier read of the expander. -/
theorem punctual_overtaken :
    let acts := [.send (.read 0x100000000 64), .send (.write 0x1000 [1]), .call .poll, .call .poll]
    ∃ s, Simulation.create .standard {} = .ok s ∧ (start s).Fits acts ∧
      ((start s).handouts acts).map (fun handed => handed.map fun c => c.id) =
        [[], [], [1], [0]] ∧
      (start s).Punctual acts := by
  intro acts
  obtain ⟨s, created⟩ : ∃ s, Simulation.create .standard {} = .ok s := ⟨_, rfl⟩
  have fits : (start s).Fits acts := by
    cases created
    decide +kernel
  refine ⟨s, created, fits, ?_, punctual_run fits⟩
  cases created
  decide +kernel

/-- A read that is sent shortly before the last tick is completed behind it, and shown before one
that was handed out long ago. -/
theorem not_punctual_late :
    let acts : List HostAct := [.send (.read 0 64), .call .runUntilIdle, .call .take,
      .call (.runUntil (lastTick - 33000)), .send (.read 0 64)]
    ∃ s, Simulation.create .standard {} = .ok s ∧ (start s).Fits acts ∧
      ((start s).handouts (acts ++ [.call .runUntilIdle, .call .take])).flatten.map
        (fun c => (c.id, c.completed, Tick.word c.completed)) =
          [(0, 39000, 39000), (1, lastTick + 6000, 5999)] ∧
      ¬ (start s).Punctual (acts ++ [.call .runUntilIdle, .call .take]) := by
  intro acts
  obtain ⟨s, created⟩ : ∃ s, Simulation.create .standard {} = .ok s := ⟨_, rfl⟩
  refine ⟨s, created, ?_, ?_, fun punctual => ?_⟩
  · cases created
    decide +kernel
  · cases created
    decide +kernel
  · have inOrder := punctual.inOrder
    revert inOrder
    cases created
    decide +kernel

end Session

end Expander
