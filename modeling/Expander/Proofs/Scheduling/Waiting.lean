import Expander.Proofs.Scheduling.Picks

/-!
How long a burst waits in the queues of a controller.

A burst is followed by its place in its queue: when a burst before it leaves, it moves up. A burst
that has waited as long as the threshold is passed over only in favour of those before it, of which
there are fewer than its queue can hold. A read waits for writes too, but while a read is queued
every phase of writes is short.
-/

set_option autoImplicit false

namespace Expander.Controller

variable {μ : Type} {c c' : Controller μ} {now : Tick} {b : Burst} {pick : Pick}

/-- The controllers that calls can lead to. -/
inductive Reachable [MediaChannel μ] : Controller μ → Prop
  | created {m name range config geometry media store} {c : Controller μ}
      (made : create m name range config geometry media store = .ok c) : Reachable c
  | called {c : Controller μ} (reached : Reachable c) (call : Call) : Reachable (c.after call)

/-- What every call keeps of the queues and the phase of the bus. -/
structure Orderly (c : Controller μ) : Prop where
  /-- A controller without channels serves no addresses. -/
  uninhabited : c.media = [] → c.range.size = 0
  housed : c.Housed
  kinds : ∀ d, ∀ b ∈ c.queue d, b.kind = d.kind
  room : ∀ d, (c.queue d).length ≤ c.config.bufferSize d
  /-- While the bus serves reads, no writes are counted. -/
  phase : c.direction = .read → c.writesThisPhase = 0
  /-- The index gives the offsets of the queued writes. -/
  indexed : c.queuedWrites.Perm (c.writeQueue.map (·.offset))
  /-- A starved burst has not yet been passed over by everything that was before it. -/
  patience : ∀ d place b, (c.queue d)[place]? = some b →
    c.config.starvationThreshold ≤ b.roundsWaited →
      b.roundsWaited + place < c.config.starvationThreshold + c.config.bufferSize d

theorem Orderly.prune (h : c.Orderly) (now : Tick) : (c.prune now).Orderly :=
  ⟨h.uninhabited, h.housed, h.kinds, h.room, h.phase, h.indexed, h.patience⟩

theorem Orderly.beforeRound (h : c.Orderly) (now : Tick) : (c.beforeRound now).Orderly :=
  ⟨h.uninhabited, h.housed, h.kinds, h.room, h.phase, h.indexed, h.patience⟩

theorem orderly_create {m : Machine} {name : String} {range : AddressRange}
    {config : ControllerConfig} {geometry : Geometry} {media : List μ} {store : Store}
    (made : create m name range config geometry media store = .ok c) : c.Orderly := by
  obtain ⟨channels, capacity, -, rfl⟩ := create_eq_ok made
  have empty (d : BusDirection) : Controller.queue
      { name, range, config, decoder := ⟨geometry, config.addressMapping⟩, media, store :
        Controller μ } d = [] := by
    cases d <;> rfl
  refine ⟨?_, fun _ => empty, ?_, ?_, fun _ => rfl, List.Perm.refl _, ?_⟩
  · rintro rfl
    have nothing : geometry.capacity = 0 := by
      simp [Geometry.capacity, ← channels]
    exact Nat.eq_zero_of_le_zero (nothing ▸ capacity)
  · intro d
    rw [empty]
    exact nofun
  · intro d
    rw [empty]
    exact Nat.zero_le _
  · intro d
    rw [empty]
    exact nofun

theorem orderly_joins (h : c.Orderly) (joins : c.Joins c') : c'.Orderly := by
  obtain ⟨config, range, media, direction, phase, -, queue⟩ := joins
  refine ⟨?_, ?_, ?_, ?_, ?_, ?_, ?_⟩
  · rw [media, range]
    exact h.uninhabited
  · intro none d
    rw [media] at none
    obtain ⟨fresh, eq, -, room⟩ := queue d
    rw [eq, h.housed none d, List.nil_append]
    by_contra some
    exact (room.1 some).2 (h.uninhabited none)
  · intro d b mem
    obtain ⟨fresh, eq, new, -⟩ := queue d
    rw [eq, List.mem_append] at mem
    rcases mem with old | joined
    · exact h.kinds d b old
    · exact (new b joined).1
  · intro d
    obtain ⟨fresh, eq, -, room⟩ := queue d
    rw [config]
    by_cases none : fresh = []
    · rw [eq, none, List.append_nil]
      exact h.room d
    · exact (room.1 none).1
  · rw [direction, phase]
    exact h.phase
  · obtain ⟨fresh, eq, -, -, index⟩ := queue .write
    have writes : c'.writeQueue = c.writeQueue ++ fresh := eq
    rw [index rfl, writes, List.map_append]
    exact h.indexed.append_right _
  · intro d place b found starved
    obtain ⟨fresh, eq, new, room⟩ := queue d
    rw [config] at starved ⊢
    by_cases old : place < (c.queue d).length
    · rw [eq, List.getElem?_append_left old] at found
      exact h.patience d place b found starved
    · have lt : place < (c'.queue d).length := (List.getElem?_eq_some_iff.1 found).1
      rw [eq, List.getElem?_append_right (Nat.le_of_not_lt old)] at found
      have joined := List.mem_of_getElem? found
      have fits := (room.1 (List.ne_nil_of_mem joined)).1
      rw [(new b joined).2] at starved ⊢
      omega

theorem getElem?_passOver (queue : List Burst) (index place : Nat) :
    (passOver queue index)[place]? = (queue[if place < index then place else place + 1]?).map
      fun b => { b with roundsWaited := b.roundsWaited + 1 } := by
  rw [passOver, List.getElem?_map, List.getElem?_eraseIdx]
  split <;> rfl

theorem nextWrites_of_read (phase : c.direction = .read → c.writesThisPhase = 0)
    (facing : c.nextDirection = .read) : c.nextWritesThisPhase = 0 := by
  rw [nextDirection] at facing
  rw [nextWritesThisPhase]
  cases direction : c.direction with
  | read => simp [phase direction]
  | write =>
    cases turns : c.turnsAround with
    | false => simp [turns, direction] at facing
    | true => rfl

theorem follow_joins (joins : c.Joins c') {d : BusDirection} {place : Nat}
    (found : (c.queue d)[place]? = some b) : (c'.queue d)[place]? = some b := by
  obtain ⟨fresh, eq, -, -⟩ := joins.queue d
  rw [eq, List.getElem?_append_left (List.getElem?_eq_some_iff.1 found).1]
  exact found

theorem Orderly.waited_lt (h : c.Orderly) {d : BusDirection} {place : Nat}
    (found : (c.queue d)[place]? = some b) :
    b.roundsWaited < c.config.starvationThreshold + c.config.bufferSize d := by
  by_cases starved : c.config.starvationThreshold ≤ b.roundsWaited
  · have bound := h.patience d place b found starved
    omega
  · omega

def Pick.placeAfter (pick : Pick) (d : BusDirection) (place : Nat) : Nat :=
  if pick.direction = d ∧ pick.place < place then place - 1 else place

def ownRoundsLeft (d : BusDirection) (c : Controller μ) (b : Burst) : Nat :=
  c.config.starvationThreshold + c.config.bufferSize d - b.roundsWaited

def writesBeforeRead (c : Controller μ) : Nat :=
  match c.direction with
  | .read => max 1 c.config.minWritesPerSwitch
  | .write => c.config.minWritesPerSwitch - c.writesThisPhase

theorem writesBeforeRead_le (c : Controller μ) :
    c.writesBeforeRead ≤ max 1 c.config.minWritesPerSwitch := by
  rw [writesBeforeRead]
  cases c.direction with
  | read => exact Nat.le_refl _
  | write =>
    simp only
    omega

def roundsLeft (c : Controller μ) (b : Burst) : Nat :=
  (ownRoundsLeft .read c b - 1) * (1 + max 1 c.config.minWritesPerSwitch) +
    c.writesBeforeRead + 1

theorem roundsLeft_le (h : c.Orderly) {place : Nat} (found : c.readQueue[place]? = some b) :
    c.roundsLeft b ≤ (c.config.starvationThreshold + c.config.readBufferSize) *
      (1 + max 1 c.config.minWritesPerSwitch) := by
  have lt : b.roundsWaited < c.config.starvationThreshold + c.config.readBufferSize :=
    h.waited_lt (d := .read) found
  have writes := writesBeforeRead_le c
  have left : ownRoundsLeft .read c b - 1 + 1 ≤
      c.config.starvationThreshold + c.config.readBufferSize := by
    rw [ownRoundsLeft, ControllerConfig.bufferSize]
    omega
  calc c.roundsLeft b
      ≤ (ownRoundsLeft .read c b - 1) * (1 + max 1 c.config.minWritesPerSwitch) +
          (1 + max 1 c.config.minWritesPerSwitch) := by
        rw [roundsLeft]
        omega
    _ = (ownRoundsLeft .read c b - 1 + 1) * (1 + max 1 c.config.minWritesPerSwitch) :=
        (Nat.succ_mul _ _).symm
    _ ≤ _ := Nat.mul_le_mul_right _ left

section Rounds

variable [MediaChannel μ]

theorem queue_issues (issues : c.Issues now pick c') {d : BusDirection}
    (other : pick.direction ≠ d) : c'.queue d = c.queue d := by
  have eq : d = pick.direction.other := by
    cases facing : pick.direction <;> cases d <;> simp_all [BusDirection.other]
  rw [eq]
  exact issues.other

theorem indexed_issues (h : c.Orderly) (issues : c.Issues now pick c') :
    c'.queuedWrites.Perm (c'.writeQueue.map (·.offset)) := by
  have kind : pick.burst.kind = pick.direction.kind :=
    h.kinds _ _ (List.mem_of_getElem? issues.found)
  rw [issues.index, indexWithout, kind]
  cases facing : pick.direction with
  | read =>
    have writes : c'.writeQueue = c.writeQueue :=
      queue_issues (d := .write) issues (by simp [facing])
    rw [writes]
    exact h.indexed
  | write =>
    have served := issues.served
    have found := issues.found
    rw [facing] at served found
    have writes : c'.writeQueue = passOver c.writeQueue pick.place := served
    have found' : c.writeQueue[pick.place]? = _ := found
    have split := passOver_perm (·.offset) (fun _ => rfl) found'
    rw [← writes] at split
    have smaller := (h.indexed.trans split).erase pick.burst.offset
    rwa [List.erase_cons_head] at smaller

theorem length_issues (issues : c.Issues now pick c') (d : BusDirection) :
    (c'.queue d).length ≤ (c.queue d).length := by
  by_cases same : pick.direction = d
  · rw [← same, issues.served]
    simp [passOver, List.length_eraseIdx_of_lt (List.getElem?_eq_some_iff.1 issues.found).1]
  · rw [queue_issues issues same]

/-- A starved burst that is passed over again was behind the one that was issued. -/
theorem patience_issues (h : c.Orderly) (issues : c.Issues now pick c') {d : BusDirection}
    {place : Nat} {b : Burst} (found : (c'.queue d)[place]? = some b)
    (starved : c.config.starvationThreshold ≤ b.roundsWaited) :
    b.roundsWaited + place < c.config.starvationThreshold + c.config.bufferSize d := by
  by_cases same : pick.direction = d
  · subst same
    have lt := (List.getElem?_eq_some_iff.1 issues.found).1
    have room := h.room pick.direction
    have short : place < (c'.queue pick.direction).length :=
      (List.getElem?_eq_some_iff.1 found).1
    rw [issues.served, getElem?_passOver] at found
    obtain ⟨old, oldFound, rfl⟩ := Option.map_eq_some_iff.1 found
    simp only at starved ⊢
    by_cases already : c.config.starvationThreshold ≤ old.roundsWaited
    · -- A starved burst is passed over by one that was before it, so it has moved up.
      by_cases behind : place < pick.place
      · rw [if_pos behind] at oldFound
        have before := issues.eldest oldFound already
        omega
      · rw [if_neg behind] at oldFound
        have bound := h.patience _ _ _ oldFound already
        omega
    · have shorter : (passOver (c.queue pick.direction) pick.place).length <
          (c.queue pick.direction).length := by
        rw [passOver, List.length_map, List.length_eraseIdx_of_lt lt]
        omega
      rw [issues.served] at short
      omega
  · rw [queue_issues issues same] at found
    exact h.patience d place b found starved

theorem orderly_issues (h : c.Orderly) (issues : c.Issues now pick c') : c'.Orderly := by
  have kind : pick.burst.kind = pick.direction.kind :=
    h.kinds _ _ (List.mem_of_getElem? issues.found)
  have housed : c'.media ≠ [] := by
    obtain ⟨channel, home, set⟩ := issues.media
    have some := (List.getElem?_eq_some_iff.1 home).1
    rw [set]
    intro none
    rw [List.set_eq_nil_iff] at none
    rw [none] at some
    exact absurd some (Nat.not_lt_zero _)
  refine ⟨fun none => absurd none housed, fun none => absurd none housed, ?_, ?_, ?_, ?_, ?_⟩
  · intro d
    by_cases same : pick.direction = d
    · rw [← same, issues.served]
      exact kind_passOver (h.kinds _)
    · rw [queue_issues issues same]
      exact h.kinds d
  · intro d
    rw [issues.config]
    exact Nat.le_trans (length_issues issues d) (h.room d)
  · rw [issues.direction, issues.phase, kind]
    intro reads
    have none := nextWrites_of_read h.phase (issues.facing.symm.trans reads)
    rw [none, reads]
    rfl
  · exact indexed_issues h issues
  · rw [issues.config]
    exact fun d place b found starved => patience_issues h issues found starved

theorem Reachable.orderly (h : c.Reachable) : c.Orderly := by
  induction h with
  | created made => exact orderly_create made
  | called _ call ih =>
    rcases after_cases ih.housed call with ⟨-, joins⟩ | ⟨now, pick, -, -, issues⟩
    · exact orderly_joins ih joins
    · exact orderly_issues ih issues

def roundCount (ds : List BusDirection) (c : Controller μ) (call : Call) : Nat :=
  match c.picked call with
  | none => 0
  | some pick => if pick.direction ∈ ds then 1 else 0

def roundsServing (ds : List BusDirection) (c : Controller μ) : List Call → Nat
  | [] => 0
  | call :: calls => c.roundCount ds call + (c.after call).roundsServing ds calls

/-- Follows a burst from its place in a queue through a run. If the run issues it, gives the rounds
before that one which serve one of the directions, and the burst as it is issued. -/
def issueOf (ds : List BusDirection) (d : BusDirection) (c : Controller μ) (place : Nat) :
    List Call → Option (Nat × Burst)
  | [] => none
  | call :: calls =>
    match c.picked call with
    | none => (c.after call).issueOf ds d place calls
    | some pick =>
      if pick.direction = d ∧ pick.place = place then some (0, pick.burst)
      else ((c.after call).issueOf ds d (pick.placeAfter d place) calls).map fun later =>
        (later.1 + c.roundCount ds call, later.2)

/-- What a round does to a burst of a queue: it issues the burst, passes it over for another one of
the same queue, or serves the other queue. -/
theorem follow_issues (issues : c.Issues now pick c') {d : BusDirection} {place : Nat}
    (found : (c.queue d)[place]? = some b) :
    (pick.direction = d ∧ pick.place = place ∧ pick.burst = b) ∨
      (pick.direction = d ∧ pick.place ≠ place ∧ (c'.queue d)[pick.placeAfter d place]? =
        some { b with roundsWaited := b.roundsWaited + 1 }) ∨
      (pick.direction ≠ d ∧ (c'.queue d)[pick.placeAfter d place]? = some b) := by
  by_cases same : pick.direction = d
  · subst same
    by_cases here : pick.place = place
    · refine .inl ⟨rfl, here, ?_⟩
      rw [← here, issues.found] at found
      exact Option.some.inj found
    · refine .inr (.inl ⟨rfl, here, ?_⟩)
      rw [issues.served, getElem?_passOver]
      by_cases before : pick.place < place
      · have up : pick.placeAfter pick.direction place = place - 1 := if_pos ⟨rfl, before⟩
        have behind : ¬ place - 1 < pick.place := by omega
        have back : place - 1 + 1 = place := by omega
        rw [up, if_neg behind, back, found]
        rfl
      · have stays : pick.placeAfter pick.direction place = place := if_neg fun h => before h.2
        have ahead : place < pick.place := by omega
        rw [stays, if_pos ahead, found]
        rfl
  · refine .inr (.inr ⟨same, ?_⟩)
    have stays : pick.placeAfter d place = place := if_neg fun h => same h.1
    rw [queue_issues issues same, stays]
    exact found

/-- A burst of a queue is issued as it is but for the rounds of its direction that it has waited. -/
theorem issueOf_burst (h : c.Orderly) {d : BusDirection} {place : Nat}
    (found : (c.queue d)[place]? = some b) {calls : List Call} {waited : Nat} {issued : Burst}
    (eq : c.issueOf [d] d place calls = some (waited, issued)) :
    issued = { b with roundsWaited := b.roundsWaited + waited } := by
  induction calls generalizing c place b waited with
  | nil => cases eq
  | cons call calls ih =>
    rw [issueOf] at eq
    rcases after_cases h.housed call with ⟨none, joins⟩ | ⟨now, pick, -, chosen, issues⟩
    · rw [none] at eq
      exact ih (orderly_joins h joins) (follow_joins joins found) eq
    · rw [chosen] at eq
      simp only at eq
      have next := orderly_issues h issues
      rcases follow_issues issues found with ⟨same, here, rfl⟩ | ⟨same, other, kept⟩ |
        ⟨other, kept⟩
      · rw [if_pos ⟨same, here⟩] at eq
        cases eq
        rfl
      · rw [if_neg fun h => other h.2, Option.map_eq_some_iff] at eq
        obtain ⟨later, found, moved⟩ := eq
        have one : c.roundCount [d] call = 1 := by simp [roundCount, chosen, same]
        rw [one] at moved
        cases moved
        rw [ih next kept found, Nat.add_right_comm, Nat.add_assoc]
      · rw [if_neg fun h => other h.1, Option.map_eq_some_iff] at eq
        obtain ⟨later, found, moved⟩ := eq
        have zero : c.roundCount [d] call = 0 := by simp [roundCount, chosen, other]
        rw [zero] at moved
        cases moved
        exact ih next kept found

/-- Rounds that a burst of a queue may still have to wait, as every round that counts uses up one:
while a burst is queued some are left. -/
structure Budget (ds : List BusDirection) (d : BusDirection)
    (budget : Controller μ → Burst → Nat) : Prop where
  positive : ∀ {c : Controller μ} {place : Nat} {b}, c.Orderly →
    (c.queue d)[place]? = some b → 0 < budget c b
  joins : ∀ {c c' : Controller μ} {b}, c.Joins c' → budget c' b = budget c b
  passed : ∀ {c c' : Controller μ} {now pick b}, c.Orderly → c.Issues now pick c' →
    b.roundsWaited + 1 < c.config.starvationThreshold + c.config.bufferSize d →
      pick.direction = d → budget c' { b with roundsWaited := b.roundsWaited + 1 } +
        (if pick.direction ∈ ds then 1 else 0) ≤ budget c b
  other : ∀ {c c' : Controller μ} {now pick b}, c.Orderly → c.Issues now pick c' →
    c.queue d ≠ [] → pick.direction ≠ d →
      budget c' b + (if pick.direction ∈ ds then 1 else 0) ≤ budget c b

/-- A burst is issued before its budget is used up. -/
theorem issueOf_budget {ds : List BusDirection} {d : BusDirection}
    {budget : Controller μ → Burst → Nat} (within : Budget ds d budget) (h : c.Orderly)
    {place : Nat} (found : (c.queue d)[place]? = some b) (calls : List Call) :
    (∀ waited issued, c.issueOf ds d place calls = some (waited, issued) →
      waited < budget c b) ∧
      (c.issueOf ds d place calls = none → c.roundsServing ds calls < budget c b) := by
  induction calls generalizing c place b with
  | nil => exact ⟨nofun, fun _ => within.positive h found⟩
  | cons call calls ih =>
    rw [issueOf, roundsServing]
    rcases after_cases h.housed call with ⟨none, joins⟩ | ⟨now, pick, -, chosen, issues⟩
    · have later := ih (orderly_joins h joins) (follow_joins joins found)
      have zero : c.roundCount ds call = 0 := by simp [roundCount, none]
      rw [within.joins joins] at later
      rw [none, zero, Nat.zero_add]
      exact later
    · have next := orderly_issues h issues
      have count : c.roundCount ds call = if pick.direction ∈ ds then 1 else 0 := by
        rw [roundCount, chosen]
      rw [chosen, count]
      simp only
      rcases follow_issues issues found with ⟨same, here, -⟩ | moved
      · rw [if_pos ⟨same, here⟩]
        refine ⟨?_, nofun⟩
        rintro waited issued ⟨⟩
        exact within.positive h found
      · -- A round that does not issue the burst leaves it in its queue, with a smaller budget.
        obtain ⟨b', kept, smaller, elsewhere⟩ : ∃ b',
            ((c.after call).queue d)[pick.placeAfter d place]? = some b' ∧
            budget (c.after call) b' + (if pick.direction ∈ ds then 1 else 0) ≤ budget c b ∧
            ¬ (pick.direction = d ∧ pick.place = place) := by
          rcases moved with ⟨same, away, kept⟩ | ⟨other, kept⟩
          · have lt := next.waited_lt kept
            rw [issues.config] at lt
            exact ⟨_, kept, within.passed h issues lt same, fun here => away here.2⟩
          · have some : c.queue d ≠ [] := by
              intro none
              rw [none] at found
              cases found
            exact ⟨_, kept, within.other h issues some other, fun here => other here.1⟩
        obtain ⟨soon, surely⟩ := ih next kept
        rw [if_neg elsewhere]
        refine ⟨?_, ?_⟩
        · intro waited issued eq
          obtain ⟨later, found, moved⟩ := Option.map_eq_some_iff.1 eq
          have bound := soon _ _ found
          cases moved
          omega
        · intro none
          have bound := surely (Option.map_eq_none_iff.1 none)
          omega

theorem budget_own (d : BusDirection) : Budget [d] d (ownRoundsLeft (μ := μ) d) where
  positive h found := by
    have lt := h.waited_lt found
    rw [ownRoundsLeft]
    omega
  joins joins := by rw [ownRoundsLeft, ownRoundsLeft, joins.config]
  passed _ issues lt same := by
    rw [ownRoundsLeft, ownRoundsLeft, issues.config, if_pos (by simp [same])]
    simp only
    omega
  other _ issues _ other := by
    rw [ownRoundsLeft, ownRoundsLeft, issues.config, if_neg (by simp [other])]
    exact Nat.le_refl _

/-- While a read is queued, every write that is issued brings the bus closer to the reads. -/
theorem writesBeforeRead_issues (h : c.Orderly) (issues : c.Issues now pick c')
    (reads : c.readQueue ≠ []) (write : pick.direction = .write) :
    c'.writesBeforeRead < c.writesBeforeRead := by
  have kind : pick.burst.kind = .write := by
    have same := h.kinds _ _ (List.mem_of_getElem? issues.found)
    rw [write] at same
    exact same
  have direction := issues.direction.trans write
  have writes := issues.phase
  have facing := issues.facing.symm.trans write
  rw [if_pos kind, nextWritesThisPhase] at writes
  rw [nextDirection] at facing
  rw [writesBeforeRead, writesBeforeRead, direction, issues.config]
  cases was : c.direction with
  | read =>
    rw [was] at writes
    have none := h.phase was
    have first : c'.writesThisPhase = 1 := by simpa [none] using writes
    simp only
    omega
  | write =>
    cases turns : c.turnsAround with
    | true => simp [turns, was, BusDirection.other] at facing
    | false =>
      -- The phase of writes goes on, so it has not yet been as long as it must be.
      have short : c.writesThisPhase < c.config.minWritesPerSwitch := by
        simp only [turnsAround, was, Bool.and_eq_false_iff, Bool.or_eq_false_iff,
          decide_eq_false_iff_not, not_or, Nat.not_le] at turns
        exact (turns.resolve_left (by simp [reads])).2.2
      have more : c'.writesThisPhase = c.writesThisPhase + 1 := by simpa [turns] using writes
      simp only
      omega

theorem budget_read : Budget [.read, .write] .read (roundsLeft (μ := μ)) where
  positive _ _ := Nat.succ_pos _
  joins joins := by
    rw [roundsLeft, roundsLeft, ownRoundsLeft, ownRoundsLeft, writesBeforeRead, writesBeforeRead,
      joins.config, joins.direction, joins.phase]
  passed {c c' _ _ b} _ issues lt same := by
    have direction := issues.direction.trans same
    have full : c'.writesBeforeRead = max 1 c.config.minWritesPerSwitch := by
      rw [writesBeforeRead, direction, issues.config]
    have left : ownRoundsLeft .read c b - 1 =
        ownRoundsLeft .read c' { b with roundsWaited := b.roundsWaited + 1 } - 1 + 1 := by
      rw [ownRoundsLeft, ownRoundsLeft, issues.config]
      simp only
      omega
    rw [roundsLeft, roundsLeft, full, left, issues.config, Nat.succ_mul, if_pos (by simp [same])]
    omega
  other {c c' _ pick b} h issues some other := by
    have write : pick.direction = .write := by
      cases facing : pick.direction with
      | read => exact absurd facing other
      | write => rfl
    have fewer := writesBeforeRead_issues h issues some write
    have same : ownRoundsLeft .read c' b = ownRoundsLeft .read c b := by
      rw [ownRoundsLeft, ownRoundsLeft, issues.config]
    rw [roundsLeft, roundsLeft, same, issues.config, if_pos (by simp [write])]
    omega

theorem exists_issues (h : c.Orderly) {d : BusDirection} (due : c.roundDue now = true)
    (queued : c.queue d ≠ []) :
    ∃ pick, c.picked (.process now) = some pick ∧
      c.Issues now pick (c.after (.process now)) := by
  rcases after_cases h.housed (.process now) with ⟨none, -⟩ | ⟨_, pick, same, picked, issues⟩
  · rw [picked, if_pos due] at none
    exact absurd (queue_eq_nil none d) queued
  · cases same
    exact ⟨pick, picked, issues⟩

/-- A due round issues exactly one of the queued bursts, and no other call issues any. Every burst
is issued before it has waited for as many rounds of its own direction as the threshold and the size
of its queue allow, every read within a number of rounds that depends on the configuration alone. -/
structure Prompt (c : Controller μ) : Prop where
  issues : ∀ now d, c.roundDue now = true → c.queue d ≠ [] →
    ∃ pick, c.picked (.process now) = some pick ∧ c.Issues now pick (c.after (.process now))
  quiet : ∀ call, c.picked call = none → c.Joins (c.after call)
  waits : ∀ d place b calls waited issued, (c.queue d)[place]? = some b →
    c.issueOf [d] d place calls = some (waited, issued) →
      issued = { b with roundsWaited := b.roundsWaited + waited } ∧
        issued.roundsWaited ≤ c.config.starvationThreshold + c.config.bufferSize d - 1
  /-- Rounds of its own direction, as many as it may wait and one more, issue a burst. -/
  served : ∀ d place b calls, (c.queue d)[place]? = some b →
    c.config.starvationThreshold + c.config.bufferSize d ≤ c.roundsServing [d] calls →
      (c.issueOf [d] d place calls).isSome
  /-- The round that issues a read is counted, so it is one more than those before it. -/
  readSoon : ∀ place b calls before issued, c.readQueue[place]? = some b →
    c.issueOf [.read, .write] .read place calls = some (before, issued) →
      before + 1 ≤ (c.config.starvationThreshold + c.config.readBufferSize) *
        (1 + max 1 c.config.minWritesPerSwitch)
  readServed : ∀ place b calls, c.readQueue[place]? = some b →
    (c.config.starvationThreshold + c.config.readBufferSize) *
        (1 + max 1 c.config.minWritesPerSwitch) ≤ c.roundsServing [.read, .write] calls →
      (c.issueOf [.read, .write] .read place calls).isSome

theorem prompt_reachable (h : c.Reachable) : c.Prompt := by
  have orderly := h.orderly
  refine ⟨?_, ?_, ?_, ?_, ?_, ?_⟩
  · intro now d due queued
    exact exists_issues orderly due queued
  · intro call none
    rcases after_cases orderly.housed call with ⟨-, joins⟩ | ⟨_, _, -, some, -⟩
    · exact joins
    · rw [none] at some
      cases some
  · intro d place b calls waited issued found eq
    have same := issueOf_burst orderly found eq
    have lt := (issueOf_budget (budget_own d) orderly found calls).1 waited issued eq
    refine ⟨same, ?_⟩
    rw [ownRoundsLeft] at lt
    rw [same]
    simp only
    omega
  · intro d place b calls found enough
    cases eq : c.issueOf [d] d place calls with
    | some _ => rfl
    | none =>
      have lt := (issueOf_budget (budget_own d) orderly found calls).2 eq
      rw [ownRoundsLeft] at lt
      omega
  · intro place b calls before issued found eq
    have lt := (issueOf_budget budget_read orderly found calls).1 before issued eq
    have le := roundsLeft_le orderly found
    omega
  · intro place b calls found enough
    cases eq : c.issueOf [.read, .write] .read place calls with
    | some _ => rfl
    | none =>
      have lt := (issueOf_budget budget_read orderly found calls).2 eq
      have le := roundsLeft_le orderly found
      omega

end Rounds

def ofConfig (config : ControllerConfig) : Controller Media where
  name := "mem-ctrl"
  range := ⟨0, mebibyte⟩
  config
  decoder := ⟨(default : MediaProfile).geometry, config.addressMapping⟩
  media := [.create (default : MediaProfile).baseline]
  store := { size := mebibyte }

def shortQueues : ControllerParams where
  writeBufferSize := some 2
  minReadsPerSwitch := 0

def shortConfig : ControllerConfig where
  frontendLatency := 10 * nanosecond
  backendLatency := 10 * nanosecond
  readBufferSize := 64
  writeBufferSize := 2
  maxPendingReads := 64
  maxPendingWrites := 128
  writeHighMark := 2
  writeLowMark := 1
  minWritesPerSwitch := 16
  minReadsPerSwitch := 0
  starvationThreshold := 16
  addressMapping := default

theorem resolve_shortQueues :
    ControllerConfig.resolve shortQueues (default : MediaProfile).baseline = .ok shortConfig :=
  rfl

theorem create_shortConfig :
    create .standard "mem-ctrl" ⟨0, mebibyte⟩ shortConfig (default : MediaProfile).geometry
      [Media.create (default : MediaProfile).baseline] { size := mebibyte } =
        .ok (ofConfig shortConfig) := by
  rfl

theorem reachable_shortConfig : (ofConfig shortConfig).Reachable := .created create_shortConfig

/-- Two reads are queued when both arrive before the first round. -/
theorem prompt_two_reads :
    let first := (ofConfig shortConfig).after (.offer 0 (.read 0 0 64 0))
    let second := first.after (.offer 0 (.read 1 4096 64 0))
    second.readQueue.length = 2 ∧ second.Prompt :=
  ⟨rfl, prompt_reachable (.called (.called (reachable_shortConfig) _) _)⟩

end Expander.Controller
