import Expander.Proofs.Resolution
import Expander.Proofs.Scheduling.Waiting

/-!
When the bus turns from reads to writes and back while both are queued.

The marks of the write queue are given as percentages of its size and become lengths, rounded up,
when a configuration is resolved. Being shorter than the low mark is then the same as being below
the percentage. Being longer than the high mark is not the same as being above the percentage: a
queue that is above it by less than one burst is not drained.
-/

set_option autoImplicit false

namespace Expander

theorem lt_ceilDiv {n len : Nat} : len < ceilDiv n 100 ↔ 100 * len < n := by
  rw [ceilDiv]
  omega

theorem ceilDiv_lt {n len : Nat} : ceilDiv n 100 < len ↔ n + 100 ≤ 100 * len := by
  rw [ceilDiv]
  omega

theorem ControllerConfig.resolve_marks {params : ControllerParams} {media : MediaConfig}
    {config : ControllerConfig} (h : ControllerConfig.resolve params media = .ok config) :
    config.writeHighMark = ceilDiv (config.writeBufferSize * params.writeHighPercent) 100 ∧
      config.writeLowMark = ceilDiv (config.writeBufferSize * params.writeLowPercent) 100 := by
  rw [ControllerConfig.resolve] at h
  cases fault : params.markFault? with
  | some _ =>
    rw [fault] at h
    cases h
  | none =>
    rw [fault] at h
    obtain ⟨⟨⟩, -, h⟩ := bind_eq_ok.1 h
    obtain ⟨⟨⟩, -, h⟩ := bind_eq_ok.1 h
    cases h
    exact ⟨rfl, rfl⟩

namespace Controller

variable {μ : Type} {c : Controller μ} {now : Tick} {pick : Pick} {params : ControllerParams}
  {media : MediaConfig}

theorem nextDirection_of_read (direction : c.direction = .read) (reads : c.readQueue ≠ [])
    (writes : c.writeQueue ≠ []) (long : c.config.minReadsPerSwitch ≤ c.readsThisPhase) :
    c.nextDirection = .write ↔ c.config.writeHighMark < c.writeQueue.length := by
  have turns : c.nextDirection = .write ↔ c.turnsAround = true := by
    simp [nextDirection, direction, BusDirection.other]
  rw [turns]
  simp [turnsAround, direction, reads, writes, long]

theorem nextDirection_of_write (direction : c.direction = .write) (reads : c.readQueue ≠ [])
    (writes : c.writeQueue ≠ []) :
    c.nextDirection = .read ↔ c.writeQueue.length < c.config.writeLowMark ∨
      c.config.minWritesPerSwitch ≤ c.writesThisPhase := by
  have turns : c.nextDirection = .read ↔ c.turnsAround = true := by
    simp [nextDirection, direction, BusDirection.other]
  rw [turns]
  simp [turnsAround, direction, reads, writes]

/-- The percentages of the write queue as they are meant: the bus leaves the reads, after as many of
them as a phase must have, exactly when the queue is above the high one, and the writes exactly when
the queue is below the low one or the phase has been long enough. -/
structure HonoursMarks (params : ControllerParams) (c : Controller μ) (pick : Pick) : Prop where
  high : c.direction = .read → c.config.minReadsPerSwitch ≤ c.readsThisPhase →
    (pick.burst.kind = .write ↔
      params.writeHighPercent * c.config.writeBufferSize < 100 * c.writeQueue.length)
  low : c.direction = .write →
    (pick.burst.kind = .read ↔
      100 * c.writeQueue.length < params.writeLowPercent * c.config.writeBufferSize ∨
        c.config.minWritesPerSwitch ≤ c.writesThisPhase)

/-- The write queue is above its high percentage by less than one burst. -/
def AboveByAFraction (params : ControllerParams) (c : Controller μ) : Prop :=
  params.writeHighPercent * c.config.writeBufferSize < 100 * c.writeQueue.length ∧
    100 * c.writeQueue.length < params.writeHighPercent * c.config.writeBufferSize + 100

section Rounds

variable [MediaChannel μ]

/-- With both queues filled, a due round issues a burst, and turns the bus by the marks: it honours
the percentages but for a write queue above the high one by a fraction of a burst, over which the
bus goes on with the reads. -/
theorem honoursMarks_iff {config : ControllerConfig}
    (resolved : ControllerConfig.resolve params media = .ok config) (reached : c.Reachable)
    (configured : c.config = config) (due : c.roundDue now = true) (reads : c.readQueue ≠ [])
    (writes : c.writeQueue ≠ []) :
    ∃ pick, c.picked (.process now) = some pick ∧ c.Issues now pick (c.after (.process now)) ∧
      (c.HonoursMarks params pick ↔
        (c.direction = .read → c.config.minReadsPerSwitch ≤ c.readsThisPhase →
          ¬ c.AboveByAFraction params)) ∧
      (c.direction = .read → c.config.minReadsPerSwitch ≤ c.readsThisPhase →
        c.AboveByAFraction params → pick.burst.kind = .read) := by
  subst configured
  obtain ⟨highMark, lowMark⟩ := ControllerConfig.resolve_marks resolved
  have orderly := reached.orderly
  obtain ⟨pick, picked, issues⟩ := exists_issues (d := .read) orderly due reads
  have kind : pick.burst.kind = c.nextDirection.kind := by
    rw [← issues.facing]
    exact orderly.kinds _ _ (List.mem_of_getElem? issues.found)
  have serves (d : BusDirection) : pick.burst.kind = d.kind ↔ c.nextDirection = d := by
    rw [kind]
    cases c.nextDirection <;> cases d <;> simp [BusDirection.kind]
  have servesReads : pick.burst.kind = .read ↔ c.nextDirection = .read := serves .read
  have servesWrites : pick.burst.kind = .write ↔ c.nextDirection = .write := serves .write
  have low (direction : c.direction = .write) : pick.burst.kind = .read ↔
      100 * c.writeQueue.length < params.writeLowPercent * c.config.writeBufferSize ∨
        c.config.minWritesPerSwitch ≤ c.writesThisPhase := by
    rw [servesReads, nextDirection_of_write direction reads writes, lowMark, lt_ceilDiv,
      Nat.mul_comm c.config.writeBufferSize]
  have high (direction : c.direction = .read)
      (long : c.config.minReadsPerSwitch ≤ c.readsThisPhase) : pick.burst.kind = .write ↔
        params.writeHighPercent * c.config.writeBufferSize + 100 ≤ 100 * c.writeQueue.length := by
    rw [servesWrites, nextDirection_of_read direction reads writes long, highMark, ceilDiv_lt,
      Nat.mul_comm c.config.writeBufferSize]
  refine ⟨pick, picked, issues, ⟨?_, ?_⟩, ?_⟩
  · rintro honours direction long ⟨above, fraction⟩
    have drains := (high direction long).1 ((honours.high direction long).2 above)
    omega
  · intro whole
    refine ⟨fun direction long => ?_, low⟩
    rw [high direction long]
    have clear := whole direction long
    rw [AboveByAFraction] at clear
    omega
  · rintro direction long ⟨-, fraction⟩
    rw [servesReads]
    cases facing : c.nextDirection with
    | read => rfl
    | write =>
      have drains := (high direction long).1 (servesWrites.2 facing)
      omega

end Rounds

def fullWriteQueue : Controller Media :=
  ((((ofConfig shortConfig).after (.offer 0 (.write 0 4096 (List.replicate 64 0x5a) 0))).after
    (.offer 0 (.write 1 8192 (List.replicate 64 0x5a) 0))).after (.offer 0 (.read 2 0 64 0)))

theorem reachable_fullWriteQueue : fullWriteQueue.Reachable :=
  .called (.called (.called (reachable_shortConfig) _) _) _

theorem fullWriteQueue_state :
    fullWriteQueue.config = shortConfig ∧ fullWriteQueue.direction = .read ∧
      fullWriteQueue.readsThisPhase = 0 ∧ fullWriteQueue.readQueue.length = 1 ∧
      fullWriteQueue.writeQueue.length = 2 ∧ fullWriteQueue.roundDue 0 = true := by
  decide +kernel

/-- A full queue of two writes is above a high mark of 85 percent by a fraction of a burst only. -/
theorem honoursMarks_full_queue :
    ControllerConfig.resolve shortQueues (default : MediaProfile).baseline = .ok shortConfig ∧
      fullWriteQueue.roundDue 0 = true ∧ fullWriteQueue.readQueue ≠ [] ∧
      fullWriteQueue.writeQueue ≠ [] ∧
      ∃ pick, fullWriteQueue.picked (.process 0) = some pick ∧ pick.burst.kind = .read := by
  obtain ⟨config, direction, phase, reads, writes, due⟩ := fullWriteQueue_state
  have someRead : fullWriteQueue.readQueue ≠ [] := List.ne_nil_of_length_pos (by omega)
  have someWrite : fullWriteQueue.writeQueue ≠ [] := List.ne_nil_of_length_pos (by omega)
  obtain ⟨pick, picked, -, -, passes⟩ := honoursMarks_iff resolve_shortQueues
    reachable_fullWriteQueue config due someRead someWrite
  have long : fullWriteQueue.config.minReadsPerSwitch ≤ fullWriteQueue.readsThisPhase := by
    rw [config]
    exact Nat.zero_le _
  have above : fullWriteQueue.AboveByAFraction shortQueues := by
    rw [AboveByAFraction, config, writes]
    decide
  exact ⟨resolve_shortQueues, due, someRead, someWrite, pick, picked, passes direction long above⟩

/-- A full write queue does not force writes, although it is above its high mark. -/
theorem not_honoursMarks_full_queue :
    ControllerConfig.resolve shortQueues (default : MediaProfile).baseline = .ok shortConfig ∧
      fullWriteQueue.Reachable ∧ fullWriteQueue.config = shortConfig ∧
      fullWriteQueue.roundDue 0 = true ∧ fullWriteQueue.readQueue.length = 1 ∧
      fullWriteQueue.writeQueue.length = shortConfig.writeBufferSize ∧
      ∃ pick, fullWriteQueue.picked (.process 0) = some pick ∧
        ¬ fullWriteQueue.HonoursMarks shortQueues pick := by
  obtain ⟨config, direction, phase, reads, writes, due⟩ := fullWriteQueue_state
  have read : (fullWriteQueue.picked (.process 0)).map (·.burst.kind) = some .read := by
    decide +kernel
  obtain ⟨pick, picked, kind⟩ := Option.map_eq_some_iff.1 read
  refine ⟨resolve_shortQueues, reachable_fullWriteQueue, config, due, reads, writes, pick, picked,
    fun honours => ?_⟩
  have drains := (honours.high direction (by rw [config]; exact Nat.zero_le _)).2
    (by rw [config, writes]; decide)
  rw [kind] at drains
  cases drains

end Controller

end Expander
