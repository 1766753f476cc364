import Expander.Media.Channel

/-!
The least time that a read takes on the media.

A channel never ends a read before the fixed part of its timing has passed since the burst was
issued, whatever the state of its banks and of its data bus; and no access changes the timing of a
channel. Commands, refreshes, power-down and the bus can only put a burst off.
-/

set_option autoImplicit false

namespace Expander

def MediaTiming.least : MediaTiming → Tick
  | .dram t => t.columnToData + t.burst
  | .nvm t => t.send + t.burst

namespace Dram

variable {m : Dram} {index rank group row : Nat} {kind : AccessKind} {now : Tick}

theorem le_wakeRank (m : Dram) (rank : Nat) (now : Tick) : now ≤ (m.wakeRank rank now).1 := by
  rw [wakeRank]
  split
  · exact Nat.le_add_right ..
  · exact Nat.le_refl _

theorem timing_wakeRank (m : Dram) (rank : Nat) (now : Tick) :
    (m.wakeRank rank now).2.timing = m.timing := by
  rw [wakeRank]
  split <;> rfl

theorem le_settleRefresh (m : Dram) (index : Nat) (now : Tick) :
    now ≤ (m.settleRefresh index now).1 := by
  rw [settleRefresh]
  split
  · exact Nat.le_refl _
  · exact Nat.le_max_left ..

theorem timing_settleRefresh (m : Dram) (index : Nat) (now : Tick) :
    (m.settleRefresh index now).2.timing = m.timing := by
  rw [settleRefresh]
  split <;> rfl

theorem le_activateBound (m : Dram) (rank group : Nat) (earliest : Tick) :
    earliest ≤ (m.activateBound rank group earliest).1 := by
  rw [activateBound]
  -- Spacing and window put the activate off, or leave it where it is.
  repeat' split
  all_goals grind

theorem le_plan (m : Dram) (index rank group row : Nat) (kind : AccessKind) (now : Tick) :
    (∀ tick, (m.plan index rank group row kind now).prechargedAt = some tick → now ≤ tick) ∧
      (∀ tick, (m.plan index rank group row kind now).activatedAt = some tick → now ≤ tick) ∧
      now ≤ (m.plan index rank group row kind now).issuedAt := by
  have bound (earliest : Tick) (le : now ≤ earliest) :
      now ≤ (m.activateBound rank group earliest).1 :=
    Nat.le_trans le (m.le_activateBound rank group earliest)
  refine ⟨fun tick precharged => ?_, fun tick activated => ?_, ?_⟩
  · simp only [plan, Option.ite_none_right_eq_some, Option.some.injEq] at precharged
    exact precharged.2 ▸ Nat.le_max_left ..
  · simp only [plan, Option.ite_none_left_eq_some, Option.some.injEq] at activated
    rw [← activated.2]
    refine bound _ ?_
    grind
  · simp only [plan]
    -- The data waits for the column command, and the command is counted back from the data.
    refine Nat.le_sub_of_add_le ?_
    have column (hit : Bool) (allowed opened earliest : Tick) (le : now ≤ earliest) :
        now ≤ if hit = true then max now allowed else
          max opened ((m.activateBound rank group earliest).1 + m.timing.activateToColumn) := by
      have activated := bound earliest le
      grind
    split
    · refine Nat.add_le_add_right (column _ _ _ _ ?_) _
      grind
    · refine Nat.le_trans ?_ (Nat.le_trans (Nat.le_max_left ..) (Nat.le_max_left ..))
      refine Nat.add_le_add_right (column _ _ _ _ ?_) _
      grind

theorem timing_settlePlan (replans : Nat) (m : Dram) (now : Tick) :
    (settlePlan index rank group row kind replans m now).2.timing = m.timing := by
  fun_induction settlePlan index rank group row kind replans m now with
  | case1 m now settled => exact m.timing_settleRefresh index now
  | case2 m now settled plan fewer reached found refreshes ih =>
    exact ih.trans (m.timing_settleRefresh index now)
  | case3 _ m now settled => exact m.timing_settleRefresh index now

theorem le_firstAtOrAfter {due reached : Tick}
    (found : (m.plan index rank group row kind now).firstAtOrAfter due = some reached) :
    now ≤ reached := by
  obtain ⟨precharged, activated, issued⟩ := m.le_plan index rank group row kind now
  have command := List.mem_of_find?_eq_some found
  simp only [List.mem_append, Option.mem_toList, List.mem_singleton] at command
  rcases command with (precharge | activate) | rfl
  · exact precharged _ precharge
  · exact activated _ activate
  · exact issued

theorem le_settlePlan (replans : Nat) (m : Dram) (now : Tick) :
    now ≤ (settlePlan index rank group row kind replans m now).1.issuedAt := by
  have planned (m : Dram) (now : Tick) :
      now ≤ ((m.settleRefresh index now).2.plan index rank group row kind
        (m.settleRefresh index now).1).issuedAt :=
    Nat.le_trans (m.le_settleRefresh index now) (le_plan ..).2.2
  fun_induction settlePlan index rank group row kind replans m now with
  | case1 m now => exact planned m now
  | case2 m now settled plan fewer reached found refreshes ih =>
    exact Nat.le_trans (Nat.le_trans (m.le_settleRefresh index now) (le_firstAtOrAfter found)) ih
  | case3 _ m now => exact planned m now

theorem timing_access (m : Dram) (c : Coordinate) (kind : AccessKind) (now : Tick) :
    (m.access c kind now).2.timing = m.timing := by
  have planned : (settlePlan (m.bankIndex c) (m.rankOf c) (m.groupOf c) c.row kind maxReplans
      (m.wakeRank (m.rankOf c) now).2 (m.wakeRank (m.rankOf c) now).1).2.timing = m.timing :=
    (timing_settlePlan ..).trans (m.timing_wakeRank (m.rankOf c) now)
  have precharge (m : Dram) (index : Nat) (tick : Option Tick) :
      (m.commitPrecharge index tick).timing = m.timing := by
    cases tick <;> rfl
  have activate (m : Dram) (index rank group row : Nat) (stall : Bool) (tick : Option Tick) :
      (m.commitActivate index rank group row stall tick).timing = m.timing := by
    cases tick <;> rfl
  have column (m : Dram) (index : Nat) (kind : AccessKind) (issued ready : Tick) :
      (m.commitColumn index kind issued ready).timing = m.timing := by
    cases kind <;> rfl
  simp only [access]
  exact (column ..).trans ((activate ..).trans ((precharge ..).trans planned))

theorem le_access (m : Dram) (c : Coordinate) (kind : AccessKind) (now : Tick) :
    now + (m.timing.columnToData + m.timing.burst) ≤ (m.access c kind now).1.readyAt := by
  have awake := m.le_wakeRank (m.rankOf c) now
  have issued : (m.wakeRank (m.rankOf c) now).1 ≤ (settlePlan (m.bankIndex c) (m.rankOf c)
      (m.groupOf c) c.row kind maxReplans (m.wakeRank (m.rankOf c) now).2
      (m.wakeRank (m.rankOf c) now).1).1.issuedAt :=
    le_settlePlan ..
  simp only [access]
  rw [← Nat.add_assoc]
  exact Nat.add_le_add_right (Nat.add_le_add_right (Nat.le_trans awake issued) _) _

end Dram

namespace Nvm

theorem timing_access (m : Nvm) (c : Coordinate) (kind : AccessKind) (now : Tick) :
    (m.access c kind now).2.timing = m.timing := by
  cases kind <;> rfl

theorem le_busSlot (m : Nvm) (rank : Nat) (kind : AccessKind) (ready : Tick) :
    ready ≤ (m.busSlot rank kind ready).1 := by
  rw [busSlot]
  split
  · exact Nat.le_refl _
  · exact Nat.le_trans (Nat.le_max_left ..) (Nat.le_max_left ..)

theorem le_accessRead (m : Nvm) (c : Coordinate) (now : Tick) :
    now + (m.timing.send + m.timing.burst) ≤ (m.accessRead c now).1.readyAt := by
  simp only [accessRead]
  rw [← Nat.add_assoc]
  refine Nat.add_le_add_right (Nat.le_trans (Nat.add_le_add_right ?_ _) (m.le_busSlot ..)) _
  split
  · exact Nat.le_max_left ..
  · exact Nat.le_trans (Nat.le_max_left ..) (Nat.le_add_right ..)

end Nvm

namespace Media

def timing : Media → MediaTiming
  | dram m => .dram m.timing
  | nvm m => .nvm m.timing

theorem timing_create (config : MediaConfig) : (create config).timing = config.timing := by
  rw [create]
  split
  next t eq => exact eq.symm
  next t eq => exact eq.symm

theorem timing_access (m : Media) (c : Coordinate) (kind : AccessKind) (now : Tick) :
    (m.access c kind now).2.timing = m.timing := by
  cases m with
  | dram m => exact congrArg MediaTiming.dram (m.timing_access c kind now)
  | nvm m => exact congrArg MediaTiming.nvm (m.timing_access c kind now)

theorem le_readyAt (m : Media) (c : Coordinate) (now : Tick) :
    now + m.timing.least ≤ (m.access c .read now).1.readyAt := by
  cases m with
  | dram m => exact m.le_access c .read now
  | nvm m => exact m.le_accessRead c now

end Media

end Expander
