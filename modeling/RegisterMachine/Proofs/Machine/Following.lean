import RegisterMachine.Proofs.Machine.Trajectory

set_option autoImplicit false

/-!
# Machines on the trajectory

Whatever its checkpoint does, a machine that executes an instruction goes one step along the
trajectory of the bare machine in it, and counts the step.  A halted machine makes no move any more,
so a run is a number of moves of a running machine and a last one with which it halts.
-/

namespace RegisterMachine.Machine

variable {n : Nat} {m m' next final : Machine n} {b : BareMachine n}
  {r r' initial : RegisterFile n} {i : Instruction} {monitor : CheckpointMonitor n} {k : Nat}

/-- The program of a machine and its instruction pointer. -/
def bare (m : Machine n) : BareMachine n where
  program := m.program
  ipRegister := m.ipRegister

/-! ## The next move -/

theorem move_of_outside (running : m.state = .running)
    (outside : m.bare.fetch? m.registers = none) : m.move = .leave := by
  have hfetch : m.fetch? = none := outside
  simp [move, running, RunState.isHalted, hfetch]

/-- Without a checkpoint an instruction is executed wherever there is one. -/
theorem move_of_unwatched (running : m.state = .running)
    (inside : m.bare.fetch? m.registers = some i) (unwatched : m.monitor = none) :
    m.move = .execute i none := by
  have hfetch : m.fetch? = some i := inside
  simp [move, running, RunState.isHalted, hfetch, unwatched]

/-- At any other position the checkpoint is not consulted. -/
theorem move_of_elsewhere (running : m.state = .running)
    (inside : m.bare.fetch? m.registers = some i) (watched : m.monitor = some monitor)
    (elsewhere : monitor.position ≠ m.bare.position m.registers) :
    m.move = .execute i (some monitor) := by
  have hfetch : m.fetch? = some i := inside
  have hposition : monitor.position ≠ m.ip.toNat := elsewhere
  simp [move, running, RunState.isHalted, hfetch, watched, hposition]

/-- A new value at the position of the checkpoint is noted, and the instruction is executed. -/
theorem move_of_new {monitor' : CheckpointMonitor n} (running : m.state = .running)
    (inside : m.bare.fetch? m.registers = some i) (watched : m.monitor = some monitor)
    (here : monitor.position = m.bare.position m.registers)
    (new : monitor.observe (m.registers.word monitor.register) = (.new, monitor')) :
    m.move = .execute i (some monitor') := by
  have hfetch : m.fetch? = some i := inside
  have hposition : monitor.position = m.ip.toNat := here
  simp [move, running, RunState.isHalted, hfetch, watched, hposition, new]

/-- A value seen before stops the machine. -/
theorem move_of_repeated (running : m.state = .running)
    (inside : m.bare.fetch? m.registers = some i) (watched : m.monitor = some monitor)
    (here : monitor.position = m.bare.position m.registers)
    (repeated : monitor.observe (m.registers.word monitor.register) = (.repeated, monitor)) :
    m.move = .stop := by
  have hfetch : m.fetch? = some i := inside
  have hposition : monitor.position = m.ip.toNat := here
  simp [move, running, RunState.isHalted, hfetch, watched, hposition, repeated]

/-! ## Executed instructions -/

/-- The machine has executed the first `k` instructions of the bare machine. -/
structure Follows (m : Machine n) (b : BareMachine n) (initial : RegisterFile n) (k : Nat) :
    Prop where
  /-- The machine has the program and the instruction pointer of the bare machine. -/
  bare_eq : m.bare = b
  /-- Its registers are those that the bare machine reaches. -/
  on_trajectory : b.trajectory initial k = some m.registers
  /-- It has counted the instructions, modulo `2 ^ 64`. -/
  steps_eq : m.steps = .ofNat k

theorem Follows.registers_eq (h : m.Follows b initial k) (hr : b.trajectory initial k = some r) :
    m.registers = r :=
  Option.some.inj (h.on_trajectory.symm.trans hr)

theorem Follows.position_eq (h : m.Follows b initial k) : b.position m.registers = m.ip.toNat := by
  rw [← h.bare_eq]
  rfl

/-- Executing an instruction leads to the next file of the trajectory, with the monitor that the
move asks for. -/
theorem Follows.step_of_execute {monitor : Option (CheckpointMonitor n)}
    (h : m.Follows b initial k) (hmove : m.move = .execute i monitor)
    (hfetch : b.fetch? m.registers = some i) (hnext : b.next? m.registers = some r') :
    ∃ m', m.step = .ok m' ∧ m'.Follows b initial (k + 1) ∧ m'.state = m.state ∧
      m'.monitor = monitor := by
  obtain ⟨rfl, htrajectory, hsteps⟩ := h
  have hsucc : m.bare.trajectory initial (k + 1) = some r' := by
    rw [BareMachine.trajectory_succ_of_eq_some htrajectory, hnext]
  rw [BareMachine.next?, hfetch, Option.bind_some, Option.map_eq_some_iff] at hnext
  obtain ⟨after, hafter, rfl⟩ := hnext
  have hexecute : i.execute m.registers = .ok after :=
    Instruction.execute_eq_ok_iff.mpr hafter
  refine ⟨{ m with registers := advance m.ipRegister after, monitor, steps := m.steps + 1 }, ?_,
    ⟨rfl, hsucc, ?_⟩, rfl, rfl⟩
  · rw [step, hmove]
    simp only [hexecute]
  · show m.steps + 1 = .ofNat (k + 1)
    rw [hsteps, UInt64.ofNat_add]
    rfl

/-! ## Moves and runs -/

/-- A halted machine makes no move. -/
theorem stepTimes_of_isHalted (h : m.state.isHalted = true) (k : Nat) : m.stepTimes k = .ok m := by
  induction k with
  | zero => rfl
  | succ k ih => rw [stepTimes_succ_of_step k (step_of_isHalted h), ih]

/-- One more move is made from where the moves before have led. -/
theorem stepTimes_succ_of_stepTimes (h : m.stepTimes k = .ok m') :
    m.stepTimes (k + 1) = m'.step := by
  induction k generalizing m with
  | zero =>
    cases h
    unfold stepTimes
    cases m'.step with
    | error fault => rfl
    | ok next => rfl
  | succ k ih =>
    cases hstep : m.step with
    | error fault =>
      rw [stepTimes, hstep] at h
      cases h
    | ok next =>
      rw [stepTimes_succ_of_step k hstep] at h
      rw [stepTimes_succ_of_step (k + 1) hstep, ih h]

/-- The last of several moves is made from where the moves before have led. -/
theorem exists_stepTimes_of_succ (h : m.stepTimes (k + 1) = .ok final) :
    ∃ m', m.stepTimes k = .ok m' ∧ m'.step = .ok final := by
  induction k generalizing m with
  | zero =>
    refine ⟨m, rfl, ?_⟩
    rw [← h, stepTimes_succ_of_stepTimes rfl]
  | succ k ih =>
    cases hstep : m.step with
    | error fault =>
      rw [stepTimes, hstep] at h
      cases h
    | ok next =>
      rw [stepTimes_succ_of_step _ hstep] at h ⊢
      exact ih h

/-- A machine that is running after a move was running before it. -/
theorem state_eq_running_of_step (h : m.step = .ok next) (running : next.state = .running) :
    m.state = .running := by
  cases hstate : m.state with
  | running => rfl
  | leftProgram | valueRepeated =>
    rw [step_of_isHalted (by rw [hstate]; rfl)] at h
    cases h
    rw [running] at hstate
    cases hstate

/-- A machine that is running was running before each of its moves. -/
theorem state_eq_running_of_le {j : Nat} (h : m.stepTimes k = .ok final)
    (running : final.state = .running) (hj : m.stepTimes j = .ok m') (hjk : j ≤ k) :
    m'.state = .running := by
  induction k generalizing final with
  | zero =>
    cases Nat.le_zero.mp hjk
    rw [hj] at h
    cases h
    exact running
  | succ k ih =>
    rcases Nat.le_succ_iff.mp hjk with hle | rfl
    · obtain ⟨before, hbefore, hstep⟩ := exists_stepTimes_of_succ h
      exact ih hbefore (state_eq_running_of_step hstep running) hle
    · rw [hj] at h
      cases h
      exact running

/-- A run goes through the moves of a machine that is still running after them. -/
theorem runFor_add_of_running (h : m.stepTimes k = .ok m') (running : m'.state.isHalted = false)
    (j : Nat) : m.runFor (k + j) = m'.runFor j := by
  induction k generalizing m with
  | zero =>
    cases h
    rw [Nat.zero_add]
  | succ k ih =>
    cases hstep : m.step with
    | error fault =>
      rw [stepTimes, hstep] at h
      cases h
    | ok next =>
      rw [stepTimes_succ_of_step k hstep] at h
      have hnext : next.state.isHalted = false := by
        by_contra hhalted
        rw [Bool.not_eq_false] at hhalted
        -- A machine that halts earlier is still halted now.
        rw [stepTimes_of_isHalted hhalted] at h
        cases h
        rw [running] at hhalted
        cases hhalted
      rw [Nat.succ_add, runFor_succ_of_running (k + j) hstep hnext, ih h]

/-- A run that has ended ends the same with more moves. -/
theorem runFor_of_le {result : Except Fault (Machine n)} {j : Nat}
    (h : m.runFor k = some result) (hkj : k ≤ j) : m.runFor j = some result := by
  induction k generalizing m j with
  | zero => cases h
  | succ k ih =>
    obtain ⟨j, rfl⟩ := Nat.exists_eq_add_of_le' (show 1 ≤ j by omega)
    rw [runFor] at h ⊢
    cases hstep : m.step with
    | error fault => rwa [hstep] at h
    | ok next =>
      simp only [hstep] at h ⊢
      split at h
      case isTrue halted => rw [if_pos halted, h]
      case isFalse running =>
        rw [if_neg running]
        exact ih h (by omega)

/-- A run ends with the move with which the machine halts, if it has enough moves. -/
theorem runFor_of_halting (h : m.stepTimes k = .ok m') (running : m'.state.isHalted = false)
    (hstep : m'.step = .ok final) (halted : final.state.isHalted = true) {bound : Nat}
    (hlt : k < bound) : m.runFor bound = some (.ok final) := by
  obtain ⟨j, rfl⟩ := Nat.exists_eq_add_of_lt hlt
  rw [Nat.add_assoc, runFor_add_of_running h running, runFor_succ_of_halted j hstep halted]

/-- The machine executes `k` instructions and halts with the next move. -/
structure HaltsAfter (m : Machine n) (k : Nat) (final : Machine n) : Prop where
  /-- After `k` moves it is still running. -/
  runs : ∃ m', m.stepTimes k = .ok m' ∧ m'.state = .running
  /-- The next move is the last. -/
  halts : m.stepTimes (k + 1) = .ok final
  /-- Then it has halted. -/
  halted : final.state.isHalted = true

/-- A run that halts early enough comes to the outcome of the halted machine. -/
theorem HaltsAfter.runProgram_eq {program : Array Instruction} {ipRegister : Nat}
    {checkpoint : Option Checkpoint} (h : m.HaltsAfter k final) (hlt : k < moveBound n)
    (hprepare : prepare program ipRegister initial checkpoint = .ok m) :
    runProgram program ipRegister initial checkpoint = some (.ok final.outcome) := by
  obtain ⟨m', hm', hrunning⟩ := h.runs
  have hstep : m'.step = .ok final := by
    rw [← stepTimes_succ_of_stepTimes hm', h.halts]
  have hrun : m.run = some (.ok final) := by
    refine runFor_of_halting hm' ?_ hstep h.halted hlt
    rw [hrunning]
    rfl
  simp only [runProgram, hprepare, hrun, Option.map_some, Except.map]

/-- A run that has not ended yet has no result. -/
theorem runFor_eq_none_of_running (h : m.stepTimes k = .ok m')
    (running : m'.state.isHalted = false) : m.runFor k = none := by
  have hadd := runFor_add_of_running h running 0
  rwa [Nat.add_zero, runFor_zero] at hadd

/-- If the machine is running after all moves of a run, the run has no outcome. -/
theorem runProgram_eq_none_of_running {program : Array Instruction} {ipRegister : Nat}
    {checkpoint : Option Checkpoint}
    (hprepare : prepare program ipRegister initial checkpoint = .ok m)
    (h : m.stepTimes (moveBound n) = .ok m') (running : m'.state = .running) :
    runProgram program ipRegister initial checkpoint = none := by
  have hrun : m.run = none := by
    refine runFor_eq_none_of_running h ?_
    rw [running]
    rfl
  simp only [runProgram, hprepare, hrun, Option.map_none]

end RegisterMachine.Machine
