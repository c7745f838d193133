import RegisterMachine.Proofs.Machine.Checkpointed

set_option autoImplicit false

/-!
# Machines without a checkpoint

A machine without a checkpoint goes along the trajectory of the bare machine in it, and there is
nothing else that it does: it is running after `k` moves exactly if the trajectory gets that far.
It halts where the trajectory leaves the program.
-/

namespace RegisterMachine.Machine

open BareMachine

variable {n : Nat} {m m' : Machine n} {b : BareMachine n} {r r' initial : RegisterFile n} {k : Nat}

/-- The running machine has executed the first `k` instructions, and it has no checkpoint. -/
structure Unwatched (m : Machine n) (b : BareMachine n) (initial : RegisterFile n) (k : Nat) :
    Prop where
  /-- The machine is on the trajectory. -/
  follows : m.Follows b initial k
  /-- It has not halted. -/
  running : m.state = .running
  /-- It has no checkpoint. -/
  no_monitor : m.monitor = none

/-- The machine without a checkpoint that is about to start. -/
def startUnwatched (b : BareMachine n) (initial : RegisterFile n) : Machine n where
  program := b.program
  ipRegister := b.ipRegister
  registers := initial

theorem prepare_eq_startUnwatched (b : BareMachine n) (initial : RegisterFile n) :
    prepare b.program b.ipRegister initial none = .ok (startUnwatched b initial) := by
  simp [prepare, create, register, startUnwatched, bind, Except.bind, pure, Except.pure]

theorem unwatched_startUnwatched (b : BareMachine n) (initial : RegisterFile n) :
    (startUnwatched b initial).Unwatched b initial 0 :=
  ⟨⟨rfl, rfl, rfl⟩, rfl, rfl⟩

/-! ## One move -/

theorem Unwatched.step_of_next (h : m.Unwatched b initial k)
    (hnext : b.trajectory initial (k + 1) = some r') :
    ∃ m', m.step = .ok m' ∧ m'.Unwatched b initial (k + 1) := by
  obtain ⟨hfollows, hrunning, hmonitor⟩ := h
  rw [trajectory_succ_of_eq_some hfollows.on_trajectory] at hnext
  obtain ⟨i, hi, -⟩ := exists_next?_iff.mp ⟨r', hnext⟩
  have hmove : m.move = .execute i none := by
    refine move_of_unwatched hrunning ?_ hmonitor
    rw [hfollows.bare_eq]
    exact hi
  obtain ⟨m', hstep, hfollows', hstate, hmonitor'⟩ := hfollows.step_of_execute hmove hi hnext
  exact ⟨m', hstep, hfollows', hstate.trans hrunning, hmonitor'⟩

/-- A machine that is running after one more move has gone along the trajectory. -/
theorem Unwatched.of_step (h : m.Unwatched b initial k) (hstep : m.step = .ok m')
    (running : m'.state = .running) : m'.Unwatched b initial (k + 1) := by
  have htrajectory := trajectory_succ_of_eq_some h.follows.on_trajectory
  cases hnext : b.next? m.registers with
  | some r' =>
    obtain ⟨next, hnext', hunwatched⟩ := h.step_of_next (htrajectory.trans hnext)
    rw [hstep] at hnext'
    cases hnext'
    exact hunwatched
  | none =>
    exfalso
    obtain ⟨⟨rfl, -, -⟩, hrunning, hmonitor⟩ := h
    cases hfetch : m.bare.fetch? m.registers with
    | none =>
      -- Outside the program the machine halts.
      rw [step, move_of_outside hrunning hfetch] at hstep
      cases hstep
      cases running
    | some i =>
      -- An instruction that cannot be performed makes the move fail.
      rw [next?, hfetch, Option.bind_some, Option.map_eq_none_iff] at hnext
      have hexecute : i.execute m.registers = .error (.operandOutOfRange i n) :=
        Instruction.execute_eq_error_iff.mpr ⟨hnext, rfl⟩
      rw [step, move_of_unwatched hrunning hfetch hmonitor] at hstep
      simp only [hexecute] at hstep
      cases hstep

/-! ## Several moves -/

/-- The machine gets as far as the trajectory. -/
theorem exists_unwatched (hr : b.trajectory initial k = some r) :
    ∃ m, (startUnwatched b initial).stepTimes k = .ok m ∧ m.Unwatched b initial k := by
  induction k generalizing r with
  | zero => exact ⟨_, rfl, unwatched_startUnwatched b initial⟩
  | succ k ih =>
    obtain ⟨r', hr'⟩ := exists_trajectory_of_le hr (Nat.le_succ k)
    obtain ⟨m, hm, hunwatched⟩ := ih hr'
    obtain ⟨m', hstep, hunwatched'⟩ := hunwatched.step_of_next hr
    exact ⟨m', by rw [stepTimes_succ_of_stepTimes hm, hstep], hunwatched'⟩

/-- The machine is not running any more where the trajectory has ended. -/
theorem unwatched_of_running (h : (startUnwatched b initial).stepTimes k = .ok m)
    (running : m.state = .running) : m.Unwatched b initial k := by
  induction k generalizing m with
  | zero =>
    cases h
    exact unwatched_startUnwatched b initial
  | succ k ih =>
    obtain ⟨m', hm', hstep⟩ := exists_stepTimes_of_succ h
    exact (ih hm' (state_eq_running_of_step hstep running)).of_step hstep running

/-- The machine halts where the trajectory leaves the program. -/
theorem exists_haltsAfter_of_leaves (hr : b.trajectory initial k = some r)
    (hleaves : b.Leaves initial k) :
    ∃ final, (startUnwatched b initial).HaltsAfter k final ∧
      final.outcome = { registers := r
                        state := .leftProgram
                        steps := .ofNat k
                        report := none } := by
  obtain ⟨m, hm, hunwatched⟩ := exists_unwatched hr
  have hlast : (startUnwatched b initial).stepTimes (k + 1) =
      .ok { m with state := .leftProgram } := by
    rw [stepTimes_succ_of_stepTimes hm,
      hunwatched.follows.step_of_leaves hunwatched.running hleaves]
  refine ⟨_, ⟨⟨m, hm, hunwatched.running⟩, hlast, rfl⟩, ?_⟩
  obtain ⟨⟨-, htrajectory, hsteps⟩, -, hmonitor⟩ := hunwatched
  rw [hr] at htrajectory
  cases htrajectory
  simp only [outcome, hsteps, hmonitor, Option.bind_none]

end RegisterMachine.Machine
