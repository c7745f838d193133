import RegisterMachine.Proofs.Machine.Command
import RegisterMachine.Proofs.Machine.Halting

set_option autoImplicit false

/-!
# Instructions that are reached

Of its program a machine looks only at the instructions that it comes to execute, and at the length.
So a program of the same length with the same instructions at these positions does the same, by hand
and in a run, whatever stands elsewhere.
-/

namespace RegisterMachine.Machine

open BareMachine

variable {n : Nat} {m next : Machine n} {program : Array Instruction} {command : Command}
  {commands : List Command}

/-! ## The positions -/

/-- The position of the instruction that the next move executes, or fails to. -/
def target? (m : Machine n) : Option Nat :=
  match m.move with
  | .execute _ _ => some m.ip.toNat
  | _ => none

/-- The positions of the instructions that a machine comes to execute when it is commanded, in
order, also of one that it fails to execute. -/
def reached (m : Machine n) : List Command → List Nat
  | [] => []
  | command :: commands =>
    let now := if command = .step then m.target?.toList else []
    match m.carryOut command with
    | .error _ => now
    | .ok next => now ++ next.reached commands

theorem reached_cons_of_ok (h : m.carryOut command = .ok next) :
    m.reached (command :: commands) =
      (if command = .step then m.target?.toList else []) ++ next.reached commands := by
  simp only [reached, h]

theorem mem_reached_step {p : Nat} (h : p ∈ m.target?) (commands : List Command) :
    p ∈ m.reached (.step :: commands) := by
  have hnow : p ∈ m.target?.toList := Option.mem_toList.mpr h
  simp only [reached, if_true]
  split
  · exact hnow
  · exact List.mem_append_left _ hnow

theorem target?_of_isHalted (halted : m.state.isHalted = true) : m.target? = none := by
  rw [target?, show m.move = .rest from if_pos halted]

/-- A machine that has halted reaches nothing any more. -/
theorem reached_replicate_of_isHalted (halted : m.state.isHalted = true) (k : Nat) :
    m.reached (List.replicate k .step) = [] := by
  induction k with
  | zero => rfl
  | succ k ih =>
    have hrest : m.carryOut .step = .ok m := step_of_isHalted halted
    rw [List.replicate_succ, reached_cons_of_ok hrest, ih, target?_of_isHalted halted]
    rfl

/-! ## Another program -/

/-- The machine with another program. -/
def withProgram (m : Machine n) (program : Array Instruction) : Machine n := { m with program }

/-- A program does what the one of the machine does if it is as long and has the same instruction at
the position that is reached. -/
theorem move_withProgram (hsize : program.size = m.program.size)
    (hsame : ∀ p ∈ m.target?, program[p]? = m.program[p]?) :
    (m.withProgram program).move = m.move := by
  cases hstate : m.state with
  | leftProgram | valueRepeated =>
    have halted : m.state.isHalted = true := by rw [hstate]; rfl
    rw [show m.move = .rest from if_pos halted]
    exact if_pos halted
  | running =>
    have hrunning : (m.withProgram program).state = .running := hstate
    cases hfetch : m.bare.fetch? m.registers with
    | none =>
      have houtside : (m.withProgram program).bare.fetch? m.registers = none :=
        fetch?_eq_none_iff.mpr (hsize.trans_le (fetch?_eq_none_iff.mp hfetch))
      rw [move_of_outside hstate hfetch, move_of_outside hrunning houtside]
    | some i =>
      by_cases hrepeating : m.Repeating
      · -- The instruction is not executed, so it may be another one.
        obtain ⟨i', hinside⟩ : ∃ i', (m.withProgram program).bare.fetch? m.registers = some i' := by
          rw [← Option.ne_none_iff_exists']
          intro houtside
          have hle := fetch?_eq_none_iff.mp houtside
          rw [fetch?_eq_none_iff.mpr (hsize.symm.trans_le hle)] at hfetch
          cases hfetch
        rw [move_of_repeating hstate hfetch hrepeating,
          move_of_repeating hrunning hinside hrepeating]
      · have hmove := move_of_not_repeating hstate hfetch hrepeating
        have hinside : (m.withProgram program).bare.fetch? m.registers = some i := by
          rw [← hfetch]
          exact hsame m.ip.toNat (by simp only [target?, hmove, Option.mem_def])
        rw [hmove, move_of_not_repeating hrunning hinside hrepeating]
        rfl

theorem step_withProgram (hsize : program.size = m.program.size)
    (hsame : ∀ p ∈ m.target?, program[p]? = m.program[p]?) :
    (m.withProgram program).step = m.step.map fun next => next.withProgram program := by
  rw [step, step, move_withProgram hsize hsame]
  cases m.move with
  | rest | leave | stop => rfl
  | execute instruction monitor =>
    rw [show (m.withProgram program).registers = m.registers from rfl]
    cases hexecute : instruction.execute m.registers <;> simp only [hexecute] <;> rfl

theorem program_eq_of_carryOut (h : m.carryOut command = .ok next) :
    next.program = m.program := by
  cases command with
  | step => cases moves_of_step (show m.step = .ok next from h) <;> rfl
  | trace on =>
    cases h
    rfl
  | watch checkpoint =>
    obtain ⟨w, -, rfl⟩ := withCheckpoint_eq_ok_iff.mp h
    rfl

theorem carryOut_withProgram (hsize : program.size = m.program.size)
    (hsame : ∀ p ∈ m.reached [command], program[p]? = m.program[p]?) :
    (m.withProgram program).carryOut command =
      (m.carryOut command).map fun next => next.withProgram program := by
  cases command with
  | step => exact step_withProgram hsize fun p hp => hsame p (mem_reached_step hp [])
  | trace on => rfl
  | watch checkpoint =>
    rw [carryOut, carryOut, withCheckpoint, withCheckpoint]
    cases register n checkpoint.register <;> rfl

/-- A machine that is commanded does the same with any program of the same length that has the
same instructions at the positions reached. -/
theorem carryOutAll_withProgram (hsize : program.size = m.program.size)
    (hsame : ∀ p ∈ m.reached commands, program[p]? = m.program[p]?) :
    (m.withProgram program).carryOutAll commands =
      (m.carryOutAll commands).map fun last => last.withProgram program := by
  induction commands generalizing m with
  | nil => rfl
  | cons command commands ih =>
    have hfirst : ∀ p ∈ m.reached [command], program[p]? = m.program[p]? := by
      intro p hp
      apply hsame p
      simp only [reached] at hp ⊢
      split at hp
      · exact hp
      · exact List.mem_append_left _ (by simpa using hp)
    rw [carryOutAll_cons, carryOutAll_cons, carryOut_withProgram hsize hfirst]
    cases hnext : m.carryOut command with
    | error fault => rfl
    | ok next =>
      have hprogram := program_eq_of_carryOut hnext
      refine ih (hsize.trans (congrArg Array.size hprogram.symm)) ?_
      intro p hp
      rw [hprogram]
      apply hsame p
      rw [reached_cons_of_ok hnext]
      exact List.mem_append_right _ hp

/-- So does a machine that is run to its end. -/
theorem run_withProgram (hsize : program.size = m.program.size)
    (hsame : ∀ k, ∀ p ∈ m.reached (List.replicate k .step), program[p]? = m.program[p]?) :
    (m.withProgram program).run =
      m.run.map fun result => result.map fun last => last.withProgram program := by
  refine run_map (f := fun m => m.withProgram program) (fun _ => rfl) ?_
  intro k
  rw [← carryOutAll_replicate_step, ← carryOutAll_replicate_step,
    carryOutAll_withProgram hsize (hsame k)]

end RegisterMachine.Machine
