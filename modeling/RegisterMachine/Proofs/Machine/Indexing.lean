import RegisterMachine.Proofs.Machine.Reached
import RegisterMachine.Proofs.Machine.Session

set_option autoImplicit false

/-!
# Nothing is looked up out of bounds

A machine is told by plain numbers which register is its instruction pointer and which one its
checkpoint watches.  The numbers are checked when the machine is made and when the checkpoint is
set, and not again.  Here a move is written with the numbers, so that it looks up whatever it needs
without a check and may find nothing: an instruction, the register watched, the instruction pointer.
A machine that came about by commands never looks in vain, whatever its program has written to the
instruction pointer.

What remains is the one failure that a move can have, an instruction with an operand that names no
register.
-/

namespace RegisterMachine.Machine

open BareMachine

variable {n : Nat} {m start : Machine n} {program : Array Instruction}
  {initial : RegisterFile n} {commands : List Command} {ipRegister : Nat}

/-! ## A move written with numbers -/

/-- The instruction at a position, which has to be one of the program. -/
def instructionAt (m : Machine n) (index : Nat) : Except Fault Instruction :=
  if h : index < m.program.size then .ok m.program[index]
  else .error (.indexOutOfBounds m.program.size index)

/-- Shows the monitor the content of the register that the checkpoint names, which has to exist, if
the checkpoint is at this position. -/
def consult (m : Machine n) (checkpoint : Option Checkpoint) (index : Nat) :
    Except Fault (Observation × Option (CheckpointMonitor n)) :=
  match checkpoint, m.monitor with
  | some checkpoint, some monitor =>
    if checkpoint.position = index then do
      let value ← m.registers.get checkpoint.register
      let (observation, monitor) := monitor.observe value
      return (observation, some monitor)
    else return (.new, some monitor)
  | _, monitor => return (.new, monitor)

/-- Makes one move, with the number of the instruction pointer and with the checkpoint as they were
given to the machine. -/
def stepByNumber (m : Machine n) (ipRegister : Nat) (checkpoint : Option Checkpoint) :
    Except Fault (Machine n) := do
  if m.state.isHalted then return m
  let pointer ← m.registers.get ipRegister
  let index := pointer.toNat
  if m.program.size ≤ index then return { m with state := .leftProgram }
  let (observation, monitor) ← m.consult checkpoint index
  if observation = .repeated then return { m with state := .valueRepeated }
  let instruction ← m.instructionAt index
  let after ← instruction.execute m.registers
  let pointer ← after.get ipRegister
  let next ← after.set ipRegister (pointer + 1)
  return { m with registers := next, monitor, steps := m.steps + 1 }

theorem instructionAt_eq_ok_iff {index : Nat} {i : Instruction} :
    m.instructionAt index = .ok i ↔ m.program[index]? = some i := by
  by_cases h : index < m.program.size <;> simp [instructionAt, h]

/-- The register that a monitor looks at can be read by its number. -/
theorem get_watched (r : RegisterFile n) (monitor : CheckpointMonitor n) :
    r.get monitor.watch.checkpoint.register = .ok (r.word monitor.register) :=
  RegisterFile.get_val r monitor.register

theorem consult_of_repeating (h : m.Repeating) :
    m.consult (m.monitor.map fun monitor => monitor.watch.checkpoint) m.ip.toNat =
      .ok (.repeated, m.monitor) := by
  obtain ⟨monitor, hmonitor, v, hv, hseen⟩ := h
  rw [Option.mem_def, watched?_eq_some_iff] at hv
  obtain ⟨hposition, rfl⟩ := hv
  have hhere : monitor.watch.checkpoint.position = m.ip.toNat := hposition.symm
  have hobserve := CheckpointMonitor.observe_of_mem hseen
  rw [Option.mem_def] at hmonitor
  simp only [consult, hmonitor, Option.map_some, hhere, if_true, get_watched]
  exact congrArg (fun seen => Except.ok (seen.1, some seen.2)) hobserve

theorem consult_of_not_repeating (h : ¬ m.Repeating) :
    m.consult (m.monitor.map fun monitor => monitor.watch.checkpoint) m.ip.toNat =
      .ok (.new, m.monitor.map fun monitor => monitor.passing m.bare m.registers) := by
  cases hmonitor : m.monitor with
  | none =>
    simp only [consult, hmonitor, Option.map_none]
    rfl
  | some monitor =>
    rw [repeating_iff_of_watched hmonitor] at h
    simp only [consult, hmonitor, Option.map_some, CheckpointMonitor.passing]
    by_cases hhere : m.bare.position m.registers = monitor.position
    · have hwatched : m.bare.watched? monitor.watch m.registers =
          some (m.registers.word monitor.register) :=
        watched?_eq_some_iff.mpr ⟨hhere, rfl⟩
      have hnew : m.registers.word monitor.register ∉ monitor.seen :=
        fun hseen => h ⟨_, hwatched, hseen⟩
      have hobserve : monitor.observe (m.registers.word monitor.register) =
          (.new, monitor.record (m.registers.word monitor.register)) :=
        CheckpointMonitor.observe_of_not_mem hnew
      rw [if_pos (show monitor.watch.checkpoint.position = m.ip.toNat from hhere.symm),
        get_watched, hwatched]
      exact congrArg (fun seen => Except.ok (seen.1, some seen.2)) hobserve
    · have hwatched : m.bare.watched? monitor.watch m.registers = none := if_neg hhere
      rw [if_neg (show ¬ monitor.watch.checkpoint.position = m.ip.toNat from Ne.symm hhere),
        hwatched]
      rfl

/-- With the numbers that the machine goes by, this is its move. -/
theorem stepByNumber_eq_step (m : Machine n) :
    m.stepByNumber m.ipRegister (m.monitor.map fun monitor => monitor.watch.checkpoint) =
      m.step := by
  have hpointer : m.registers.get m.ipRegister = .ok m.ip := RegisterFile.get_val _ _
  cases hstate : m.state with
  | leftProgram | valueRepeated =>
    have halted : m.state.isHalted = true := by rw [hstate]; rfl
    rw [stepByNumber, if_pos halted, step_of_isHalted halted]
    rfl
  | running =>
    have hrunning : ¬ m.state.isHalted = true := by simp [hstate, RunState.isHalted]
    rw [stepByNumber, if_neg hrunning, hpointer]
    simp only [bind, Except.bind, pure, Except.pure]
    cases hfetch : m.bare.fetch? m.registers with
    | none =>
      have houtside : m.program.size ≤ m.ip.toNat := fetch?_eq_none_iff.mp hfetch
      rw [if_pos houtside, step_of_outside hstate hfetch]
    | some i =>
      have hinside : ¬ m.program.size ≤ m.ip.toNat := by
        intro houtside
        rw [fetch?_eq_none_iff.mpr houtside] at hfetch
        cases hfetch
      have hinstruction : m.instructionAt m.ip.toNat = .ok i := instructionAt_eq_ok_iff.mpr hfetch
      rw [if_neg hinside]
      by_cases hrepeating : m.Repeating
      · rw [consult_of_repeating hrepeating, step_of_repeating hstate hfetch hrepeating]
        rfl
      · rw [consult_of_not_repeating hrepeating, step,
          move_of_not_repeating hstate hfetch hrepeating]
        simp only [hinstruction, reduceCtorEq, if_false]
        cases i.execute m.registers with
        | error fault => rfl
        | ok after =>
          simp only [RegisterFile.get_val, RegisterFile.set_val]
          rfl

/-! ## Machines that are made -/

theorem create_eq_ok_iff :
    create program ipRegister initial = .ok m ↔
      ∃ h : ipRegister < n, m = startUnwatched ⟨program, ⟨ipRegister, h⟩⟩ initial := by
  unfold create register
  split
  case isTrue h =>
    constructor
    · rintro ⟨⟩
      exact ⟨h, rfl⟩
    · rintro ⟨-, rfl⟩
      rfl
  case isFalse h =>
    constructor
    · rintro ⟨⟩
    · rintro ⟨hlt, -⟩
      exact absurd hlt h

/-- A machine that is commanded has its program and its instruction pointer from the start, and the
checkpoint of its monitor is the one in force. -/
theorem fixed_of_carryOutAll (created : create program ipRegister initial = .ok start)
    (h : start.carryOutAll commands = .ok m) :
    m.program = program ∧ ipRegister = m.ipRegister.val ∧
      inForce commands = m.monitor.map fun monitor => monitor.watch.checkpoint := by
  obtain ⟨hlt, rfl⟩ := create_eq_ok_iff.mp created
  obtain ⟨⟨k, -, hfollows⟩, hforce, -⟩ := driven_of_carryOutAll h
  exact ⟨congrArg BareMachine.program hfollows.bare_eq,
    congrArg (fun b => b.ipRegister.val) hfollows.bare_eq.symm, hforce.symm⟩

theorem create_withProgram (created : create program ipRegister initial = .ok start)
    (program' : Array Instruction) :
    create program' ipRegister initial = .ok (start.withProgram program') := by
  obtain ⟨hlt, rfl⟩ := create_eq_ok_iff.mp created
  exact create_eq_ok_iff.mpr ⟨hlt, rfl⟩

/-- If all instructions can be performed, only a checkpoint can be wrong. -/
theorem exists_of_inRange (created : create program ipRegister initial = .ok start)
    (hrange : ∀ i ∈ program, i.InRange n) (hwatched : ∀ c, .watch c ∈ commands → c.register < n) :
    ∃ m, start.carryOutAll commands = .ok m := by
  cases hresult : start.carryOutAll commands with
  | ok m => exact ⟨m, rfl⟩
  | error fault =>
    obtain ⟨before, command, rest, m, rfl, hm, hfails⟩ := exists_of_carryOutAll_eq_error hresult
    obtain ⟨hprogram, -, -⟩ := fixed_of_carryOutAll created hm
    rcases carryOut_eq_error hfails with ⟨c, rfl, hle, -⟩ | ⟨-, -, i, hfetch, hout, -⟩
    · have hlt := hwatched c (by simp)
      omega
    · have hmem : i ∈ m.program := Array.mem_of_getElem? hfetch
      rw [hprogram] at hmem
      exact absurd (hrange i hmem) hout

/-- **No look-up of a machine is out of bounds.**  Whatever is commanded to a machine that was made,
and whatever its program has written to the instruction pointer, the register of the instruction
pointer can be read and written and the one of the checkpoint in force be read, and a move that
looks everything up by number is the move of the machine: it finds the instruction and the
registers.  A move fails exactly if the machine is running, its checkpoint does not stop it, and the
instruction at the pointer cannot be performed.

So if no instruction of the program names a register that does not exist, then nothing fails, be it
commanded or run to the end.  And such an instruction has an effect only if it is reached: all
programs of one length that agree at the positions reached do the same. -/
theorem no_lookup_out_of_bounds (created : create program ipRegister initial = .ok start)
    (commands : List Command) :
    (∀ m, start.carryOutAll commands = .ok m →
      m.registers.get ipRegister = .ok m.ip ∧
      (∀ c ∈ inForce commands, ∃ v, m.registers.get c.register = .ok v) ∧
      (∀ (after : RegisterFile n) (v : UInt64),
        (∃ pointer, after.get ipRegister = .ok pointer) ∧
          ∃ next, after.set ipRegister v = .ok next) ∧
      m.stepByNumber ipRegister (inForce commands) = m.step ∧
      (∀ width index,
        m.stepByNumber ipRegister (inForce commands) ≠ .error (.indexOutOfBounds width index)) ∧
      ∀ fault, m.step = .error fault ↔
        m.state = .running ∧ ¬ m.Repeating ∧
          ∃ i, program[m.ip.toNat]? = some i ∧ i.perform? m.registers = none ∧
            fault = .operandOutOfRange i n) ∧
    ((∀ i ∈ program, i.InRange n) → (∀ c, .watch c ∈ commands → c.register < n) →
      ∃ m, start.carryOutAll commands = .ok m ∧ ∀ fault, m.run ≠ some (.error fault)) ∧
    ∀ program' : Array Instruction, program'.size = program.size →
      create program' ipRegister initial = .ok (start.withProgram program') ∧
      ((∀ p ∈ start.reached commands, program'[p]? = program[p]?) →
        (start.withProgram program').carryOutAll commands =
          (start.carryOutAll commands).map fun m => m.withProgram program') ∧
      ∀ m, start.carryOutAll commands = .ok m →
        (∀ k, ∀ p ∈ m.reached (List.replicate k .step), program'[p]? = program[p]?) →
        (m.withProgram program').run.map (fun result => result.map outcome) =
          m.run.map fun result => result.map outcome := by
  have hstart : start.program = program := (fixed_of_carryOutAll created (carryOutAll_nil start)).1
  refine ⟨?_, ?_, ?_⟩
  · intro m hm
    obtain ⟨rfl, rfl, hforce⟩ := fixed_of_carryOutAll created hm
    have hstep : m.stepByNumber m.ipRegister (inForce commands) = m.step := by
      rw [hforce, stepByNumber_eq_step]
    refine ⟨RegisterFile.get_val _ _, ?_, ?_, hstep, ?_, fun fault => step_eq_error_iff⟩
    · intro c hc
      rw [hforce, Option.mem_def, Option.map_eq_some_iff] at hc
      obtain ⟨monitor, -, rfl⟩ := hc
      exact ⟨_, get_watched m.registers monitor⟩
    · intro after v
      exact ⟨⟨_, RegisterFile.get_val _ _⟩, _, RegisterFile.set_val _ _ _⟩
    · intro width index hfails
      rw [hstep] at hfails
      obtain ⟨-, -, i, -, -, hfault⟩ := step_eq_error_iff.mp hfails
      cases hfault
  · intro hrange hwatched
    obtain ⟨m, hm⟩ := exists_of_inRange created hrange hwatched
    refine ⟨m, hm, ?_⟩
    intro fault hrun
    obtain ⟨-, k, hmoves⟩ := run_eq_some_iff.mp hrun
    have hwatched' : ∀ c, .watch c ∈ commands ++ List.replicate k .step → c.register < n := by
      simpa using hwatched
    obtain ⟨last, hlast⟩ := exists_of_inRange created hrange hwatched'
    rw [carryOutAll_append, hm, Except.bind, carryOutAll_replicate_step, hmoves] at hlast
    cases hlast
  · intro program' hsize
    refine ⟨create_withProgram created program', ?_, ?_⟩
    · intro hsame
      subst hstart
      exact carryOutAll_withProgram hsize hsame
    · intro m hm hsame
      obtain ⟨rfl, -, -⟩ := fixed_of_carryOutAll created hm
      rw [run_withProgram hsize hsame, Option.map_map]
      congr 1
      funext result
      cases result <;> rfl

/-- A program whose first instruction leads past the second one. -/
def skipping (skipped : Instruction) : Array Instruction :=
  #[⟨.addi, ⟨0, 1, 0⟩⟩, skipped, ⟨.seti, ⟨5, 0, 1⟩⟩]

/-- The second instruction is never reached, and so it does no harm if it names register nine of
two.  A machine that starts there fails. -/
theorem no_lookup_out_of_bounds_skipping :
    ∃ start, create (skipping ⟨.seti, ⟨7, 0, 1⟩⟩) 0 ⟨#v[0, 0]⟩ = .ok start ∧
      (∃ mid, start.carryOutAll [.watch ⟨2, 1⟩, .step] = .ok mid ∧
        mid.registers.get 0 = .ok mid.ip ∧ mid.stepByNumber 0 (some ⟨2, 1⟩) = mid.step) ∧
      (∃ m, start.carryOutAll [.watch ⟨2, 1⟩, .step, .step, .step] = .ok m ∧
        (∀ fault, m.run ≠ some (.error fault)) ∧
        (start.withProgram (skipping ⟨.addr, ⟨9, 9, 9⟩⟩)).carryOutAll
          [.watch ⟨2, 1⟩, .step, .step, .step] =
            .ok (m.withProgram (skipping ⟨.addr, ⟨9, 9, 9⟩⟩)) ∧
        (m.withProgram (skipping ⟨.addr, ⟨9, 9, 9⟩⟩)).run.map (fun result => result.map outcome) =
          m.run.map fun result => result.map outcome) ∧
      ∃ there, create (skipping ⟨.addr, ⟨9, 9, 9⟩⟩) 0 ⟨#v[1, 0]⟩ = .ok there ∧
        there.step = .error (.operandOutOfRange ⟨.addr, ⟨9, 9, 9⟩⟩ 2) := by
  have hcreated := create_eq_startUnwatched
    ⟨skipping ⟨.seti, ⟨7, 0, 1⟩⟩, ⟨0, Nat.zero_lt_two⟩⟩ ⟨#v[0, 0]⟩
  have hcreated' := create_eq_startUnwatched
    ⟨skipping ⟨.addr, ⟨9, 9, 9⟩⟩, ⟨0, Nat.zero_lt_two⟩⟩ ⟨#v[1, 0]⟩
  have hrange : ∀ i ∈ skipping ⟨.seti, ⟨7, 0, 1⟩⟩, i.InRange 2 := by decide
  refine ⟨_, hcreated, ?_, ?_, _, hcreated', ?_⟩
  · obtain ⟨hlookups, hnever, -⟩ := no_lookup_out_of_bounds hcreated [.watch ⟨2, 1⟩, .step]
    obtain ⟨mid, hmid, -⟩ := hnever hrange (by simp)
    obtain ⟨hpointer, -, -, hstep, -⟩ := hlookups mid hmid
    exact ⟨mid, hmid, hpointer, hstep⟩
  · obtain ⟨-, hnever, hunreached⟩ :=
      no_lookup_out_of_bounds hcreated [.watch ⟨2, 1⟩, .step, .step, .step]
    obtain ⟨m, hm, hruns⟩ := hnever hrange (by simp)
    obtain ⟨-, hsession, hrun⟩ := hunreached (skipping ⟨.addr, ⟨9, 9, 9⟩⟩) rfl
    have houtcome : ((startUnwatched ⟨skipping ⟨.seti, ⟨7, 0, 1⟩⟩, ⟨0, Nat.zero_lt_two⟩⟩
        ⟨#v[0, 0]⟩).carryOutAll [.watch ⟨2, 1⟩, .step, .step, .step]).toOption.map outcome =
          some ⟨⟨#v[3, 5]⟩, .leftProgram, 2, some ⟨0, 0, 0, 0, 1⟩⟩ := by
      decide +kernel
    rw [hm] at houtcome
    have hstate : m.state = .leftProgram := congrArg Outcome.state (Option.some.inj houtcome)
    refine ⟨m, hm, hruns, ?_, ?_⟩
    · rw [hsession (by decide +kernel), hm]
      rfl
    · refine hrun m hm ?_
      intro k p hp
      rw [reached_replicate_of_isHalted (by rw [hstate]; rfl)] at hp
      cases hp
  · obtain ⟨hlookups, -⟩ := no_lookup_out_of_bounds hcreated' []
    obtain ⟨-, -, -, -, -, hfails⟩ := hlookups _ rfl
    refine (hfails _).mpr ⟨rfl, ?_, ⟨.addr, ⟨9, 9, 9⟩⟩, rfl, by decide, rfl⟩
    rintro ⟨monitor, hmonitor, -⟩
    cases hmonitor

end RegisterMachine.Machine
