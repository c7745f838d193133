import RegisterMachine.Proofs.Machine.Checkpointed

set_option autoImplicit false

/-!
# What a move can be

A machine that has halted stays as it is.  A running one makes one of three moves: it leaves the
program, it stops because its checkpoint sees a value again, or it executes the instruction at its
pointer and its checkpoint takes note of what it sees.  A move fails in one case only: the
instruction to be executed names a register that does not exist.

This is said once, for any machine and whatever its checkpoint has seen, so that what is kept by
every move is shown case by case.
-/

namespace RegisterMachine

open BareMachine

variable {n : Nat}

theorem BareMachine.watched?_eq_some_iff {b : BareMachine n} {w : Watch n} {r : RegisterFile n}
    {v : UInt64} :
    b.watched? w r = some v ↔ b.position r = w.position ∧ r.word w.register = v := by
  simp [watched?]

theorem BareMachine.next?_eq_some_iff {b : BareMachine n} {r r' : RegisterFile n} :
    b.next? r = some r' ↔
      ∃ i after, b.fetch? r = some i ∧ i.perform? r = some after ∧
        Machine.advance b.ipRegister after = r' := by
  simp only [next?, Option.bind_eq_some_iff, Option.map_eq_some_iff, exists_and_left]

namespace CheckpointMonitor

/-- The position and the register that a monitor looks at. -/
def watch (monitor : CheckpointMonitor n) : Watch n where
  position := monitor.position
  register := monitor.register

/-- The monitor after an instruction was executed with these registers. -/
def passing (monitor : CheckpointMonitor n) (b : BareMachine n) (r : RegisterFile n) :
    CheckpointMonitor n :=
  match b.watched? monitor.watch r with
  | some v => monitor.record v
  | none => monitor

@[simp] theorem watch_record (monitor : CheckpointMonitor n) (v : UInt64) :
    (monitor.record v).watch = monitor.watch := by
  simp [watch]

@[simp] theorem watch_passing (monitor : CheckpointMonitor n) (b : BareMachine n)
    (r : RegisterFile n) : (monitor.passing b r).watch = monitor.watch := by
  unfold passing
  split
  case h_1 v _ => exact watch_record monitor v
  case h_2 => rfl

theorem mem_seen_record_iff {monitor : CheckpointMonitor n} {v w : UInt64} :
    w ∈ (monitor.record v).seen ↔ w ∈ monitor.seen ∨ w = v := by
  by_cases hv : v ∈ monitor.seen
  · simp only [record, observe, hv, if_true]
    constructor
    · exact Or.inl
    · rintro (hw | rfl)
      · exact hw
      · exact hv
  · simp only [record, observe, hv, if_false, Std.ExtTreeSet.mem_insert,
      Std.LawfulEqCmp.compare_eq_iff_eq]
    rw [or_comm, eq_comm]

/-- An executed instruction adds the value that the checkpoint sees to those seen before. -/
theorem mem_seen_passing_iff {monitor : CheckpointMonitor n} {b : BareMachine n}
    {r : RegisterFile n} {w : UInt64} :
    w ∈ (monitor.passing b r).seen ↔
      w ∈ monitor.seen ∨ w ∈ (b.watched? monitor.watch r).toList := by
  unfold passing
  split
  case h_1 v hv => simp [hv, mem_seen_record_iff]
  case h_2 hv => simp [hv]

/-- A monitor that sees no value again has seen one visit more, if this is one. -/
theorem Records.passing {monitor : CheckpointMonitor n} {b : BareMachine n} {r : RegisterFile n}
    {values : List UInt64} (h : monitor.Records values)
    (hnew : ∀ v ∈ b.watched? monitor.watch r, v ∉ values) :
    (monitor.passing b r).Records (values ++ (b.watched? monitor.watch r).toList) := by
  unfold CheckpointMonitor.passing
  cases hv : b.watched? monitor.watch r with
  | none => rwa [Option.toList_none, List.append_nil]
  | some v => exact h.record (hnew v hv)

end CheckpointMonitor

namespace Machine

variable {m next : Machine n} {monitor : CheckpointMonitor n} {i : Instruction} {fault : Fault}

/-- The checkpoint is about to see a value that it has seen before. -/
def Repeating (m : Machine n) : Prop :=
  ∃ monitor ∈ m.monitor, ∃ v ∈ m.bare.watched? monitor.watch m.registers, v ∈ monitor.seen

theorem repeating_iff_of_watched (h : m.monitor = some monitor) :
    m.Repeating ↔ ∃ v ∈ m.bare.watched? monitor.watch m.registers, v ∈ monitor.seen := by
  simp [Repeating, h]

/-! ## The three moves -/

theorem move_of_repeating (running : m.state = .running)
    (inside : m.bare.fetch? m.registers = some i) (h : m.Repeating) : m.move = .stop := by
  obtain ⟨monitor, hmonitor, v, hv, hseen⟩ := h
  rw [Option.mem_def, watched?_eq_some_iff] at hv
  obtain ⟨hposition, rfl⟩ := hv
  exact move_of_repeated running inside hmonitor hposition.symm
    (CheckpointMonitor.observe_of_mem hseen)

theorem move_of_not_repeating (running : m.state = .running)
    (inside : m.bare.fetch? m.registers = some i) (h : ¬ m.Repeating) :
    m.move = .execute i (m.monitor.map fun monitor => monitor.passing m.bare m.registers) := by
  cases hmonitor : m.monitor with
  | none => exact move_of_unwatched running inside hmonitor
  | some monitor =>
    rw [repeating_iff_of_watched hmonitor] at h
    by_cases hhere : m.bare.position m.registers = monitor.position
    · have hwatched : m.bare.watched? monitor.watch m.registers =
          some (m.registers.word monitor.register) :=
        watched?_eq_some_iff.mpr ⟨hhere, rfl⟩
      have hnew : m.registers.word monitor.register ∉ monitor.seen :=
        fun hseen => h ⟨_, hwatched, hseen⟩
      rw [Option.map_some, CheckpointMonitor.passing, hwatched]
      exact move_of_new running inside hmonitor hhere.symm
        (CheckpointMonitor.observe_of_not_mem hnew)
    · have hwatched : m.bare.watched? monitor.watch m.registers = none := if_neg hhere
      rw [Option.map_some, CheckpointMonitor.passing, hwatched]
      exact move_of_elsewhere running inside hmonitor (Ne.symm hhere)

/-- The machine after an executed instruction has led to these registers. -/
def proceed (m : Machine n) (r : RegisterFile n) : Machine n :=
  { m with
    registers := r
    monitor := m.monitor.map fun monitor => monitor.passing m.bare m.registers
    steps := m.steps + 1 }

@[simp] theorem bare_proceed (m : Machine n) (r : RegisterFile n) : (m.proceed r).bare = m.bare :=
  rfl

@[simp] theorem registers_proceed (m : Machine n) (r : RegisterFile n) :
    (m.proceed r).registers = r := rfl

@[simp] theorem monitor_proceed (m : Machine n) (r : RegisterFile n) :
    (m.proceed r).monitor =
      m.monitor.map fun monitor => monitor.passing m.bare m.registers := rfl

@[simp] theorem state_proceed (m : Machine n) (r : RegisterFile n) :
    (m.proceed r).state = m.state := rfl

@[simp] theorem steps_proceed (m : Machine n) (r : RegisterFile n) :
    (m.proceed r).steps = m.steps + 1 := rfl

theorem step_of_outside (running : m.state = .running)
    (outside : m.bare.fetch? m.registers = none) :
    m.step = .ok { m with state := .leftProgram } := by
  rw [step, move_of_outside running outside]

theorem step_of_repeating (running : m.state = .running)
    (inside : m.bare.fetch? m.registers = some i) (h : m.Repeating) :
    m.step = .ok { m with state := .valueRepeated } := by
  rw [step, move_of_repeating running inside h]

theorem step_of_next {r : RegisterFile n} (running : m.state = .running)
    (hnext : m.bare.next? m.registers = some r) (h : ¬ m.Repeating) :
    m.step = .ok (m.proceed r) := by
  obtain ⟨i, after, inside, hafter, rfl⟩ := next?_eq_some_iff.mp hnext
  have hexecute : i.execute m.registers = .ok after := Instruction.execute_eq_ok_iff.mpr hafter
  rw [step, move_of_not_repeating running inside h]
  simp only [hexecute]
  rfl

theorem step_of_unperformable (running : m.state = .running)
    (inside : m.bare.fetch? m.registers = some i) (h : ¬ m.Repeating) (hout : ¬ i.InRange n) :
    m.step = .error (.operandOutOfRange i n) := by
  have hperform : i.perform? m.registers = none := Instruction.perform?_eq_none_iff.mpr hout
  have hexecute : i.execute m.registers = .error (.operandOutOfRange i n) :=
    Instruction.execute_eq_error_iff.mpr ⟨hperform, rfl⟩
  rw [step, move_of_not_repeating running inside h]
  simp only [hexecute]

/-- What a machine can do. -/
inductive Moves (m : Machine n) : Except Fault (Machine n) → Prop
  /-- It has halted and stays as it is. -/
  | rest (halted : m.state.isHalted = true) : Moves m (.ok m)
  /-- It halts outside the program. -/
  | leave (running : m.state = .running) (outside : m.bare.fetch? m.registers = none) :
      Moves m (.ok { m with state := .leftProgram })
  /-- It halts since its checkpoint sees a value again. -/
  | stop {i : Instruction} (running : m.state = .running)
      (inside : m.bare.fetch? m.registers = some i) (repeating : m.Repeating) :
      Moves m (.ok { m with state := .valueRepeated })
  /-- It executes an instruction. -/
  | proceed {r : RegisterFile n} (running : m.state = .running)
      (next : m.bare.next? m.registers = some r) (new : ¬ m.Repeating) : Moves m (.ok (m.proceed r))
  /-- It fails at an instruction that names a register that does not exist. -/
  | fail {i : Instruction} (running : m.state = .running)
      (inside : m.bare.fetch? m.registers = some i) (new : ¬ m.Repeating) (out : ¬ i.InRange n) :
      Moves m (.error (.operandOutOfRange i n))

theorem moves_of_running (running : m.state = .running) : m.Moves m.step := by
  cases hfetch : m.bare.fetch? m.registers with
  | none =>
    rw [step_of_outside running hfetch]
    exact .leave running hfetch
  | some i =>
    by_cases hrepeating : m.Repeating
    · rw [step_of_repeating running hfetch hrepeating]
      exact .stop running hfetch hrepeating
    · by_cases hrange : i.InRange n
      · obtain ⟨r, hnext⟩ := exists_next?_iff.mpr ⟨i, hfetch, hrange⟩
        rw [step_of_next running hnext hrepeating]
        exact .proceed running hnext hrepeating
      · rw [step_of_unperformable running hfetch hrepeating hrange]
        exact .fail running hfetch hrepeating hrange

/-- A machine does one of these things. -/
theorem moves_of_step {result : Except Fault (Machine n)} (h : m.step = result) :
    m.Moves result := by
  subst h
  cases hstate : m.state with
  | running => exact moves_of_running hstate
  | leftProgram | valueRepeated =>
    have hhalted : m.state.isHalted = true := by rw [hstate]; rfl
    rw [step_of_isHalted hhalted]
    exact .rest hhalted

/-- When a move fails, and how. -/
theorem step_eq_error_iff :
    m.step = .error fault ↔ m.state = .running ∧ ¬ m.Repeating ∧
      ∃ i, m.program[m.ip.toNat]? = some i ∧ i.perform? m.registers = none ∧
        fault = .operandOutOfRange i n := by
  constructor
  · intro h
    cases moves_of_step h with
    | fail running inside new out =>
      exact ⟨running, new, _, inside, Instruction.perform?_eq_none_iff.mpr out, rfl⟩
  · rintro ⟨running, new, i, inside, hperform, rfl⟩
    exact step_of_unperformable running inside new (Instruction.perform?_eq_none_iff.mp hperform)

/-- A machine that is still running has executed an instruction. -/
theorem exists_proceed_of_step (h : m.step = .ok next) (running : next.state = .running) :
    ∃ r, m.bare.next? m.registers = some r ∧ ¬ m.Repeating ∧ next = m.proceed r := by
  cases moves_of_step h with
  | rest halted =>
    rw [running] at halted
    cases halted
  | leave => cases running
  | stop => cases running
  | proceed _ hnext hnew => exact ⟨_, hnext, hnew, rfl⟩

end Machine

end RegisterMachine
