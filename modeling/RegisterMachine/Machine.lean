import Std.Data.ExtTreeSet
import RegisterMachine.Log.Console
import RegisterMachine.RegisterFile

set_option autoImplicit false

/-!
# The machine

A machine runs a program under the control of one of its registers, the instruction pointer: the
content of that register is the position of the instruction that is executed next.  After each
instruction, which may itself have read or written the register, it is raised by one modulo
`2 ^ 64`.  The run ends when the pointer is no position of the program.

A checkpoint watches the content of one register whenever the run is about to execute the
instruction at one position.  Its monitor remembers the values seen there and sums them up.  A value
that was seen before tells that the run repeats itself: it is not counted again, and ends the run
before the instruction is executed.

A run makes moves until the machine halts.  A machine has finitely many register files, and what it
does next depends, but for the checkpoint, on its registers alone.  So a run that halts at all does
so within `Machine.moveBound` moves: without a checkpoint before a register file recurs, and with
one at the latest a full round later.  `Machine.run` answers `none` for a run that never halts.  A
run is logged by a line for each executed instruction, if tracing is on, and a last line that tells
why it ended.
-/

namespace RegisterMachine

open Std (ExtTreeSet)

variable {n : Nat}

/-! ## Checkpoints -/

/-- The position at which to look, and the index of the register to look at. -/
structure Checkpoint where
  position : Nat
  register : Nat
  deriving DecidableEq, Repr, Inhabited

/-- What a monitor tells about the distinct values it has seen: the first and the last of them, the
least and the greatest, and their number. -/
structure CheckpointReport where
  firstSeen : UInt64
  lastDistinct : UInt64
  lowest : UInt64
  highest : UInt64
  distinct : Nat
  deriving DecidableEq, Repr, Inhabited

namespace CheckpointReport

/-- The report on a single value. -/
def single (value : UInt64) : CheckpointReport where
  firstSeen := value
  lastDistinct := value
  lowest := value
  highest := value
  distinct := 1

/-- The report after one more value, different from those before. -/
def extend (report : CheckpointReport) (value : UInt64) : CheckpointReport where
  firstSeen := report.firstSeen
  lastDistinct := value
  lowest := min report.lowest value
  highest := max report.highest value
  distinct := report.distinct + 1

end CheckpointReport

/-- Whether a value was seen before. -/
inductive Observation where
  /-- The value is new. -/
  | new
  /-- The value was seen before. -/
  | repeated
  deriving DecidableEq, Repr, Inhabited

/-- A checkpoint of a file of `n` registers at work. -/
structure CheckpointMonitor (n : Nat) where
  position : Nat
  register : Fin n
  seen : ExtTreeSet UInt64 := ∅
  /-- The report on the values seen, if there were any. -/
  report : Option CheckpointReport := none
  deriving DecidableEq

namespace CheckpointMonitor

/-- Takes note of a value.  A value seen before changes nothing. -/
def observe (m : CheckpointMonitor n) (value : UInt64) : Observation × CheckpointMonitor n :=
  if value ∈ m.seen then (.repeated, m)
  else
    let report :=
      match m.report with
      | none => .single value
      | some report => report.extend value
    (.new, { m with seen := m.seen.insert value, report := some report })

theorem observe_of_mem {m : CheckpointMonitor n} {value : UInt64} (h : value ∈ m.seen) :
    m.observe value = (.repeated, m) := by
  simp [observe, h]

theorem observe_fst_eq_repeated_iff {m : CheckpointMonitor n} {value : UInt64} :
    (m.observe value).1 = .repeated ↔ value ∈ m.seen := by
  by_cases h : value ∈ m.seen <;> simp [observe, h]

end CheckpointMonitor

/-! ## Moves -/

/-- Whether and why a machine has halted. -/
inductive RunState where
  /-- The run goes on. -/
  | running
  /-- The instruction pointer has left the program. -/
  | leftProgram
  /-- The checkpoint has seen a value for the second time. -/
  | valueRepeated
  deriving DecidableEq, Repr, Inhabited

/-- Whether the run is over. -/
def RunState.isHalted : RunState → Bool
  | running => false
  | leftProgram | valueRepeated => true

/-- A machine with `n` registers in the course of a run. -/
structure Machine (n : Nat) where
  program : Array Instruction
  ipRegister : Fin n
  registers : RegisterFile n
  monitor : Option (CheckpointMonitor n) := none
  trace : Bool := false
  state : RunState := .running
  /-- The number of executed instructions, modulo `2 ^ 64`. -/
  steps : UInt64 := 0
  deriving DecidableEq

/-- What a machine does next. -/
inductive Move (n : Nat) where
  /-- Nothing: it has halted already. -/
  | rest
  /-- It halts, since the instruction pointer is outside the program. -/
  | leave
  /-- It halts, since the checkpoint sees a value again. -/
  | stop
  /-- It executes the instruction, after which this monitor is in charge. -/
  | execute (instruction : Instruction) (monitor : Option (CheckpointMonitor n))
  deriving DecidableEq

namespace Machine

/-- The register with the given index, for a machine that is to use it. -/
def register (n : Nat) (index : Nat) : Except Fault (Fin n) :=
  if h : index < n then .ok ⟨index, h⟩ else .error (.invalidRegisterIndex index n)

/-- A machine that is about to start, with the given register as its instruction pointer. -/
def create (program : Array Instruction) (ipRegister : Nat) (initial : RegisterFile n) :
    Except Fault (Machine n) := do
  let ipRegister ← register n ipRegister
  return { program, ipRegister, registers := initial }

/-- The machine with the given checkpoint, which has seen nothing yet, instead of any other. -/
def withCheckpoint (m : Machine n) (checkpoint : Checkpoint) : Except Fault (Machine n) := do
  let register ← register n checkpoint.register
  return { m with monitor := some { position := checkpoint.position, register } }

/-- The machine with tracing switched on or off. -/
def withTrace (m : Machine n) (trace : Bool) : Machine n := { m with trace }

/-- The instruction pointer. -/
def ip (m : Machine n) : UInt64 := m.registers.word m.ipRegister

/-- The instruction at the instruction pointer. -/
def fetch? (m : Machine n) : Option Instruction := m.program[m.ip.toNat]?

/-- What the machine does next.  The checkpoint is consulted after the instruction is found and
before it is executed. -/
def move (m : Machine n) : Move n :=
  if m.state.isHalted then .rest
  else
    match m.fetch? with
    | none => .leave
    | some instruction =>
      match m.monitor with
      | none => .execute instruction none
      | some monitor =>
        if monitor.position = m.ip.toNat then
          match monitor.observe (m.registers.word monitor.register) with
          | (.repeated, _) => .stop
          | (.new, monitor) => .execute instruction (some monitor)
        else .execute instruction (some monitor)

/-- The registers with the instruction pointer raised by one. -/
def advance (ipRegister : Fin n) (r : RegisterFile n) : RegisterFile n :=
  r.put ipRegister (r.word ipRegister + 1)

/-- Makes one move.  It fails if the instruction to be executed has a register operand that names no
register. -/
def step (m : Machine n) : Except Fault (Machine n) :=
  match m.move with
  | .rest => .ok m
  | .leave => .ok { m with state := .leftProgram }
  | .stop => .ok { m with state := .valueRepeated }
  | .execute instruction monitor =>
    match instruction.execute m.registers with
    | .error f => .error f
    | .ok after =>
      .ok { m with
        registers := advance m.ipRegister after
        monitor
        steps := m.steps + 1 }

/-- Makes the given number of moves. -/
def stepTimes : Nat → Machine n → Except Fault (Machine n)
  | 0, m => .ok m
  | k + 1, m =>
    match m.step with
    | .error f => .error f
    | .ok next => stepTimes k next

theorem step_of_isHalted {m : Machine n} (h : m.state.isHalted = true) : m.step = .ok m := by
  simp [step, move, h]

theorem stepTimes_succ_of_step {m next : Machine n} (k : Nat) (h : m.step = .ok next) :
    m.stepTimes (k + 1) = next.stepTimes k := by
  simp [stepTimes, h]

end Machine

/-! ## Runs -/

/-- What a run has come to. -/
structure Outcome (n : Nat) where
  registers : RegisterFile n
  state : RunState
  /-- The number of executed instructions, modulo `2 ^ 64`. -/
  steps : UInt64
  report : Option CheckpointReport
  deriving DecidableEq, Repr

/-- The first value that the checkpoint saw, and the last new one. -/
def Outcome.checkpointValues (o : Outcome n) : Option (UInt64 × UInt64) :=
  o.report.map fun report => (report.firstSeen, report.lastDistinct)

/-- The record of one executed instruction. -/
structure Execution (n : Nat) where
  before : RegisterFile n
  instruction : Instruction
  /-- The registers after it, before the instruction pointer is raised. -/
  after : RegisterFile n
  deriving DecidableEq, Repr

/-- The line that a trace shows for an executed instruction. -/
def Execution.line (e : Execution n) (ipRegister : Fin n) : String :=
  s!"ip={ipRegister.val} {e.before} {e.instruction} {e.after}"

namespace Machine

/-- What the run of a machine has come to so far. -/
def outcome (m : Machine n) : Outcome n where
  registers := m.registers
  state := m.state
  steps := m.steps
  report := m.monitor.bind CheckpointMonitor.report

/-- Makes moves until the machine has halted; `none` if the given number of moves does not
suffice. -/
def runFor : Nat → Machine n → Option (Except Fault (Machine n))
  | 0, _ => none
  | k + 1, m =>
    match m.step with
    | .error f => some (.error f)
    | .ok next => if next.state.isHalted then some (.ok next) else runFor k next

/-- A number of moves within which every machine with `n` registers has halted, if it ever does:
twice the number of register files, and one more to halt. -/
def moveBound (n : Nat) : Nat := 2 * UInt64.size.pow n + 1

/-- Makes moves until the machine has halted; `none` if it never does. -/
def run (m : Machine n) : Option (Except Fault (Machine n)) := m.runFor (moveBound n)

/-- A machine about to start, with a checkpoint if there is to be one. -/
def prepare (program : Array Instruction) (ipRegister : Nat) (initial : RegisterFile n)
    (checkpoint : Option Checkpoint) : Except Fault (Machine n) := do
  let m ← create program ipRegister initial
  match checkpoint with
  | none => return m
  | some checkpoint => m.withCheckpoint checkpoint

/-- Runs a program from its start to the halt; `none` if it never halts. -/
def runProgram (program : Array Instruction) (ipRegister : Nat) (initial : RegisterFile n)
    (checkpoint : Option Checkpoint) : Option (Except Fault (Outcome n)) :=
  match prepare program ipRegister initial checkpoint with
  | .error f => some (.error f)
  | .ok m => m.run.map fun result => result.map outcome

/-! ## What is logged -/

/-- The instruction that the next move executes. -/
def execution? (m : Machine n) : Option (Execution n) :=
  match m.move with
  | .execute instruction _ =>
    (instruction.perform? m.registers).map fun after => ⟨m.registers, instruction, after⟩
  | _ => none

/-- The instructions that the given number of moves execute, in order. -/
def executions (k : Nat) (m : Machine n) : List (Execution n) :=
  go k m []
where
  /-- Collects the executions, the last one first. -/
  go : Nat → Machine n → List (Execution n) → List (Execution n)
    | 0, _, done => done.reverse
    | k + 1, m, done =>
      match m.execution?, m.step with
      | some e, .ok next => go k next (e :: done)
      | _, _ => done.reverse

/-- What is logged about the given number of moves. -/
def stepMessages (k : Nat) (m : Machine n) : List Log.Message :=
  if m.trace then (m.executions k).map fun e => ⟨.info, e.line m.ipRegister⟩ else []

/-- What is logged about the end of a run. -/
def haltMessage (m : Machine n) : Log.Message :=
  match m.state with
  | .valueRepeated =>
    ⟨.info, s!"checkpoint value repeated after {m.steps} steps, registers {m.registers}"⟩
  | _ => ⟨.info, s!"instruction pointer {m.ip} left the program after {m.steps} steps"⟩

/-- What is logged about a run. -/
def runMessages (m : Machine n) : List Log.Message :=
  m.stepMessages (moveBound n) ++
    match m.run with
    | some (.ok final) => [final.haltMessage]
    | _ => []

/-! ## Running as repeated moves -/

@[simp] theorem runFor_zero (m : Machine n) : m.runFor 0 = none := rfl

theorem runFor_succ_of_halted {m next : Machine n} (k : Nat) (h : m.step = .ok next)
    (hhalted : next.state.isHalted = true) : m.runFor (k + 1) = some (.ok next) := by
  simp [runFor, h, hhalted]

theorem runFor_succ_of_running {m next : Machine n} (k : Nat) (h : m.step = .ok next)
    (hrunning : next.state.isHalted = false) : m.runFor (k + 1) = next.runFor k := by
  simp [runFor, h, hrunning]

theorem runFor_succ_of_error {m : Machine n} {f : Fault} (k : Nat) (h : m.step = .error f) :
    m.runFor (k + 1) = some (.error f) := by
  simp [runFor, h]

theorem executions.go_eq (k : Nat) (m : Machine n) (done : List (Execution n)) :
    executions.go k m done = done.reverse ++ m.executions k := by
  induction k generalizing m done with
  | zero => simp [executions, executions.go]
  | succ k ih =>
    simp only [executions, executions.go]
    split
    · rw [ih, ih]
      simp
    · simp

end Machine

end RegisterMachine
