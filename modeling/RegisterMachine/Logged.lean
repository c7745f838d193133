import RegisterMachine.Deduction
import RegisterMachine.Machine

set_option autoImplicit false

/-!
# Operations that log

The deduction of bindings, the plain run and the moves of a machine log while they are at it: each
message goes to the console at the point of the computation where it arises.  What has been logged
before a failure stays logged.
-/

namespace RegisterMachine

/-- A computation that may fail, and that logs to a console. -/
abbrev Logged := ExceptT Fault (StateM Log.Console)

namespace Logged

variable {α : Type} {n : Nat}

/-- Logs a message. -/
def log (m : Log.Message) : Logged Unit := modify fun c => c.log m

/-- Goes on with a result.  A fault is reported before it is passed on. -/
def reporting (report : Fault → Log.Message) : Except Fault α → Logged α
  | .ok x => return x
  | .error f => do
    log (report f)
    throw f

/-- The bindings that follow from the samples. -/
def deduceBindings (samples : List Sample) : Logged BindingTable := do
  let report (f : Fault) := deductionMessage samples (.error f)
  let d ← samples.zipIdx.foldlM (fun d entry => reporting report (d.observe entry.2 entry.1))
    ({} : Deduction)
  let table ← reporting report d.finish
  log (deductionMessage samples (.ok table))
  return table

/-- Executes the instruction at position `index` of a raw program.  An opcode that is not bound is
reported. -/
def executePlain (t : BindingTable) (index : Nat) (i : RawInstruction) (r : RegisterFile n) :
    Logged (RegisterFile n) :=
  match t.get? i.opcode with
  | none => do
    let fault := Fault.unboundOpcode i.opcode index
    log ⟨.error, s!"plain run aborted: {fault}"⟩
    throw fault
  | some op => liftExcept ((i.bind op).execute r)

/-- The registers after a raw program. -/
def runPlain (t : BindingTable) (program : List RawInstruction) (initial : RegisterFile n) :
    Logged (RegisterFile n) :=
  program.zipIdx.foldlM (fun r entry => executePlain t entry.2 entry.1 r) initial

/-- Makes one move.  With tracing on an executed instruction is logged, before the instruction
pointer is raised. -/
def stepMachine (m : Machine n) : Logged (Machine n) :=
  match m.move with
  | .rest => return m
  | .leave => return { m with state := .leftProgram }
  | .stop => return { m with state := .valueRepeated }
  | .execute instruction monitor => do
    let after ← liftExcept (instruction.execute m.registers)
    if m.trace then
      let e : Execution n := { before := m.registers, instruction, after }
      log ⟨.info, e.line m.ipRegister⟩
    return { m with
      registers := Machine.advance m.ipRegister after
      monitor
      steps := m.steps + 1 }

/-- Makes the given number of moves. -/
def stepMachineTimes : Nat → Machine n → Logged (Machine n)
  | 0, m => return m
  | k + 1, m => do
    let next ← stepMachine m
    stepMachineTimes k next

/-- Makes moves until the machine has halted, and logs why it has; `none` if the given number of
moves does not suffice. -/
def runMachineFor : Nat → Machine n → Logged (Option (Outcome n))
  | 0, _ => return none
  | k + 1, m => do
    let next ← stepMachine m
    if next.state.isHalted then
      log next.haltMessage
      return some next.outcome
    else
      runMachineFor k next

/-- Makes moves until the machine has halted, and logs why it has; `none` if it never does. -/
def runMachine (m : Machine n) : Logged (Option (Outcome n)) :=
  runMachineFor (Machine.moveBound n) m

end Logged

end RegisterMachine
