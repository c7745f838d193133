import RegisterMachine.Logged
import RegisterMachine.Proofs.Deduction.Observation
import RegisterMachine.Proofs.Log.Console
import RegisterMachine.Proofs.Machine.Executions

set_option autoImplicit false

/-!
# What the operations log

An operation that logs has the result of the one that does not, on any console, and what it logs is
a list of messages that does not depend on the console either.  Here this is said of each operation,
with its messages; they come from computing with messages as values, put together call by call.
-/

namespace RegisterMachine.Logged

open Log (Message Console)

variable {α β : Type} {n : Nat} {fault : Fault} {a : α} {result : Except Fault α}
  {messages messages' : List Message}

/-! ## Results and messages -/

/-- On any console the computation has this result, and these messages are all that it logs. -/
def Emits (x : Logged α) (result : Except Fault α) (messages : List Message) : Prop :=
  ∀ c : Console, x.run.run c = (result, c.logAll messages)

theorem emits_pure (a : α) : Emits (pure a) (.ok a) [] := fun _ => rfl

theorem emits_throw (fault : Fault) : Emits (throw fault : Logged α) (.error fault) [] :=
  fun _ => rfl

theorem emits_log (m : Message) : Emits (log m) (.ok ()) [m] := fun _ => rfl

theorem emits_liftExcept (result : Except Fault α) : Emits (liftExcept result) result [] := by
  cases result with
  | ok a => exact emits_pure a
  | error fault => exact emits_throw fault

/-- What comes after a result is logged after what led to it. -/
theorem Emits.bind {x : Logged α} {f : α → Logged β} {result : Except Fault β}
    (h : Emits x (.ok a) messages) (hf : Emits (f a) result messages') :
    Emits (x >>= f) result (messages ++ messages') := by
  intro c
  have hx := h c
  have hfa := hf (c.logAll messages)
  rw [Console.logAll_append, ← hfa]
  simp only [ExceptT.run_bind, StateT.run_bind, hx]
  rfl

/-- Nothing comes after a failure. -/
theorem Emits.bind_error {x : Logged α} {f : α → Logged β}
    (h : Emits x (.error fault) messages) : Emits (x >>= f) (.error fault) messages := by
  intro c
  simp only [ExceptT.run_bind, StateT.run_bind, h c]
  rfl

/-! ## Computations that log their failure only -/

/-- What is reported of a result: nothing if it is proper. -/
def reported (report : Fault → List Message) : Except Fault α → List Message
  | .ok _ => []
  | .error fault => report fault

/-- The computation logs nothing, but what it has to report if it fails. -/
def Reports (x : Logged α) (result : Except Fault α) (report : Fault → List Message) : Prop :=
  Emits x result (reported report result)

theorem reports_reporting (report : Fault → Message) (result : Except Fault α) :
    Reports (reporting report result) result fun fault => [report fault] := by
  cases result with
  | ok a => exact emits_pure a
  | error fault => exact (emits_log (report fault)).bind (emits_throw fault)

theorem reports_foldlM {f : β → α → Logged β} {g : β → α → Except Fault β}
    {report : Fault → List Message} (h : ∀ b a, Reports (f b a) (g b a) report) (l : List α)
    (b : β) : Reports (l.foldlM f b) (l.foldlM g b) report := by
  induction l generalizing b with
  | nil => exact emits_pure b
  | cons a l ih =>
    have hfirst := h b a
    rw [List.foldlM_cons, List.foldlM_cons]
    cases hg : g b a with
    | error fault =>
      rw [hg] at hfirst
      exact hfirst.bind_error
    | ok b' =>
      rw [hg] at hfirst
      exact hfirst.bind (ih b')

/-! ## The operations -/

/-- A deduction logs one message, with what it has come to. -/
theorem emits_deduceBindings (samples : List Sample) :
    Emits (Logged.deduceBindings samples) (RegisterMachine.deduceBindings samples)
      [deductionMessage samples (RegisterMachine.deduceBindings samples)] := by
  have hfold := reports_foldlM
    (fun (d : Deduction) (entry : Sample × Nat) =>
      reports_reporting (fun fault => deductionMessage samples (.error fault))
        (d.observe entry.2 entry.1))
    samples.zipIdx {}
  rw [← Deduction.ofSamples] at hfold
  cases hd : Deduction.ofSamples samples with
  | error fault =>
    -- The report of the fault is the message of the deduction, and nothing is logged after it.
    rw [hd] at hfold
    rw [Deduction.deduceBindings_of_ofSamples_eq_error hd]
    exact hfold.bind_error
  | ok d =>
    have hfinish := reports_reporting (fun fault => deductionMessage samples (.error fault))
      d.finish
    rw [hd] at hfold
    rw [Deduction.deduceBindings_of_ofSamples_eq_ok hd]
    refine Emits.bind hfold ?_
    cases ht : d.finish with
    | error fault =>
      rw [ht] at hfinish
      exact hfinish.bind_error
    | ok table =>
      rw [ht] at hfinish
      exact hfinish.bind ((emits_log _).bind (emits_pure table))

theorem plainRunMessages_eq_reported (result : Except Fault (RegisterFile n)) :
    plainRunMessages result =
      reported (fun fault => plainRunMessages (.error fault : Except Fault (RegisterFile n)))
        result := by
  cases result <;> rfl

/-- A plain run reports no fault of an instruction. -/
theorem plainRunMessages_execute (i : Instruction) (r : RegisterFile n) :
    plainRunMessages (i.execute r) = [] := by
  cases hexecute : i.execute r with
  | ok after => rfl
  | error fault =>
    obtain ⟨-, rfl⟩ := Instruction.execute_eq_error_iff.mp hexecute
    rfl

theorem reports_executePlain (t : BindingTable) (index : Nat) (i : RawInstruction)
    (r : RegisterFile n) :
    Reports (executePlain t index i r) (t.execute index i r)
      fun fault => plainRunMessages (.error fault : Except Fault (RegisterFile n)) := by
  rw [Reports, ← plainRunMessages_eq_reported, executePlain, BindingTable.execute]
  cases t.get? i.opcode with
  | none => exact (emits_log _).bind (emits_throw _)
  | some op =>
    simp only [plainRunMessages_execute]
    exact emits_liftExcept _

/-- A plain run logs that it was given up, if it was. -/
theorem emits_runPlain (t : BindingTable) (program : List RawInstruction)
    (initial : RegisterFile n) :
    Emits (runPlain t program initial) (t.run program initial)
      (plainRunMessages (t.run program initial)) := by
  rw [plainRunMessages_eq_reported]
  exact reports_foldlM (fun r entry => reports_executePlain t entry.2 entry.1 r)
    program.zipIdx initial

/-! ## The machine -/

/-- A move logs the instruction that it executes, if it does and tracing is on. -/
theorem emits_stepMachine (m : Machine n) : Emits (stepMachine m) m.step (m.stepMessages 1) := by
  rw [Machine.stepMessages, Machine.executions_one, Machine.execution?, stepMachine, Machine.step]
  cases m.move with
  | rest | leave | stop => cases m.trace <;> exact emits_pure _
  | execute instruction monitor =>
    cases hexecute : instruction.execute m.registers with
    | error fault =>
      obtain ⟨hperform, -⟩ := Instruction.execute_eq_error_iff.mp hexecute
      simp only [hexecute, hperform, Option.map_none, Option.toList_none, List.map_nil, ite_self]
      exact (emits_liftExcept (.error fault)).bind_error
    | ok after =>
      have hperform := Instruction.execute_eq_ok_iff.mp hexecute
      have hread := emits_liftExcept (.ok after : Except Fault (RegisterFile n))
      by_cases htrace : m.trace = true
      · simp only [hexecute, hperform, if_pos htrace]
        exact hread.bind ((emits_log _).bind (emits_pure _))
      · simp only [hexecute, hperform, if_neg htrace]
        exact hread.bind (emits_pure _)

theorem emits_stepMachineTimes (k : Nat) (m : Machine n) :
    Emits (stepMachineTimes k m) (m.stepTimes k) (m.stepMessages k) := by
  induction k generalizing m with
  | zero =>
    rw [Machine.stepMessages_zero]
    exact emits_pure m
  | succ k ih =>
    have hfirst := emits_stepMachine m
    rw [stepMachineTimes, Machine.stepTimes]
    cases hstep : m.step with
    | error fault =>
      rw [hstep, Machine.stepMessages_succ_of_error hstep] at hfirst
      rw [Machine.stepMessages_succ_of_error hstep]
      exact hfirst.bind_error
    | ok next =>
      rw [hstep] at hfirst
      rw [Machine.stepMessages_succ_of_step hstep]
      exact hfirst.bind (ih next)

/-- What a run that logs answers about the result of one that does not. -/
def answer : Option (Except Fault (Machine n)) → Except Fault (Option (Outcome n))
  | none => .ok none
  | some (.error fault) => .error fault
  | some (.ok final) => .ok (some final.outcome)

/-- What is logged about the end of a run. -/
def haltMessages : Option (Except Fault (Machine n)) → List Message
  | some (.ok final) => [final.haltMessage]
  | _ => []

/-- A run logs its moves, and its end if the machine halts. -/
theorem emits_runMachineFor (k : Nat) (m : Machine n) :
    Emits (runMachineFor k m) (answer (m.runFor k))
      (m.stepMessages k ++ haltMessages (m.runFor k)) := by
  induction k generalizing m with
  | zero =>
    rw [Machine.stepMessages_zero]
    exact emits_pure none
  | succ k ih =>
    have hfirst := emits_stepMachine m
    rw [runMachineFor]
    cases hstep : m.step with
    | error fault =>
      rw [hstep, Machine.stepMessages_succ_of_error hstep] at hfirst
      rw [Machine.stepMessages_succ_of_error hstep, Machine.runFor_succ_of_error k hstep]
      exact hfirst.bind_error
    | ok next =>
      rw [hstep] at hfirst
      rw [Machine.stepMessages_succ_of_step hstep, List.append_assoc]
      refine hfirst.bind ?_
      cases hhalted : next.state.isHalted with
      | true =>
        -- The move that halts has logged nothing, and the ones that are left log nothing either.
        rw [Machine.stepMessages_of_isHalted hhalted, Machine.runFor_succ_of_halted k hstep hhalted]
        exact (emits_log _).bind (emits_pure _)
      | false =>
        rw [Machine.runFor_succ_of_running k hstep hhalted]
        exact ih next

theorem emits_runMachine (m : Machine n) :
    Emits (runMachine m) (answer m.run) m.runMessages := by
  have hmessages : m.runMessages =
      m.stepMessages (Machine.moveBound n) ++ haltMessages m.run := by
    rw [Machine.runMessages]
    rcases m.run with - | (- | final) <;> rfl
  rw [hmessages]
  exact emits_runMachineFor (Machine.moveBound n) m

end RegisterMachine.Logged
