import RegisterMachine.Proofs.Logged
import RegisterMachine.Proofs.Machine.Halting
import RegisterMachine.Proofs.Machine.Unwatched

set_option autoImplicit false

/-!
# Traces

A machine makes the same moves whether or not it is traced, so a run has the same outcome.  What the
trace of a run that halts shows is its chronicle: a line for each executed instruction, in order,
and after them the line that tells why the run has ended.
-/

namespace RegisterMachine

/-- What is told about the end of a run by its outcome, if this register is the instruction
pointer. -/
def Outcome.ending {n : Nat} (o : Outcome n) (ipRegister : Fin n) : String :=
  let ip := o.registers.word ipRegister
  match o.state with
  | .valueRepeated =>
    s!"checkpoint value repeated after {o.steps} steps, registers {o.registers}"
  | _ => s!"instruction pointer {ip} left the program after {o.steps} steps"

namespace Machine

open BareMachine Log

variable {n : Nat} {m : Machine n} {b : BareMachine n} {initial : RegisterFile n} {on : Bool}
  {k : Nat}

/-! ## The same moves -/

theorem step_withTrace (m : Machine n) (on : Bool) :
    (m.withTrace on).step = m.step.map fun next => next.withTrace on := by
  rw [step, step, show (m.withTrace on).move = m.move from rfl]
  cases m.move with
  | rest | leave | stop => rfl
  | execute instruction monitor =>
    rw [show (m.withTrace on).registers = m.registers from rfl]
    cases hexecute : instruction.execute m.registers <;> simp only [hexecute] <;> rfl

theorem stepTimes_withTrace (k : Nat) (m : Machine n) (on : Bool) :
    (m.withTrace on).stepTimes k = (m.stepTimes k).map fun last => last.withTrace on := by
  induction k generalizing m with
  | zero => rfl
  | succ k ih =>
    rw [stepTimes, stepTimes, step_withTrace]
    cases m.step with
    | error fault => rfl
    | ok next => exact ih next

/-- What a run comes to does not depend on the tracing. -/
theorem answer_run_withTrace (m : Machine n) (on : Bool) :
    Logged.answer (m.withTrace on).run = Logged.answer m.run := by
  rw [run_map (f := fun m => m.withTrace on) (fun _ => rfl) fun k => stepTimes_withTrace k m on]
  rcases m.run with - | (- | final) <;> rfl

/-! ## What a run that halts has logged -/

theorem exists_of_answer_eq_some {result : Option (Except Fault (Machine n))} {o : Outcome n}
    (h : Logged.answer result = .ok (some o)) :
    ∃ final, result = some (.ok final) ∧ final.outcome = o := by
  rcases result with - | (fault | final)
  · cases h
  · cases h
  · cases h
    exact ⟨final, rfl, rfl⟩

theorem answer_eq_none_iff {result : Option (Except Fault (Machine n))} :
    Logged.answer result = .ok none ↔ result = none := by
  rcases result with - | (fault | final) <;> simp [Logged.answer]

/-- A machine made from a bare machine, with or without a checkpoint, is at the start of its
trajectory. -/
theorem exists_prepare_follows (b : BareMachine n) (initial : RegisterFile n)
    (w : Option (Watch n)) :
    ∃ m, prepare b.program b.ipRegister initial (w.map Watch.checkpoint) = .ok m ∧
      m.Follows b initial 0 := by
  cases w with
  | none => exact ⟨_, prepare_eq_startUnwatched b initial, ⟨rfl, rfl, rfl⟩⟩
  | some w => exact ⟨_, prepare_eq_start b initial w, ⟨rfl, rfl, rfl⟩⟩

theorem haltMessage_eq (m : Machine n) :
    m.haltMessage = ⟨.info, m.outcome.ending m.ipRegister⟩ := by
  have hstate : m.outcome.state = m.state := rfl
  rw [haltMessage, Outcome.ending, hstate]
  cases m.state <;> rfl

/-- **Tracing is faithful and has no effect.**  A run answers the same whether or not it is traced,
be it an outcome, a fault or, exactly if the machine never halts, nothing.  If nothing is below the
minimum level, a traced run that halts writes a line for each instruction that it has counted and
one for its end, which tells the steps and the registers or the instruction pointer of the outcome.
A line for an instruction shows the number of the instruction pointer's register, the registers
before it, the instruction and the registers after it.  The lines are about the instructions on the
trajectory, in order: the first one begins with the initial registers, each other one with those
that the one before ends with and the instruction pointer raised, and the last one ends, but for the
instruction pointer, with the registers of the outcome. -/
theorem trace_is_faithful (b : BareMachine n) (initial : RegisterFile n) (w : Option (Watch n)) :
    ∃ m, prepare b.program b.ipRegister initial (w.map Watch.checkpoint) = .ok m ∧
      (∀ c c' : Console,
        ((Logged.runMachine (m.withTrace true)).run.run c).1 =
          ((Logged.runMachine (m.withTrace false)).run.run c').1) ∧
      (∀ (on : Bool) (c : Console),
        ((Logged.runMachine (m.withTrace on)).run.run c).1 = .ok none ↔ ∀ k, ∃ m', m.RunsTo k m') ∧
      ∀ (c c' : Console) (o : Outcome n), c.settings.minLevel = .info →
        (Logged.runMachine (m.withTrace true)).run.run c = (.ok (some o), c') →
        ∃ es : List (Execution n),
          c'.written = c.written ++ c.settings.text (c.stamped
            (es.map (fun e =>
                ⟨.info, s!"ip={b.ipRegister.val} {e.before} {e.instruction} {e.after}"⟩) ++
              [⟨.info, o.ending b.ipRegister⟩])) ∧
          o.state.isHalted = true ∧ o.steps = .ofNat es.length ∧
          (∀ k (hk : k < es.length), b.trajectory initial k = some es[k].before) ∧
          Chronicle b initial es o.registers := by
  obtain ⟨m, hprepare, hfollows⟩ := exists_prepare_follows b initial w
  have hrun (on : Bool) := Logged.emits_runMachine (m.withTrace on)
  refine ⟨m, hprepare, ?_, ?_, ?_⟩
  · intro c c'
    rw [hrun true c, hrun false c', answer_run_withTrace, answer_run_withTrace]
  · intro on c
    rw [hrun on c, answer_run_withTrace, answer_eq_none_iff, run_eq_none_iff]
  · intro c c' o hlevel hhalts
    rw [hrun true c, Prod.mk.injEq] at hhalts
    obtain ⟨hanswer, rfl⟩ := hhalts
    obtain ⟨final, hfinal, rfl⟩ := exists_of_answer_eq_some hanswer
    obtain ⟨hlast, hmoves⟩ := stepTimes_of_runFor hfinal
    obtain ⟨hchronicle, hsteps, hbare⟩ := chronicle_executions hmoves
    obtain ⟨rfl, hregisters, hzero⟩ := hfollows
    cases hregisters
    have hmessages : (m.withTrace true).runMessages =
        ((m.withTrace true).executions (moveBound n)).map
          (fun e => ⟨.info, e.line m.ipRegister⟩) ++ [final.haltMessage] := by
      rw [runMessages, hfinal]
      rfl
    have hpointer : final.ipRegister = m.ipRegister := congrArg BareMachine.ipRegister hbare
    refine ⟨(m.withTrace true).executions (moveBound n), ?_, hlast final rfl, ?_,
      fun k hk => hchronicle.trajectory_eq hk, hchronicle⟩
    · rw [Console.written_logAll, hlevel, fromLevel_info, hmessages, haltMessage_eq, hpointer]
      rfl
    · rw [show final.outcome.steps = final.steps from rfl, hsteps,
        show (m.withTrace true).steps = 0 from hzero, UInt64.zero_add]

/-- The loop that goes back and forth is traced until its checkpoint sees zero again.  That is after
six instructions, and nothing is logged about the move at which it is seen. -/
theorem trace_is_faithful_toggling :
    ∃ m, prepare toggling.program 0 ⟨#v[0, 0]⟩ (some ⟨0, 1⟩) = .ok m ∧
      ∃ (c' : Console) (es : List (Execution 2)),
        (Logged.runMachine (m.withTrace true)).run.run .undated =
          (.ok (some ⟨⟨#v[0, 0]⟩, .valueRepeated, 6, some ⟨0, 1, 0, 1, 2⟩⟩), c') ∧
        c'.written =
          "[INFO ] ip=0 [0, 0] addi 1 1 1 [0, 1]\n" ++
          "[INFO ] ip=0 [1, 1] bani 1 1 1 [1, 1]\n" ++
          "[INFO ] ip=0 [2, 1] seti 18446744073709551615 0 0 [18446744073709551615, 1]\n" ++
          "[INFO ] ip=0 [0, 1] addi 1 1 1 [0, 2]\n" ++
          "[INFO ] ip=0 [1, 2] bani 1 1 1 [1, 0]\n" ++
          "[INFO ] ip=0 [2, 0] seti 18446744073709551615 0 0 [18446744073709551615, 0]\n" ++
          "[INFO ] checkpoint value repeated after 6 steps, registers [0, 0]\n" ∧
        c'.written = "" ++ Console.undated.settings.text (Console.undated.stamped
          (es.map (fun e => ⟨.info, s!"ip={0} {e.before} {e.instruction} {e.after}"⟩) ++
            [⟨.info, "checkpoint value repeated after 6 steps, registers [0, 0]"⟩])) ∧
        UInt64.ofNat es.length = 6 ∧ Chronicle toggling ⟨#v[0, 0]⟩ es ⟨#v[0, 0]⟩ := by
  obtain ⟨m, hprepare, -, -, hfaithful⟩ :=
    trace_is_faithful toggling ⟨#v[0, 0]⟩ (some ⟨0, ⟨1, Nat.one_lt_two⟩⟩)
  have hstart := prepare_eq_start toggling ⟨#v[0, 0]⟩ ⟨0, ⟨1, Nat.one_lt_two⟩⟩
  cases hprepare.symm.trans hstart
  generalize hrun : (Logged.runMachine ((start toggling ⟨#v[0, 0]⟩
    ⟨0, ⟨1, Nat.one_lt_two⟩⟩).withTrace true)).run.run .undated = answer
  have hresult : answer.1.toOption =
      some (some ⟨⟨#v[0, 0]⟩, .valueRepeated, 6, some ⟨0, 1, 0, 1, 2⟩⟩) := by
    rw [← hrun]
    decide +kernel
  refine ⟨_, hstart, ?_⟩
  obtain ⟨result, c'⟩ := answer
  cases result with
  | error fault => cases hresult
  | ok outcome =>
    cases hresult
    obtain ⟨es, hwritten, -, hsteps, -, hchronicle⟩ := hfaithful .undated c' _ rfl hrun
    refine ⟨c', es, hrun, ?_, hwritten, hsteps.symm, hchronicle⟩
    rw [← show _ = c' from congrArg Prod.snd hrun]
    decide +kernel

end Machine

end RegisterMachine
