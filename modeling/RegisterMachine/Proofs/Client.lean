import RegisterMachine.Proofs.Logged
import RegisterMachine.Proofs.PlainRun

set_option autoImplicit false

/-!
# Clients and the console

A client calls the operations one after the other, and what it calls next may depend on all that it
was answered.  Its conversation is the same on any console: how the log is set has no influence on
an answer, a fault or the next call.  And the text on a console with a higher level is that on a
console with a lower one, less the entries of the messages between the two.
-/

namespace RegisterMachine

open Log (Console Level Message Stamped fromLevel)

variable {n : Nat}

/-! ## Calls -/

/-- A call of an operation that may log. -/
inductive Call where
  /-- The deduction of bindings. -/
  | deduceBindings (samples : List Sample)
  /-- A plain run. -/
  | runPlain (n : Nat) (table : BindingTable) (program : List RawInstruction)
      (initial : RegisterFile n)
  /-- One move of a machine. -/
  | step (n : Nat) (m : Machine n)
  /-- The run of a machine to its end. -/
  | run (n : Nat) (m : Machine n)

namespace Call

/-- What the operation answers, if it does not fail. -/
def Answer : Call → Type
  | deduceBindings _ => BindingTable
  | runPlain n _ _ _ => RegisterFile n
  | step n _ => Machine n
  | run n _ => Option (Outcome n)

/-- Makes the call. -/
def make : (q : Call) → Logged q.Answer
  | deduceBindings samples => Logged.deduceBindings samples
  | runPlain _ table program initial => Logged.runPlain table program initial
  | step _ m => Logged.stepMachine m
  | run _ m => Logged.runMachine m

/-- The result of the operation, as a value. -/
def result : (q : Call) → Except Fault q.Answer
  | deduceBindings samples => RegisterMachine.deduceBindings samples
  | runPlain _ table program initial => table.run program initial
  | step _ m => m.step
  | run _ m => Logged.answer m.run

/-- What the operation logs, as a value. -/
def messages : Call → List Message
  | deduceBindings samples => [deductionMessage samples (RegisterMachine.deduceBindings samples)]
  | runPlain _ table program initial => plainRunMessages (table.run program initial)
  | step _ m => m.stepMessages 1
  | run _ m => m.runMessages

theorem emits_make (q : Call) : Logged.Emits q.make q.result q.messages := by
  cases q with
  | deduceBindings samples => exact Logged.emits_deduceBindings samples
  | runPlain n table program initial => exact Logged.emits_runPlain table program initial
  | step n m => exact Logged.emits_stepMachine m
  | run n m => exact Logged.emits_runMachine m

end Call

/-! ## Clients -/

/-- Something that makes calls, one after the other. -/
inductive Client where
  /-- It makes no call any more. -/
  | done
  /-- It makes this call, and goes on by the answer. -/
  | call (q : Call) (next : Except Fault q.Answer → Client)

/-- A call and its answer. -/
structure Exchange where
  /-- The call. -/
  call : Call
  /-- The answer to it. -/
  answer : Except Fault call.Answer

namespace Client

/-- Makes the calls of a client. -/
def converse : Client → StateM Console (List Exchange)
  | done => return []
  | call q next => do
    let answer ← q.make.run
    let rest ← (next answer).converse
    return ⟨q, answer⟩ :: rest

/-- The conversation with a client, as a value. -/
def exchanges : Client → List Exchange
  | done => []
  | call q next => ⟨q, q.result⟩ :: (next q.result).exchanges

/-- What is logged during the conversation. -/
def messages (client : Client) : List Message :=
  client.exchanges.flatMap fun e => e.call.messages

/-- On any console the conversation is this one, and these messages are logged. -/
theorem run_converse (client : Client) (c : Console) :
    client.converse.run c = (client.exchanges, c.logAll client.messages) := by
  induction client generalizing c with
  | done => rfl
  | call q next ih =>
    have hmake := q.emits_make c
    have hrest := ih q.result (c.logAll q.messages)
    rw [← Console.logAll_append] at hrest
    -- The answer is that of the value, so the client goes on in the same way on every console.
    rw [converse, StateT.run_bind, hmake]
    change (let conversation := (next q.result).converse.run (c.logAll q.messages)
      (⟨q, q.result⟩ :: conversation.1, conversation.2)) = _
    rw [hrest]
    rfl

/-! ## What single calls log -/

/-- A deduction logs one message, with what it has come to. -/
theorem deduceBindings_logs_once (samples : List Sample) (c : Console) :
    ∃ result m, (Logged.deduceBindings samples).run.run c = (result, c.log m) ∧
      (c.log m).written = c.written ++
        (if c.settings.minLevel ≤ m.level then c.settings.entry ⟨c.clock c.arisen, m⟩ else "") ∧
      ((∃ table, result = .ok table ∧
          m = ⟨.info, s!"bound {table.size} opcodes from {samples.length} samples"⟩) ∨
        ∃ fault, result = .error fault ∧ m = ⟨.warn, s!"opcode solving failed: {fault}"⟩) := by
  refine ⟨deduceBindings samples, _, Logged.emits_deduceBindings samples c,
    Console.written_log c _, ?_⟩
  cases deduceBindings samples with
  | ok table => exact .inl ⟨table, rfl, rfl⟩
  | error fault => exact .inr ⟨fault, rfl, rfl⟩

/-- A plain run logs one message if it is given up at an opcode that is not bound, and otherwise
none. -/
theorem runPlain_logs_failure (table : BindingTable) (program : List RawInstruction)
    (initial : RegisterFile n) (c : Console) :
    ∃ result c', (Logged.runPlain table program initial).run.run c = (result, c') ∧
      ((∃ opcode index m, result = .error (.unboundOpcode opcode index) ∧
          m = ⟨.error, s!"plain run aborted: {Fault.unboundOpcode opcode index}"⟩ ∧
          c' = c.log m ∧
          c'.written = c.written ++ c.settings.entry ⟨c.clock c.arisen, m⟩) ∨
        ((∃ final, result = .ok final) ∨ ∃ i, result = .error (.operandOutOfRange i n)) ∧
          c' = c) := by
  refine ⟨_, _, Logged.emits_runPlain table program initial c, ?_⟩
  cases hrun : table.run program initial with
  | ok final => exact .inr ⟨.inl ⟨final, rfl⟩, rfl⟩
  | error fault =>
    rcases BindingTable.stops_of_runFrom hrun with ⟨opcode, index, rfl⟩ | ⟨i, rfl⟩
    · refine .inl ⟨opcode, index, _, rfl, rfl, rfl, (Console.written_log c _).trans ?_⟩
      rw [if_pos (Log.Level.le_error _)]
    · exact .inr ⟨.inr ⟨i, rfl⟩, rfl⟩

/-- **The settings of the log change its text only.**  A client has the same conversation on any two
consoles.  On two that differ in their minimum level alone, each writes the entries of the messages
of the conversation that are not below its level, in their order: so the text at the higher level is
that at the lower one without the entries of the messages below the higher level.  At any time a
deduction logs one message, with the number of bindings at the level of information or with its
fault at that of a warning, and writes its entry unless it is below the minimum level.  A plain run
writes the entry of one message, an error, exactly if it answers that an opcode is not bound: the
only other failure is that of an instruction that names a register that does not exist. -/
theorem log_settings_change_text_only (client : Client) :
    (∀ c c' : Console, (client.converse.run c).1 = (client.converse.run c').1) ∧
    (∀ (c : Console) (low high : Level), low ≤ high →
      (client.converse.run (c.atLevel low)).2.written = c.written ++ c.settings.text
        ((c.stamped client.messages).filter fun e => low ≤ e.message.level) ∧
      (client.converse.run (c.atLevel high)).2.written = c.written ++ c.settings.text
        (((c.stamped client.messages).filter fun e => low ≤ e.message.level).filter
          fun e => high ≤ e.message.level)) ∧
    (∀ (samples : List Sample) (c : Console),
      ∃ result m, (Logged.deduceBindings samples).run.run c = (result, c.log m) ∧
        (c.log m).written = c.written ++
          (if c.settings.minLevel ≤ m.level then c.settings.entry ⟨c.clock c.arisen, m⟩ else "") ∧
        ((∃ table, result = .ok table ∧
            m = ⟨.info, s!"bound {table.size} opcodes from {samples.length} samples"⟩) ∨
          ∃ fault, result = .error fault ∧ m = ⟨.warn, s!"opcode solving failed: {fault}"⟩)) ∧
    ∀ (n : Nat) (table : BindingTable) (program : List RawInstruction) (initial : RegisterFile n)
      (c : Console),
      ∃ result c', (Logged.runPlain table program initial).run.run c = (result, c') ∧
        ((∃ opcode index m, result = .error (.unboundOpcode opcode index) ∧
            m = ⟨.error, s!"plain run aborted: {Fault.unboundOpcode opcode index}"⟩ ∧
            c' = c.log m ∧
            c'.written = c.written ++ c.settings.entry ⟨c.clock c.arisen, m⟩) ∨
          ((∃ final, result = .ok final) ∨ ∃ i, result = .error (.operandOutOfRange i n)) ∧
            c' = c) := by
  refine ⟨?_, ?_, deduceBindings_logs_once,
    fun _ table program initial c => runPlain_logs_failure table program initial c⟩
  · intro c c'
    rw [run_converse, run_converse]
  · intro c low high hle
    refine ⟨?_, ?_⟩
    · rw [run_converse, Console.written_logAll_atLevel, fromLevel]
    · rw [run_converse, Console.written_logAll_atLevel, ← fromLevel, ← fromLevel,
        Log.fromLevel_fromLevel_of_le hle]

/-- A client that asks for bindings on evidence that leaves three operations to an opcode, and then
without any evidence; uses those for a plain run of one instruction, and runs a traced machine whose
one instruction leaves the program. -/
def inquiring : Client :=
  .call (.deduceBindings (Sample.chained.take 1)) fun _ =>
    .call (.deduceBindings []) fun
      | .error _ => .done
      | .ok table =>
        .call (.runPlain 1 table [⟨7, ⟨0, 0, 0⟩⟩] ⟨#v[0]⟩) fun _ =>
          .call (.run 1 {
            program := #[⟨.seti, ⟨5, 0, 0⟩⟩]
            ipRegister := ⟨0, Nat.one_pos⟩
            registers := ⟨#v[0]⟩
            trace := true }) fun _ => .done

/-- What the inquiries log is written in full at the lowest level, without the information at the
next one, and the error alone at the highest; the answers are the same. -/
theorem log_settings_change_text_only_inquiring :
    (inquiring.converse.run (Console.undated.atLevel .error)).1 = (inquiring.converse.run {}).1 ∧
    (Console.undated.stamped inquiring.messages).map Stamped.message =
      [⟨.warn, "opcode solving failed: opcode 1 is ambiguous: 3 candidate operations remain"⟩,
        ⟨.info, "bound 0 opcodes from 0 samples"⟩,
        ⟨.error, "plain run aborted: unbound opcode 7 at instruction 0"⟩,
        ⟨.info, "ip=0 [0] seti 5 0 0 [5]"⟩,
        ⟨.info, "instruction pointer 6 left the program after 1 steps"⟩] ∧
    (inquiring.converse.run (Console.undated.atLevel .info)).2.written =
      "[WARN ] opcode solving failed: opcode 1 is ambiguous: 3 candidate operations remain\n" ++
      "[INFO ] bound 0 opcodes from 0 samples\n" ++
      "[ERROR] plain run aborted: unbound opcode 7 at instruction 0\n" ++
      "[INFO ] ip=0 [0] seti 5 0 0 [5]\n" ++
      "[INFO ] instruction pointer 6 left the program after 1 steps\n" ∧
    (inquiring.converse.run (Console.undated.atLevel .warn)).2.written =
      "[WARN ] opcode solving failed: opcode 1 is ambiguous: 3 candidate operations remain\n" ++
      "[ERROR] plain run aborted: unbound opcode 7 at instruction 0\n" ∧
    (inquiring.converse.run (Console.undated.atLevel .error)).2.written =
      "" ++ Console.undated.settings.text
        (((Console.undated.stamped inquiring.messages).filter fun e =>
          Level.warn ≤ e.message.level).filter fun e => Level.error ≤ e.message.level) ∧
    (inquiring.converse.run (Console.undated.atLevel .error)).2.written =
      "[ERROR] plain run aborted: unbound opcode 7 at instruction 0\n" := by
  obtain ⟨hsame, hfilter, -⟩ := log_settings_change_text_only inquiring
  exact ⟨hsame _ _, by decide +kernel, by decide +kernel, by decide +kernel,
    (hfilter .undated .warn .error (by decide)).2, by decide +kernel⟩

end Client

end RegisterMachine
