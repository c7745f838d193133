import RegisterMachine.Proofs.BindingTable.Inclusion
import RegisterMachine.Proofs.Machine.Unwatched
import RegisterMachine.Proofs.RegisterRenaming

set_option autoImplicit false

/-!
# Machines with renamed registers

A machine on a narrow file and one on a wider file, with all registers renamed in its program, its
instruction pointer and its checkpoint, go in step: what one of them does next, the other does with
the renamed registers.  So neither the names of the registers nor the width of the file have any
influence on a run.
-/

namespace RegisterMachine

variable {n m : Nat} {ρ : RegisterRenaming n m} {background : RegisterFile m} {k : Nat}

/-! ## Renamed machines -/

/-- The monitor of the renamed register, which has seen the same. -/
def CheckpointMonitor.renameRegister (ρ : RegisterRenaming n m) (c : CheckpointMonitor n) :
    CheckpointMonitor m where
  position := c.position
  register := ρ.register c.register
  seen := c.seen
  report := c.report

/-- The same move, with an instruction of which the registers are renamed. -/
def Move.renameRegisters (ρ : RegisterRenaming n m) : Move n → Move m
  | .rest => .rest
  | .leave => .leave
  | .stop => .stop
  | .execute i monitor =>
    .execute (i.renameRegisters ρ) (monitor.map (CheckpointMonitor.renameRegister ρ))

/-- The bare machine with all registers renamed. -/
def BareMachine.renameRegisters (ρ : RegisterRenaming n m) (b : BareMachine n) : BareMachine m where
  program := b.program.map (Instruction.renameRegisters ρ)
  ipRegister := ρ.register b.ipRegister

/-- The watch at the same position on the renamed register. -/
def Watch.renameRegister (ρ : RegisterRenaming n m) (w : Watch n) : Watch m where
  position := w.position
  register := ρ.register w.register

/-- Looking at a value does not depend on the name of the register. -/
theorem CheckpointMonitor.observe_renameRegister (c : CheckpointMonitor n) (v : UInt64) :
    (c.renameRegister ρ).observe v = ((c.observe v).1, (c.observe v).2.renameRegister ρ) := by
  by_cases hv : v ∈ c.seen
  · simp [observe, renameRegister, hv]
  · simp [observe, renameRegister, hv]

namespace RegisterRenaming

variable {narrow narrow' : Machine n} {wide : Machine m}

/-- The wide machine is the narrow machine with all registers renamed.  Whether the machines write
a trace does not matter. -/
structure Mirrors (ρ : RegisterRenaming n m) (background : RegisterFile m) (narrow : Machine n)
    (wide : Machine m) : Prop where
  /-- The program is renamed. -/
  program : wide.program = narrow.program.map (Instruction.renameRegisters ρ)
  /-- The instruction pointer is renamed. -/
  ipRegister : wide.ipRegister = ρ.register narrow.ipRegister
  /-- The renamed registers have the same contents. -/
  registers : ρ.Holds background wide.registers narrow.registers
  /-- The checkpoint is renamed, and has seen the same. -/
  monitor : wide.monitor = narrow.monitor.map (CheckpointMonitor.renameRegister ρ)
  /-- Both are running, or have halted for the same reason. -/
  state : wide.state = narrow.state
  /-- Both have executed the same number of instructions. -/
  steps : wide.steps = narrow.steps

/-- The outcomes differ in the names of the registers only. -/
structure SameOutcome (ρ : RegisterRenaming n m) (background : RegisterFile m) (narrow : Outcome n)
    (wide : Outcome m) : Prop where
  /-- The renamed registers have the same contents, and the others those of the background. -/
  registers : ρ.Holds background wide.registers narrow.registers
  /-- The run has ended for the same reason, if it has. -/
  state : wide.state = narrow.state
  /-- The same number of instructions was executed. -/
  steps : wide.steps = narrow.steps
  /-- The checkpoint has seen the same. -/
  report : wide.report = narrow.report

theorem Mirrors.sameOutcome (h : ρ.Mirrors background narrow wide) :
    ρ.SameOutcome background narrow.outcome wide.outcome where
  registers := h.registers
  state := h.state
  steps := h.steps
  report := by
    simp only [Machine.outcome, h.monitor, Option.bind_map]
    rfl

/-! ## Going in step -/

theorem Mirrors.ip_eq (h : ρ.Mirrors background narrow wide) : wide.ip = narrow.ip := by
  rw [Machine.ip, h.ipRegister, h.registers.word_register, Machine.ip]

theorem Mirrors.fetch?_eq (h : ρ.Mirrors background narrow wide) :
    wide.fetch? = narrow.fetch?.map (Instruction.renameRegisters ρ) := by
  rw [Machine.fetch?, h.ip_eq, h.program, Array.getElem?_map, Machine.fetch?]

theorem Mirrors.observe_eq (h : ρ.Mirrors background narrow wide) (c : CheckpointMonitor n) :
    (c.renameRegister ρ).observe (wide.registers.word (c.renameRegister ρ).register) =
      ((c.observe (narrow.registers.word c.register)).1,
        (c.observe (narrow.registers.word c.register)).2.renameRegister ρ) := by
  rw [CheckpointMonitor.observe_renameRegister, CheckpointMonitor.renameRegister,
    h.registers.word_register]

/-- What the narrow machine does next the wide one does with the registers renamed. -/
theorem Mirrors.move_eq (h : ρ.Mirrors background narrow wide) :
    wide.move = narrow.move.renameRegisters ρ := by
  simp only [Machine.move, h.state, h.fetch?_eq, h.ip_eq, h.monitor]
  by_cases halted : narrow.state.isHalted = true
  · rw [if_pos halted, if_pos halted]
    rfl
  · rw [if_neg halted, if_neg halted]
    cases narrow.fetch? with
    | none => rfl
    | some i =>
      cases narrow.monitor with
      | none => rfl
      | some c =>
        simp only [Option.map_some, h.observe_eq c]
        by_cases here : c.position = narrow.ip.toNat
        · rw [if_pos here, if_pos (show (c.renameRegister ρ).position = narrow.ip.toNat from here)]
          obtain ⟨observation, c'⟩ := c.observe (narrow.registers.word c.register)
          cases observation with
          | new => rfl
          | repeated => rfl
        · rw [if_neg here,
            if_neg (show ¬ (c.renameRegister ρ).position = narrow.ip.toNat from here)]
          rfl

theorem Holds.advance {after : RegisterFile n} {wide' : RegisterFile m}
    (h : ρ.Holds background wide' after) (p : Fin n) :
    ρ.Holds background (Machine.advance (ρ.register p) wide') (Machine.advance p after) := by
  rw [Machine.advance, h.word_register]
  exact h.put p (after.word p + 1)

/-- The machines are still in step after a move. -/
theorem Mirrors.step (h : ρ.Mirrors background narrow wide) (hstep : narrow.step = .ok narrow') :
    ∃ wide', wide.step = .ok wide' ∧ ρ.Mirrors background narrow' wide' := by
  rw [Machine.step] at hstep ⊢
  rw [h.move_eq]
  cases hmove : narrow.move with
  | rest =>
    rw [hmove] at hstep
    cases hstep
    exact ⟨wide, rfl, h⟩
  | leave =>
    rw [hmove] at hstep
    cases hstep
    exact ⟨_, rfl, { h with state := rfl }⟩
  | stop =>
    rw [hmove] at hstep
    cases hstep
    exact ⟨_, rfl, { h with state := rfl }⟩
  | execute i monitor =>
    simp only [hmove] at hstep
    cases hexecute : i.execute narrow.registers with
    | error fault =>
      rw [hexecute] at hstep
      cases hstep
    | ok after =>
      rw [hexecute] at hstep
      cases hstep
      obtain ⟨wide', hwide', hholds⟩ :=
        h.registers.perform? (Instruction.execute_eq_ok_iff.mp hexecute)
      simp only [Move.renameRegisters, Instruction.execute_eq_ok_iff.mpr hwide']
      refine ⟨_, rfl, h.program, h.ipRegister, ?_, rfl, h.state, ?_⟩
      · rw [h.ipRegister]
        exact hholds.advance narrow.ipRegister
      · rw [h.steps]

/-- The machines are still in step after any number of moves. -/
theorem Mirrors.stepTimes (h : ρ.Mirrors background narrow wide)
    (hmoves : narrow.stepTimes k = .ok narrow') :
    ∃ wide', wide.stepTimes k = .ok wide' ∧ ρ.Mirrors background narrow' wide' := by
  induction k generalizing narrow' with
  | zero =>
    cases hmoves
    exact ⟨wide, rfl, h⟩
  | succ k ih =>
    obtain ⟨before, hbefore, hstep⟩ := Machine.exists_stepTimes_of_succ hmoves
    obtain ⟨wide', hwide', hmirrors⟩ := ih hbefore
    obtain ⟨wide'', hwide'', hmirrors'⟩ := hmirrors.step hstep
    exact ⟨wide'', by rw [Machine.stepTimes_succ_of_stepTimes hwide', hwide''], hmirrors'⟩

/-- Runs that end, end in step. -/
theorem Mirrors.runFor (h : ρ.Mirrors background narrow wide)
    (hrun : narrow.runFor k = some (.ok narrow')) :
    ∃ wide', wide.runFor k = some (.ok wide') ∧ ρ.Mirrors background narrow' wide' := by
  induction k generalizing narrow wide with
  | zero => cases hrun
  | succ k ih =>
    cases hstep : narrow.step with
    | error fault =>
      rw [Machine.runFor_succ_of_error k hstep] at hrun
      cases hrun
    | ok next =>
      obtain ⟨wide', hwide', hmirrors⟩ := h.step hstep
      cases halted : next.state.isHalted with
      | true =>
        rw [Machine.runFor_succ_of_halted k hstep halted] at hrun
        cases hrun
        exact ⟨wide', Machine.runFor_succ_of_halted k hwide' (by rw [hmirrors.state, halted]),
          hmirrors⟩
      | false =>
        rw [Machine.runFor_succ_of_running k hstep halted] at hrun
        rw [Machine.runFor_succ_of_running k hwide' (by rw [hmirrors.state, halted])]
        exact ih hmirrors hrun

theorem moveBound_le (ρ : RegisterRenaming n m) : Machine.moveBound n ≤ Machine.moveBound m := by
  have hle : n ≤ m := by
    simpa using Fintype.card_le_of_embedding ρ.register
  have hpow : UInt64.size ^ n ≤ UInt64.size ^ m := Nat.pow_le_pow_right (by decide) hle
  show 2 * UInt64.size ^ n + 1 ≤ 2 * UInt64.size ^ m + 1
  omega

/-! ## Whole runs -/

/-- A machine and the machine with all registers renamed can be prepared, and are in step. -/
theorem exists_prepare {r : RegisterFile n} {wideFile : RegisterFile m}
    (h : ρ.Holds background wideFile r) (b : BareMachine n) (w : Option (Watch n)) :
    ∃ narrow wide,
      Machine.prepare b.program b.ipRegister r (w.map Watch.checkpoint) = .ok narrow ∧
      Machine.prepare (b.renameRegisters ρ).program (b.renameRegisters ρ).ipRegister wideFile
        (w.map fun w => (w.renameRegister ρ).checkpoint) = .ok wide ∧
      ρ.Mirrors background narrow wide := by
  cases w with
  | none =>
    exact ⟨_, _, Machine.prepare_eq_startUnwatched b r,
      Machine.prepare_eq_startUnwatched (b.renameRegisters ρ) wideFile, rfl, rfl, h, rfl, rfl, rfl⟩
  | some w =>
    exact ⟨_, _, Machine.prepare_eq_start b r w,
      Machine.prepare_eq_start (b.renameRegisters ρ) wideFile (w.renameRegister ρ), rfl, rfl, h,
      rfl, rfl, rfl⟩

/-- **Neither the names of the registers nor the width of the file matter.**  Let a wide file hold
the contents of a narrow file under other names.  A plain run that names no register outside the
narrow file has the same result on the wide file, with all registers renamed.  So have any number of
moves of a machine, with or without a checkpoint, and any run that ends: the same state, number of
executed instructions and report, the same contents under the other names, and nothing changed in
the other registers. -/
theorem runs_renameRegisters (ρ : RegisterRenaming n m) {r : RegisterFile n}
    {wideFile : RegisterFile m} (hplaced : ∀ k, wideFile.word (ρ.register k) = r.word k) :
    (∀ (t : BindingTable) (program : List RawInstruction),
      (∀ i, t.run program r ≠ .error (.operandOutOfRange i n)) →
      ρ.SameResult wideFile (t.run program r)
        (t.run (program.map (RawInstruction.renameRegisters ρ t)) wideFile)) ∧
    (∀ (b : BareMachine n) (w : Option (Watch n)),
      ∃ narrow wide,
        Machine.prepare b.program b.ipRegister r (w.map Watch.checkpoint) = .ok narrow ∧
        Machine.prepare (b.renameRegisters ρ).program (b.renameRegisters ρ).ipRegister wideFile
          (w.map fun w => (w.renameRegister ρ).checkpoint) = .ok wide ∧
        ∀ k narrow', narrow.stepTimes k = .ok narrow' →
          ∃ wide', wide.stepTimes k = .ok wide' ∧
            ρ.SameOutcome wideFile narrow'.outcome wide'.outcome) ∧
    (∀ (b : BareMachine n) (w : Option (Watch n)) (outcome : Outcome n),
      Machine.runProgram b.program b.ipRegister r (w.map Watch.checkpoint) = some (.ok outcome) →
      ∃ outcome',
        Machine.runProgram (b.renameRegisters ρ).program (b.renameRegisters ρ).ipRegister wideFile
          (w.map fun w => (w.renameRegister ρ).checkpoint) = some (.ok outcome') ∧
        ρ.SameOutcome wideFile outcome outcome') := by
  have hholds : ρ.Holds wideFile wideFile r := ⟨hplaced, fun _ _ => rfl⟩
  refine ⟨?_, ?_, ?_⟩
  · intro t program hrange
    exact hholds.run hrange
  · intro b w
    obtain ⟨narrow, wide, hnarrow, hwide, hmirrors⟩ := exists_prepare hholds b w
    refine ⟨narrow, wide, hnarrow, hwide, ?_⟩
    intro k narrow' hmoves
    obtain ⟨wide', hwide', hmirrors'⟩ := hmirrors.stepTimes hmoves
    exact ⟨wide', hwide', hmirrors'.sameOutcome⟩
  · intro b w outcome hrun
    obtain ⟨narrow, wide, hnarrow, hwide, hmirrors⟩ := exists_prepare hholds b w
    simp only [Machine.runProgram, hnarrow, hwide, Option.map_eq_some_iff] at hrun ⊢
    obtain ⟨result, hresult, houtcome⟩ := hrun
    cases result with
    | error fault => cases houtcome
    | ok final =>
      cases houtcome
      obtain ⟨final', hfinal', hmirrors'⟩ := hmirrors.runFor hresult
      exact ⟨final'.outcome, ⟨_, Machine.runFor_of_le hfinal' ρ.moveBound_le, rfl⟩,
        hmirrors'.sameOutcome⟩

/-- Two registers among three, named from the last one down. -/
def reversing : RegisterRenaming 2 3 :=
  ofEmbedding (Fin.castSuccEmb.trans Fin.revPerm.toEmbedding) (by decide)

/-- The loop with its registers renamed is stopped by the renamed checkpoint as the loop is, and
leaves alone the register that has no part in it.  So does a plain run of two instructions, of which
the literals stay. -/
theorem runs_renameRegisters_toggling :
    (∀ k, (⟨#v[77, 0, 0]⟩ : RegisterFile 3).word (reversing.register k) =
        (⟨#v[0, 0]⟩ : RegisterFile 2).word k) ∧
      (∃ outcome,
        Machine.runProgram (Machine.toggling.renameRegisters reversing).program 2 ⟨#v[77, 0, 0]⟩
          (some ⟨0, 1⟩) = some (.ok outcome) ∧
        outcome.state = .valueRepeated ∧ outcome.steps = 6 ∧
        outcome.report = some ⟨0, 1, 0, 1, 2⟩ ∧ outcome.registers.word 0 = 77) ∧
      ∃ t : BindingTable, (∅ : BindingTable).insert 5 .addi = .ok t ∧
        ∃ wide,
          t.run [⟨5, ⟨2, 0, 2⟩⟩, ⟨5, ⟨2, 1, 1⟩⟩] (⟨#v[77, 0, 0]⟩ : RegisterFile 3) = .ok wide ∧
          wide.word 1 = 1 ∧ wide.word 0 = 77 := by
  have hplaced : ∀ k, (⟨#v[77, 0, 0]⟩ : RegisterFile 3).word (reversing.register k) =
      (⟨#v[0, 0]⟩ : RegisterFile 2).word k := by
    decide +kernel
  have hothers : ∀ k, reversing.register k ≠ 0 := by decide +kernel
  obtain ⟨hplain, -, hruns⟩ := runs_renameRegisters reversing hplaced
  refine ⟨hplaced, ?_, ?_⟩
  · have hends : Machine.toggling.EndsAt ⟨#v[0, 0]⟩ ⟨0, 1⟩ 6 := by decide +kernel
    have hrepeats : Machine.toggling.Repeats ⟨#v[0, 0]⟩ ⟨0, 1⟩ 6 := by decide +kernel
    have hreport : CheckpointReport.summary (Machine.toggling.visits ⟨#v[0, 0]⟩ ⟨0, 1⟩ 6) =
        some ⟨0, 1, 0, 1, 2⟩ := by
      decide +kernel
    obtain ⟨r, hr, -⟩ := id hrepeats
    have hnarrow := Machine.runProgram_of_endsAt hends hr rfl fun m hm =>
      hm.step_of_repeats hrepeats
    obtain ⟨outcome, hwide, hsame⟩ := hruns Machine.toggling (some ⟨0, 1⟩) _ hnarrow
    refine ⟨outcome, hwide, hsame.state, hsame.steps, hsame.report.trans hreport, ?_⟩
    rw [hsame.registers.word_of_outside 0 hothers]
    decide +kernel
  · obtain ⟨t, ht⟩ : ∃ t, (∅ : BindingTable).insert 5 .addi = .ok t :=
      BindingTable.exists_insert_eq_ok (BindingTable.get?_empty 5) (by simp)
    have hopcode : t.opcodeOf? .addi = some 5 :=
      BindingTable.get?_eq_some_iff.mp (BindingTable.get?_self_of_insert ht)
    have hencode : t.encodeAll? [⟨.addi, ⟨0, 0, 0⟩⟩, ⟨.addi, ⟨0, 1, 1⟩⟩] =
        some [⟨5, ⟨0, 0, 0⟩⟩, ⟨5, ⟨0, 1, 1⟩⟩] := by
      simp [BindingTable.encodeAll?, BindingTable.encode?, hopcode, Instruction.encode]
    have hnarrow : t.run [⟨5, ⟨0, 0, 0⟩⟩, ⟨5, ⟨0, 1, 1⟩⟩] (⟨#v[0, 0]⟩ : RegisterFile 2) =
        .ok ⟨#v[0, 1]⟩ :=
      BindingTable.run_of_encodeAll? hencode (by decide +kernel)
    have hrenamed : [⟨5, ⟨0, 0, 0⟩⟩, ⟨5, ⟨0, 1, 1⟩⟩].map
          (RawInstruction.renameRegisters reversing t) =
        [⟨5, ⟨2, 0, 2⟩⟩, ⟨5, ⟨2, 1, 1⟩⟩] := by
      simp only [List.map_cons, List.map_nil, RawInstruction.renameRegisters,
        BindingTable.get?_self_of_insert ht]
      decide +kernel
    have hsame := hplain t [⟨5, ⟨0, 0, 0⟩⟩, ⟨5, ⟨0, 1, 1⟩⟩] (by simp [hnarrow])
    rw [hnarrow, hrenamed] at hsame
    obtain ⟨wide, hwide, hholds⟩ := hsame.exists_of_ok
    refine ⟨t, ht, wide, hwide, ?_, ?_⟩
    · exact hholds.word_register 1
    · rw [hholds.word_of_outside 0 hothers]
      decide +kernel

end RegisterRenaming

end RegisterMachine
