import RegisterMachine.Proofs.Machine.Moves

set_option autoImplicit false

/-!
# The instructions that a machine executes

The executions of some moves form a chronicle: the first one starts from the registers of the
machine, each other one from those that the one before has left with the instruction pointer raised,
and the last one has left the registers that the machine has then.  There are as many of them as the
machine has counted.
-/

namespace RegisterMachine

open BareMachine

variable {n : Nat}

/-- Executions that follow one another from some registers to others. -/
structure Chronicle (b : BareMachine n) (initial : RegisterFile n) (es : List (Execution n))
    (last : RegisterFile n) : Prop where
  /-- Each is that of the instruction at the pointer. -/
  performed : ∀ e ∈ es,
    b.fetch? e.before = some e.instruction ∧ e.instruction.perform? e.before = some e.after
  /-- The first one starts from the first registers. -/
  first : ∀ e ∈ es.head?, e.before = initial
  /-- The others start where the one before has ended, with the pointer raised. -/
  linked : es.IsChain fun e e' => e'.before = Machine.advance b.ipRegister e.after
  /-- The last one has led to the last registers. -/
  last_eq : last =
    (es.getLast?.map fun e => Machine.advance b.ipRegister e.after).getD initial

namespace Chronicle

variable {b : BareMachine n} {initial last : RegisterFile n} {e : Execution n}
  {es : List (Execution n)} {k : Nat}

theorem nil (b : BareMachine n) (initial : RegisterFile n) : Chronicle b initial [] initial where
  performed := by simp
  first := by simp
  linked := .nil
  last_eq := rfl

theorem cons (hfetch : b.fetch? e.before = some e.instruction)
    (hperform : e.instruction.perform? e.before = some e.after)
    (h : Chronicle b (Machine.advance b.ipRegister e.after) es last) :
    Chronicle b e.before (e :: es) last where
  performed := List.forall_mem_cons.mpr ⟨⟨hfetch, hperform⟩, h.performed⟩
  first := by simp
  linked := by
    cases es with
    | nil => exact List.isChain_singleton e
    | cons e' es => exact List.isChain_cons_cons.mpr ⟨h.first e' rfl, h.linked⟩
  last_eq := by
    rw [List.getLast?_cons, Option.map_some, Option.getD_some, h.last_eq]
    exact Option.getD_map (fun e => Machine.advance b.ipRegister e.after) e es.getLast?

/-- The executions are those on the trajectory, in its order. -/
theorem trajectory_eq (h : Chronicle b initial es last) (hk : k < es.length) :
    b.trajectory initial k = some es[k].before := by
  induction k with
  | zero =>
    rw [trajectory_zero, h.first es[0] (by rw [List.head?_eq_getElem?]; simp)]
  | succ k ih =>
    obtain ⟨hfetch, hperform⟩ := h.performed es[k] (List.getElem_mem _)
    rw [trajectory_succ_of_eq_some (ih (by omega)), next?, hfetch, Option.bind_some, hperform,
      Option.map_some, List.isChain_iff_getElem.mp h.linked k hk]

theorem trajectory_succ_eq (h : Chronicle b initial es last) (hk : k < es.length) :
    b.trajectory initial (k + 1) = some (Machine.advance b.ipRegister es[k].after) := by
  obtain ⟨hfetch, hperform⟩ := h.performed es[k] (List.getElem_mem hk)
  rw [trajectory_succ_of_eq_some (h.trajectory_eq hk), next?, hfetch, Option.bind_some, hperform,
    Option.map_some]

/-- Machines with one instruction pointer that have executed the same instructions have passed
through the same registers. -/
theorem trajectory_congr {b' : BareMachine n} {initial' last' : RegisterFile n}
    (h : Chronicle b initial es last) (h' : Chronicle b' initial' es last')
    (hip : b.ipRegister = b'.ipRegister) (hne : es ≠ []) (hk : k ≤ es.length) :
    b.trajectory initial k = b'.trajectory initial' k := by
  cases k with
  | zero =>
    have hpos : 0 < es.length := List.length_pos_iff.mpr hne
    rw [h.trajectory_eq hpos, h'.trajectory_eq hpos]
  | succ k => rw [h.trajectory_succ_eq hk, h'.trajectory_succ_eq hk, hip]

end Chronicle

namespace Machine

variable {m next last : Machine n} {k : Nat} {fault : Fault}

/-- A move does not touch the bare machine and the tracing. -/
theorem fixed_of_step (h : m.step = .ok next) : next.bare = m.bare ∧ next.trace = m.trace := by
  cases moves_of_step h <;> exact ⟨rfl, rfl⟩

/-! ## The instruction that a move executes -/

theorem execution?_of_isHalted (h : m.state.isHalted = true) : m.execution? = none := by
  rw [execution?, show m.move = .rest from if_pos h]

/-- A move that goes through has executed an instruction, or the machine has halted with its
registers. -/
theorem execution?_of_step (h : m.step = .ok next) :
    (∃ e, m.execution? = some e ∧ e.before = m.registers ∧
        m.bare.fetch? e.before = some e.instruction ∧
        e.instruction.perform? e.before = some e.after ∧
        next = m.proceed (advance m.ipRegister e.after)) ∨
      (m.execution? = none ∧ next.state.isHalted = true ∧ next.registers = m.registers ∧
        next.steps = m.steps) := by
  cases moves_of_step h with
  | rest halted => exact .inr ⟨execution?_of_isHalted halted, halted, rfl, rfl⟩
  | leave running outside =>
    right
    rw [execution?, move_of_outside running outside]
    exact ⟨rfl, rfl, rfl, rfl⟩
  | stop running inside repeating =>
    right
    rw [execution?, move_of_repeating running inside repeating]
    exact ⟨rfl, rfl, rfl, rfl⟩
  | proceed running hnext hnew =>
    left
    obtain ⟨i, after, inside, hperform, rfl⟩ := next?_eq_some_iff.mp hnext
    refine ⟨⟨m.registers, i, after⟩, ?_, rfl, inside, hperform, rfl⟩
    rw [execution?, move_of_not_repeating running inside hnew]
    simp only [hperform, Option.map_some]

/-- A move that fails executes nothing. -/
theorem execution?_of_step_eq_error (h : m.step = .error fault) : m.execution? = none := by
  cases moves_of_step h with
  | fail running inside hnew hout =>
    rw [execution?, move_of_not_repeating running inside hnew]
    exact Option.map_eq_none_iff.mpr (Instruction.perform?_eq_none_iff.mpr hout)

/-! ## The instructions that several moves execute -/

@[simp] theorem executions_zero (m : Machine n) : m.executions 0 = [] := rfl

theorem executions_succ_of_error (h : m.step = .error fault) : m.executions (k + 1) = [] := by
  simp only [executions, executions.go, execution?_of_step_eq_error h, List.reverse_nil]

theorem executions_of_isHalted (h : m.state.isHalted = true) : m.executions k = [] := by
  cases k with
  | zero => rfl
  | succ k =>
    simp only [executions, executions.go, execution?_of_isHalted h, List.reverse_nil]

theorem executions_succ_of_step (h : m.step = .ok next) :
    m.executions (k + 1) = m.execution?.toList ++ next.executions k := by
  rcases execution?_of_step h with ⟨e, he, -⟩ | ⟨hnone, hhalted, -⟩
  · simp only [executions, executions.go, he, h]
    rw [executions.go_eq]
    rfl
  · rw [hnone, executions_of_isHalted hhalted]
    simp only [executions, executions.go, hnone, List.reverse_nil, Option.toList_none,
      List.append_nil]

theorem executions_one (m : Machine n) : m.executions 1 = m.execution?.toList := by
  cases hstep : m.step with
  | error fault =>
    rw [executions_succ_of_error hstep, execution?_of_step_eq_error hstep]
    rfl
  | ok next =>
    rw [executions_succ_of_step hstep]
    exact List.append_nil _

/-! ## What several moves log -/

theorem stepMessages_zero (m : Machine n) : m.stepMessages 0 = [] := by
  cases htrace : m.trace <;> simp [stepMessages, executions_zero, htrace]

theorem stepMessages_succ_of_step (h : m.step = .ok next) :
    m.stepMessages (k + 1) = m.stepMessages 1 ++ next.stepMessages k := by
  obtain ⟨hbare, htrace⟩ := fixed_of_step h
  have hpointer : next.ipRegister = m.ipRegister := congrArg BareMachine.ipRegister hbare
  rw [stepMessages, stepMessages, stepMessages, executions_succ_of_step h, executions_one,
    htrace, hpointer]
  cases m.trace <;> simp

theorem stepMessages_succ_of_error (h : m.step = .error fault) : m.stepMessages (k + 1) = [] := by
  rw [stepMessages, executions_succ_of_error h]
  cases m.trace <;> rfl

theorem stepMessages_of_isHalted (h : m.state.isHalted = true) : m.stepMessages k = [] := by
  rw [stepMessages, executions_of_isHalted h]
  cases m.trace <;> rfl

/-! ## The chronicle -/

/-- The executions of some moves lead from the registers before to those after, and each is
counted.  The bare machine stays the same. -/
theorem chronicle_executions (h : m.stepTimes k = .ok last) :
    Chronicle m.bare m.registers (m.executions k) last.registers ∧
      last.steps = m.steps + .ofNat (m.executions k).length ∧ last.bare = m.bare := by
  induction k generalizing m with
  | zero =>
    cases h
    exact ⟨.nil _ _, by simp, rfl⟩
  | succ k ih =>
    cases hstep : m.step with
    | error fault =>
      rw [stepTimes, hstep] at h
      cases h
    | ok next =>
      rw [stepTimes_succ_of_step k hstep] at h
      rw [executions_succ_of_step hstep]
      rcases execution?_of_step hstep with
        ⟨e, he, hbefore, hfetch, hperform, rfl⟩ | ⟨hnone, hhalted, hregisters, hsteps⟩
      · obtain ⟨hchronicle, hsteps, hbare⟩ := ih h
        rw [he, ← hbefore]
        refine ⟨.cons hfetch hperform hchronicle, ?_, hbare⟩
        rw [hsteps, steps_proceed, Option.toList_some, List.singleton_append, List.length_cons,
          Nat.add_comm, UInt64.ofNat_add, UInt64.add_assoc]
        rfl
      · -- The machine has halted, and the moves that are left execute nothing.
        rw [stepTimes_of_isHalted hhalted] at h
        cases h
        rw [hnone, executions_of_isHalted hhalted, hregisters, hsteps]
        exact ⟨.nil _ _, by simp, (fixed_of_step hstep).1⟩

/-- The executions of some moves form a chronicle even if the moves end with a failure. -/
theorem exists_chronicle_executions (m : Machine n) (k : Nat) :
    ∃ last, Chronicle m.bare m.registers (m.executions k) last := by
  induction k generalizing m with
  | zero => exact ⟨_, .nil _ _⟩
  | succ k ih =>
    cases hstep : m.step with
    | error fault =>
      rw [executions_succ_of_error hstep]
      exact ⟨_, .nil _ _⟩
    | ok next =>
      rw [executions_succ_of_step hstep]
      rcases execution?_of_step hstep with
        ⟨e, he, hbefore, hfetch, hperform, rfl⟩ | ⟨hnone, hhalted, -⟩
      · obtain ⟨last, hchronicle⟩ := ih (m.proceed (advance m.ipRegister e.after))
        rw [he, ← hbefore]
        exact ⟨last, .cons hfetch hperform hchronicle⟩
      · rw [hnone, executions_of_isHalted hhalted]
        exact ⟨_, .nil _ _⟩

end Machine

end RegisterMachine
