import RegisterMachine.Proofs.Machine.Moves

set_option autoImplicit false

/-!
# Commands to a machine

Whoever drives a machine by hand lets it make single moves, and between them switches its tracing or
replaces its checkpoint, also after it has halted.  A new checkpoint knows nothing of what earlier
ones have seen.

A command fails only if it sets a checkpoint that watches no register, or if it makes the machine
execute an instruction that names none.  A machine that has halted is moved by no command.
-/

namespace RegisterMachine.Machine

open BareMachine

variable {n : Nat} {m next last : Machine n} {fault : Fault}

/-- What can be done to a machine by hand. -/
inductive Command where
  /-- It makes a move. -/
  | step
  /-- Its tracing is switched on or off. -/
  | trace (on : Bool)
  /-- It gets another checkpoint. -/
  | watch (checkpoint : Checkpoint)
  deriving DecidableEq, Repr

/-- Does one thing to a machine. -/
def carryOut (m : Machine n) : Command → Except Fault (Machine n)
  | .step => m.step
  | .trace on => .ok (m.withTrace on)
  | .watch checkpoint => m.withCheckpoint checkpoint

/-- Does several things to a machine, one after the other. -/
def carryOutAll (m : Machine n) (commands : List Command) : Except Fault (Machine n) :=
  commands.foldlM carryOut m

/-- The checkpoint that a command sets. -/
def Command.checkpoint? : Command → Option Checkpoint
  | watch checkpoint => some checkpoint
  | _ => none

/-- The checkpoint that is in force after some commands: the last one set. -/
def inForce (commands : List Command) : Option Checkpoint :=
  (commands.filterMap Command.checkpoint?).getLast?

theorem inForce_eq_none {commands : List Command} (h : ∀ c, .watch c ∉ commands) :
    inForce commands = none := by
  have hnone : commands.filterMap Command.checkpoint? = [] := by
    rw [List.filterMap_eq_nil_iff]
    intro command hcommand
    cases command with
    | step => rfl
    | trace on => rfl
    | watch checkpoint => exact absurd hcommand (h checkpoint)
  rw [inForce, hnone, List.getLast?_nil]

@[simp] theorem inForce_append_step (commands : List Command) :
    inForce (commands ++ [.step]) = inForce commands := by
  simp [inForce, Command.checkpoint?]

@[simp] theorem inForce_append_trace (commands : List Command) (on : Bool) :
    inForce (commands ++ [.trace on]) = inForce commands := by
  simp [inForce, Command.checkpoint?]

@[simp] theorem inForce_append_watch (commands : List Command) (checkpoint : Checkpoint) :
    inForce (commands ++ [.watch checkpoint]) = some checkpoint := by
  simp [inForce, Command.checkpoint?]

/-! ## Sequences of commands -/

@[simp] theorem carryOutAll_nil (m : Machine n) : m.carryOutAll [] = .ok m := rfl

theorem carryOutAll_cons (m : Machine n) (command : Command) (commands : List Command) :
    m.carryOutAll (command :: commands) =
      (m.carryOut command).bind fun next => next.carryOutAll commands :=
  List.foldlM_cons

theorem carryOutAll_append (m : Machine n) (xs ys : List Command) :
    m.carryOutAll (xs ++ ys) = (m.carryOutAll xs).bind fun m' => m'.carryOutAll ys :=
  List.foldlM_append

@[simp] theorem carryOutAll_singleton (m : Machine n) (command : Command) :
    m.carryOutAll [command] = m.carryOut command := by
  rw [carryOutAll_cons]
  cases m.carryOut command with
  | error fault => rfl
  | ok next => rfl

theorem exists_of_carryOutAll_cons {command : Command} {commands : List Command}
    (h : m.carryOutAll (command :: commands) = .ok last) :
    ∃ next, m.carryOut command = .ok next ∧ next.carryOutAll commands = .ok last := by
  rw [carryOutAll_cons] at h
  cases hnext : m.carryOut command with
  | error fault =>
    rw [hnext] at h
    cases h
  | ok next =>
    rw [hnext] at h
    exact ⟨next, rfl, h⟩

theorem exists_of_carryOutAll_append {xs ys : List Command}
    (h : m.carryOutAll (xs ++ ys) = .ok last) :
    ∃ m', m.carryOutAll xs = .ok m' ∧ m'.carryOutAll ys = .ok last := by
  rw [carryOutAll_append] at h
  cases hm' : m.carryOutAll xs with
  | error fault =>
    rw [hm'] at h
    cases h
  | ok m' =>
    rw [hm'] at h
    exact ⟨m', rfl, h⟩

/-- Moves are commands. -/
theorem carryOutAll_replicate_step (m : Machine n) (k : Nat) :
    m.carryOutAll (List.replicate k .step) = m.stepTimes k := by
  induction k generalizing m with
  | zero => rfl
  | succ k ih =>
    rw [List.replicate_succ, carryOutAll_cons, stepTimes, carryOut]
    cases m.step with
    | error fault => rfl
    | ok next => exact ih next

/-! ## One command -/

/-- The machine with a checkpoint that has seen nothing. -/
def watching (m : Machine n) (w : Watch n) : Machine n :=
  { m with monitor := some { position := w.position, register := w.register } }

theorem withCheckpoint_eq_ok_iff {checkpoint : Checkpoint} :
    m.withCheckpoint checkpoint = .ok next ↔
      ∃ w : Watch n, w.checkpoint = checkpoint ∧ next = m.watching w := by
  unfold withCheckpoint register
  split
  case isTrue h =>
    constructor
    · rintro ⟨⟩
      exact ⟨⟨checkpoint.position, ⟨checkpoint.register, h⟩⟩, rfl, rfl⟩
    · rintro ⟨w, rfl, rfl⟩
      rfl
  case isFalse h =>
    constructor
    · rintro ⟨⟩
    · rintro ⟨w, rfl, -⟩
      exact absurd w.register.isLt h

theorem withCheckpoint_eq_error_iff {checkpoint : Checkpoint} :
    m.withCheckpoint checkpoint = .error fault ↔
      n ≤ checkpoint.register ∧ fault = .invalidRegisterIndex checkpoint.register n := by
  unfold withCheckpoint register
  split
  case isTrue h =>
    constructor
    · rintro ⟨⟩
    · rintro ⟨hle, -⟩
      omega
  case isFalse h =>
    constructor
    · rintro ⟨⟩
      exact ⟨Nat.le_of_not_lt h, rfl⟩
    · rintro ⟨-, rfl⟩
      rfl

/-- A machine that has halted can be traced and watched, but nothing moves it. -/
theorem carryOut_of_isHalted {command : Command} (halted : m.state.isHalted = true)
    (h : m.carryOut command = .ok next) :
    next.registers = m.registers ∧ next.steps = m.steps ∧ next.state = m.state := by
  cases command with
  | step =>
    rw [carryOut, step_of_isHalted halted] at h
    cases h
    exact ⟨rfl, rfl, rfl⟩
  | trace on =>
    cases h
    exact ⟨rfl, rfl, rfl⟩
  | watch checkpoint =>
    obtain ⟨w, -, rfl⟩ := withCheckpoint_eq_ok_iff.mp h
    exact ⟨rfl, rfl, rfl⟩

theorem carryOutAll_of_isHalted {commands : List Command} (halted : m.state.isHalted = true)
    (h : m.carryOutAll commands = .ok last) :
    last.registers = m.registers ∧ last.steps = m.steps ∧ last.state = m.state := by
  induction commands generalizing m with
  | nil =>
    cases h
    exact ⟨rfl, rfl, rfl⟩
  | cons command commands ih =>
    obtain ⟨next, hnext, hlast⟩ := exists_of_carryOutAll_cons h
    obtain ⟨hregisters, hsteps, hstate⟩ := carryOut_of_isHalted halted hnext
    obtain ⟨hregisters', hsteps', hstate'⟩ := ih (by rwa [hstate]) hlast
    exact ⟨hregisters'.trans hregisters, hsteps'.trans hsteps, hstate'.trans hstate⟩

/-- A running machine either executes an instruction or halts where it is. -/
theorem step_of_running (running : m.state = .running) (h : m.step = .ok next) :
    (next.steps = m.steps + 1 ∧ next.state = .running) ∨
      (next.state.isHalted = true ∧ next.registers = m.registers ∧ next.steps = m.steps) := by
  cases moves_of_step h with
  | rest halted =>
    rw [running] at halted
    cases halted
  | leave => exact Or.inr ⟨rfl, rfl, rfl⟩
  | stop => exact Or.inr ⟨rfl, rfl, rfl⟩
  | proceed => exact Or.inl ⟨rfl, running⟩

/-- A command fails if it sets a checkpoint that does not exist, or if it makes the machine execute
an instruction that names such a register. -/
theorem carryOut_eq_error {command : Command} (h : m.carryOut command = .error fault) :
    (∃ checkpoint, command = .watch checkpoint ∧ n ≤ checkpoint.register ∧
        fault = .invalidRegisterIndex checkpoint.register n) ∨
      (command = .step ∧ m.state = .running ∧
        ∃ i ∈ m.bare.fetch? m.registers, ¬ i.InRange n ∧ fault = .operandOutOfRange i n) := by
  cases command with
  | step =>
    cases moves_of_step (show m.step = .error fault from h) with
    | fail running inside new out => exact Or.inr ⟨rfl, running, _, inside, out, rfl⟩
  | trace on => cases h
  | watch checkpoint =>
    obtain ⟨hle, rfl⟩ := withCheckpoint_eq_error_iff.mp h
    exact Or.inl ⟨checkpoint, rfl, hle, rfl⟩

/-- Commands fail at the first one that does. -/
theorem exists_of_carryOutAll_eq_error {commands : List Command}
    (h : m.carryOutAll commands = .error fault) :
    ∃ before command rest m', commands = before ++ command :: rest ∧
      m.carryOutAll before = .ok m' ∧ m'.carryOut command = .error fault := by
  induction commands generalizing m with
  | nil => cases h
  | cons command commands ih =>
    rw [carryOutAll_cons] at h
    cases hnext : m.carryOut command with
    | error fault' =>
      rw [hnext] at h
      cases h
      exact ⟨[], command, commands, m, rfl, rfl, hnext⟩
    | ok next =>
      rw [hnext] at h
      obtain ⟨before, command', rest, m', rfl, hm', hfails⟩ := ih h
      refine ⟨command :: before, command', rest, m', rfl, ?_, hfails⟩
      rw [carryOutAll_cons, hnext]
      exact hm'

end RegisterMachine.Machine
