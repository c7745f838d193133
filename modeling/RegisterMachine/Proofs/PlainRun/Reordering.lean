import RegisterMachine.Proofs.Instruction.Operands
import RegisterMachine.Proofs.PlainRun.FirstOffence

set_option autoImplicit false

/-!
# Reordered and repeated instructions

Inside a raw program two neighbouring instructions may change places if the instructions that they
stand for are independent: the run comes to the same, with the same positions in what it reports.
An instruction that does not read its own target may stand twice; then the instructions after it are
one position later, and so is the position of an opcode among them that is not bound.
-/

namespace RegisterMachine

/-- The fault with the position that it names one later, if that is behind the given one. -/
def Fault.laterBehind (position : Nat) : Fault → Fault
  | unboundOpcode opcode index =>
    unboundOpcode opcode (if position < index then index + 1 else index)
  | fault => fault

namespace BindingTable

open Instruction (Independent)

variable {n : Nat} {t : BindingTable} {raw raw' : RawInstruction} {i j : Instruction}
  {p : List RawInstruction} {r after : RegisterFile n} {index position : Nat} {fault : Fault}

/-! ## One and two instructions -/

@[simp] theorem runFrom_singleton (t : BindingTable) (index : Nat) (raw : RawInstruction)
    (r : RegisterFile n) : t.runFrom index [raw] r = t.execute index raw r := by
  rw [runFrom_cons]
  cases t.execute index raw r with
  | error fault => rfl
  | ok after => rfl

theorem runFrom_pair_of_execute (h : t.execute index raw r = .ok after) (raw' : RawInstruction) :
    t.runFrom index [raw, raw'] r = t.execute (index + 1) raw' after := by
  rw [runFrom_cons, h]
  exact runFrom_singleton t (index + 1) raw' after

/-- Independent instructions may change places. -/
theorem runFrom_swap (hi : t.decode? raw = some i) (hj : t.decode? raw' = some j)
    (hin : i.InRange n) (hjn : j.InRange n) (h : Independent i j) (index : Nat)
    (r : RegisterFile n) : t.runFrom index [raw', raw] r = t.runFrom index [raw, raw'] r := by
  obtain ⟨first, second, after, hfirst, hthen, hsecond, hthen'⟩ := h.exists_perform? hin hjn r
  rw [runFrom_pair_of_execute (execute_eq_ok_iff.mpr ⟨i, hi, hfirst⟩),
    runFrom_pair_of_execute (execute_eq_ok_iff.mpr ⟨j, hj, hsecond⟩),
    execute_eq_ok_iff.mpr ⟨j, hj, hthen⟩, execute_eq_ok_iff.mpr ⟨i, hi, hthen'⟩]

/-- An instruction that does not read its target may stand twice.  One that cannot be executed is
not reached a second time. -/
theorem runFrom_twice (h : ∀ i, t.decode? raw = some i → ¬ i.Reads i.operands.c) (index : Nat)
    (r : RegisterFile n) : t.runFrom index [raw, raw] r = t.runFrom index [raw] r := by
  cases hexecute : t.execute index raw r with
  | error fault =>
    rw [runFrom_cons, runFrom_singleton, hexecute]
    rfl
  | ok after =>
    obtain ⟨i, hi, hperform⟩ := execute_eq_ok_iff.mp hexecute
    have hagain := Instruction.perform?_perform? (h i hi) hperform
    rw [runFrom_pair_of_execute hexecute, runFrom_singleton, hexecute]
    exact execute_eq_ok_iff.mpr ⟨i, hi, hagain⟩

/-! ## Positions -/

/-- The opcode that stops a run is one of the program. -/
theorem position_of_unboundOpcode {opcode : UInt8}
    (h : t.runFrom index p r = .error (.unboundOpcode opcode position)) :
    index ≤ position ∧ position < index + p.length := by
  rcases forall_not_offends_or_exists_firstOffence t n p with hnone | ⟨k, raw, hk⟩
  · obtain ⟨-, after, -, -, hrun⟩ := runFrom_of_forall_not_offends hnone r
    rw [hrun] at h
    cases h
  · have hlt : k < p.length := (List.getElem?_eq_some_iff.mp hk.getElem?_eq).1
    rw [runFrom_of_firstOffence hk, offence] at h
    cases hget : t.get? raw.opcode with
    | none =>
      rw [hget] at h
      cases h
      omega
    | some op =>
      rw [hget] at h
      cases h

theorem laterBehind_of_le
    (h : ∀ opcode index, fault = .unboundOpcode opcode index → index ≤ position) :
    fault.laterBehind position = fault := by
  cases fault with
  | unboundOpcode opcode index =>
    have hle := h opcode index rfl
    rw [Fault.laterBehind, if_neg (by omega)]
  | _ => rfl

theorem laterBehind_of_lt
    (h : ∀ opcode index, fault = .unboundOpcode opcode index → position < index) :
    fault.laterBehind position = fault.later 1 := by
  cases fault with
  | unboundOpcode opcode index => rw [Fault.laterBehind, if_pos (h opcode index rfl), Fault.later]
  | _ => rfl

/-- The position of a fault does not change in a part that ends where the given position is. -/
theorem runFrom_mapError_laterBehind_of_le (h : index + p.length ≤ position + 1)
    (r : RegisterFile n) :
    (t.runFrom index p r).mapError (Fault.laterBehind position) = t.runFrom index p r := by
  cases hrun : t.runFrom index p r with
  | ok after => rfl
  | error fault =>
    refine congrArg Except.error (laterBehind_of_le fun opcode k hk => ?_)
    subst hk
    have hlt := (position_of_unboundOpcode hrun).2
    omega

/-- It is one more in a part that begins behind the given position. -/
theorem runFrom_mapError_laterBehind_of_lt (h : position < index) (r : RegisterFile n) :
    (t.runFrom index p r).mapError (Fault.laterBehind position) = t.runFrom (index + 1) p r := by
  rw [runFrom_add]
  cases hrun : t.runFrom index p r with
  | ok after => rfl
  | error fault =>
    refine congrArg Except.error (laterBehind_of_lt fun opcode k hk => ?_)
    subst hk
    have hle := (position_of_unboundOpcode hrun).1
    omega

/-! ## Plain runs -/

/-- A part of a program can be replaced by one that does the same. -/
theorem runFrom_append_congr {middle middle' : List RawInstruction}
    (h : ∀ index (r : RegisterFile n), t.runFrom index middle r = t.runFrom index middle' r)
    (index : Nat) (p : List RawInstruction) (r : RegisterFile n) :
    t.runFrom index (p ++ middle) r = t.runFrom index (p ++ middle') r := by
  rw [runFrom_append, runFrom_append, funext (h (index + p.length))]

/-- Independent instructions may change places inside a program. -/
theorem run_swap (hi : t.decode? raw = some i) (hj : t.decode? raw' = some j) (hin : i.InRange n)
    (hjn : j.InRange n) (h : Independent i j) (p q : List RawInstruction) (r : RegisterFile n) :
    t.run (p ++ [raw', raw] ++ q) r = t.run (p ++ [raw, raw'] ++ q) r := by
  have hfront : t.runFrom 0 (p ++ [raw', raw]) r = t.runFrom 0 (p ++ [raw, raw']) r :=
    runFrom_append_congr (runFrom_swap hi hj hin hjn h) 0 p r
  have hlength : (p ++ [raw', raw]).length = (p ++ [raw, raw']).length := by simp
  rw [run_eq_runFrom, run_eq_runFrom, runFrom_append t 0 (p ++ [raw', raw]),
    runFrom_append t 0 (p ++ [raw, raw']), hfront, hlength]

/-- What comes after an instruction that stands twice is one position later. -/
theorem run_twice (h : ∀ i, t.decode? raw = some i → ¬ i.Reads i.operands.c)
    (p q : List RawInstruction) (r : RegisterFile n) :
    t.run (p ++ [raw, raw] ++ q) r =
      (t.run (p ++ [raw] ++ q) r).mapError (Fault.laterBehind p.length) := by
  have hfront : t.runFrom 0 (p ++ [raw, raw]) r = t.runFrom 0 (p ++ [raw]) r :=
    runFrom_append_congr (runFrom_twice h) 0 p r
  rw [run_eq_runFrom, run_eq_runFrom, runFrom_append t 0 (p ++ [raw, raw]),
    runFrom_append t 0 (p ++ [raw]), hfront]
  cases hrun : t.runFrom 0 (p ++ [raw]) r with
  | error fault =>
    have hend : 0 + (p ++ [raw]).length ≤ p.length + 1 := by simp
    have hsame := @runFrom_mapError_laterBehind_of_le n t _ 0 p.length hend r
    rw [hrun] at hsame
    exact hsame.symm
  | ok after =>
    have hbehind : p.length < 0 + (p ++ [raw]).length := by simp
    have hlength : 0 + (p ++ [raw, raw]).length = 0 + (p ++ [raw]).length + 1 := by simp
    show t.runFrom (0 + (p ++ [raw, raw]).length) q after = _
    rw [hlength]
    exact (runFrom_mapError_laterBehind_of_lt hbehind after).symm

/-- Two neighbouring instructions of a raw program that stand for independent ones may change
places: from any registers the run ends in the same way.  An instruction that does not read its own
target may stand twice: the run ends in the same registers, or with the same instruction that names
a missing register, or at the same opcode that is not bound, whose position is one more if it comes
after the two.

The registers that an instruction reads are its first two operands as far as its operation takes
them for registers. -/
theorem independent_swap_and_repeat (t : BindingTable) (p q : List RawInstruction)
    (raw raw' : RawInstruction) (r : RegisterFile n) :
    (∀ i j, t.decode? raw = some i → t.decode? raw' = some j → i.InRange n → j.InRange n →
      Independent i j →
      t.run (p ++ [raw', raw] ++ q) r = t.run (p ++ [raw, raw'] ++ q) r) ∧
    ((∀ i, t.decode? raw = some i → ¬ i.Reads i.operands.c) →
      (∀ after, t.run (p ++ [raw, raw] ++ q) r = .ok after ↔
        t.run (p ++ [raw] ++ q) r = .ok after) ∧
      (∀ k, t.run (p ++ [raw, raw] ++ q) r = .error (.operandOutOfRange k n) ↔
        t.run (p ++ [raw] ++ q) r = .error (.operandOutOfRange k n)) ∧
      ∀ opcode index, t.run (p ++ [raw] ++ q) r = .error (.unboundOpcode opcode index) →
        t.run (p ++ [raw, raw] ++ q) r =
          .error (.unboundOpcode opcode (if p.length < index then index + 1 else index))) := by
  refine ⟨fun i j hi hj hin hjn h => run_swap hi hj hin hjn h p q r, fun h => ?_⟩
  rw [run_twice h]
  cases t.run (p ++ [raw] ++ q) r with
  | ok after => simp [Except.mapError]
  | error fault =>
    refine ⟨fun after => by simp [Except.mapError], fun k => ?_, fun opcode index hfault => ?_⟩
    · cases fault with
      | _ => simp [Except.mapError, Fault.laterBehind]
    · cases hfault
      rfl

/-- A table with two opcodes that take a literal. -/
def literalOpcodes : BindingTable := (ofList [(5, .addi), (9, .muli)]).toOption.getD ∅

/-- The literal of each of two instructions looks like the register that the other one writes.  They
may change places, and if the first stands twice the opcode behind it is one position later. -/
theorem independent_swap_and_repeat_lookalikes :
    literalOpcodes.decode? ⟨5, ⟨1, 3, 2⟩⟩ = some ⟨.addi, ⟨1, 3, 2⟩⟩ ∧
      literalOpcodes.decode? ⟨9, ⟨0, 2, 3⟩⟩ = some ⟨.muli, ⟨0, 2, 3⟩⟩ ∧
      literalOpcodes.run ([] ++ [⟨9, ⟨0, 2, 3⟩⟩, ⟨5, ⟨1, 3, 2⟩⟩] ++ []) (.zero 4) =
        literalOpcodes.run ([] ++ [⟨5, ⟨1, 3, 2⟩⟩, ⟨9, ⟨0, 2, 3⟩⟩] ++ []) (.zero 4) ∧
      literalOpcodes.run ([] ++ [⟨5, ⟨1, 3, 2⟩⟩] ++ [⟨7, ⟨0, 0, 0⟩⟩]) (.zero 4) =
        .error (.unboundOpcode 7 1) ∧
      literalOpcodes.run ([] ++ [⟨5, ⟨1, 3, 2⟩⟩, ⟨5, ⟨1, 3, 2⟩⟩] ++ [⟨7, ⟨0, 0, 0⟩⟩]) (.zero 4) =
        .error (.unboundOpcode 7 2) := by
  have hadd : literalOpcodes.decode? ⟨5, ⟨1, 3, 2⟩⟩ = some ⟨.addi, ⟨1, 3, 2⟩⟩ := by decide +kernel
  have hmul : literalOpcodes.decode? ⟨9, ⟨0, 2, 3⟩⟩ = some ⟨.muli, ⟨0, 2, 3⟩⟩ := by decide +kernel
  have hunbound : literalOpcodes.run ([] ++ [⟨5, ⟨1, 3, 2⟩⟩] ++ [⟨7, ⟨0, 0, 0⟩⟩]) (.zero 4) =
      .error (.unboundOpcode 7 1) := by
    decide +kernel
  obtain ⟨hswap, -⟩ :=
    independent_swap_and_repeat literalOpcodes [] [] ⟨5, ⟨1, 3, 2⟩⟩ ⟨9, ⟨0, 2, 3⟩⟩ (.zero 4)
  obtain ⟨-, hrepeat⟩ := independent_swap_and_repeat literalOpcodes [] [⟨7, ⟨0, 0, 0⟩⟩]
    ⟨5, ⟨1, 3, 2⟩⟩ ⟨9, ⟨0, 2, 3⟩⟩ (.zero 4)
  obtain ⟨-, -, hposition⟩ := hrepeat fun i hi => by
    cases hadd.symm.trans hi
    decide
  exact ⟨hadd, hmul, hswap _ _ hadd hmul (by decide) (by decide) (by decide), hunbound,
    hposition 7 1 hunbound⟩

end BindingTable

end RegisterMachine
