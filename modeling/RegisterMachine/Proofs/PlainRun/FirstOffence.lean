import RegisterMachine.Proofs.BindingTable.Inclusion
import RegisterMachine.Proofs.Instruction.Operands
import RegisterMachine.Proofs.PlainRun

set_option autoImplicit false

/-!
# Where a plain run stops

A raw instruction offends if its opcode is not bound, or if the operation that the opcode is bound
to takes an operand for a register that does not exist.  Which instructions of a program offend does
not depend on what the registers hold.  So it is known before the run where it stops: at the first
offence, if there is one.  Otherwise the run comes to what its instructions do one after the other.

From this follows how runs of programs put together relate to those of the parts, and what remains
of a run if more opcodes are bound.
-/

namespace RegisterMachine

/-- The fault with the position that it names counted from `d` instructions earlier. -/
def Fault.later (d : Nat) : Fault → Fault
  | unboundOpcode opcode index => unboundOpcode opcode (index + d)
  | fault => fault

namespace BindingTable

open Instruction (performAll?)

variable {n : Nat} {t t' : BindingTable} {raw : RawInstruction} {op : Operation}
  {p q : List RawInstruction} {r after : RegisterFile n} {index k : Nat} {fault : Fault}

/-! ## Offences -/

/-- The instruction cannot be executed on a file of `n` registers. -/
def Offends (t : BindingTable) (n : Nat) (raw : RawInstruction) : Prop :=
  t.get? raw.opcode = none ∨ ∃ op, t.get? raw.opcode = some op ∧ ¬ (raw.bind op).InRange n

/-- The fault of an instruction that offends at a position. -/
def offence (t : BindingTable) (n index : Nat) (raw : RawInstruction) : Fault :=
  match t.get? raw.opcode with
  | none => .unboundOpcode raw.opcode index
  | some op => .operandOutOfRange (raw.bind op) n

/-- The instruction at position `k` offends, and none before it does. -/
structure FirstOffence (t : BindingTable) (n : Nat) (p : List RawInstruction) (k : Nat)
    (raw : RawInstruction) : Prop where
  /-- The instruction is there. -/
  getElem?_eq : p[k]? = some raw
  /-- It offends. -/
  offends : t.Offends n raw
  /-- Those before it do not. -/
  before : ∀ j < k, ∀ raw, p[j]? = some raw → ¬ t.Offends n raw

theorem offence_of_unbound (h : t.get? raw.opcode = none) (n index : Nat) :
    t.offence n index raw = .unboundOpcode raw.opcode index := by
  simp only [offence, h]

theorem offence_of_bound (h : t.get? raw.opcode = some op) (n index : Nat) :
    t.offence n index raw = .operandOutOfRange (raw.bind op) n := by
  simp only [offence, h]

theorem FirstOffence.cons (h : t.FirstOffence n p k raw) {first : RawInstruction}
    (hfirst : ¬ t.Offends n first) : t.FirstOffence n (first :: p) (k + 1) raw where
  getElem?_eq := by rw [List.getElem?_cons_succ, h.getElem?_eq]
  offends := h.offends
  before j hj raw' hraw' := by
    cases j with
    | zero =>
      rw [List.getElem?_cons_zero] at hraw'
      cases hraw'
      exact hfirst
    | succ j =>
      rw [List.getElem?_cons_succ] at hraw'
      exact h.before j (by omega) raw' hraw'

/-- Either no instruction of a program offends, or there is a first one that does. -/
theorem forall_not_offends_or_exists_firstOffence (t : BindingTable) (n : Nat)
    (p : List RawInstruction) :
    (∀ raw ∈ p, ¬ t.Offends n raw) ∨ ∃ k raw, t.FirstOffence n p k raw := by
  induction p with
  | nil => exact .inl fun raw hraw => absurd hraw List.not_mem_nil
  | cons first rest ih =>
    by_cases hfirst : t.Offends n first
    · exact .inr ⟨0, first, rfl, hfirst, fun j hj => absurd hj (by omega)⟩
    · rcases ih with hnone | ⟨k, raw, hk⟩
      · exact .inl (List.forall_mem_cons.mpr ⟨hfirst, hnone⟩)
      · exact .inr ⟨k + 1, raw, hk.cons hfirst⟩

/-! ## One instruction -/

theorem execute_of_offends (h : t.Offends n raw) (index : Nat) (r : RegisterFile n) :
    t.execute index raw r = .error (t.offence n index raw) := by
  rcases h with hnone | ⟨op, hop, hout⟩
  · simp only [execute, offence, hnone]
  · have hperform := Instruction.perform?_eq_none_iff (r := r).mpr hout
    simp only [execute, offence, hop]
    exact Instruction.execute_eq_error_iff.mpr ⟨hperform, rfl⟩

/-- The instruction that a raw one stands for. -/
def decode? (t : BindingTable) (raw : RawInstruction) : Option Instruction :=
  (t.get? raw.opcode).map raw.bind

/-- The instructions that a raw program stands for. -/
def decodeAll? (t : BindingTable) (program : List RawInstruction) : Option (List Instruction) :=
  program.mapM t.decode?

/-- An instruction is executed if its opcode is bound and it can be performed. -/
theorem execute_eq_ok_iff :
    t.execute index raw r = .ok after ↔
      ∃ i, t.decode? raw = some i ∧ i.perform? r = some after := by
  rw [execute, decode?]
  cases t.get? raw.opcode with
  | none => simp
  | some op => simp [Instruction.execute_eq_ok_iff]

theorem exists_perform?_of_not_offends (h : ¬ t.Offends n raw) (r : RegisterFile n) :
    ∃ i after, t.decode? raw = some i ∧ i.perform? r = some after ∧
      ∀ index, t.execute index raw r = .ok after := by
  rw [Offends, not_or] at h
  obtain ⟨hbound, hrange⟩ := h
  obtain ⟨op, hop⟩ := Option.ne_none_iff_exists'.mp hbound
  have hin : (raw.bind op).InRange n := by
    by_contra hout
    exact hrange ⟨op, hop, hout⟩
  obtain ⟨after, hafter⟩ := Instruction.exists_perform?_iff (r := r).mpr hin
  have hdecode : t.decode? raw = some (raw.bind op) := by rw [decode?, hop, Option.map_some]
  exact ⟨raw.bind op, after, hdecode, hafter,
    fun index => execute_eq_ok_iff.mpr ⟨raw.bind op, hdecode, hafter⟩⟩

/-! ## The run -/

theorem decodeAll?_cons_of_some {i : Instruction} {rest : List Instruction}
    (hfirst : t.decode? raw = some i) (hrest : t.decodeAll? p = some rest) :
    t.decodeAll? (raw :: p) = some (i :: rest) := by
  rw [decodeAll?] at hrest
  simp [decodeAll?, hfirst, hrest]

/-- Without an offence the instructions are performed from the first to the last. -/
theorem runFrom_of_forall_not_offends (h : ∀ raw ∈ p, ¬ t.Offends n raw) (r : RegisterFile n) :
    ∃ instructions after, t.decodeAll? p = some instructions ∧
      performAll? instructions r = some after ∧ ∀ index, t.runFrom index p r = .ok after := by
  induction p generalizing r with
  | nil => exact ⟨[], r, rfl, rfl, fun index => rfl⟩
  | cons raw rest ih =>
    rw [List.forall_mem_cons] at h
    obtain ⟨i, mid, hdecode, hperform, hexecute⟩ := exists_perform?_of_not_offends h.1 r
    obtain ⟨instructions, after, hdecodes, hperforms, hrun⟩ := ih h.2 mid
    refine ⟨i :: instructions, after, decodeAll?_cons_of_some hdecode hdecodes, ?_, fun index => ?_⟩
    · rw [Instruction.performAll?_cons, hperform, Option.bind_some, hperforms]
    · rw [runFrom_cons, hexecute index]
      exact hrun (index + 1)

/-- The first offence stops the run. -/
theorem runFrom_of_firstOffence (h : t.FirstOffence n p k raw) (index : Nat) (r : RegisterFile n) :
    t.runFrom index p r = .error (t.offence n (index + k) raw) := by
  induction p generalizing k index r with
  | nil => cases h.getElem?_eq
  | cons first rest ih =>
    cases k with
    | zero =>
      cases (List.getElem?_cons_zero (a := first) (l := rest)).symm.trans h.getElem?_eq
      rw [runFrom_cons, execute_of_offends h.offends]
      rfl
    | succ k =>
      have hfirst : ¬ t.Offends n first := h.before 0 (by omega) first rfl
      have hrest : t.FirstOffence n rest k raw :=
        ⟨h.getElem?_eq, h.offends, fun j hj => h.before (j + 1) (by omega)⟩
      obtain ⟨-, mid, -, -, hexecute⟩ := exists_perform?_of_not_offends hfirst r
      rw [runFrom_cons, hexecute index]
      refine (ih hrest (index + 1) mid).trans ?_
      rw [Nat.add_assoc, Nat.add_comm 1 k]

/-! ## Programs put together -/

theorem runFrom_append (t : BindingTable) (index : Nat) (p q : List RawInstruction)
    (r : RegisterFile n) :
    t.runFrom index (p ++ q) r = t.runFrom index p r >>= t.runFrom (index + p.length) q := by
  rw [runFrom, List.zipIdx_append, List.foldlM_append]
  rfl

/-- A program that comes later in another one stops at a later position. -/
theorem runFrom_add (t : BindingTable) (index d : Nat) (p : List RawInstruction)
    (r : RegisterFile n) :
    t.runFrom (index + d) p r = (t.runFrom index p r).mapError (Fault.later d) := by
  rcases forall_not_offends_or_exists_firstOffence t n p with hnone | ⟨k, raw, hk⟩
  · obtain ⟨-, after, -, -, hrun⟩ := runFrom_of_forall_not_offends hnone r
    rw [hrun, hrun]
    rfl
  · rw [runFrom_of_firstOffence hk, runFrom_of_firstOffence hk, Except.mapError, offence, offence]
    cases t.get? raw.opcode with
    | none => rw [Nat.add_right_comm]; rfl
    | some op => rfl

/-! ## Tables with more bindings -/

theorem execute_of_le (hle : t ≤ t')
    (h : ∀ opcode position, t.execute index raw r ≠ .error (.unboundOpcode opcode position)) :
    t'.execute index raw r = t.execute index raw r := by
  cases hop : t.get? raw.opcode with
  | none =>
    refine absurd ?_ (h raw.opcode index)
    simp only [execute, hop]
  | some op => simp only [execute, hop, hle _ _ hop]

/-- More bindings change nothing for a run that does not stop for want of one. -/
theorem runFrom_of_le (hle : t ≤ t')
    (h : ∀ opcode position, t.runFrom index p r ≠ .error (.unboundOpcode opcode position)) :
    t'.runFrom index p r = t.runFrom index p r := by
  induction p generalizing index r with
  | nil => rfl
  | cons raw rest ih =>
    rw [runFrom_cons] at h
    have hfirst : t'.execute index raw r = t.execute index raw r := by
      refine execute_of_le hle fun opcode position hfault => h opcode position ?_
      rw [hfault]
      rfl
    rw [runFrom_cons, runFrom_cons, hfirst]
    cases hexecute : t.execute index raw r with
    | error fault => rfl
    | ok mid =>
      rw [hexecute] at h
      exact ih h

/-! ## Plain runs -/

/-- A plain run stops at the first offence: at an opcode that is not bound with the fault that names
it and its position, and otherwise with the fault that names the instruction.  If nothing offends,
the instructions are performed from the first to the last.

So a program stops wherever a part that it begins with does, and otherwise goes on from the
registers that the part ends with, positions counted on.  With more bindings a run succeeds or names
an instruction as before; only the positions of opcodes that are not bound may change. -/
theorem plainRun_stops_at_first_offence (t : BindingTable) (p : List RawInstruction)
    (r : RegisterFile n) :
    ((∀ raw ∈ p, ¬ t.Offends n raw) ∨ ∃ k raw, t.FirstOffence n p k raw) ∧
    ((∀ raw ∈ p, ¬ t.Offends n raw) →
      ∃ instructions after, t.decodeAll? p = some instructions ∧
        performAll? instructions r = some after ∧ t.run p r = .ok after) ∧
    (∀ k raw, t.FirstOffence n p k raw →
      (t.get? raw.opcode = none → t.run p r = .error (.unboundOpcode raw.opcode k)) ∧
      ∀ op, t.get? raw.opcode = some op →
        t.run p r = .error (.operandOutOfRange (raw.bind op) n)) ∧
    (∀ q fault, t.run p r = .error fault → t.run (p ++ q) r = .error fault) ∧
    (∀ q after, t.run p r = .ok after →
      t.run (p ++ q) r = (t.run q after).mapError (Fault.later p.length)) ∧
    ∀ t', t ≤ t' →
      (∀ after, t.run p r = .ok after → t'.run p r = .ok after) ∧
      ∀ i, t.run p r = .error (.operandOutOfRange i n) →
        t'.run p r = .error (.operandOutOfRange i n) := by
  refine ⟨forall_not_offends_or_exists_firstOffence t n p, ?_, ?_, ?_, ?_, ?_⟩
  · intro hnone
    obtain ⟨instructions, after, hdecodes, hperforms, hrun⟩ :=
      runFrom_of_forall_not_offends hnone r
    exact ⟨instructions, after, hdecodes, hperforms, hrun 0⟩
  · intro k raw hk
    have hrun : t.run p r = .error (t.offence n k raw) := by
      rw [run_eq_runFrom, runFrom_of_firstOffence hk, Nat.zero_add]
    constructor
    · intro hunbound
      rw [hrun, offence_of_unbound hunbound]
    · intro op hop
      rw [hrun, offence_of_bound hop]
  · intro q fault hfault
    rw [run_eq_runFrom] at hfault
    rw [run_eq_runFrom, runFrom_append, hfault]
    rfl
  · intro q after hafter
    rw [run_eq_runFrom] at hafter
    rw [run_eq_runFrom, run_eq_runFrom, runFrom_append, hafter]
    exact runFrom_add t 0 p.length q after
  · intro t' hle
    have hsame : (∀ opcode position, t.run p r ≠ .error (.unboundOpcode opcode position)) →
        t'.run p r = t.run p r := runFrom_of_le hle
    constructor
    · intro after hafter
      rw [hsame (by simp [hafter]), hafter]
    · intro i hi
      rw [hsame (by simp [hi]), hi]

end BindingTable

end RegisterMachine
