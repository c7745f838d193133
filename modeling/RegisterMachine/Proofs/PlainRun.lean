import RegisterMachine.BindingTable

set_option autoImplicit false

/-!
# Plain runs and encoded programs

A plain run goes through its program from some position on, one instruction after the other.  A
program of instructions proper is encoded by giving each of them the opcode that its operation is
bound to; the plain run of the code performs the instructions in order.
-/

namespace RegisterMachine

variable {n : Nat} {program : List Instruction} {i : Instruction} {r after : RegisterFile n}

namespace Instruction

/-- The registers after a list of instructions, or `none` if a register that one names is
missing. -/
def performAll? (program : List Instruction) (r : RegisterFile n) : Option (RegisterFile n) :=
  program.foldlM (fun r i => i.perform? r) r

@[simp] theorem performAll?_nil (r : RegisterFile n) : performAll? [] r = some r := rfl

theorem performAll?_cons (i : Instruction) (rest : List Instruction) (r : RegisterFile n) :
    performAll? (i :: rest) r = (i.perform? r).bind (performAll? rest) :=
  List.foldlM_cons

theorem performAll?_append_singleton (h : performAll? program r = some after) (i : Instruction) :
    performAll? (program ++ [i]) r = i.perform? after := by
  rw [performAll?] at h
  simp [performAll?, h]

end Instruction

namespace BindingTable

open Instruction (performAll?)

variable {t : BindingTable} {raw : RawInstruction} {raws : List RawInstruction}

/-! ## The run from a position on -/

/-- The run of a raw program of which the first instruction is at position `index`. -/
def runFrom (t : BindingTable) (index : Nat) (program : List RawInstruction) (r : RegisterFile n) :
    Except Fault (RegisterFile n) :=
  (program.zipIdx index).foldlM (fun r entry => t.execute entry.2 entry.1 r) r

theorem run_eq_runFrom (t : BindingTable) (program : List RawInstruction) (r : RegisterFile n) :
    t.run program r = t.runFrom 0 program r := rfl

@[simp] theorem runFrom_nil (t : BindingTable) (index : Nat) (r : RegisterFile n) :
    t.runFrom index [] r = .ok r := rfl

theorem runFrom_cons (t : BindingTable) (index : Nat) (raw : RawInstruction)
    (rest : List RawInstruction) (r : RegisterFile n) :
    t.runFrom index (raw :: rest) r =
      t.execute index raw r >>= t.runFrom (index + 1) rest := by
  rw [runFrom, List.zipIdx_cons, List.foldlM_cons]
  rfl

/-! ## Why a plain run fails -/

/-- The faults that stop a plain run of files of `n` registers. -/
def Stops (n : Nat) (fault : Fault) : Prop :=
  (∃ opcode index, fault = .unboundOpcode opcode index) ∨ ∃ i, fault = .operandOutOfRange i n

theorem stops_of_execute {index : Nat} {fault : Fault} (h : t.execute index raw r = .error fault) :
    Stops n fault := by
  rw [execute] at h
  cases hget : t.get? raw.opcode with
  | none =>
    rw [hget] at h
    cases h
    exact .inl ⟨_, _, rfl⟩
  | some op =>
    rw [hget] at h
    exact .inr ⟨_, (Instruction.execute_eq_error_iff.mp h).2⟩

/-- A plain run fails at an opcode that is not bound, or at an instruction that names a register
that does not exist. -/
theorem stops_of_runFrom {index : Nat} {fault : Fault}
    (h : t.runFrom index raws r = .error fault) : Stops n fault := by
  induction raws generalizing index r with
  | nil => cases h
  | cons raw rest ih =>
    rw [runFrom_cons] at h
    cases hexecute : t.execute index raw r with
    | error fault' =>
      rw [hexecute] at h
      cases h
      exact stops_of_execute hexecute
    | ok after =>
      rw [hexecute] at h
      exact ih h

/-! ## Encoding -/

/-- The raw form of an instruction under the opcode that its operation is bound to. -/
def encode? (t : BindingTable) (i : Instruction) : Option RawInstruction :=
  (t.opcodeOf? i.operation).map i.encode

/-- The raw form of a program. -/
def encodeAll? (t : BindingTable) (program : List Instruction) : Option (List RawInstruction) :=
  program.mapM t.encode?

/-- A raw instruction has the effect of the instruction that it encodes. -/
theorem execute_of_encode? (h : t.encode? i = some raw) (index : Nat) (r : RegisterFile n) :
    t.execute index raw r = i.execute r := by
  obtain ⟨opcode, hopcode, rfl⟩ := Option.map_eq_some_iff.mp h
  rw [← get?_eq_some_iff] at hopcode
  have hlook : t.get? (i.encode opcode).opcode = some i.operation := hopcode
  rw [execute, hlook]
  rfl

theorem exists_encode? (h : t.opcodeOf? i.operation ≠ none) : ∃ raw, t.encode? i = some raw := by
  obtain ⟨opcode, hopcode⟩ := Option.ne_none_iff_exists'.mp h
  exact ⟨_, by rw [encode?, hopcode, Option.map_some]⟩

theorem encodeAll?_cons_eq_some_iff :
    t.encodeAll? (i :: program) = some raws ↔
      ∃ raw rest, t.encode? i = some raw ∧ t.encodeAll? program = some rest ∧
        raws = raw :: rest := by
  simp only [encodeAll?, List.mapM_cons, bind, Option.bind_eq_some_iff, pure, Option.some.injEq]
  constructor
  · rintro ⟨raw, hraw, rest, hrest, rfl⟩
    exact ⟨raw, rest, hraw, hrest, rfl⟩
  · rintro ⟨raw, rest, hraw, hrest, rfl⟩
    exact ⟨raw, hraw, rest, hrest, rfl⟩

/-- A program can be encoded if all its operations are bound. -/
theorem exists_encodeAll? (h : ∀ i ∈ program, t.opcodeOf? i.operation ≠ none) :
    ∃ raws, t.encodeAll? program = some raws := by
  induction program with
  | nil => exact ⟨[], rfl⟩
  | cons i rest ih =>
    obtain ⟨raw, hraw⟩ := exists_encode? (h i List.mem_cons_self)
    obtain ⟨raws, hraws⟩ := ih fun j hj => h j (List.mem_cons_of_mem i hj)
    exact ⟨raw :: raws, encodeAll?_cons_eq_some_iff.mpr ⟨raw, raws, hraw, hraws, rfl⟩⟩

/-- The plain run of an encoded program performs its instructions in order. -/
theorem runFrom_of_encodeAll? (hencode : t.encodeAll? program = some raws)
    (hperform : performAll? program r = some after) (index : Nat) :
    t.runFrom index raws r = .ok after := by
  induction program generalizing raws r index with
  | nil =>
    cases hencode
    cases hperform
    rfl
  | cons i rest ih =>
    obtain ⟨raw, raws', hraw, hraws', rfl⟩ := encodeAll?_cons_eq_some_iff.mp hencode
    rw [Instruction.performAll?_cons, Option.bind_eq_some_iff] at hperform
    obtain ⟨r', hr', hrest⟩ := hperform
    rw [runFrom_cons, execute_of_encode? hraw, Instruction.execute_eq_ok_iff.mpr hr']
    exact ih hraws' hrest (index + 1)

theorem run_of_encodeAll? (hencode : t.encodeAll? program = some raws)
    (hperform : performAll? program r = some after) : t.run raws r = .ok after := by
  rw [run_eq_runFrom]
  exact runFrom_of_encodeAll? hencode hperform 0

end BindingTable

end RegisterMachine
