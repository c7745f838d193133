import Mathlib.Logic.Embedding.Basic
import RegisterMachine.Proofs.Instruction.Operands
import RegisterMachine.Proofs.PlainRun

set_option autoImplicit false

/-!
# Renaming registers

The registers of a narrow file can be placed in a wider one under other names.  An instruction is
renamed where its operation says that an operand names a register; literals and words that are not
looked at stay.  On the wide file the renamed instruction does to the renamed registers what the
instruction does on the narrow file, and it leaves all other registers alone.  So does a plain run.
-/

namespace RegisterMachine

/-- A one-to-one map of the registers of a file of `n` to those of a file of `m`, and the word that
each operand word becomes.  Words that name no register of the narrow file may become anything. -/
structure RegisterRenaming (n m : Nat) where
  /-- The new name of a register. -/
  register : Fin n ↪ Fin m
  /-- What an operand word becomes. -/
  word : UInt64 → UInt64
  /-- A word that names a register becomes the word for its new name. -/
  toNat_word : ∀ (x : UInt64) (h : x.toNat < n), (word x).toNat = (register ⟨x.toNat, h⟩).val

variable {n m : Nat} {ρ : RegisterRenaming n m} {background wide wide' : RegisterFile m}
  {narrow after : RegisterFile n} {i : Instruction} {op : Operation} {x v : UInt64}

/-! ## Renamed instructions -/

/-- An operand word becomes another if it names a register. -/
def OperandKind.renameRegister (kind : OperandKind) (ρ : RegisterRenaming n m) (x : UInt64) :
    UInt64 :=
  match kind with
  | .register => ρ.word x
  | .literal | .ignored => x

/-- The operands of an operation with the registers renamed. -/
def Operation.renameRegisters (op : Operation) (ρ : RegisterRenaming n m) (o : Operands) :
    Operands where
  a := op.kindA.renameRegister ρ o.a
  b := op.kindB.renameRegister ρ o.b
  c := ρ.word o.c

/-- The instruction with its registers renamed. -/
def Instruction.renameRegisters (ρ : RegisterRenaming n m) (i : Instruction) : Instruction :=
  { i with operands := i.operation.renameRegisters ρ i.operands }

/-- The raw instruction with its registers renamed, where they are those of the operation that its
opcode is bound to.  If the opcode is not bound, nothing is known to be a register. -/
def RawInstruction.renameRegisters (ρ : RegisterRenaming n m) (t : BindingTable)
    (i : RawInstruction) : RawInstruction :=
  match t.get? i.opcode with
  | some op => { i with operands := op.renameRegisters ρ i.operands }
  | none => i

@[simp] theorem RawInstruction.opcode_renameRegisters (t : BindingTable) (i : RawInstruction) :
    (i.renameRegisters ρ t).opcode = i.opcode := by
  unfold renameRegisters
  split
  · rfl
  · rfl

/-- Registers are renamed before or after the opcode is replaced by its operation. -/
theorem RawInstruction.bind_renameRegisters {t : BindingTable} {i : RawInstruction}
    (h : t.get? i.opcode = some op) :
    (i.renameRegisters ρ t).bind op = (i.bind op).renameRegisters ρ := by
  simp only [renameRegisters, h]
  rfl

namespace RegisterRenaming

/-- A one-to-one map of registers names them by words, if the wide file is not too wide for that. -/
def ofEmbedding (ι : Fin n ↪ Fin m) (hm : m ≤ UInt64.size) : RegisterRenaming n m where
  register := ι
  word x := if h : x.toNat < n then .ofNat (ι ⟨x.toNat, h⟩) else x
  toNat_word x h := by
    have hlt := (ι ⟨x.toNat, h⟩).isLt
    rw [dif_pos h, UInt64.toNat_ofNat_of_lt' (by omega)]

/-! ## Files that hold the same -/

/-- The wide file has the contents of the narrow file in the renamed registers, and those of the
background in all others. -/
structure Holds (ρ : RegisterRenaming n m) (background wide : RegisterFile m)
    (narrow : RegisterFile n) : Prop where
  /-- The renamed registers. -/
  word_register : ∀ k, wide.word (ρ.register k) = narrow.word k
  /-- The others. -/
  word_of_outside : ∀ j, (∀ k, ρ.register k ≠ j) → wide.word j = background.word j

/-- Writing a register and writing the renamed register. -/
theorem Holds.put (h : ρ.Holds background wide narrow) (k : Fin n) (v : UInt64) :
    ρ.Holds background (wide.put (ρ.register k) v) (narrow.put k v) where
  word_register j := by
    by_cases hjk : k = j
    · subst hjk
      rw [RegisterFile.word_put_self, RegisterFile.word_put_self]
    · have hne : ρ.register k ≠ ρ.register j := fun heq => hjk (ρ.register.injective heq)
      rw [RegisterFile.word_put_of_ne v hne, RegisterFile.word_put_of_ne v hjk, h.word_register]
  word_of_outside j hj := by
    rw [RegisterFile.word_put_of_ne v (hj k), h.word_of_outside j hj]

theorem lt_of_toNat_lt (ρ : RegisterRenaming n m) (hx : x.toNat < n) : (ρ.word x).toNat < m := by
  rw [ρ.toNat_word x hx]
  exact (ρ.register ⟨x.toNat, hx⟩).isLt

/-- A word that names a register names the renamed register after renaming. -/
theorem mk_toNat_word (ρ : RegisterRenaming n m) (hx : x.toNat < n) :
    (⟨(ρ.word x).toNat, ρ.lt_of_toNat_lt hx⟩ : Fin m) = ρ.register ⟨x.toNat, hx⟩ :=
  Fin.ext (ρ.toNat_word x hx)

theorem Holds.read? (h : ρ.Holds background wide narrow) (hx : x.toNat < n) :
    wide.read? (ρ.word x) = narrow.read? x := by
  rw [RegisterFile.read?_eq_some hx, RegisterFile.read?_eq_some (ρ.lt_of_toNat_lt hx),
    ρ.mk_toNat_word hx, h.word_register]

theorem Holds.operand_read? {kind : OperandKind} (h : ρ.Holds background wide narrow)
    (hx : kind.InRange x n) : kind.read? wide (kind.renameRegister ρ x) = kind.read? narrow x := by
  cases kind with
  | register => exact h.read? (hx rfl)
  | literal => rfl
  | ignored => rfl

/-- The renamed instruction does on the wide file what the instruction does on the narrow one. -/
theorem Holds.perform? (h : ρ.Holds background wide narrow)
    (hperform : i.perform? narrow = some after) :
    ∃ wide', (i.renameRegisters ρ).perform? wide = some wide' ∧
      ρ.Holds background wide' after := by
  obtain ⟨ha, hb, hc⟩ := Instruction.exists_perform?_iff.mp ⟨after, hperform⟩
  have hrenamed : (i.renameRegisters ρ).perform? wide =
      (i.operation.kindA.read? narrow i.operands.a).bind fun x =>
        (i.operation.kindB.read? narrow i.operands.b).bind fun y =>
          wide.write? (ρ.word i.operands.c) (i.operation.combine x y) := by
    simp only [Instruction.perform?, Operation.perform?, Instruction.renameRegisters,
      Operation.renameRegisters, h.operand_read? ha, h.operand_read? hb, bind]
  simp only [Instruction.perform?, Operation.perform?, bind, Option.bind_eq_some_iff] at hperform
  obtain ⟨x, hx, y, hy, hwrite⟩ := hperform
  rw [RegisterFile.write?_eq_some hc] at hwrite
  cases hwrite
  refine ⟨_, ?_, h.put ⟨i.operands.c.toNat, hc⟩ (i.operation.combine x y)⟩
  rw [hrenamed, hx, Option.bind_some, hy, Option.bind_some,
    RegisterFile.write?_eq_some (ρ.lt_of_toNat_lt hc), ρ.mk_toNat_word hc]

/-! ## Plain runs -/

/-- The same success, with the same contents, or the same fault. -/
inductive SameResult (ρ : RegisterRenaming n m) (background : RegisterFile m) :
    Except Fault (RegisterFile n) → Except Fault (RegisterFile m) → Prop
  /-- Both succeed. -/
  | ok {narrow : RegisterFile n} {wide : RegisterFile m} (h : ρ.Holds background wide narrow) :
      SameResult ρ background (.ok narrow) (.ok wide)
  /-- Both fail. -/
  | error (fault : Fault) : SameResult ρ background (.error fault) (.error fault)

theorem SameResult.exists_of_ok {result : Except Fault (RegisterFile m)}
    (h : ρ.SameResult background (.ok narrow) result) :
    ∃ wide, result = .ok wide ∧ ρ.Holds background wide narrow := by
  cases h with
  | ok hholds => exact ⟨_, rfl, hholds⟩

variable {t : BindingTable}

theorem Holds.execute {raw : RawInstruction} (h : ρ.Holds background wide narrow) (index : Nat)
    (hrange : ∀ i, t.execute index raw narrow ≠ .error (.operandOutOfRange i n)) :
    ρ.SameResult background (t.execute index raw narrow)
      (t.execute index (raw.renameRegisters ρ t) wide) := by
  simp only [BindingTable.execute, RawInstruction.opcode_renameRegisters] at hrange ⊢
  cases hop : t.get? raw.opcode with
  | none => exact .error _
  | some op =>
    simp only [hop, RawInstruction.bind_renameRegisters hop] at hrange ⊢
    cases hnarrow : (raw.bind op).execute narrow with
    | ok after =>
      obtain ⟨wide', hwide', hholds⟩ := h.perform? (Instruction.execute_eq_ok_iff.mp hnarrow)
      rw [Instruction.execute_eq_ok_iff.mpr hwide']
      exact .ok hholds
    | error fault =>
      obtain ⟨-, rfl⟩ := Instruction.execute_eq_error_iff.mp hnarrow
      exact absurd hnarrow (hrange _)

theorem Holds.runFrom {program : List RawInstruction} (h : ρ.Holds background wide narrow)
    (index : Nat) (hrange : ∀ i, t.runFrom index program narrow ≠ .error (.operandOutOfRange i n)) :
    ρ.SameResult background (t.runFrom index program narrow)
      (t.runFrom index (program.map (RawInstruction.renameRegisters ρ t)) wide) := by
  induction program generalizing narrow wide index with
  | nil => exact .ok h
  | cons raw rest ih =>
    rw [BindingTable.runFrom_cons] at hrange
    rw [List.map_cons, BindingTable.runFrom_cons, BindingTable.runFrom_cons]
    have hfirst : ρ.SameResult background (t.execute index raw narrow)
        (t.execute index (raw.renameRegisters ρ t) wide) := by
      refine h.execute index fun i hfault => hrange i ?_
      rw [hfault]
      rfl
    generalize t.execute index raw narrow = result at hfirst hrange ⊢
    generalize t.execute index (raw.renameRegisters ρ t) wide = result' at hfirst ⊢
    cases hfirst with
    | ok hholds => exact ih hholds (index + 1) hrange
    | error fault => exact .error fault

/-- A plain run that names no register outside the narrow file has the same result with all
registers renamed. -/
theorem Holds.run {program : List RawInstruction} (h : ρ.Holds background wide narrow)
    (hrange : ∀ i, t.run program narrow ≠ .error (.operandOutOfRange i n)) :
    ρ.SameResult background (t.run program narrow)
      (t.run (program.map (RawInstruction.renameRegisters ρ t)) wide) := by
  rw [BindingTable.run_eq_runFrom] at hrange
  rw [BindingTable.run_eq_runFrom, BindingTable.run_eq_runFrom]
  exact h.runFrom 0 hrange

end RegisterRenaming

end RegisterMachine
