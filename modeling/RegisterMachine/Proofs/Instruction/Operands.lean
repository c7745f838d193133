import RegisterMachine.RegisterFile

set_option autoImplicit false

/-!
# Register operands and independence

Which operand words of an instruction name registers depends on its operation: the third always
does, the first two according to their kinds.  An instruction can be performed on a file exactly if
all registers that it names are in the file, whatever they hold.

An instruction reads the registers that its first two operands name, if they name registers at all,
and writes its target, the register that the third operand names.  The value that it writes depends
on the registers that it reads and on nothing else, and no register but the target changes.

So two instructions of which neither touches the target of the other can be performed in either
order, and an instruction that does not read its target has no effect when it is repeated.
-/

namespace RegisterMachine

variable {n : Nat}

/-- The operand names a register of a file of `n` registers, if it names one at all. -/
def OperandKind.InRange (kind : OperandKind) (operand : UInt64) (n : Nat) : Prop :=
  kind = .register → operand.toNat < n

instance (kind : OperandKind) (operand : UInt64) (n : Nat) : Decidable (kind.InRange operand n) :=
  inferInstanceAs (Decidable (_ → _))

theorem OperandKind.exists_read?_iff {kind : OperandKind} {r : RegisterFile n} {operand : UInt64} :
    (∃ x, kind.read? r operand = some x) ↔ kind.InRange operand n := by
  cases kind with
  | register =>
    simp only [read?, InRange, forall_const]
    constructor
    · intro hex
      obtain ⟨x, hx⟩ := hex
      refine Nat.lt_of_not_le fun hout => ?_
      rw [RegisterFile.read?_eq_none_iff.mpr hout] at hx
      cases hx
    · intro hlt
      exact ⟨_, RegisterFile.read?_eq_some hlt⟩
  | literal => simp [read?, InRange]
  | ignored => simp [read?, InRange]

/-- All registers that the instruction names are registers of a file of `n`. -/
structure Instruction.InRange (i : Instruction) (n : Nat) : Prop where
  /-- The first input, if it is a register. -/
  a : i.operation.kindA.InRange i.operands.a n
  /-- The second input, if it is a register. -/
  b : i.operation.kindB.InRange i.operands.b n
  /-- The register written. -/
  c : i.operands.c.toNat < n

theorem Instruction.inRange_iff {i : Instruction} :
    i.InRange n ↔ i.operation.kindA.InRange i.operands.a n ∧
      i.operation.kindB.InRange i.operands.b n ∧ i.operands.c.toNat < n :=
  ⟨fun h => ⟨h.a, h.b, h.c⟩, fun h => ⟨h.1, h.2.1, h.2.2⟩⟩

instance (i : Instruction) (n : Nat) : Decidable (i.InRange n) :=
  decidable_of_iff _ Instruction.inRange_iff.symm

/-- An instruction can be performed exactly if its registers exist. -/
theorem Instruction.exists_perform?_iff {i : Instruction} {r : RegisterFile n} :
    (∃ after, i.perform? r = some after) ↔ i.InRange n := by
  rw [inRange_iff, ← OperandKind.exists_read?_iff (r := r), ← OperandKind.exists_read?_iff (r := r)]
  simp only [perform?, Operation.perform?, bind, Option.bind_eq_some_iff,
    RegisterFile.write?_eq_some_iff]
  constructor
  · rintro ⟨_, x, hx, y, hy, hlt, -⟩
    exact ⟨⟨x, hx⟩, ⟨y, hy⟩, hlt⟩
  · rintro ⟨⟨x, hx⟩, ⟨y, hy⟩, hlt⟩
    exact ⟨_, x, hx, y, hy, hlt, rfl⟩

theorem Instruction.perform?_eq_none_iff {i : Instruction} {r : RegisterFile n} :
    i.perform? r = none ↔ ¬ i.InRange n := by
  rw [← exists_perform?_iff (r := r), ← Option.isSome_iff_exists, Option.not_isSome_iff_eq_none]

/-! ## Registers that are not named -/

/-- The operand does not name the register. -/
def OperandKind.Avoids (kind : OperandKind) (operand : UInt64) (p : Fin n) : Prop :=
  kind = .register → operand.toNat ≠ p.val

instance (kind : OperandKind) (operand : UInt64) (p : Fin n) : Decidable (kind.Avoids operand p) :=
  inferInstanceAs (Decidable (_ → _))

theorem OperandKind.Avoids.read?_put {kind : OperandKind} {operand : UInt64} {p : Fin n}
    (h : kind.Avoids operand p) (r : RegisterFile n) (v : UInt64) :
    kind.read? (r.put p v) operand = kind.read? r operand := by
  cases kind with
  | register => exact RegisterFile.read?_put_of_ne v (h rfl)
  | literal => rfl
  | ignored => rfl

/-- The instruction does not name the register. -/
structure Instruction.Avoids (i : Instruction) (p : Fin n) : Prop where
  /-- The first input is not the register. -/
  a : i.operation.kindA.Avoids i.operands.a p
  /-- The second input is not the register. -/
  b : i.operation.kindB.Avoids i.operands.b p
  /-- The register written is another one. -/
  c : i.operands.c.toNat ≠ p.val

theorem Instruction.avoids_iff {i : Instruction} {p : Fin n} :
    i.Avoids p ↔ i.operation.kindA.Avoids i.operands.a p ∧
      i.operation.kindB.Avoids i.operands.b p ∧ i.operands.c.toNat ≠ p.val :=
  ⟨fun h => ⟨h.a, h.b, h.c⟩, fun h => ⟨h.1, h.2.1, h.2.2⟩⟩

instance (i : Instruction) (p : Fin n) : Decidable (i.Avoids p) :=
  decidable_of_iff _ Instruction.avoids_iff.symm

/-- A register that the instruction does not name can be written before or after it. -/
theorem Instruction.Avoids.perform?_put {i : Instruction} {p : Fin n} (h : i.Avoids p)
    (r : RegisterFile n) (v : UInt64) :
    i.perform? (r.put p v) = (i.perform? r).map fun after => after.put p v := by
  simp only [perform?, Operation.perform?, h.a.read?_put, h.b.read?_put, bind, Option.map_bind,
    Function.comp_def, RegisterFile.write?_put_of_ne v _ h.c]

/-! ## Independence -/

variable {kind : OperandKind} {operand : UInt64} {r r' after : RegisterFile n} {i j : Instruction}
  {v : UInt64}

theorem OperandKind.read?_congr (h : kind = .register → r.read? operand = r'.read? operand) :
    kind.read? r operand = kind.read? r' operand := by
  cases kind with
  | register => exact h rfl
  | literal => rfl
  | ignored => rfl

namespace Instruction

/-! ## What an instruction reads and writes -/

/-- The instruction has the register among its inputs.  A literal or an operand that is not looked
at may look like the register, but does not name it. -/
def Reads (i : Instruction) (register : UInt64) : Prop :=
  i.operation.kindA = .register ∧ i.operands.a = register ∨
    i.operation.kindB = .register ∧ i.operands.b = register

instance (i : Instruction) (register : UInt64) : Decidable (i.Reads register) :=
  inferInstanceAs (Decidable (_ ∨ _))

/-- The value that the instruction writes; none if one of its inputs is missing. -/
def value? (i : Instruction) (r : RegisterFile n) : Option UInt64 := do
  let x ← i.operation.kindA.read? r i.operands.a
  let y ← i.operation.kindB.read? r i.operands.b
  return i.operation.combine x y

/-- The value depends on the registers that are read. -/
theorem value?_congr (h : ∀ x, i.Reads x → r.read? x = r'.read? x) : i.value? r = i.value? r' := by
  have ha : i.operation.kindA.read? r i.operands.a = i.operation.kindA.read? r' i.operands.a :=
    OperandKind.read?_congr fun hkind => h _ (.inl ⟨hkind, rfl⟩)
  have hb : i.operation.kindB.read? r i.operands.b = i.operation.kindB.read? r' i.operands.b :=
    OperandKind.read?_congr fun hkind => h _ (.inr ⟨hkind, rfl⟩)
  rw [value?, value?, ha, hb]

/-- A register that is not read does not matter. -/
theorem value?_put_of_not_reads {x : UInt64} (hx : x.toNat < n) (h : ¬ i.Reads x)
    (r : RegisterFile n) (v : UInt64) : i.value? (r.put ⟨x.toNat, hx⟩ v) = i.value? r := by
  refine value?_congr fun y hy => RegisterFile.read?_put_of_ne v fun heq => ?_
  exact h (UInt64.toNat_inj.mp heq ▸ hy)

theorem perform?_eq_bind_value? (i : Instruction) (r : RegisterFile n) :
    i.perform? r = (i.value? r).bind (r.write? i.operands.c) := by
  simp only [perform?, Operation.perform?, value?, bind, pure, Option.bind_assoc, Option.bind_some]

/-- The value is written to the target. -/
theorem perform?_eq_some_iff :
    i.perform? r = some after ↔
      ∃ v, i.value? r = some v ∧
        ∃ hc : i.operands.c.toNat < n, r.put ⟨i.operands.c.toNat, hc⟩ v = after := by
  rw [perform?_eq_bind_value?, Option.bind_eq_some_iff]
  simp only [RegisterFile.write?_eq_some_iff]

theorem InRange.exists_value? (h : i.InRange n) (r : RegisterFile n) :
    ∃ v, i.value? r = some v := by
  obtain ⟨after, hafter⟩ := exists_perform?_iff (r := r).mpr h
  obtain ⟨v, hv, -⟩ := perform?_eq_some_iff.mp hafter
  exact ⟨v, hv⟩

/-! ## Order and repetition -/

/-- Neither instruction reads or writes the target of the other. -/
structure Independent (i j : Instruction) : Prop where
  /-- They write different registers. -/
  targets : i.operands.c ≠ j.operands.c
  /-- The second does not read what the first writes. -/
  right : ¬ j.Reads i.operands.c
  /-- The first does not read what the second writes. -/
  left : ¬ i.Reads j.operands.c

theorem independent_iff :
    Independent i j ↔
      i.operands.c ≠ j.operands.c ∧ ¬ j.Reads i.operands.c ∧ ¬ i.Reads j.operands.c :=
  ⟨fun h => ⟨h.targets, h.right, h.left⟩, fun h => ⟨h.1, h.2.1, h.2.2⟩⟩

instance (i j : Instruction) : Decidable (Independent i j) :=
  decidable_of_iff _ independent_iff.symm

/-- Independent instructions can be performed in either order. -/
theorem Independent.exists_perform? (h : Independent i j) (hi : i.InRange n) (hj : j.InRange n)
    (r : RegisterFile n) :
    ∃ first second after, i.perform? r = some first ∧ j.perform? first = some after ∧
      j.perform? r = some second ∧ i.perform? second = some after := by
  obtain ⟨v, hv⟩ := hi.exists_value? r
  obtain ⟨w, hw⟩ := hj.exists_value? r
  have hv' := (value?_put_of_not_reads hj.c h.left r w).trans hv
  have hw' := (value?_put_of_not_reads hi.c h.right r v).trans hw
  have hne : (⟨i.operands.c.toNat, hi.c⟩ : Fin n) ≠ ⟨j.operands.c.toNat, hj.c⟩ := fun heq =>
    h.targets (UInt64.toNat_inj.mp (Fin.mk.inj heq))
  exact ⟨_, _, _, perform?_eq_some_iff.mpr ⟨v, hv, hi.c, rfl⟩,
    perform?_eq_some_iff.mpr ⟨w, hw', hj.c, rfl⟩, perform?_eq_some_iff.mpr ⟨w, hw, hj.c, rfl⟩,
    perform?_eq_some_iff.mpr ⟨v, hv', hi.c, (RegisterFile.put_comm v w hne).symm⟩⟩

/-- An instruction that does not read its target writes the same value again. -/
theorem perform?_perform? (h : ¬ i.Reads i.operands.c) (hperform : i.perform? r = some after) :
    i.perform? after = some after := by
  obtain ⟨v, hv, hc, rfl⟩ := perform?_eq_some_iff.mp hperform
  have hv' := (value?_put_of_not_reads hc h r v).trans hv
  exact perform?_eq_some_iff.mpr ⟨v, hv', hc, RegisterFile.put_put r _ v v⟩

end Instruction

end RegisterMachine
