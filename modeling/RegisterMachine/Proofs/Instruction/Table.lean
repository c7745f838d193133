import RegisterMachine.Proofs.Instruction.Operands

set_option autoImplicit false

/-!
# The table of operations

What each operation computes is written down here once more, as a table of rules about numbers: sums
and products are taken modulo `2 ^ 64`, the number of words, and a comparison gives one or zero.  An
input that the mnemonic marks as a register stands for the number that the register holds, so that
its rule asks for the register to exist; a literal input stands for itself.

An operation is performed as the table says, on files of any width: it can be performed exactly if
all registers that it names exist, and then the register named by the third operand holds the number
of the table, while every other register is what it was.
-/

namespace RegisterMachine

variable {n : Nat} {r after : RegisterFile n} {op : Operation} {o : Operands}
  {a b operand : UInt64} {v x : Nat}

/-- The register that the operand names exists and holds the number. -/
def RegisterFile.Shows (r : RegisterFile n) (operand : UInt64) (x : Nat) : Prop :=
  ∃ h : operand.toNat < n, (r.word ⟨operand.toNat, h⟩).toNat = x

/-- Every register but the one that the operand names is the same in both files. -/
def RegisterFile.AgreesBeside (r after : RegisterFile n) (operand : UInt64) : Prop :=
  ∀ j : Fin n, j.val ≠ operand.toNat → after.word j = r.word j

namespace Operation

/-- The table: the number that an operation yields for the operands `a` and `b`. -/
inductive Yields (r : RegisterFile n) (a b : UInt64) : Operation → Nat → Prop
  | addr {x y : Nat} (ha : r.Shows a x) (hb : r.Shows b y) :
      Yields r a b .addr ((x + y) % UInt64.size)
  | addi {x : Nat} (ha : r.Shows a x) : Yields r a b .addi ((x + b.toNat) % UInt64.size)
  | mulr {x y : Nat} (ha : r.Shows a x) (hb : r.Shows b y) :
      Yields r a b .mulr (x * y % UInt64.size)
  | muli {x : Nat} (ha : r.Shows a x) : Yields r a b .muli (x * b.toNat % UInt64.size)
  | banr {x y : Nat} (ha : r.Shows a x) (hb : r.Shows b y) : Yields r a b .banr (x &&& y)
  | bani {x : Nat} (ha : r.Shows a x) : Yields r a b .bani (x &&& b.toNat)
  | borr {x y : Nat} (ha : r.Shows a x) (hb : r.Shows b y) : Yields r a b .borr (x ||| y)
  | bori {x : Nat} (ha : r.Shows a x) : Yields r a b .bori (x ||| b.toNat)
  | setr {x : Nat} (ha : r.Shows a x) : Yields r a b .setr x
  | seti : Yields r a b .seti a.toNat
  | gtir {y : Nat} (hb : r.Shows b y) : Yields r a b .gtir (if a.toNat > y then 1 else 0)
  | gtri {x : Nat} (ha : r.Shows a x) : Yields r a b .gtri (if x > b.toNat then 1 else 0)
  | gtrr {x y : Nat} (ha : r.Shows a x) (hb : r.Shows b y) :
      Yields r a b .gtrr (if x > y then 1 else 0)
  | eqir {y : Nat} (hb : r.Shows b y) : Yields r a b .eqir (if a.toNat = y then 1 else 0)
  | eqri {x : Nat} (ha : r.Shows a x) : Yields r a b .eqri (if x = b.toNat then 1 else 0)
  | eqrr {x y : Nat} (ha : r.Shows a x) (hb : r.Shows b y) :
      Yields r a b .eqrr (if x = y then 1 else 0)

end Operation

/-! ## Words as numbers -/

theorem RegisterFile.shows_iff :
    r.Shows operand x ↔ ∃ w, r.read? operand = some w ∧ w.toNat = x := by
  constructor
  · rintro ⟨h, rfl⟩
    exact ⟨_, read?_eq_some h, rfl⟩
  · rintro ⟨w, hw, rfl⟩
    have h : operand.toNat < n := by
      refine Nat.lt_of_not_le fun hout => ?_
      rw [read?_eq_none_iff.mpr hout] at hw
      cases hw
    rw [read?_eq_some h] at hw
    exact ⟨h, congrArg UInt64.toNat (Option.some.inj hw)⟩

theorem toNat_toUInt64_decide (p : Prop) [Decidable p] :
    (decide p).toUInt64.toNat = if p then 1 else 0 := by
  by_cases hp : p
  · rw [decide_eq_true hp, if_pos hp]
    rfl
  · rw [decide_eq_false hp, if_neg hp]
    rfl

namespace Operation

/-- The number that an operation makes of its two inputs. -/
def number : Operation → Nat → Nat → Nat
  | addr, x, y | addi, x, y => (x + y) % UInt64.size
  | mulr, x, y | muli, x, y => x * y % UInt64.size
  | banr, x, y | bani, x, y => x &&& y
  | borr, x, y | bori, x, y => x ||| y
  | setr, x, _ | seti, x, _ => x
  | gtir, x, y | gtri, x, y | gtrr, x, y => if x > y then 1 else 0
  | eqir, x, y | eqri, x, y | eqrr, x, y => if x = y then 1 else 0

theorem toNat_combine (op : Operation) (x y : UInt64) :
    (op.combine x y).toNat = op.number x.toNat y.toNat := by
  cases op with
  | addr | addi => exact UInt64.toNat_add x y
  | mulr | muli => exact UInt64.toNat_mul x y
  | banr | bani => exact UInt64.toNat_and x y
  | borr | bori => exact UInt64.toNat_or x y
  | setr | seti => rfl
  | gtir | gtri | gtrr =>
    simp only [combine, number, toNat_toUInt64_decide, UInt64.lt_iff_toNat_lt, gt_iff_lt]
  | eqir | eqri | eqrr =>
    simp only [combine, number, toNat_toUInt64_decide, ← UInt64.toNat_inj]

/-! ## What is performed -/

/-- An operation has a number in the table if its inputs can be read. -/
theorem yields_iff :
    op.Yields r a b v ↔
      ∃ x y, op.kindA.read? r a = some x ∧ op.kindB.read? r b = some y ∧
        (op.combine x y).toNat = v := by
  constructor
  · intro h
    cases h with
    | addr ha hb | mulr ha hb | banr ha hb | borr ha hb | gtrr ha hb | eqrr ha hb =>
      obtain ⟨x, hx, rfl⟩ := RegisterFile.shows_iff.mp ha
      obtain ⟨y, hy, rfl⟩ := RegisterFile.shows_iff.mp hb
      exact ⟨x, y, hx, hy, toNat_combine _ x y⟩
    | addi ha | muli ha | bani ha | bori ha | gtri ha | eqri ha =>
      obtain ⟨x, hx, rfl⟩ := RegisterFile.shows_iff.mp ha
      exact ⟨x, b, hx, rfl, toNat_combine _ x b⟩
    | gtir hb | eqir hb =>
      obtain ⟨y, hy, rfl⟩ := RegisterFile.shows_iff.mp hb
      exact ⟨a, y, rfl, hy, toNat_combine _ a y⟩
    | setr ha =>
      obtain ⟨x, hx, rfl⟩ := RegisterFile.shows_iff.mp ha
      exact ⟨x, 0, hx, rfl, rfl⟩
    | seti => exact ⟨a, 0, rfl, rfl, rfl⟩
  · rintro ⟨x, y, hx, hy, rfl⟩
    rw [toNat_combine]
    cases op with
    | addr | mulr | banr | borr | gtrr | eqrr =>
      constructor
      · exact RegisterFile.shows_iff.mpr ⟨x, hx, rfl⟩
      · exact RegisterFile.shows_iff.mpr ⟨y, hy, rfl⟩
    | addi | muli | bani | bori | gtri | eqri =>
      cases hy
      constructor
      exact RegisterFile.shows_iff.mpr ⟨x, hx, rfl⟩
    | gtir | eqir =>
      cases hx
      constructor
      exact RegisterFile.shows_iff.mpr ⟨y, hy, rfl⟩
    | setr => exact .setr (RegisterFile.shows_iff.mpr ⟨x, hx, rfl⟩)
    | seti =>
      cases hx
      exact .seti

end Operation

namespace RegisterFile

/-- Writing to a register is storing the value there and nothing else. -/
theorem write?_eq_some_iff_shows {w : UInt64} :
    r.write? operand w = some after ↔
      after.Shows operand w.toNat ∧ r.AgreesBeside after operand := by
  rw [write?_eq_some_iff]
  constructor
  · rintro ⟨h, rfl⟩
    refine ⟨⟨h, by rw [word_put_self]⟩, ?_⟩
    intro j hj
    exact word_put_of_ne w fun heq => hj (congrArg Fin.val heq).symm
  · rintro ⟨⟨h, hw⟩, hagrees⟩
    refine ⟨h, ext_word fun j => ?_⟩
    by_cases hj : j = ⟨operand.toNat, h⟩
    · subst hj
      rw [word_put_self]
      exact (UInt64.toNat_inj.mp hw).symm
    · rw [word_put_of_ne w (Ne.symm hj), hagrees j fun heq => hj (Fin.ext heq)]

end RegisterFile

namespace Operation

/-- An operation does what the table says: it stores the number of the table in the register that
the third operand names, and leaves all others alone. -/
theorem perform?_eq_some_iff_yields :
    op.perform? o r = some after ↔
      ∃ v, op.Yields r o.a o.b v ∧ after.Shows o.c v ∧ r.AgreesBeside after o.c := by
  simp only [perform?, bind, Option.bind_eq_some_iff, RegisterFile.write?_eq_some_iff_shows]
  constructor
  · rintro ⟨x, hx, y, hy, hstored⟩
    exact ⟨_, yields_iff.mpr ⟨x, y, hx, hy, rfl⟩, hstored⟩
  · rintro ⟨_, hyields, hstored⟩
    obtain ⟨x, y, hx, hy, rfl⟩ := yields_iff.mp hyields
    exact ⟨x, hx, y, hy, hstored⟩

/-- **Operations do what their table says**, on files of any width.  There is a result exactly if
the target exists and each input that is read as a register does; it holds the number of the table
in the target, and is the same beside it.  What stands in the place of the second input of `setr`
and `seti` has no influence.  Executing the instruction gives the same result, and it fails exactly
if there is none. -/
theorem perform?_follows_table (op : Operation) (o : Operands) (r : RegisterFile n) :
    ((∃ after, op.perform? o r = some after) ↔
      o.c.toNat < n ∧ (op.kindA = .register → o.a.toNat < n) ∧
        (op.kindB = .register → o.b.toNat < n)) ∧
    (∀ after, op.perform? o r = some after ↔
      ∃ v, op.Yields r o.a o.b v ∧ after.Shows o.c v ∧ r.AgreesBeside after o.c) ∧
    (∀ b, (op = .setr ∨ op = .seti) → op.perform? { o with b } r = op.perform? o r) ∧
    (∀ after, Instruction.execute ⟨op, o⟩ r = .ok after ↔ op.perform? o r = some after) ∧
    ∀ fault, Instruction.execute ⟨op, o⟩ r = .error fault ↔
      op.perform? o r = none ∧ fault = .operandOutOfRange ⟨op, o⟩ n := by
  refine ⟨?_, fun after => perform?_eq_some_iff_yields, ?_, fun after =>
    Instruction.execute_eq_ok_iff, fun fault => Instruction.execute_eq_error_iff⟩
  · have hexists := Instruction.exists_perform?_iff (i := ⟨op, o⟩) (r := r)
    rw [Instruction.inRange_iff] at hexists
    refine hexists.trans ⟨fun h => ⟨h.2.2, h.1, h.2.1⟩, fun h => ⟨h.2.1, h.2.2, h.1⟩⟩
  · rintro b (rfl | rfl) <;> rfl

end Operation

end RegisterMachine
