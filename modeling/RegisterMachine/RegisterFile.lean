import RegisterMachine.Instruction

set_option autoImplicit false

/-!
# Register files

A register file is a fixed number of 64-bit words, addressed from zero.  It is a value: writing to
it gives another file.  Registers are reached in two ways.  `read?` and `write?` answer `none` where
there is no register; `get` and `set` are for callers who promise that there is one, and report the
broken promise.

An operation reads its two inputs from a register file, as its operand kinds say, and writes the
combined value to the register named by the third operand.  If an operand that names a register
names none of the file, nothing is done: `perform?` answers `none`, and `Instruction.execute`, whose
caller promises that this does not happen, reports the instruction.
-/

namespace RegisterMachine

/-- A file of `n` registers, with their contents in order. -/
@[ext] structure RegisterFile (n : Nat) where
  words : Vector UInt64 n
  deriving DecidableEq, Repr

variable {n : Nat}

namespace RegisterFile

/-- The file in which every register is zero. -/
def zero (n : Nat) : RegisterFile n := ⟨Vector.replicate n 0⟩

instance : Inhabited (RegisterFile n) := ⟨zero n⟩

/-- The number of registers. -/
def size (_ : RegisterFile n) : Nat := n

/-- Whether the file has no registers at all. -/
def isEmpty (r : RegisterFile n) : Bool := r.size == 0

/-- The contents, in order. -/
def toList (r : RegisterFile n) : List UInt64 := r.words.toList

/-- The content of a register that the file has. -/
def word (r : RegisterFile n) (i : Fin n) : UInt64 := r.words[i]

/-- The file with another content in a register that it has. -/
def put (r : RegisterFile n) (i : Fin n) (value : UInt64) : RegisterFile n :=
  ⟨r.words.set i value⟩

/-- The content of the register named by an operand. -/
def read? (r : RegisterFile n) (operand : UInt64) : Option UInt64 :=
  if h : operand.toNat < n then some (r.word ⟨operand.toNat, h⟩) else none

/-- The file with another content in the register named by an operand. -/
def write? (r : RegisterFile n) (operand value : UInt64) : Option (RegisterFile n) :=
  if h : operand.toNat < n then some (r.put ⟨operand.toNat, h⟩ value) else none

/-- The content of the register with the given index, which has to exist. -/
def get (r : RegisterFile n) (index : Nat) : Except Fault UInt64 :=
  if h : index < n then .ok (r.word ⟨index, h⟩) else .error (.indexOutOfBounds n index)

/-- The file with another content in the register with the given index, which has to exist. -/
def set (r : RegisterFile n) (index : Nat) (value : UInt64) : Except Fault (RegisterFile n) :=
  if h : index < n then .ok (r.put ⟨index, h⟩ value) else .error (.indexOutOfBounds n index)

/-- The contents between brackets, separated by commas. -/
def render (r : RegisterFile n) : String :=
  "[" ++ ", ".intercalate (r.toList.map toString) ++ "]"

instance : ToString (RegisterFile n) where
  toString := render

/-! ## Reading after writing -/

variable {r r' : RegisterFile n}

@[simp] theorem word_put_self (r : RegisterFile n) (i : Fin n) (v : UInt64) :
    (r.put i v).word i = v := by
  simp [word, put]

theorem word_put_of_ne {i j : Fin n} (v : UInt64) (h : i ≠ j) :
    (r.put i v).word j = r.word j := by
  have hne : i.val ≠ j.val := fun e => h (Fin.ext e)
  simp [word, put, hne]

theorem ext_word (h : ∀ i : Fin n, r.word i = r'.word i) : r = r' :=
  RegisterFile.ext (Vector.ext fun i hi => h ⟨i, hi⟩)

@[simp] theorem put_put (r : RegisterFile n) (i : Fin n) (v w : UInt64) :
    (r.put i v).put i w = r.put i w := by
  simp [put]

@[simp] theorem put_word (r : RegisterFile n) (i : Fin n) : r.put i (r.word i) = r := by
  simp [put, word]

theorem put_comm {i j : Fin n} (v w : UInt64) (h : i ≠ j) :
    (r.put i v).put j w = (r.put j w).put i v := by
  have hne : i.val ≠ j.val := fun e => h (Fin.ext e)
  simp [put, Vector.set_comm v w hne]

theorem read?_eq_some {operand : UInt64} (h : operand.toNat < n) :
    r.read? operand = some (r.word ⟨operand.toNat, h⟩) := by
  simp [read?, h]

theorem read?_eq_none_iff {operand : UInt64} : r.read? operand = none ↔ n ≤ operand.toNat := by
  simp [read?]

theorem write?_eq_some {operand value : UInt64} (h : operand.toNat < n) :
    r.write? operand value = some (r.put ⟨operand.toNat, h⟩ value) := by
  simp [write?, h]

theorem write?_eq_some_iff {operand value : UInt64} :
    r.write? operand value = some r' ↔
      ∃ h : operand.toNat < n, r.put ⟨operand.toNat, h⟩ value = r' := by
  simp [write?]

@[simp] theorem get_val (r : RegisterFile n) (i : Fin n) : r.get i.val = .ok (r.word i) := by
  simp [get]

@[simp] theorem set_val (r : RegisterFile n) (i : Fin n) (v : UInt64) :
    r.set i.val v = .ok (r.put i v) := by
  simp [set]

theorem read?_put_of_ne {operand : UInt64} {i : Fin n} (v : UInt64) (h : operand.toNat ≠ i.val) :
    (r.put i v).read? operand = r.read? operand := by
  by_cases hlt : operand.toNat < n
  · have hne : i ≠ ⟨operand.toNat, hlt⟩ := fun e => h (congrArg Fin.val e).symm
    rw [read?_eq_some hlt, read?_eq_some hlt, word_put_of_ne v hne]
  · simp [read?, hlt]

theorem write?_put_of_ne {operand : UInt64} {i : Fin n} (v w : UInt64)
    (h : operand.toNat ≠ i.val) :
    (r.put i v).write? operand w = (r.write? operand w).map fun after => after.put i v := by
  by_cases hlt : operand.toNat < n
  · have hne : i ≠ ⟨operand.toNat, hlt⟩ := fun e => h (congrArg Fin.val e).symm
    rw [write?_eq_some hlt, write?_eq_some hlt, Option.map_some, put_comm v w hne]
  · simp [write?, hlt]

end RegisterFile

/-! ## Executing one instruction -/

/-- The value an operand word stands for.  A word that is not looked at stands for zero. -/
def OperandKind.read? (kind : OperandKind) (r : RegisterFile n) (operand : UInt64) :
    Option UInt64 :=
  match kind with
  | .register => r.read? operand
  | .literal => some operand
  | .ignored => some 0

/-- The register file after an operation, or `none` if a register operand names no register. -/
def Operation.perform? (op : Operation) (operands : Operands) (r : RegisterFile n) :
    Option (RegisterFile n) := do
  let x ← op.kindA.read? r operands.a
  let y ← op.kindB.read? r operands.b
  r.write? operands.c (op.combine x y)

namespace Instruction

/-- The register file after an instruction, or `none` if a register operand names no register. -/
def perform? (i : Instruction) (r : RegisterFile n) : Option (RegisterFile n) :=
  i.operation.perform? i.operands r

/-- The register file after an instruction whose register operands have to name registers. -/
def execute (i : Instruction) (r : RegisterFile n) : Except Fault (RegisterFile n) :=
  match i.perform? r with
  | some after => .ok after
  | none => .error (.operandOutOfRange i n)

theorem execute_eq_ok_iff {i : Instruction} {r after : RegisterFile n} :
    i.execute r = .ok after ↔ i.perform? r = some after := by
  cases h : i.perform? r <;> simp [execute, h]

theorem execute_eq_error_iff {i : Instruction} {r : RegisterFile n} {f : Fault} :
    i.execute r = .error f ↔ i.perform? r = none ∧ f = .operandOutOfRange i n := by
  cases h : i.perform? r <;> simp [execute, h, eq_comm]

end Instruction

end RegisterMachine
