set_option autoImplicit false

/-!
# Operations

The machine knows sixteen operations.  Each takes three operand words `a`, `b` and `c`, combines the
values that `a` and `b` stand for, and stores the result in register `c`.  This file holds the
catalog: every operation's number, mnemonic, operand kinds and the function it computes.  An
operation's number is its place in the catalog, and operations are ordered by it.

A set of operations is a 16-bit word with one bit for each operation, at the position of its number.
Every set operation is characterised by membership, and two sets with the same members are equal.
-/

namespace RegisterMachine

/-- How an operand word is turned into a value. -/
inductive OperandKind where
  /-- The word names a register, whose content is the value. -/
  | register
  /-- The word is itself the value. -/
  | literal
  /-- The word is not looked at. -/
  | ignored
  deriving DecidableEq, Repr, Inhabited

/-- The sixteen operations.  A trailing `r` or `i` tells for each input whether it is a register or
a literal ("immediate") word. -/
inductive Operation where
  /-- Sum of two registers. -/
  | addr
  /-- Sum of a register and a literal. -/
  | addi
  /-- Product of two registers. -/
  | mulr
  /-- Product of a register and a literal. -/
  | muli
  /-- Bitwise and of two registers. -/
  | banr
  /-- Bitwise and of a register and a literal. -/
  | bani
  /-- Bitwise or of two registers. -/
  | borr
  /-- Bitwise or of a register and a literal. -/
  | bori
  /-- Copy of a register. -/
  | setr
  /-- A literal. -/
  | seti
  /-- Whether a literal is greater than a register. -/
  | gtir
  /-- Whether a register is greater than a literal. -/
  | gtri
  /-- Whether a register is greater than another. -/
  | gtrr
  /-- Whether a literal equals a register. -/
  | eqir
  /-- Whether a register equals a literal. -/
  | eqri
  /-- Whether two registers are equal. -/
  | eqrr
  deriving DecidableEq, Repr, Inhabited

namespace Operation

/-- The whole catalog, in the order of the operations' numbers. -/
def all : List Operation :=
  [addr, addi, mulr, muli, banr, bani, borr, bori,
   setr, seti, gtir, gtri, gtrr, eqir, eqri, eqrr]

/-- The number of an operation: its place in the catalog. -/
def tag : Operation → Fin 16
  | addr => 0
  | addi => 1
  | mulr => 2
  | muli => 3
  | banr => 4
  | bani => 5
  | borr => 6
  | bori => 7
  | setr => 8
  | seti => 9
  | gtir => 10
  | gtri => 11
  | gtrr => 12
  | eqir => 13
  | eqri => 14
  | eqrr => 15

/-- The four-letter name of an operation. -/
def mnemonic : Operation → String
  | addr => "addr"
  | addi => "addi"
  | mulr => "mulr"
  | muli => "muli"
  | banr => "banr"
  | bani => "bani"
  | borr => "borr"
  | bori => "bori"
  | setr => "setr"
  | seti => "seti"
  | gtir => "gtir"
  | gtri => "gtri"
  | gtrr => "gtrr"
  | eqir => "eqir"
  | eqri => "eqri"
  | eqrr => "eqrr"

instance : ToString Operation where
  toString := mnemonic

/-- How operand `a` is read. -/
def kindA : Operation → OperandKind
  | seti | gtir | eqir => .literal
  | _ => .register

/-- How operand `b` is read. -/
def kindB : Operation → OperandKind
  | addi | muli | bani | bori | gtri | eqri => .literal
  | setr | seti => .ignored
  | _ => .register

/-- The value computed from the values of `a` and `b`.  Sums and products wrap modulo `2 ^ 64`, and
a comparison gives one or zero. -/
def combine : Operation → UInt64 → UInt64 → UInt64
  | addr, x, y | addi, x, y => x + y
  | mulr, x, y | muli, x, y => x * y
  | banr, x, y | bani, x, y => x &&& y
  | borr, x, y | bori, x, y => x ||| y
  | setr, x, _ | seti, x, _ => x
  | gtir, x, y | gtri, x, y | gtrr, x, y => (decide (y < x)).toUInt64
  | eqir, x, y | eqri, x, y | eqrr, x, y => (decide (x = y)).toUInt64

/-- The operation with the given mnemonic. -/
def ofMnemonic? (name : String) : Option Operation :=
  all.find? fun op => op.mnemonic == name

/-! ## The catalog is complete and its numbering faithful -/

@[simp] theorem mem_all (op : Operation) : op ∈ all := by
  cases op <;> decide

theorem nodup_all : all.Nodup := by decide

theorem getElem?_all_tag (op : Operation) : all[op.tag.val]? = some op := by
  cases op <;> rfl

theorem tag_injective {op op' : Operation} (h : op.tag = op'.tag) : op = op' := by
  have hplace := getElem?_all_tag op
  rw [h, getElem?_all_tag op'] at hplace
  exact (Option.some.inj hplace).symm

@[simp] theorem ofMnemonic?_mnemonic (op : Operation) : ofMnemonic? op.mnemonic = some op := by
  cases op <;> decide

theorem mnemonic_injective {op op' : Operation} (h : op.mnemonic = op'.mnemonic) : op = op' := by
  have hname := ofMnemonic?_mnemonic op
  rw [h, ofMnemonic?_mnemonic] at hname
  exact (Option.some.inj hname).symm

/-! ## Order by number -/

instance : Ord Operation where
  compare := compareOn tag

instance : Std.TransOrd Operation :=
  inferInstanceAs (Std.TransCmp (compareOn tag))

instance : Std.LawfulEqOrd Operation where
  eq_of_compare h := tag_injective (Std.LawfulEqOrd.eq_of_compare h)

end Operation

/-! ## Sets of operations -/

/-- A set of operations: bit `i` tells whether the operation numbered `i` is a member. -/
structure OperationSet where
  bits : BitVec 16
  deriving DecidableEq, Repr

namespace OperationSet

/-- The word whose only bit is that of `op`. -/
def bit (op : Operation) : BitVec 16 := BitVec.twoPow 16 op.tag

instance : Membership Operation OperationSet where
  mem s op := s.bits[op.tag.val] = true

instance (op : Operation) (s : OperationSet) : Decidable (op ∈ s) :=
  inferInstanceAs (Decidable (_ = true))

instance : EmptyCollection OperationSet where
  emptyCollection := ⟨0#16⟩

instance : Inhabited OperationSet := ⟨∅⟩

/-- The set of all operations. -/
def all : OperationSet := ⟨BitVec.allOnes 16⟩

/-- The set with `op` added. -/
def insert (s : OperationSet) (op : Operation) : OperationSet := ⟨s.bits ||| bit op⟩

/-- The set without `op`. -/
def erase (s : OperationSet) (op : Operation) : OperationSet := ⟨s.bits &&& ~~~ bit op⟩

/-- Whether `op` is a member, and the set with `op` added. -/
def containsThenInsert (s : OperationSet) (op : Operation) : Bool × OperationSet :=
  (decide (op ∈ s), s.insert op)

/-- Whether `op` is a member, and the set without `op`. -/
def containsThenErase (s : OperationSet) (op : Operation) : Bool × OperationSet :=
  (decide (op ∈ s), s.erase op)

instance : Inter OperationSet where
  inter s t := ⟨s.bits &&& t.bits⟩

instance : SDiff OperationSet where
  sdiff s t := ⟨s.bits &&& ~~~ t.bits⟩

/-- The members, in the order of their numbers. -/
def toList (s : OperationSet) : List Operation :=
  Operation.all.filter fun op => decide (op ∈ s)

/-- The set of the members of a list. -/
def ofList (ops : List Operation) : OperationSet := ops.foldl insert ∅

/-- The members that satisfy `p`. -/
def filter (s : OperationSet) (p : Operation → Bool) : OperationSet := ofList (s.toList.filter p)

/-- The number of members. -/
def size (s : OperationSet) : Nat := s.toList.length

/-- Whether there are no members. -/
def isEmpty (s : OperationSet) : Bool := s.bits == 0#16

/-- The only member of a set that has exactly one. -/
def single? (s : OperationSet) : Option Operation :=
  match s.toList with
  | [op] => some op
  | _ => none

/-- The members between braces, by their capitalised mnemonics. -/
def render (s : OperationSet) : String :=
  "\x7b" ++ ", ".intercalate (s.toList.map fun op => op.mnemonic.capitalize) ++ "\x7d"

instance : ToString OperationSet where
  toString := render

/-! ## Membership -/

variable {s t : OperationSet} {op op' : Operation}

theorem mem_iff : op ∈ s ↔ s.bits[op.tag.val] = true := Iff.rfl

/-- Sets with the same members are equal: every bit is the bit of some operation. -/
@[ext] theorem ext (h : ∀ op, op ∈ s ↔ op ∈ t) : s = t := by
  have hnumbered : ∀ i : Fin 16, ∃ op ∈ Operation.all, op.tag = i := by decide
  have hbits : s.bits = t.bits := by
    refine BitVec.eq_of_getElem_eq fun i hi => ?_
    obtain ⟨op, -, hop⟩ := hnumbered ⟨i, hi⟩
    have hmem := h op
    simp only [mem_iff, hop] at hmem
    exact Bool.eq_iff_iff.mpr hmem
  cases s
  exact congrArg mk hbits

@[simp] theorem not_mem_empty (op : Operation) : op ∉ (∅ : OperationSet) := by
  simp [mem_iff, EmptyCollection.emptyCollection]

@[simp] theorem mem_all (op : Operation) : op ∈ all := by
  simp only [mem_iff, all, BitVec.getElem_allOnes]

theorem getElem_bit : (bit op)[op'.tag.val] = decide (op' = op) := by
  have htag : op'.tag.val = op.tag.val ↔ op' = op :=
    ⟨fun h => Operation.tag_injective (Fin.ext h), fun h => by rw [h]⟩
  simp only [bit, BitVec.getElem_twoPow, htag]

@[simp] theorem mem_insert : op' ∈ s.insert op ↔ op' ∈ s ∨ op' = op := by
  simp [mem_iff, insert, getElem_bit]

@[simp] theorem mem_erase : op' ∈ s.erase op ↔ op' ∈ s ∧ op' ≠ op := by
  simp [mem_iff, erase, getElem_bit]

@[simp] theorem mem_inter : op ∈ s ∩ t ↔ op ∈ s ∧ op ∈ t := by
  simp [mem_iff, Inter.inter]

@[simp] theorem mem_sdiff : op ∈ s \ t ↔ op ∈ s ∧ op ∉ t := by
  simp [mem_iff, SDiff.sdiff]

/-! ## Members as a list -/

@[simp] theorem mem_toList : op ∈ s.toList ↔ op ∈ s := by
  simp [toList]

theorem nodup_toList (s : OperationSet) : s.toList.Nodup :=
  Operation.nodup_all.filter _

theorem mem_foldl_insert (ops : List Operation) (s : OperationSet) :
    op ∈ ops.foldl insert s ↔ op ∈ s ∨ op ∈ ops := by
  induction ops generalizing s with
  | nil => simp
  | cons x xs ih => simp [ih, or_assoc]

@[simp] theorem mem_ofList {ops : List Operation} : op ∈ ofList ops ↔ op ∈ ops := by
  simp [ofList, mem_foldl_insert]

@[simp] theorem mem_filter {p : Operation → Bool} : op ∈ s.filter p ↔ op ∈ s ∧ p op = true := by
  simp [filter]

@[simp] theorem ofList_toList (s : OperationSet) : ofList s.toList = s := by
  ext op
  simp

theorem isEmpty_iff : s.isEmpty = true ↔ s = ∅ := by
  cases s
  simp [isEmpty, EmptyCollection.emptyCollection]

theorem single?_eq_some_iff : s.single? = some op ↔ s.toList = [op] := by
  rw [single?]
  split
  case h_1 op' hlist => rw [hlist, Option.some.injEq, List.cons.injEq, and_iff_left rfl]
  case h_2 hnone =>
    constructor
    · rintro ⟨⟩
    · exact fun hlist => absurd hlist (hnone op)

end OperationSet

end RegisterMachine
