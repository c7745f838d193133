import Mathlib.Data.Finset.Basic
import Mathlib.Data.Finset.Card
import Mathlib.Data.Finset.Dedup
import RegisterMachine.Operation

set_option autoImplicit false

/-!
# Sets of operations as finite sets

A set of operations is read as a `Finset`, whose cardinality is its size.  The three shapes that a
set of candidates can have for the deduction (nothing left, one operation left, several left) are
characterised by membership here, so that no later proof looks at bits or at the list of members.

A set of operations is a word, and each way to make a new set works on the bits of the words at
hand.  A history tells how a set has come about, from the empty set, the whole catalog and lists of
operations.  It is read twice: as the word that comes out, and as a finite set in the mathematical
sense.  The two readings agree, so everything that is asked of the word, its bits and its list of
members is answered as it is for the finite set.
-/

namespace RegisterMachine.OperationSet

variable {s t : OperationSet} {op : Operation}

/-- The set with one member. -/
instance : Singleton Operation OperationSet where
  singleton op := (∅ : OperationSet).insert op

@[simp] theorem mem_singleton {p : Operation} : p ∈ ({op} : OperationSet) ↔ p = op := by
  show p ∈ (∅ : OperationSet).insert op ↔ p = op
  simp

/-- The members as a finite set. -/
def toFinset (s : OperationSet) : Finset Operation :=
  ⟨s.toList, Multiset.coe_nodup.mpr s.nodup_toList⟩

@[simp] theorem mem_toFinset : op ∈ s.toFinset ↔ op ∈ s := by
  rw [toFinset, Finset.mem_mk, Multiset.mem_coe, mem_toList]

@[simp] theorem card_toFinset (s : OperationSet) : s.toFinset.card = s.size := rfl

@[simp] theorem toFinset_inj : s.toFinset = t.toFinset ↔ s = t := by
  constructor
  · intro h
    ext op
    rw [← mem_toFinset, h, mem_toFinset]
  · rintro rfl
    rfl

@[simp] theorem toFinset_singleton (op : Operation) : ({op} : OperationSet).toFinset = {op} := by
  ext p
  simp

@[simp] theorem size_empty : (∅ : OperationSet).size = 0 := rfl

@[simp] theorem size_singleton (op : Operation) : ({op} : OperationSet).size = 1 := by
  rw [← card_toFinset, toFinset_singleton, Finset.card_singleton]

/-- A set is no larger than one that has all its members. -/
theorem size_le_of_forall_mem (h : ∀ op, op ∈ s → op ∈ t) : s.size ≤ t.size := by
  rw [← card_toFinset, ← card_toFinset]
  apply Finset.card_le_card
  intro op hop
  exact mem_toFinset.mpr (h op (mem_toFinset.mp hop))

@[simp] theorem size_all : all.size = 16 := by decide

/-- A list of different operations has as many members as its set. -/
theorem size_ofList {ops : List Operation} (h : ops.Nodup) : (ofList ops).size = ops.length := by
  have hsame : (ofList ops).toFinset = ops.toFinset := by
    ext op
    simp
  rw [← card_toFinset, hsame, List.toFinset_card_of_nodup h]

theorem size_eq_zero_iff : s.size = 0 ↔ s = ∅ := by
  rw [← card_toFinset, Finset.card_eq_zero, Finset.eq_empty_iff_forall_notMem]
  constructor
  · intro h
    ext op
    simpa using h op
  · rintro rfl op
    simp

theorem size_eq_one_iff : s.size = 1 ↔ ∃ op, s = {op} := by
  rw [← card_toFinset, Finset.card_eq_one]
  simp only [← toFinset_singleton, toFinset_inj]

/-- A member of a set with at most one member is all there is. -/
theorem eq_singleton_of_mem (hmem : op ∈ s) (hsize : s.size ≤ 1) : s = {op} := by
  have hne : s.size ≠ 0 := by
    intro hzero
    rw [size_eq_zero_iff.mp hzero] at hmem
    exact not_mem_empty op hmem
  obtain ⟨p, rfl⟩ := size_eq_one_iff.mp (show s.size = 1 by omega)
  rw [mem_singleton.mp hmem]

@[simp] theorem erase_empty (op : Operation) : (∅ : OperationSet).erase op = ∅ := by
  ext p
  simp

@[simp] theorem erase_singleton (op : Operation) : ({op} : OperationSet).erase op = ∅ := by
  ext p
  simp

theorem size_erase_le (s : OperationSet) (op : Operation) : (s.erase op).size ≤ s.size :=
  size_le_of_forall_mem fun _ hp => (mem_erase.mp hp).1

/-- The only member of a set exists exactly for the sets with one member. -/
theorem single?_eq_some_iff_eq : s.single? = some op ↔ s = {op} := by
  rw [single?_eq_some_iff]
  constructor
  · intro h
    ext p
    rw [← mem_toList, h, List.mem_singleton, mem_singleton]
  · rintro rfl
    obtain ⟨p, hp⟩ := List.length_eq_one_iff.mp (size_singleton op)
    have hmem : op ∈ ({op} : OperationSet).toList := by simp
    rw [hp, List.mem_singleton] at hmem
    rw [hp, hmem]

/-! ## Bits, counting and listing -/

/-- The set bits of a word, counted from the lowest one. -/
theorem cpopNatRec_eq_countP (x : BitVec 16) (k : Nat) :
    x.cpopNatRec k 0 = (List.range k).countP x.getLsbD := by
  induction k with
  | zero => rfl
  | succ k ih =>
    rw [BitVec.cpopNatRec_succ, BitVec.cpopNatRec_add, ih, List.range_succ, List.countP_append,
      List.countP_singleton]
    cases x.getLsbD k <;> rfl

/-- A set has as many members as there are bits set in its word. -/
theorem size_eq_cpop (s : OperationSet) : s.size = s.bits.cpop.toNat := by
  have hnumbers : List.range 16 = Operation.all.map fun op => op.tag.val := by decide
  have hbit (op : Operation) : decide (op ∈ s) = s.bits.getLsbD op.tag.val := by
    rw [BitVec.getLsbD_eq_getElem op.tag.isLt, Bool.eq_iff_iff, decide_eq_true_iff, mem_iff]
  rw [BitVec.toNat_cpop, cpopNatRec_eq_countP, hnumbers, List.countP_map, size, toList,
    ← List.countP_eq_length_filter]
  exact congrArg (List.countP · Operation.all) (funext hbit)

/-- Members are listed by their numbers. -/
theorem pairwise_toList (s : OperationSet) : s.toList.Pairwise fun a b => a.tag < b.tag := by
  have hall : Operation.all.Pairwise fun a b => a.tag < b.tag := by decide
  exact hall.filter _

/-! ## Histories -/

/-- How a set has come about. -/
inductive History where
  /-- It is empty. -/
  | empty
  /-- It is the whole catalog. -/
  | all
  /-- It was collected from a list, in which operations may be repeated. -/
  | collect (ops : List Operation)
  /-- An operation was added to a set. -/
  | insert (before : History) (op : Operation)
  /-- An operation was taken from a set. -/
  | erase (before : History) (op : Operation)
  /-- It holds what two sets have in common. -/
  | inter (left right : History)
  /-- It holds what is in one set and not in another. -/
  | sdiff (left right : History)

namespace History

/-- The set that comes out. -/
def set : History → OperationSet
  | empty => ∅
  | all => .all
  | collect ops => .ofList ops
  | insert h op => h.set.insert op
  | erase h op => h.set.erase op
  | inter h h' => h.set ∩ h'.set
  | sdiff h h' => h.set \ h'.set

/-- The operations that are in the set by its history. -/
def members : History → Finset Operation
  | empty => ∅
  | all => Operation.all.toFinset
  | collect ops => ops.toFinset
  | insert h op => Insert.insert op h.members
  | erase h op => h.members.erase op
  | inter h h' => h.members ∩ h'.members
  | sdiff h h' => h.members \ h'.members

variable {h : History}

theorem mem_set_iff (h : History) (op : Operation) : op ∈ h.set ↔ op ∈ h.members := by
  induction h with
  | empty => simp [set, members]
  | all => simp [set, members]
  | collect ops => simp [set, members]
  | insert h added ih => simp [set, members, ih, or_comm]
  | erase h struck ih => simp [set, members, ih, and_comm]
  | inter h h' ih ih' => simp [set, members, ih, ih']
  | sdiff h h' ih ih' => simp [set, members, ih, ih']

theorem toFinset_set (h : History) : h.set.toFinset = h.members := by
  ext op
  rw [mem_toFinset, mem_set_iff]

end History

open History

/-- Adding an operation changes the members unless it is one of them. -/
theorem members_insert_ne_iff {h : History} {op : Operation} :
    (h.insert op).members ≠ h.members ↔ op ∉ h.members := by
  rw [members, Ne, Finset.insert_eq_self]

/-- Taking an operation away changes the members if it is one of them. -/
theorem members_erase_ne_iff {h : History} {op : Operation} :
    (h.erase op).members ≠ h.members ↔ op ∈ h.members := by
  rw [members, Ne, Finset.erase_eq_self, not_not]

/-- **Sets of operations are finite sets, however they came about.**  Its members are those that its
history gives it.  An addition answers that the operation was not there exactly if it changes the
members, a removal that it was there exactly if it changes them.  The size is the number of members,
and that of the bits set.  The members are listed once each, by increasing number.  A set has a
single member exactly if it holds this one and nothing else.  Two sets are equal exactly if they
have the same members, and the set collected from the list of the members is the set itself. -/
theorem sets_refine_finsets (h : History) :
    (∀ op, op ∈ h.set ↔ op ∈ h.members) ∧
    (∀ op, ((h.set.containsThenInsert op).1 = false ↔ (h.insert op).members ≠ h.members) ∧
      (h.set.containsThenInsert op).2 = (h.insert op).set) ∧
    (∀ op, ((h.set.containsThenErase op).1 = true ↔ (h.erase op).members ≠ h.members) ∧
      (h.set.containsThenErase op).2 = (h.erase op).set) ∧
    (h.set.size = h.members.card ∧ h.set.bits.cpop.toNat = h.members.card) ∧
    (h.set.toList.Nodup ∧ (h.set.toList.Pairwise fun a b => a.tag < b.tag) ∧
      ∀ op, op ∈ h.set.toList ↔ op ∈ h.members) ∧
    (∀ op, h.set.single? = some op ↔ h.members = {op}) ∧
    (∀ h' : History, h.set = h'.set ↔ ∀ op, op ∈ h.members ↔ op ∈ h'.members) ∧
    ofList h.set.toList = h.set := by
  have hsize : h.set.size = h.members.card := by rw [← card_toFinset, toFinset_set]
  refine ⟨mem_set_iff h, fun op => ⟨?_, rfl⟩, fun op => ⟨?_, rfl⟩, ⟨hsize, ?_⟩,
    ⟨nodup_toList _, pairwise_toList _, fun op => ?_⟩, fun op => ?_, fun h' => ?_, ofList_toList _⟩
  · rw [members_insert_ne_iff, ← mem_set_iff, containsThenInsert, decide_eq_false_iff_not]
  · rw [members_erase_ne_iff, ← mem_set_iff, containsThenErase, decide_eq_true_iff]
  · rw [← size_eq_cpop, hsize]
  · rw [mem_toList, mem_set_iff]
  · rw [single?_eq_some_iff_eq, ← toFinset_inj, toFinset_set, toFinset_singleton]
  · rw [← toFinset_inj, toFinset_set, toFinset_set, Finset.ext_iff]

end RegisterMachine.OperationSet
