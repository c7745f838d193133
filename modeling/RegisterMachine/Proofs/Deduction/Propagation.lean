import Mathlib.Logic.Relation
import RegisterMachine.Proofs.BindingTable.Inclusion
import RegisterMachine.Proofs.Sample

set_option autoImplicit false

/-!
# Propagation of bindings

Propagation is the deduction without an order of visits: a table may be extended by any opcode that
occurs, is not bound, and has one operation left once the operations of the table are taken away
from its evidence.

Whatever order is chosen, all steps stay below every partial assignment that `Confines` them.  The
assignments that explain the samples are of this kind, and so is every saturated table that
propagation reaches.  Hence at most one saturated table can be reached, and where one can be
reached, no opcode is ever left without an operation.
-/

namespace RegisterMachine.Propagation

open Sample (evidence opcodes restrict Explains)

variable {samples xs ys : List Sample} {t t' u : BindingTable} {o : UInt8} {op : Operation}

/-- The operations that are left for an opcode: those that its samples match, without those that
the table binds. -/
def remaining (samples : List Sample) (t : BindingTable) (o : UInt8) : OperationSet :=
  evidence samples o \ t.range

@[simp] theorem mem_remaining :
    op ∈ remaining samples t o ↔ op ∈ evidence samples o ∧ op ∉ t.range :=
  OperationSet.mem_sdiff

theorem remaining_of_insert {o' : UInt8} (h : t.insert o op = .ok t') :
    remaining samples t' o' = (remaining samples t o').erase op := by
  ext p
  simp only [mem_remaining, OperationSet.mem_erase, BindingTable.range_of_insert h,
    OperationSet.mem_insert, not_or, and_assoc]

/-- One binding: an opcode that occurs and is not bound gets the only operation left for it. -/
inductive Step (samples : List Sample) (t t' : BindingTable) : Prop
  | bind {o : UInt8} {op : Operation}
      (occurs : o ∈ opcodes samples) (unbound : t.get? o = none)
      (forced : remaining samples t o = {op}) (insert : t.insert o op = .ok t')

/-- Any number of bindings. -/
abbrev Steps (samples : List Sample) : BindingTable → BindingTable → Prop :=
  Relation.ReflTransGen (Step samples)

/-- Nothing is forced and nothing impossible: every open opcode has several operations left. -/
def Saturated (samples : List Sample) (t : BindingTable) : Prop :=
  ∀ o ∈ opcodes samples, t.get? o = none → 2 ≤ (remaining samples t o).size

/-- Propagation from `t` can end in the saturated table `u`. -/
def Resolves (samples : List Sample) (t u : BindingTable) : Prop :=
  Steps samples t u ∧ Saturated samples u

/-- Propagation from `t` can leave an open opcode without an operation. -/
def Contradictory (samples : List Sample) (t : BindingTable) : Prop :=
  ∃ u o, Steps samples t u ∧ o ∈ opcodes samples ∧ u.get? o = none ∧ remaining samples u o = ∅

theorem Step.le (h : Step samples t t') : t ≤ t' := by
  cases h with
  | bind _ _ _ insert => exact BindingTable.le_of_insert insert

theorem Steps.le (h : Steps samples t t') : t ≤ t' := by
  induction h with
  | refl => exact le_refl t
  | tail _ step ih => exact le_trans ih step.le

/-- An operation that propagation gave to an opcode is in the evidence on it. -/
theorem Steps.mem_evidence (h : Steps samples t u) (ho : t.get? o = none)
    (hop : u.get? o = some op) : op ∈ evidence samples o := by
  induction h with
  | refl =>
    rw [ho] at hop
    exact absurd hop (by simp)
  | @tail v w _ step ih =>
    cases step with
    | @bind o' op' _ _ forced insert =>
      rw [BindingTable.get?_of_insert insert] at hop
      split at hop
      case isFalse => exact ih hop
      case isTrue heq =>
        subst heq
        cases hop
        have hmem : op ∈ remaining samples v o' := by
          rw [forced]
          exact OperationSet.mem_singleton.mpr rfl
        exact (mem_remaining.mp hmem).1

/-! ## Confinement -/

/-- A partial assignment that no propagation from `t` can leave: it extends `t`, is one-to-one,
gives open opcodes operations that their samples match, and leaves an opcode undefined only if two
operations that it does not use would fit. -/
structure Confines (samples : List Sample) (g : UInt8 → Option Operation) (t : BindingTable) :
    Prop where
  /-- The bindings of the table are kept. -/
  extends_table : ∀ o op, t.get? o = some op → g o = some op
  /-- No operation is used for two opcodes. -/
  injective : ∀ o o' op, g o = some op → g o' = some op → o = o'
  /-- What is given to an open opcode is in the evidence on it. -/
  possible : ∀ o op, t.get? o = none → g o = some op → op ∈ evidence samples o
  /-- A set that holds all unused operations in the evidence on an undefined opcode is not small. -/
  several : ∀ o ∈ opcodes samples, g o = none → ∀ ops : OperationSet,
    (∀ op ∈ evidence samples o, (∀ o', g o' ≠ some op) → op ∈ ops) → 2 ≤ ops.size

variable {g : UInt8 → Option Operation}

/-- What a confining assignment gives to an open opcode is left for it. -/
theorem Confines.mem_remaining (h : Confines samples g t) (ho : t.get? o = none)
    (hop : g o = some op) : op ∈ remaining samples t o := by
  rw [Propagation.mem_remaining, BindingTable.mem_range]
  refine ⟨h.possible o op ho hop, ?_⟩
  intro hex
  obtain ⟨o', ho'⟩ := hex
  have heq : o' = o := h.injective o' o op (h.extends_table o' op ho') hop
  rw [heq, ho] at ho'
  exact absurd ho' (by simp)

/-- An open opcode that a confining assignment leaves undefined has several operations left. -/
theorem Confines.two_le_size (h : Confines samples g t) (ho : o ∈ opcodes samples)
    (hnone : g o = none) : 2 ≤ (remaining samples t o).size := by
  apply h.several o ho hnone
  intro p hp hfree
  rw [Propagation.mem_remaining, BindingTable.mem_range]
  refine ⟨hp, ?_⟩
  intro hex
  obtain ⟨o', ho'⟩ := hex
  exact hfree o' (h.extends_table o' p ho')

theorem Confines.remaining_ne_empty (h : Confines samples g t) (ho : o ∈ opcodes samples)
    (hopen : t.get? o = none) : remaining samples t o ≠ ∅ := by
  intro hempty
  cases hg : g o with
  | none =>
    have hsize := h.two_le_size ho hg
    rw [hempty, OperationSet.size_empty] at hsize
    omega
  | some op =>
    have hmem := h.mem_remaining hopen hg
    rw [hempty] at hmem
    exact OperationSet.not_mem_empty op hmem

/-- The only operation left for an open opcode is the one that every confining assignment gives. -/
theorem Confines.eq_some_of_forced (h : Confines samples g t) (ho : o ∈ opcodes samples)
    (hopen : t.get? o = none) (hforced : remaining samples t o = {op}) : g o = some op := by
  cases hg : g o with
  | none =>
    -- Two operations would be left, but there is a single one.
    have hsize := h.two_le_size ho hg
    rw [hforced, OperationSet.size_singleton] at hsize
    omega
  | some p =>
    have hmem := h.mem_remaining hopen hg
    rw [hforced, OperationSet.mem_singleton] at hmem
    rw [hmem]

/-- A binding step stays inside every confining assignment. -/
theorem Confines.step (h : Confines samples g t) (hstep : Step samples t t') :
    Confines samples g t' := by
  cases hstep with
  | @bind o op occurs unbound forced insert =>
    refine ⟨?_, h.injective, ?_, h.several⟩
    · intro o' op' hop'
      rw [BindingTable.get?_of_insert insert] at hop'
      split at hop'
      case isTrue heq =>
        cases hop'
        rw [← heq]
        exact h.eq_some_of_forced occurs unbound forced
      case isFalse => exact h.extends_table o' op' hop'
    · intro o' op' ho' hop'
      refine h.possible o' op' ?_ hop'
      rw [BindingTable.get?_of_insert insert] at ho'
      split at ho'
      case isTrue => exact absurd ho' (by simp)
      case isFalse => exact ho'

/-- A whole propagation stays inside every confining assignment. -/
theorem Confines.steps (h : Confines samples g t) (hsteps : Steps samples t t') :
    Confines samples g t' := by
  induction hsteps with
  | refl => exact h
  | tail _ step ih => exact ih.step step

theorem Confines.not_contradictory (h : Confines samples g t) : ¬ Contradictory samples t := by
  intro hcontra
  obtain ⟨u, o, hsteps, ho, hopen, hempty⟩ := hcontra
  exact (h.steps hsteps).remaining_ne_empty ho hopen hempty

/-! ## The order of bindings does not matter -/

/-- A saturated table that propagation reaches confines all propagation from the same start. -/
theorem Resolves.confines (h : Resolves samples t u) : Confines samples u.get? t where
  extends_table := h.1.le
  injective _ _ _ := BindingTable.get?_injective
  possible _ _ := h.1.mem_evidence
  several o ho hopen ops hops := by
    refine le_trans (h.2 o ho hopen) (OperationSet.size_le_of_forall_mem ?_)
    intro p hp
    rw [mem_remaining, BindingTable.mem_range, not_exists] at hp
    exact hops p hp.1 hp.2

/-- From one table at most one saturated table can be reached. -/
theorem Resolves.unique (h : Resolves samples t t') (h' : Resolves samples t u) : t' = u :=
  le_antisymm (h'.confines.steps h.1).extends_table (h.confines.steps h'.1).extends_table

/-- Where a saturated table can be reached, no order of bindings meets a contradiction. -/
theorem Resolves.not_contradictory (h : Resolves samples t u) : ¬ Contradictory samples t :=
  h.confines.not_contradictory

/-! ## Assignments that explain the samples -/

/-- An assignment that explains the samples confines propagation from the empty table. -/
theorem confines_of_explains {f : UInt8 → Operation} (hf : Explains f samples) :
    Confines samples (restrict f samples) ∅ where
  extends_table o op hop := by
    rw [BindingTable.get?_empty] at hop
    exact absurd hop (by simp)
  injective o o' op ho ho' := by
    rw [Sample.restrict_eq_some_iff] at ho ho'
    exact hf.injective o ho.1 o' ho'.1 (ho.2.trans ho'.2.symm)
  possible o op _ hop := by
    rw [Sample.restrict_eq_some_iff] at hop
    rw [← hop.2]
    exact hf.mem_evidence o
  several o ho hnone := by
    rw [Sample.restrict_of_mem ho] at hnone
    exact absurd hnone (by simp)

/-- What propagation binds, an assignment that explains the samples binds to the same operation. -/
theorem Steps.eq_of_explains {f : UInt8 → Operation} (hf : Explains f samples)
    (h : Steps samples ∅ t) (ho : t.get? o = some op) : o ∈ opcodes samples ∧ f o = op :=
  Sample.restrict_eq_some_iff.mp (((confines_of_explains hf).steps h).extends_table o op ho)

/-- More samples take operations away from what is left for an opcode. -/
theorem mem_remaining_of_subset (hsub : xs ⊆ ys) (hop : op ∈ remaining ys t o) :
    op ∈ remaining xs t o := by
  rw [mem_remaining] at hop ⊢
  exact ⟨Sample.mem_evidence_of_subset hsub hop.1, hop.2⟩

/-- As long as some assignment explains everything, what is forced by some samples is forced by all:
the evidence on an opcode may shrink, but it keeps the operation of that assignment. -/
theorem Steps.of_subset {f : UInt8 → Operation} (hf : Explains f ys) (hsub : xs ⊆ ys)
    (h : Steps xs ∅ t) : Steps ys ∅ t := by
  have hxs : Confines xs (restrict f xs) ∅ := confines_of_explains (hf.mono hsub)
  have hys : Confines ys (restrict f ys) ∅ := confines_of_explains hf
  induction h with
  | refl => exact .refl
  | @tail v w hsteps step ih =>
    cases step with
    | @bind o op occurs unbound forced insert =>
      have hoccurs : o ∈ opcodes ys := Sample.opcodes_subset_of_subset hsub occurs
      have hop : f o = op := by
        have hg := (hxs.steps hsteps).eq_some_of_forced occurs unbound forced
        exact (Sample.restrict_eq_some_iff.mp hg).2
      have hkept : f o ∈ remaining ys v o :=
        (hys.steps ih).mem_remaining unbound (Sample.restrict_of_mem hoccurs)
      refine ih.tail (.bind hoccurs unbound ?_ insert)
      ext p
      rw [OperationSet.mem_singleton]
      constructor
      · intro hp
        have hmem := mem_remaining_of_subset hsub hp
        rw [forced] at hmem
        exact OperationSet.mem_singleton.mp hmem
      · rintro rfl
        rw [← hop]
        exact hkept

/-- A table that is saturated under some samples is saturated under fewer. -/
theorem Saturated.of_subset (hsub : xs ⊆ ys) (h : Saturated ys t) : Saturated xs t := by
  intro o ho hopen
  refine le_trans (h o (Sample.opcodes_subset_of_subset hsub ho) hopen) ?_
  apply OperationSet.size_le_of_forall_mem
  intro op hop
  exact mem_remaining_of_subset hsub hop

end RegisterMachine.Propagation
