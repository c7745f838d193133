import RegisterMachine.Proofs.Instruction.Table
import RegisterMachine.Proofs.OperationSet
import RegisterMachine.Sample

set_option autoImplicit false

/-!
# What samples match, and what they say about opcodes

A sample matches an operation if the table gives for it the number that the target holds afterwards,
and nothing else has changed.  So a sample in which another register than the target has changed, or
whose target does not exist, matches no operation at all, and one that shows what an operation does
matches this operation.

Picking the matched operations of a set is picking from all matched operations those in the set, in
whatever way the set was put together.

The evidence that a list of samples holds on an opcode is the intersection of the operations that
its samples are consistent with.  An assignment explains the samples if it gives every opcode that
occurs an operation of its own and every sample matches the operation of its opcode.

Evidence depends only on which samples there are, and it shrinks when samples are added.
-/

namespace RegisterMachine.Sample

variable {s : Sample} {op : Operation} {C D : OperationSet}

/-- A sample matches the operations that yield what the target holds afterwards. -/
theorem matches_iff_yields :
    s.Matches op ↔
      ∃ v, op.Yields s.before s.instruction.operands.a s.instruction.operands.b v ∧
        s.after.Shows s.instruction.operands.c v ∧
        s.before.AgreesBeside s.after s.instruction.operands.c :=
  Operation.perform?_eq_some_iff_yields

/-! ## Matched operations of a set -/

theorem consistentAmong_eq_inter (s : Sample) (C : OperationSet) :
    s.consistentAmong C = C ∩ s.consistentOperations := by
  ext op
  rw [mem_consistentAmong, OperationSet.mem_inter, mem_consistentOperations]

theorem consistentAmong_inter (s : Sample) (C D : OperationSet) :
    s.consistentAmong (C ∩ D) = s.consistentAmong C ∩ s.consistentAmong D := by
  ext op
  simp only [mem_consistentAmong, OperationSet.mem_inter]
  constructor
  · rintro ⟨⟨hC, hD⟩, hmatches⟩
    exact ⟨⟨hC, hmatches⟩, hD, hmatches⟩
  · rintro ⟨⟨hC, hmatches⟩, hD, -⟩
    exact ⟨⟨hC, hD⟩, hmatches⟩

theorem consistentAmong_sdiff (s : Sample) (C D : OperationSet) :
    s.consistentAmong (C \ D) = s.consistentAmong C \ s.consistentAmong D := by
  ext op
  simp only [mem_consistentAmong, OperationSet.mem_sdiff]
  constructor
  · rintro ⟨⟨hC, hD⟩, hmatches⟩
    exact ⟨⟨hC, hmatches⟩, fun h => hD h.1⟩
  · rintro ⟨⟨hC, hmatches⟩, hD⟩
    exact ⟨⟨hC, fun h => hD ⟨h, hmatches⟩⟩, hmatches⟩

/-! ## Samples that match nothing -/

/-- Some register that the instruction does not write has changed, or there is no register to
write. -/
def Impossible (s : Sample) : Prop :=
  sampleWidth ≤ s.instruction.operands.c.toNat ∨
    ∃ j : Fin sampleWidth, j.val ≠ s.instruction.operands.c.toNat ∧
      s.before.word j ≠ s.after.word j

theorem Impossible.not_matches (h : s.Impossible) (op : Operation) : ¬ s.Matches op := by
  rw [matches_iff_yields]
  rintro ⟨v, -, ⟨htarget, -⟩, hagrees⟩
  rcases h with hout | ⟨j, hj, hchanged⟩
  · exact absurd htarget (Nat.not_lt_of_le hout)
  · exact hchanged (hagrees j hj).symm

theorem Impossible.consistentAmong_eq_empty (h : s.Impossible) (C : OperationSet) :
    s.consistentAmong C = ∅ := by
  ext op
  rw [mem_consistentAmong]
  constructor
  · rintro ⟨-, hmatches⟩
    exact absurd hmatches (h.not_matches op)
  · intro hempty
    exact absurd hempty (OperationSet.not_mem_empty op)

/-- **Matching is exact.**  Among some operations a sample matches those that take the registers
before to the registers after, and these are the ones for which the table says so.  It does not
matter whether operations are left out before or after the sample is consulted.  A sample with a
change beside its target, or without a target, matches nothing, and one that was made by an
operation matches it. -/
theorem matching_is_exact (s : Sample) (C D : OperationSet) :
    (∀ op, op ∈ s.consistentAmong C ↔
      op ∈ C ∧ op.perform? s.instruction.operands s.before = some s.after) ∧
    (∀ op, op ∈ s.consistentAmong C ↔
      op ∈ C ∧ ∃ v, op.Yields s.before s.instruction.operands.a s.instruction.operands.b v ∧
        s.after.Shows s.instruction.operands.c v ∧
        s.before.AgreesBeside s.after s.instruction.operands.c) ∧
    s.consistentAmong C = C ∩ s.consistentOperations ∧
    s.consistentAmong (C ∩ D) = s.consistentAmong C ∩ s.consistentAmong D ∧
    s.consistentAmong (C \ D) = s.consistentAmong C \ s.consistentAmong D ∧
    (s.Impossible → s.consistentAmong C = ∅) ∧
    ∀ (op : Operation) (i : RawInstruction) (before after : RegisterFile sampleWidth),
      op.perform? i.operands before = some after →
        op ∈ consistentOperations ⟨before, i, after⟩ ∧
          (op ∈ C → op ∈ consistentAmong ⟨before, i, after⟩ C) := by
  refine ⟨fun op => mem_consistentAmong, ?_, consistentAmong_eq_inter s C,
    consistentAmong_inter s C D, consistentAmong_sdiff s C D,
    fun h => h.consistentAmong_eq_empty C, ?_⟩
  · intro op
    rw [mem_consistentAmong, matches_iff_yields]
  · intro op i before after hperform
    exact ⟨mem_consistentOperations.mpr hperform,
      fun hC => mem_consistentAmong.mpr ⟨hC, hperform⟩⟩

/-! ## Evidence -/

variable {samples xs ys : List Sample} {o : UInt8}

/-- The opcodes that occur in the samples. -/
def opcodes (samples : List Sample) : List UInt8 := samples.map opcode

/-- The operations consistent with every sample of an opcode. -/
def evidence (samples : List Sample) (o : UInt8) : OperationSet :=
  (samples.filter fun s => s.opcode == o).foldl (fun ops s => ops ∩ s.consistentOperations) .all

theorem opcode_mem_opcodes {s : Sample} (h : s ∈ samples) : s.opcode ∈ opcodes samples :=
  List.mem_map_of_mem h

theorem mem_opcodes_iff : o ∈ opcodes samples ↔ ∃ s ∈ samples, s.opcode = o := List.mem_map

@[simp] theorem opcodes_nil : opcodes [] = [] := rfl

theorem mem_opcodes_append_singleton {s : Sample} :
    o ∈ opcodes (xs ++ [s]) ↔ o ∈ opcodes xs ∨ o = s.opcode := by
  simp [opcodes]

theorem opcodes_subset_of_subset (h : xs ⊆ ys) : opcodes xs ⊆ opcodes ys :=
  List.map_subset _ h

theorem mem_foldl_inter_consistentOperations (xs : List Sample) (ops : OperationSet) :
    op ∈ xs.foldl (fun ops s => ops ∩ s.consistentOperations) ops ↔
      op ∈ ops ∧ ∀ s ∈ xs, s.Matches op := by
  induction xs generalizing ops with
  | nil => simp
  | cons s xs ih => simp [ih, and_assoc]

/-- An operation is in the evidence on an opcode if all samples of the opcode match it. -/
theorem mem_evidence_iff :
    op ∈ evidence samples o ↔ ∀ s ∈ samples, s.opcode = o → s.Matches op := by
  rw [evidence, mem_foldl_inter_consistentOperations]
  simp

theorem mem_evidence_of_subset (h : xs ⊆ ys) (hop : op ∈ evidence ys o) : op ∈ evidence xs o := by
  rw [mem_evidence_iff] at hop ⊢
  intro s hs
  exact hop s (h hs)

/-- One more sample narrows the evidence on its opcode to the operations that it matches. -/
theorem mem_evidence_append_singleton {s : Sample} :
    op ∈ evidence (xs ++ [s]) o ↔ op ∈ evidence xs o ∧ (s.opcode = o → s.Matches op) := by
  simp only [mem_evidence_iff, List.mem_append, List.mem_singleton]
  constructor
  · intro h
    exact ⟨fun s' hs' => h s' (Or.inl hs'), h s (Or.inr rfl)⟩
  · rintro ⟨hxs, hs⟩ s' (hs' | rfl)
    · exact hxs s' hs'
    · exact hs

/-- Samples of other opcodes do not touch the evidence. -/
theorem evidence_append_singleton_of_ne {s : Sample} (h : s.opcode ≠ o) :
    evidence (xs ++ [s]) o = evidence xs o := by
  ext op
  simp [mem_evidence_append_singleton, h]

/-- About an opcode that does not occur nothing is known. -/
theorem evidence_eq_all_of_not_mem (h : o ∉ opcodes samples) : evidence samples o = .all := by
  ext op
  simp only [mem_evidence_iff, OperationSet.mem_all, iff_true]
  intro s hs hso
  exact absurd (hso ▸ opcode_mem_opcodes hs) h

/-! ## Assignments that explain the samples -/

/-- An assignment explains samples that it could have produced: no two opcodes that occur stand for
one operation, and every sample matches the operation of its opcode. -/
structure Explains (f : UInt8 → Operation) (samples : List Sample) : Prop where
  /-- Opcodes that occur have different operations. -/
  injective : ∀ o ∈ opcodes samples, ∀ o' ∈ opcodes samples, f o = f o' → o = o'
  /-- Every sample fits the operation of its opcode. -/
  fits : ∀ s ∈ samples, s.Matches (f s.opcode)

theorem explains_iff {f : UInt8 → Operation} :
    Explains f samples ↔
      (∀ s ∈ samples, ∀ s' ∈ samples, f s.opcode = f s'.opcode → s.opcode = s'.opcode) ∧
        ∀ s ∈ samples, s.Matches (f s.opcode) := by
  constructor
  · intro h
    exact ⟨fun s hs s' hs' => h.injective _ (opcode_mem_opcodes hs) _ (opcode_mem_opcodes hs'),
      h.fits⟩
  · intro h
    obtain ⟨hinjective, hfits⟩ := h
    refine ⟨?_, hfits⟩
    intro o ho o' ho'
    obtain ⟨s, hs, rfl⟩ := mem_opcodes_iff.mp ho
    obtain ⟨s', hs', rfl⟩ := mem_opcodes_iff.mp ho'
    exact hinjective s hs s' hs'

instance (f : UInt8 → Operation) (samples : List Sample) : Decidable (Explains f samples) :=
  decidable_of_iff _ explains_iff.symm

/-- An assignment as a partial function that is defined on the opcodes that occur. -/
def restrict (f : UInt8 → Operation) (samples : List Sample) (o : UInt8) : Option Operation :=
  if o ∈ opcodes samples then some (f o) else none

theorem restrict_eq_some_iff {f : UInt8 → Operation} :
    restrict f samples o = some op ↔ o ∈ opcodes samples ∧ f o = op := by
  simp [restrict]

theorem restrict_of_mem {f : UInt8 → Operation} (h : o ∈ opcodes samples) :
    restrict f samples o = some (f o) :=
  if_pos h

theorem Explains.mono {f : UInt8 → Operation} (hf : Explains f ys) (h : xs ⊆ ys) :
    Explains f xs where
  injective o ho o' ho' :=
    hf.injective o (opcodes_subset_of_subset h ho) o' (opcodes_subset_of_subset h ho')
  fits s hs := hf.fits s (h hs)

/-- The operation of an opcode is in the evidence on it. -/
theorem Explains.mem_evidence {f : UInt8 → Operation} (hf : Explains f samples) (o : UInt8) :
    f o ∈ evidence samples o := by
  rw [mem_evidence_iff]
  rintro s hs rfl
  exact hf.fits s hs

/-! ## Some lists of samples -/

/-- Three samples of three opcodes.  The first fits `addi`, `mulr` and `seti`, and can only be
decided once the other two, which fit one operation each, have taken `mulr` and `seti`. -/
def chained : List Sample :=
  [⟨⟨#v[3, 2, 1, 1]⟩, ⟨1, ⟨2, 1, 2⟩⟩, ⟨#v[3, 2, 2, 1]⟩⟩,
   ⟨⟨#v[0, 3, 3, 0]⟩, ⟨2, ⟨1, 2, 3⟩⟩, ⟨#v[0, 3, 3, 9]⟩⟩,
   ⟨⟨#v[0, 0, 0, 0]⟩, ⟨3, ⟨13, 0, 0⟩⟩, ⟨#v[13, 0, 0, 0]⟩⟩]

/-- What the opcodes of `chained` stand for. -/
def chainedMeaning (o : UInt8) : Operation :=
  if o = 1 then .addi else if o = 2 then .mulr else .seti

/-- The same samples after one of a fourth opcode that looks like the first: both are left with
`addi`, so that one of them must stay without an operation. -/
def contested : List Sample :=
  ⟨⟨#v[3, 2, 1, 1]⟩, ⟨0, ⟨2, 1, 2⟩⟩, ⟨#v[3, 2, 2, 1]⟩⟩ :: chained

/-- The three samples that need each other, and a last one that no operation matches, of an opcode
that is bound by then. -/
def doubted : List Sample :=
  chained ++ [⟨⟨#v[0, 0, 0, 0]⟩, ⟨2, ⟨0, 0, 0⟩⟩, ⟨#v[1, 1, 1, 1]⟩⟩]

/-- Seventeen samples of different opcodes. -/
def crowd : List Sample :=
  (List.range 17).map fun o => ⟨⟨#v[0, 0, 0, 0]⟩, ⟨o.toUInt8, ⟨0, 0, 0⟩⟩, ⟨#v[0, 0, 0, 0]⟩⟩

end RegisterMachine.Sample
