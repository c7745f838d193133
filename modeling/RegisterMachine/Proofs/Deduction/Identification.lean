import RegisterMachine.Proofs.Deduction.Ambiguity
import RegisterMachine.Proofs.Deduction.GroundTruth

set_option autoImplicit false

/-!
# Finding a binding table from its own samples

A probe is a register file with three operand words that all name registers of it, so that every
operation can be performed on it and the registers after it are a sample of the operation.

There are five probes that tell all operations apart: no two operations answer all five alike.  Put
to every opcode of a binding table, they give the samples from which the table can be found again.

Evidence pins an assignment down if each opcode that occurs is left with a single operation by its
own samples.  The deduction then answers the assignment: no opcode needs help from the elimination
of others, so nothing depends on which other opcodes there are.

The five probes pin every binding table down, complete or not, and samples that agree with the table
never take that away.  Hence every table is found from the probes in whatever order they come, and
with whatever other true samples among them.
-/

namespace RegisterMachine

/-! ## Probes -/

/-- Registers and operand words on which every operation can be performed. -/
structure Probe where
  before : RegisterFile sampleWidth
  operands : Operands
  /-- Each word names a register, whether the operation takes it for one or not. -/
  inRange : operands.a.toNat < sampleWidth ∧ operands.b.toNat < sampleWidth ∧
    operands.c.toNat < sampleWidth := by decide

namespace Probe

variable {p : Probe} {o : UInt8} {op op' : Operation}

theorem isSome_perform? (p : Probe) (op : Operation) :
    (op.perform? p.operands p.before).isSome = true := by
  have hrange : Instruction.InRange ⟨op, p.operands⟩ sampleWidth :=
    ⟨fun _ => p.inRange.1, fun _ => p.inRange.2.1, p.inRange.2.2⟩
  exact Option.isSome_iff_exists.mpr (Instruction.exists_perform?_iff.mpr hrange)

/-- The registers after an operation. -/
def after (p : Probe) (op : Operation) : RegisterFile sampleWidth :=
  (op.perform? p.operands p.before).get (p.isSome_perform? op)

theorem perform?_eq_some_after (p : Probe) (op : Operation) :
    op.perform? p.operands p.before = some (p.after op) :=
  (Option.some_get _).symm

/-- What is seen of an opcode that stands for the operation. -/
def sample (p : Probe) (o : UInt8) (op : Operation) : Sample where
  before := p.before
  instruction := { opcode := o, operands := p.operands }
  after := p.after op

@[simp] theorem opcode_sample : (p.sample o op).opcode = o := rfl

/-- A sample of one operation matches another if both answer the probe alike. -/
theorem matches_sample_iff : (p.sample o op).Matches op' ↔ p.after op' = p.after op := by
  show op'.perform? p.operands p.before = some (p.after op) ↔ _
  rw [perform?_eq_some_after, Option.some_inj]

/-- The five probes. -/
def all : List Probe :=
  [{ before := ⟨#v[3, 5, 6, 10]⟩, operands := ⟨1, 2, 3⟩ },
   { before := ⟨#v[3, 2, 9, 12]⟩, operands := ⟨2, 1, 0⟩ },
   { before := ⟨#v[2, 2, 7, 1]⟩, operands := ⟨0, 1, 2⟩ },
   { before := ⟨#v[6, 3, 0, 4]⟩, operands := ⟨3, 0, 1⟩ },
   { before := ⟨#v[5, 9, 8, 3]⟩, operands := ⟨3, 3, 2⟩ }]

theorem separates_catalog : ∀ op ∈ Operation.all, ∀ op' ∈ Operation.all,
    (∀ p ∈ all, op'.perform? p.operands p.before = op.perform? p.operands p.before) →
      op' = op := by
  decide +kernel

/-- Operations that answer all five probes alike are the same. -/
theorem eq_of_after_eq (h : ∀ p ∈ all, p.after op' = p.after op) : op' = op := by
  apply separates_catalog op (Operation.mem_all op) op' (Operation.mem_all op')
  intro p hp
  rw [perform?_eq_some_after, perform?_eq_some_after, h p hp]

end Probe

namespace BindingTable

variable {t : BindingTable} {s : Sample}

/-- What the five probes show of the opcodes of a table. -/
def probeSamples (t : BindingTable) : List Sample :=
  Probe.all.flatMap fun p => t.toList.map fun entry => p.sample entry.1 entry.2

theorem mem_probeSamples_iff :
    s ∈ t.probeSamples ↔
      ∃ p ∈ Probe.all, ∃ o op, t.get? o = some op ∧ p.sample o op = s := by
  simp only [probeSamples, List.mem_flatMap, List.mem_map, Prod.exists, mem_toList_iff]

end BindingTable

namespace Deduction

/-! ## Samples that pin an assignment down -/

open Sample (evidence opcodes restrict Explains)

variable {samples xs further : List Sample} {f : UInt8 → Operation} {t : BindingTable} {o : UInt8}
  {op : Operation}

/-- The samples of each opcode that occurs leave it no operation but its own. -/
def PinsDown (samples : List Sample) (f : UInt8 → Operation) : Prop :=
  ∀ o ∈ opcodes samples, ∀ op ∈ evidence samples o, op = f o

/-- Samples that pin down an assignment are not ambiguous. -/
theorem PinsDown.not_ambiguous (h : PinsDown samples f) (n : Nat) :
    deduceBindings samples ≠ .error (.ambiguousBinding o n) := by
  intro hreport
  obtain ⟨d, hd, hleast, -⟩ := deduceBindings_eq_ambiguousBinding_iff.mp hreport
  obtain ⟨-, hseveral⟩ := (between_of_ofSamples hd).candidates_of_open hleast.occurs hleast.unbound
  have hone : (evidence samples o \ d.assigned).size ≤ ({f o} : OperationSet).size := by
    apply OperationSet.size_le_of_forall_mem
    intro op hop
    rw [OperationSet.mem_singleton]
    exact h o hleast.occurs op (OperationSet.mem_sdiff.mp hop).1
  rw [OperationSet.size_singleton] at hone
  omega

/-- An explanation that the samples pin down is answered. -/
theorem PinsDown.exists_deduceBindings_eq_ok (h : PinsDown samples f) (hf : Explains f samples) :
    ∃ t, deduceBindings samples = .ok t ∧ ∀ o, t.get? o = restrict f samples o := by
  rcases deduceBindings_of_explains hf with hok | ⟨o, n, hambiguous⟩
  · exact hok
  · exact absurd hambiguous (h.not_ambiguous n)

/-! ## Samples of a table -/

/-- The samples of the probes fit the table that they are taken from. -/
theorem fits_of_mem_probeSamples {s : Sample} (h : s ∈ t.probeSamples) : t.Fits s := by
  obtain ⟨p, -, o, op, hop, rfl⟩ := BindingTable.mem_probeSamples_iff.mp h
  exact ⟨op, hop, Probe.matches_sample_iff.mpr rfl⟩

/-- The probes leave an opcode of the table its own operation only. -/
theorem eq_of_mem_evidence (hprobes : t.probeSamples ⊆ samples) (hbound : t.get? o = some op)
    {op' : Operation} (hop : op' ∈ evidence samples o) : op' = op := by
  apply Probe.eq_of_after_eq
  intro p hp
  have hsample : p.sample o op ∈ samples :=
    hprobes (BindingTable.mem_probeSamples_iff.mpr ⟨p, hp, o, op, hbound, rfl⟩)
  have hmatches : (p.sample o op).Matches op' :=
    Sample.mem_evidence_iff.mp hop _ hsample Probe.opcode_sample
  exact Probe.matches_sample_iff.mp hmatches

/-- Samples of a table that hold those of the probes pin the table down. -/
theorem pinsDown_meaning (hprobes : t.probeSamples ⊆ samples) (hfits : ∀ s ∈ samples, t.Fits s) :
    PinsDown samples t.meaning := by
  intro o ho op hop
  obtain ⟨s, hs, rfl⟩ := Sample.mem_opcodes_iff.mp ho
  obtain ⟨op', hbound, -⟩ := hfits s hs
  rw [BindingTable.meaning_of_get? hbound]
  exact eq_of_mem_evidence hprobes hbound hop

/-- On the opcodes that occur the meaning of the table is the table. -/
theorem restrict_meaning (hprobes : t.probeSamples ⊆ samples) (hfits : ∀ s ∈ samples, t.Fits s)
    (o : UInt8) : restrict t.meaning samples o = t.get? o := by
  cases hop : t.get? o with
  | some op =>
    obtain ⟨p, hp⟩ : ∃ p, p ∈ Probe.all := ⟨_, List.mem_cons_self⟩
    have hsample : p.sample o op ∈ samples :=
      hprobes (BindingTable.mem_probeSamples_iff.mpr ⟨p, hp, o, op, hop, rfl⟩)
    have hoccurs : o ∈ opcodes samples := Sample.opcode_mem_opcodes hsample
    rw [Sample.restrict_of_mem hoccurs, BindingTable.meaning_of_get? hop]
  | none =>
    rw [restrict, if_neg]
    intro hoccurs
    obtain ⟨s, hs, rfl⟩ := Sample.mem_opcodes_iff.mp hoccurs
    obtain ⟨op, hbound, -⟩ := hfits s hs
    rw [hop] at hbound
    cases hbound

/-- **Every table can be found.**  The deduction answers a binding table, complete or not, from the
samples that the five probes give of its opcodes, in any order, together with any other samples
that fit the table. -/
theorem deduceBindings_of_probes (hfits : ∀ s ∈ further, t.Fits s)
    (hmixed : xs.Perm (t.probeSamples ++ further)) : deduceBindings xs = .ok t := by
  have hprobes : t.probeSamples ⊆ xs := fun s hs =>
    hmixed.mem_iff.mpr (List.mem_append_left further hs)
  have hall : ∀ s ∈ xs, t.Fits s := by
    intro s hs
    rcases List.mem_append.mp (hmixed.mem_iff.mp hs) with hprobe | hother
    · exact fits_of_mem_probeSamples hprobe
    · exact hfits s hother
  obtain ⟨t', hok, hrestrict⟩ :=
    (pinsDown_meaning hprobes hall).exists_deduceBindings_eq_ok (explains_meaning hall)
  have hsame : t' = t := by
    ext1 o
    rw [hrestrict, restrict_meaning hprobes hall]
  rw [hok, hsame]

/-- A table of two opcodes is found from its probes in reverse and two samples before them, the
first of which three operations match. -/
theorem deduceBindings_of_probes_pair :
    ∃ t, BindingTable.ofList [(1, .addi), (2, .mulr)] = .ok t ∧
      (∀ s ∈ Sample.chained.take 2, t.Fits s) ∧
      (Sample.chained.take 2 ++ t.probeSamples.reverse).Perm
        (t.probeSamples ++ Sample.chained.take 2) ∧
      deduceBindings (Sample.chained.take 2 ++ t.probeSamples.reverse) = .ok t := by
  have hsome : (BindingTable.ofList [(1, .addi), (2, .mulr)]).toOption.isSome = true := by
    decide +kernel
  cases ht : BindingTable.ofList [(1, .addi), (2, .mulr)] with
  | error fault =>
    rw [ht] at hsome
    exact absurd hsome Bool.false_ne_true
  | ok t =>
    have hget : (BindingTable.ofList [(1, .addi), (2, .mulr)]).toOption.map
        (fun t => [t.get? 1, t.get? 2]) = some [some .addi, some .mulr] := by
      decide +kernel
    rw [ht] at hget
    obtain ⟨haddi, hmulr⟩ : t.get? 1 = some .addi ∧ t.get? 2 = some .mulr := by
      simpa using Option.some.inj hget
    have hfits : ∀ s ∈ Sample.chained.take 2, t.Fits s := by
      have hknown : ∀ s ∈ Sample.chained.take 2,
          (s.opcode = 1 ∧ s.Matches .addi) ∨ (s.opcode = 2 ∧ s.Matches .mulr) := by
        decide +kernel
      intro s hs
      rcases hknown s hs with ⟨ho, hmatches⟩ | ⟨ho, hmatches⟩
      · exact ⟨.addi, by rw [ho, haddi], hmatches⟩
      · exact ⟨.mulr, by rw [ho, hmulr], hmatches⟩
    have hmixed : (Sample.chained.take 2 ++ t.probeSamples.reverse).Perm
        (t.probeSamples ++ Sample.chained.take 2) :=
      List.perm_append_comm.trans ((List.reverse_perm _).append_right _)
    exact ⟨t, rfl, hfits, hmixed, deduceBindings_of_probes hfits hmixed⟩

end Deduction

end RegisterMachine
