import RegisterMachine.RegisterFile

set_option autoImplicit false

/-!
# Samples

A sample is an observation of the machine at work: a raw instruction and the registers before and
after it.  It does not tell which operation the opcode stands for, but it rules out every operation
that would have left other registers.  How much a sample says on its own is the number of operations
that it matches.

Samples show files of four registers; the device that runs whole programs has six.
-/

namespace RegisterMachine

/-- The number of registers that samples show. -/
def sampleWidth : Nat := 4

/-- The number of registers of the device that runs programs. -/
def deviceWidth : Nat := 6

/-- A raw instruction with the registers before and after it. -/
structure Sample where
  before : RegisterFile sampleWidth
  instruction : RawInstruction
  after : RegisterFile sampleWidth
  deriving DecidableEq, Repr

namespace Sample

/-- The opcode of the instruction observed. -/
def opcode (s : Sample) : UInt8 := s.instruction.opcode

/-- A sample matches an operation that takes the registers before to exactly the registers after. -/
def Matches (s : Sample) (op : Operation) : Prop :=
  op.perform? s.instruction.operands s.before = some s.after

instance (s : Sample) (op : Operation) : Decidable (s.Matches op) :=
  inferInstanceAs (Decidable (_ = _))

/-- The operations of a set that the sample matches. -/
def consistentAmong (s : Sample) (candidates : OperationSet) : OperationSet :=
  candidates.filter fun op => decide (s.Matches op)

/-- All operations that the sample matches. -/
def consistentOperations (s : Sample) : OperationSet := s.consistentAmong .all

/-- The number of operations that the sample matches. -/
def candidateCount (s : Sample) : Nat := s.consistentOperations.size

/-- A sample that matches at least this many operations is called ambiguous, if no other bound is
asked for. -/
def defaultThreshold : Nat := 3

/-- The number of operations that each sample matches. -/
def candidateCounts (samples : List Sample) : List Nat := samples.map candidateCount

/-- The number of samples that match at least `threshold` operations. -/
def countAmbiguous (samples : List Sample) (threshold : Nat) : Nat :=
  samples.countP fun s => threshold ≤ s.candidateCount

@[simp] theorem mem_consistentAmong {s : Sample} {candidates : OperationSet} {op : Operation} :
    op ∈ s.consistentAmong candidates ↔ op ∈ candidates ∧ s.Matches op := by
  simp [consistentAmong]

@[simp] theorem mem_consistentOperations {s : Sample} {op : Operation} :
    op ∈ s.consistentOperations ↔ s.Matches op := by
  simp [consistentOperations]

end Sample

end RegisterMachine
