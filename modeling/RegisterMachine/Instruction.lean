import RegisterMachine.Operation

set_option autoImplicit false

/-!
# Instructions and faults

An instruction is three operand words together with what is to be done with them.  A raw instruction
says so by an opcode, a byte whose meaning is not known in advance; an instruction proper by an
operation of the catalog.  Choosing an operation for the opcode of a raw instruction makes it an
instruction with the same operands.

Every way in which a request to the library can fail is a constructor of `Fault`, and carries what
the report of it says.  The wording of all reports is in `Fault.message`.

Operations are written by their mnemonics, and raw instructions as four words of which the first has
to be a byte.  What cannot be read is reported as a fault.
-/

namespace RegisterMachine

/-- The operand words of an instruction: two inputs and the number of the register that takes the
result. -/
structure Operands where
  a : UInt64
  b : UInt64
  c : UInt64
  deriving DecidableEq, Repr, Inhabited

instance : ToString Operands where
  toString o := s!"{o.a} {o.b} {o.c}"

/-- An operation with its operands. -/
structure Instruction where
  operation : Operation
  operands : Operands
  deriving DecidableEq, Repr, Inhabited

instance : ToString Instruction where
  toString i := s!"{i.operation} {i.operands}"

/-- An instruction whose operation is known only by an opcode. -/
structure RawInstruction where
  opcode : UInt8
  operands : Operands
  deriving DecidableEq, Repr, Inhabited

instance : ToString RawInstruction where
  toString i := s!"{i.opcode} {i.operands}"

/-- The instruction meant by a raw one, once its opcode is known to stand for `op`. -/
def RawInstruction.bind (i : RawInstruction) (op : Operation) : Instruction where
  operation := op
  operands := i.operands

/-- The raw form of an instruction under the opcode `opcode`. -/
def Instruction.encode (i : Instruction) (opcode : UInt8) : RawInstruction where
  opcode := opcode
  operands := i.operands

namespace RawInstruction

end RawInstruction

/-! ## Faults

The last two constructors are violations of what a caller promises: that the register operands of an
instruction that is executed, and the indices given to a register file, name registers of the
file. -/

/-- Why a request failed. -/
inductive Fault where
  /-- The evidence leaves an opcode no operation; found while looking at the sample with this
  index. -/
  | noConsistentOperation (opcode : UInt8) (sample : Nat)
  /-- After all evidence an opcode still has several candidates. -/
  | ambiguousBinding (opcode : UInt8) (candidates : Nat)
  /-- An opcode that is not a byte. -/
  | invalidOpcode (value : UInt64)
  /-- A program uses an opcode that is not bound to an operation. -/
  | unboundOpcode (opcode : UInt8) (index : Nat)
  /-- A machine is to use a register that its file does not have. -/
  | invalidRegisterIndex (index : Nat) (available : Nat)
  /-- A name that is no mnemonic. -/
  | invalidOperationName (name : String)
  /-- An operation that is already bound to the given opcode. -/
  | duplicateBinding (operation : Operation) (opcode : UInt8)
  /-- An opcode that is already bound. -/
  | opcodeAlreadyBound (opcode : UInt8)
  /-- An instruction was executed with a register operand outside a file of this width. -/
  | operandOutOfRange (instruction : Instruction) (width : Nat)
  /-- A register file of this width was read or written at an index outside it. -/
  | indexOutOfBounds (width : Nat) (index : Nat)
  deriving DecidableEq, Repr, Inhabited

/-- The report of a fault. -/
def Fault.message : Fault → String
  | noConsistentOperation opcode sample =>
    s!"opcode {opcode} has no consistent operation (sample {sample})"
  | ambiguousBinding opcode candidates =>
    s!"opcode {opcode} is ambiguous: {candidates} candidate operations remain"
  | invalidOpcode value => s!"opcode {value} does not fit in a byte"
  | unboundOpcode opcode index => s!"unbound opcode {opcode} at instruction {index}"
  | invalidRegisterIndex index available =>
    s!"register index {index} out of bounds ({available} registers)"
  | invalidOperationName name => s!"invalid operation name: {name}"
  | duplicateBinding operation opcode =>
    s!"operation {operation} is already bound to opcode {opcode}"
  | opcodeAlreadyBound opcode => s!"opcode {opcode} is already bound"
  | operandOutOfRange instruction width =>
    s!"{instruction}: register operand out of range for {width} registers"
  | indexOutOfBounds width index =>
    s!"index out of bounds: the len is {width} but the index is {index}"

instance : ToString Fault where
  toString := Fault.message

/-! ## Reading names and words -/

/-- The operation with the given mnemonic. -/
def Operation.ofMnemonic (name : String) : Except Fault Operation :=
  match ofMnemonic? name with
  | some op => .ok op
  | none => .error (.invalidOperationName name)

/-- The raw instruction written as an opcode and its operands. -/
def RawInstruction.ofWords (opcode : UInt64) (operands : Operands) :
    Except Fault RawInstruction :=
  if opcode.toNat < 256 then .ok { opcode := opcode.toUInt8, operands }
  else .error (.invalidOpcode opcode)

/-- The instruction written as a mnemonic and its operands. -/
def Instruction.ofMnemonic (name : String) (operands : Operands) : Except Fault Instruction := do
  let operation ← Operation.ofMnemonic name
  return { operation, operands }

end RegisterMachine
