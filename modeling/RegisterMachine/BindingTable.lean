import Std.Data.ExtTreeMap
import RegisterMachine.Log.Console
import RegisterMachine.RegisterFile

set_option autoImplicit false

/-!
# Binding tables

A binding table says which operation each bound opcode stands for.  No operation is bound to two
opcodes, so the table can be read both ways; it keeps one map for each direction, and that the two
are inverse to each other is part of the type.  Tables grow by `insert`, which refuses an opcode
that is bound already and, after that, an operation that is.

A raw program is run by executing its instructions from the first to the last, each opcode standing
for the operation that a binding table gives it.  The run stops at the first opcode that is not
bound.
-/

namespace RegisterMachine

open Std (ExtTreeMap)

variable {n : Nat}

/-- A one-to-one assignment of operations to some opcodes, by the operation of each bound opcode and
the opcode of each bound operation. -/
structure BindingTable where
  operations : ExtTreeMap UInt8 Operation
  opcodes : ExtTreeMap Operation UInt8
  /-- The two maps hold the same pairs. -/
  inverse : ∀ (opcode : UInt8) (op : Operation),
    operations[opcode]? = some op ↔ opcodes[op]? = some opcode
  deriving DecidableEq

namespace BindingTable

instance : EmptyCollection BindingTable where
  emptyCollection :=
    { operations := ∅
      opcodes := ∅
      inverse := by simp }

instance : Inhabited BindingTable := ⟨∅⟩

/-- The operation bound to an opcode. -/
def get? (t : BindingTable) (opcode : UInt8) : Option Operation := t.operations[opcode]?

/-- The opcode that an operation is bound to. -/
def opcodeOf? (t : BindingTable) (op : Operation) : Option UInt8 := t.opcodes[op]?

/-- Whether an opcode is bound. -/
def contains (t : BindingTable) (opcode : UInt8) : Bool := t.operations.contains opcode

/-- The number of bound opcodes. -/
def size (t : BindingTable) : Nat := t.operations.size

/-- Whether nothing is bound. -/
def isEmpty (t : BindingTable) : Bool := t.operations.isEmpty

/-- A table is complete when it binds as many opcodes as there are operations. -/
def IsComplete (t : BindingTable) : Prop := t.size = Operation.all.length

instance (t : BindingTable) : Decidable t.IsComplete :=
  inferInstanceAs (Decidable (_ = _))

/-- The bindings, by increasing opcode. -/
def toList (t : BindingTable) : List (UInt8 × Operation) := t.operations.toList

theorem get?_eq_some_iff {t : BindingTable} {opcode : UInt8} {op : Operation} :
    t.get? opcode = some op ↔ t.opcodeOf? op = some opcode :=
  t.inverse opcode op

/-- The table with one more binding; refused if the opcode is bound, or else if the operation is. -/
def insert (t : BindingTable) (opcode : UInt8) (op : Operation) : Except Fault BindingTable :=
  match ho : t.get? opcode, hp : t.opcodeOf? op with
  | some _, _ => .error (.opcodeAlreadyBound opcode)
  | none, some other => .error (.duplicateBinding op other)
  | none, none =>
    .ok {
      operations := t.operations.insert opcode op
      opcodes := t.opcodes.insert op opcode
      inverse := by
        intro o p
        have hinverse := t.inverse o p
        have habsent : t.operations[opcode]? = none := ho
        have hfree : t.opcodes[op]? = none := hp
        -- Away from the new pair both maps are as before; at it, neither held anything.
        by_cases hop : opcode = o <;> by_cases hpp : op = p <;>
          simp_all [ExtTreeMap.getElem?_insert] }

/-- The table of the given bindings, inserted in order. -/
def ofList (pairs : List (UInt8 × Operation)) : Except Fault BindingTable :=
  pairs.foldlM (fun t pair => t.insert pair.1 pair.2) ∅

/-- One line for each binding, by increasing opcode; opcodes are aligned at the right. -/
def render (t : BindingTable) : String :=
  String.join <| t.toList.map fun (opcode, op) =>
    Alignment.right.pad 3 ' ' (toString opcode) ++ s!" => {op}\n"

instance : ToString BindingTable where
  toString := render

/-! ## Tables as look-up functions -/

/-- Tables that bind the same opcodes to the same operations are equal. -/
@[ext] theorem ext {t t' : BindingTable} (h : ∀ opcode, t.get? opcode = t'.get? opcode) :
    t = t' := by
  have hoperations : t.operations = t'.operations := ExtTreeMap.ext_getElem? h
  have hopcodes : t.opcodes = t'.opcodes := by
    refine ExtTreeMap.ext_getElem? fun op => Option.ext fun opcode => ?_
    rw [← t.inverse, ← t'.inverse, hoperations]
  cases t
  cases t'
  cases hoperations
  cases hopcodes
  rfl

@[simp] theorem get?_empty (opcode : UInt8) : (∅ : BindingTable).get? opcode = none := by
  show (∅ : ExtTreeMap UInt8 Operation)[opcode]? = none
  simp

theorem contains_eq_isSome (t : BindingTable) (opcode : UInt8) :
    t.contains opcode = (t.get? opcode).isSome := by
  simp [contains, get?]

theorem mem_toList_iff {t : BindingTable} {opcode : UInt8} {op : Operation} :
    (opcode, op) ∈ t.toList ↔ t.get? opcode = some op :=
  ExtTreeMap.mem_toList_iff_getElem?_eq_some

/-- Insertion succeeds exactly where neither side is bound, and then adds exactly the new
binding. -/
theorem insert_eq_ok_iff {t t' : BindingTable} {opcode : UInt8} {op : Operation} :
    t.insert opcode op = .ok t' ↔
      t.get? opcode = none ∧ t.opcodeOf? op = none ∧
        ∀ o, t'.get? o = if opcode = o then some op else t.get? o := by
  rw [insert]
  split
  case h_1 h => simp [h]
  case h_2 h₁ h₂ => simp [h₁, h₂]
  case h_3 h₁ h₂ =>
    have hget : ∀ o, (t.operations.insert opcode op)[o]? =
        if opcode = o then some op else t.get? o := by
      intro o
      simp [ExtTreeMap.getElem?_insert, get?]
    constructor
    · rintro ⟨⟩
      exact ⟨h₁, h₂, hget⟩
    · rintro ⟨-, -, h⟩
      exact congrArg Except.ok (BindingTable.ext fun o => (hget o).trans (h o).symm)

theorem insert_eq_opcodeAlreadyBound {t : BindingTable} {opcode : UInt8} {op bound : Operation}
    (h : t.get? opcode = some bound) :
    t.insert opcode op = .error (.opcodeAlreadyBound opcode) := by
  rw [insert]
  split
  case h_1 => rfl
  case h_2 hnone _ | h_3 hnone _ =>
    rw [h] at hnone
    cases hnone

theorem insert_eq_duplicateBinding {t : BindingTable} {opcode other : UInt8} {op : Operation}
    (h : t.get? opcode = none) (h' : t.opcodeOf? op = some other) :
    t.insert opcode op = .error (.duplicateBinding op other) := by
  rw [insert]
  split
  case h_1 hbound =>
    rw [h] at hbound
    cases hbound
  case h_2 hother =>
    rw [h'] at hother
    cases hother
    rfl
  case h_3 hfree =>
    rw [h'] at hfree
    cases hfree

/-! ## Plain runs -/

/-- Executes the instruction at position `index` of a program. -/
def execute (t : BindingTable) (index : Nat) (i : RawInstruction) (r : RegisterFile n) :
    Except Fault (RegisterFile n) :=
  match t.get? i.opcode with
  | none => .error (.unboundOpcode i.opcode index)
  | some op => (i.bind op).execute r

/-- The registers after a raw program. -/
def run (t : BindingTable) (program : List RawInstruction) (initial : RegisterFile n) :
    Except Fault (RegisterFile n) :=
  program.zipIdx.foldlM (fun r entry => t.execute entry.2 entry.1 r) initial

end BindingTable

/-- What is logged about a plain run with the given outcome: only that it was given up. -/
def plainRunMessages : Except Fault (RegisterFile n) → List Log.Message
  | .error (.unboundOpcode opcode index) =>
    [⟨.error, s!"plain run aborted: {Fault.unboundOpcode opcode index}"⟩]
  | _ => []

end RegisterMachine
