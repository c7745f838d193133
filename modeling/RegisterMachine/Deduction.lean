import RegisterMachine.BindingTable
import RegisterMachine.Sample

set_option autoImplicit false

/-!
# Deducing what opcodes mean

Samples are looked at one after the other.  For every opcode seen, the operations that all its
samples match are its candidates.  As soon as an opcode has a single candidate left it is bound to
it, and the operation is struck from the candidates of all other opcodes; an opcode that is thereby
left with one candidate is bound in turn.

A bound opcode is never questioned again: its later samples are passed over.

The deduction fails when an opcode is left without candidates, or when after all samples some
opcode has several.
-/

namespace RegisterMachine

open Std (ExtTreeMap)

/-- What is known after some samples. -/
structure Deduction where
  /-- The candidates of the opcodes that were seen and are not bound. -/
  candidates : ExtTreeMap UInt8 OperationSet := ∅
  assigned : OperationSet := ∅
  table : BindingTable := ∅
  deriving DecidableEq, Inhabited

namespace Deduction

/-- The operations that are still free. -/
def unassigned (d : Deduction) : OperationSet := .all \ d.assigned

/-- Takes the evidence of one sample into account: only free operations that match it remain
candidates of its opcode. -/
def narrow (d : Deduction) (s : Sample) : Deduction :=
  let matching := s.consistentAmong d.unassigned
  let narrowed :=
    match d.candidates[s.opcode]? with
    | some current => current ∩ matching
    | none => matching
  { d with candidates := d.candidates.insert s.opcode narrowed }

/-- The opcodes to look at again once `op` is struck from all these candidates: those that lose a
candidate and keep at most one, by increasing opcode. -/
def affected (candidates : ExtTreeMap UInt8 OperationSet) (op : Operation) : List UInt8 :=
  (candidates.toList.filter fun entry =>
    decide (op ∈ entry.2 ∧ (entry.2.erase op).size ≤ 1)).map Prod.fst

/-- Binds an opcode to an operation and strikes the operation from the candidates of all others.
Answers the opcodes to look at again, too. -/
def bind (d : Deduction) (opcode : UInt8) (op : Operation) :
    Except Fault (Deduction × List UInt8) :=
  let others := d.candidates.erase opcode
  match d.table.insert opcode op with
  | .error f => .error f
  | .ok table =>
    .ok ({ candidates := others.map fun _ set => set.erase op
           assigned := d.assigned.insert op
           table },
      affected others op)

/-- Looks at the candidates of one opcode: fails if there are none, binds the opcode if there is
just one. -/
def visit (d : Deduction) (sample : Nat) (opcode : UInt8) :
    Except Fault (Deduction × List UInt8) :=
  match d.candidates[opcode]? with
  | none => .ok (d, [])
  | some set =>
    if set.isEmpty then .error (.noConsistentOperation opcode sample)
    else
      match set.single? with
      | none => .ok (d, [])
      | some op => d.bind opcode op

theorem length_affected_le (candidates : ExtTreeMap UInt8 OperationSet) (op : Operation) :
    (affected candidates op).length ≤ candidates.size := by
  rw [affected, List.length_map, ← ExtTreeMap.length_toList]
  exact List.length_filter_le _ _

theorem bind_eq_ok {d d' : Deduction} {opcode : UInt8} {op : Operation} {again : List UInt8}
    (h : d.bind opcode op = .ok (d', again)) :
    d'.candidates = (d.candidates.erase opcode).map (fun _ set => set.erase op) ∧
      d'.assigned = d.assigned.insert op ∧
      d.table.insert opcode op = .ok d'.table ∧
      again = affected (d.candidates.erase opcode) op := by
  rw [bind] at h
  split at h
  case h_1 => cases h
  case h_2 table hinsert =>
    cases h
    exact ⟨rfl, rfl, hinsert, rfl⟩

/-- A visit either changes nothing, or uses up one entry of the candidates and asks for no more
visits than there are entries left. -/
theorem visit_progress {d d' : Deduction} {sample : Nat} {opcode : UInt8} {again : List UInt8}
    (h : d.visit sample opcode = .ok (d', again)) :
    (d' = d ∧ again = []) ∨
      (d.candidates.size = d'.candidates.size + 1 ∧ again.length ≤ d'.candidates.size) := by
  rw [visit] at h
  split at h
  case h_1 =>
    cases h
    exact Or.inl ⟨rfl, rfl⟩
  case h_2 set hset =>
    split at h
    · cases h
    · split at h
      case h_1 =>
        cases h
        exact Or.inl ⟨rfl, rfl⟩
      case h_2 op hsingle =>
        obtain ⟨hcandidates, -, -, rfl⟩ := bind_eq_ok h
        have hpresent : d.candidates.contains opcode = true := by
          rw [ExtTreeMap.contains_eq_isSome_getElem?, hset, Option.isSome_some]
        have hpos : 0 < d.candidates.size := by
          rw [← ExtTreeMap.length_toList]
          exact List.length_pos_of_mem (ExtTreeMap.mem_toList_iff_getElem?_eq_some.mpr hset)
        have hsize : d'.candidates.size = d.candidates.size - 1 := by
          rw [hcandidates, ExtTreeMap.size_map, ExtTreeMap.size_erase, if_pos hpresent]
        refine Or.inr ⟨by omega, ?_⟩
        rw [hcandidates, ExtTreeMap.size_map]
        exact length_affected_le _ _

/-- Visits the pending opcodes, the first one first, and puts those that a binding affects in front
of the others, the greatest opcode first. -/
def settle (d : Deduction) (sample : Nat) (pending : List UInt8) : Except Fault Deduction :=
  match pending with
  | [] => .ok d
  | opcode :: rest =>
    match _h : d.visit sample opcode with
    | .error f => .error f
    | .ok (d', again) => d'.settle sample (again.reverse ++ rest)
termination_by d.candidates.size * d.candidates.size + pending.length
decreasing_by
  -- A visit that binds shrinks the square by more than the visits it asks for.
  rcases visit_progress _h with ⟨rfl, rfl⟩ | ⟨hsize, hlength⟩
  · exact Nat.add_lt_add_left (Nat.lt_succ_self rest.length) _
  · have hsquare : d.candidates.size * d.candidates.size =
        d'.candidates.size * d'.candidates.size + 2 * d'.candidates.size + 1 := by
      rw [hsize, Nat.add_mul, Nat.mul_add, Nat.one_mul, Nat.mul_one, Nat.two_mul]
      omega
    rw [hsquare, List.length_append, List.length_reverse, List.length_cons]
    omega

/-- Learns from one sample, the one with the given index.  A sample of a bound opcode is passed
over. -/
def observe (d : Deduction) (index : Nat) (s : Sample) : Except Fault Deduction :=
  if d.table.contains s.opcode then .ok d
  else (d.narrow s).settle index [s.opcode]

/-- What is known after the given samples. -/
def ofSamples (samples : List Sample) : Except Fault Deduction :=
  samples.zipIdx.foldlM (fun d entry => d.observe entry.2 entry.1) {}

/-- The bindings, if no opcode is open.  Otherwise the least open opcode is reported. -/
def finish (d : Deduction) : Except Fault BindingTable :=
  match d.candidates.toList with
  | (opcode, set) :: _ => .error (.ambiguousBinding opcode set.size)
  | [] => .ok d.table

end Deduction

/-- The bindings that follow from the samples: every opcode that occurs is bound, each to an
operation of its own. -/
def deduceBindings (samples : List Sample) : Except Fault BindingTable := do
  (← Deduction.ofSamples samples).finish

/-- What is logged about a deduction with the given outcome. -/
def deductionMessage (samples : List Sample) : Except Fault BindingTable → Log.Message
  | .ok table => ⟨.info, s!"bound {table.size} opcodes from {samples.length} samples"⟩
  | .error fault => ⟨.warn, s!"opcode solving failed: {fault}"⟩

end RegisterMachine
