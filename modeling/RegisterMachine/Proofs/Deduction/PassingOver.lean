import RegisterMachine.Proofs.Deduction.History

set_option autoImplicit false

/-!
# Samples that are passed over

A sample of an opcode that is bound by then is passed over, whatever it shows.  So a deduction comes
to the same with or without it, only that the samples after it are counted differently: the sample
that a contradiction names is one later.

What is observed at a sample depends on its index only through the fault that names it.  This is
carried from one visit to the settling loop, to an observation and to the whole deduction.
-/

namespace RegisterMachine

/-- The fault with the sample that it names counted differently. -/
def Fault.renumber (σ : Nat → Nat) : Fault → Fault
  | noConsistentOperation opcode sample => noConsistentOperation opcode (σ sample)
  | fault => fault

/-- The index of a sample once another one is put in at a position: those from there on come one
later. -/
def shiftFrom (position index : Nat) : Nat := if position ≤ index then index + 1 else index

theorem shiftFrom_of_le {position index : Nat} (h : position ≤ index) :
    shiftFrom position index = index + 1 :=
  if_pos h

/-- A binding that is refused is refused for reasons that have nothing to do with samples. -/
theorem BindingTable.renumber_of_insert_eq_error {t : BindingTable} {opcode : UInt8}
    {op : Operation} {fault : Fault} (h : t.insert opcode op = .error fault) (σ : Nat → Nat) :
    fault.renumber σ = fault := by
  rw [insert] at h
  split at h
  · cases h
    rfl
  · cases h
    rfl
  · cases h

namespace Deduction

open Sample (opcodes chained contested doubted)

variable {d : Deduction} {s : Sample} {xs : List Sample}

/-! ## Counting samples differently -/

theorem bind_mapError_renumber (d : Deduction) (o : UInt8) (op : Operation) (σ : Nat → Nat) :
    (d.bind o op).mapError (Fault.renumber σ) = d.bind o op := by
  unfold bind
  split
  case h_1 fault hinsert =>
    exact congrArg Except.error (BindingTable.renumber_of_insert_eq_error hinsert σ)
  case h_2 => rfl

/-- A visit uses the index of the sample only for the fault. -/
theorem visit_renumber (d : Deduction) (σ : Nat → Nat) (i : Nat) (o : UInt8) :
    d.visit (σ i) o = (d.visit i o).mapError (Fault.renumber σ) := by
  unfold visit
  split
  case h_1 => rfl
  case h_2 set =>
    split
    case isTrue => rfl
    case isFalse =>
      split
      case h_1 => rfl
      case h_2 op _ => exact (bind_mapError_renumber d o op σ).symm

theorem settle_renumber (d : Deduction) (σ : Nat → Nat) (i : Nat) (pending : List UInt8) :
    d.settle (σ i) pending = (d.settle i pending).mapError (Fault.renumber σ) := by
  fun_induction Deduction.settle d i pending with
  | case1 d =>
    rw [settle]
    rfl
  | case2 d o rest fault hvisit =>
    have hvisit' : d.visit (σ i) o = .error (fault.renumber σ) := by
      rw [visit_renumber, hvisit]
      rfl
    rw [settle_cons_of_visit_eq_error hvisit']
    rfl
  | case3 d o rest d' again hvisit ih =>
    have hvisit' : d.visit (σ i) o = .ok (d', again) := by
      rw [visit_renumber, hvisit]
      rfl
    rw [settle_cons_of_visit_eq_ok hvisit', ih]

theorem observe_renumber (d : Deduction) (σ : Nat → Nat) (i : Nat) (s : Sample) :
    d.observe (σ i) s = (d.observe i s).mapError (Fault.renumber σ) := by
  unfold observe
  split
  case isTrue => rfl
  case isFalse => exact settle_renumber (d.narrow s) σ i [s.opcode]

theorem finish_mapError_renumber (d : Deduction) (σ : Nat → Nat) :
    d.finish.mapError (Fault.renumber σ) = d.finish := by
  unfold finish
  split
  case h_1 => rfl
  case h_2 => rfl

/-! ## One sample more -/

/-- With a sample that is passed over, the deduction goes on as without it. -/
theorem ofSamples_append_cons_of_bound (hd : ofSamples xs = .ok d)
    (hbound : d.table.get? s.opcode ≠ none) (ys : List Sample) :
    ofSamples (xs ++ s :: ys) =
      (ofSamples (xs ++ ys)).mapError (Fault.renumber (shiftFrom xs.length)) := by
  induction ys using List.reverseRecOn with
  | nil =>
    rw [ofSamples_append_singleton, List.append_nil, hd]
    exact observe_of_bound hbound
  | append_singleton ys y ih =>
    have hindex : (xs ++ s :: ys).length = shiftFrom xs.length (xs ++ ys).length := by
      rw [shiftFrom_of_le (by simp), List.length_append, List.length_cons, List.length_append]
      rfl
    rw [← List.cons_append, ← List.append_assoc, ofSamples_append_singleton, ih, hindex,
      ← List.append_assoc, ofSamples_append_singleton]
    cases ofSamples (xs ++ ys) with
    | error fault => rfl
    | ok e => exact observe_renumber e (shiftFrom xs.length) (xs ++ ys).length y

theorem deduceBindings_append_cons_of_bound (hd : ofSamples xs = .ok d)
    (hbound : d.table.get? s.opcode ≠ none) (ys : List Sample) :
    deduceBindings (xs ++ s :: ys) =
      (deduceBindings (xs ++ ys)).mapError (Fault.renumber (shiftFrom xs.length)) := by
  have hlong := ofSamples_append_cons_of_bound hd hbound ys
  cases hshort : ofSamples (xs ++ ys) with
  | error fault =>
    rw [hshort] at hlong
    rw [deduceBindings_of_ofSamples_eq_error hshort, deduceBindings_of_ofSamples_eq_error hlong]
    rfl
  | ok e =>
    rw [hshort] at hlong
    rw [deduceBindings_of_ofSamples_eq_ok hshort, deduceBindings_of_ofSamples_eq_ok hlong,
      finish_mapError_renumber]

/-- **A sample of a bound opcode is passed over.**  If the samples before it go through and bind its
opcode, then with and without it the deduction has the same outcome, whatever samples follow; only
the index of the sample that a contradiction names is one greater from there on.  So any other
sample of the opcode could stand in its place, one that no operation matches as well. -/
theorem outcome_without_bound_sample (hd : ofSamples xs = .ok d)
    (hbound : d.table.get? s.opcode ≠ none) (ys : List Sample) :
    deduceBindings (xs ++ [s] ++ ys) =
        (deduceBindings (xs ++ ys)).mapError (Fault.renumber (shiftFrom xs.length)) ∧
      ∀ s' : Sample, s'.opcode = s.opcode →
        deduceBindings (xs ++ [s'] ++ ys) = deduceBindings (xs ++ [s] ++ ys) := by
  simp only [List.append_assoc, List.singleton_append]
  refine ⟨deduceBindings_append_cons_of_bound hd hbound ys, ?_⟩
  intro s' hsame
  have hbound' : d.table.get? s'.opcode ≠ none := by rwa [hsame]
  rw [deduceBindings_append_cons_of_bound hd hbound' ys,
    deduceBindings_append_cons_of_bound hd hbound ys]

/-- After the three samples that bind their opcodes come one that no operation matches and one of an
opcode for which no operation is left.  The contradiction is put down to the last of them, whatever
stands in the place of the one before. -/
theorem outcome_without_bound_sample_chained :
    ∃ d, ofSamples chained = .ok d ∧ ∃ s ∈ doubted[3]?,
      d.table.get? s.opcode ≠ none ∧ s.consistentOperations = ∅ ∧
      deduceBindings (chained ++ contested.take 1) = .error (.noConsistentOperation 0 3) ∧
      ∀ s' : Sample, s'.opcode = s.opcode →
        deduceBindings (chained ++ [s'] ++ contested.take 1) =
          .error (.noConsistentOperation 0 4) := by
  obtain ⟨t, ht⟩ : ∃ t, deduceBindings chained = .ok t :=
    exists_deduceBindings_eq_ok_of_isSome (by decide +kernel)
  obtain ⟨d, hd, rfl, hbound⟩ := exists_of_deduceBindings_eq_ok ht
  have hshort : deduceBindings (chained ++ contested.take 1) =
      .error (.noConsistentOperation 0 3) := by
    decide +kernel
  obtain ⟨s, hs, hunmatched, hknown⟩ :
      ∃ s ∈ doubted[3]?, s.consistentOperations = ∅ ∧ s.opcode ∈ opcodes chained :=
    ⟨_, rfl, by decide, by decide⟩
  refine ⟨d, hd, s, hs, hbound s.opcode hknown, hunmatched, hshort, ?_⟩
  intro s' hsame
  obtain ⟨hlonger, hany⟩ :=
    outcome_without_bound_sample hd (hbound s.opcode hknown) (contested.take 1)
  rw [hany s' hsame, hlonger, hshort]
  rfl

end Deduction

end RegisterMachine
