import Mathlib.Order.Bounds.Defs
import RegisterMachine.Proofs.Deduction.History

set_option autoImplicit false

/-!
# Contradictions and growing evidence

A deduction fails in the middle of its visits, and often at an opcode that the sample at hand does
not show.  `FailsIn` is the state in which this happens: the samples before have gone through, and
the turns that the sample leads to have arrived at a visit that fails.

In that state the opcode is open and all operations that its samples match are bound to others.  All
these bindings were forced, those made since the last sample as well, so that no assignment explains
the samples up to this one.

A deduction that has failed stays failed, at the same sample, whatever samples follow, and the
sample that is named is the first one up to which the samples contradict each other.

A table that was answered is never revoked.  More samples lead to a failure, to an ambiguity or to
a table that includes it; and samples of opcodes that the table binds lead to the table itself,
whatever they show.
-/

namespace RegisterMachine.Deduction

open Sample (evidence opcodes Explains)
open Propagation

variable {x : Deduction} {samples : List Sample} {o : UInt8} {i : Nat} {fault : Fault}

/-- The deduction from the samples fails in the state `x`, at the visit of an opcode to which the
sample with index `i` has led. -/
def FailsIn (samples : List Sample) (o : UInt8) (i : Nat) (x : Deduction) : Prop :=
  ∃ d s rest, ofSamples (samples.take i) = .ok d ∧ samples[i]? = some s ∧
    d.table.get? s.opcode = none ∧ Turns i (d.narrow s, [s.opcode]) (x, o :: rest) ∧
      x.visit i o = .error (.noConsistentOperation o i)

/-! ## Where a deduction fails -/

theorem deduceBindings_eq_noConsistentOperation_iff_ofSamples :
    deduceBindings samples = .error (.noConsistentOperation o i) ↔
      ofSamples samples = .error (.noConsistentOperation o i) := by
  cases hd : ofSamples samples with
  | error fault => simp only [deduceBindings_of_ofSamples_eq_error hd, Except.error.injEq]
  | ok d =>
    rw [deduceBindings_of_ofSamples_eq_ok hd]
    rcases (between_of_ofSamples hd).tracks.finish_cases with ⟨-, hfinish⟩ | ⟨-, o', n, hfinish⟩
    · simp [hfinish]
    · simp [hfinish]

theorem exists_failsIn (h : ofSamples samples = .error (.noConsistentOperation o i)) :
    ∃ x, FailsIn samples o i x := by
  obtain ⟨xs, s, ys, d, rfl, hd, hobserve⟩ := exists_observe_eq_error h
  obtain ⟨⟨o', hfault⟩, -⟩ := (between_of_ofSamples hd).observe_eq_error hobserve
  cases hfault
  have hopen : d.table.get? s.opcode = none := by
    by_contra hbound
    rw [observe_of_bound hbound] at hobserve
    cases hobserve
  rw [observe_of_open hopen] at hobserve
  obtain ⟨x, y, rest, hturns, hfails⟩ := settle_eq_error_iff.mp hobserve
  obtain ⟨hfault, -⟩ :=
    (((between_of_ofSamples hd).settling hopen).turns hturns).visit_eq_error hfails
  cases hfault
  exact ⟨x, d, s, rest, by rw [List.take_left]; exact hd, by simp, hopen, hturns, hfails⟩

/-- The samples up to the one at which a deduction fails. -/
theorem FailsIn.take_succ (h : FailsIn samples o i x) :
    ∃ s, samples[i]? = some s ∧ samples.take (i + 1) = samples.take i ++ [s] := by
  obtain ⟨-, s, -, -, hs, -⟩ := h
  exact ⟨s, hs, by rw [List.take_add_one, hs, Option.toList_some]⟩

theorem FailsIn.ofSamples_eq_error (h : FailsIn samples o i x) :
    ofSamples (samples.take (i + 1)) = .error (.noConsistentOperation o i) := by
  obtain ⟨d, s, rest, hd, hs, hopen, hturns, hfails⟩ := h
  have hi : (samples.take i).length = i := by
    obtain ⟨hlt, -⟩ := List.getElem?_eq_some_iff.mp hs
    rw [List.length_take]
    omega
  rw [List.take_add_one, hs, Option.toList_some, ofSamples_append_singleton, hd, hi]
  show d.observe i s = _
  rw [observe_of_open hopen]
  exact settle_eq_error_iff.mpr ⟨x, o, rest, hturns, hfails⟩

/-- A deduction fails at an opcode and a sample exactly if there is a state in which it does. -/
theorem deduceBindings_eq_noConsistentOperation_iff :
    deduceBindings samples = .error (.noConsistentOperation o i) ↔
      ∃ x, FailsIn samples o i x := by
  rw [deduceBindings_eq_noConsistentOperation_iff_ofSamples]
  constructor
  · exact exists_failsIn
  · intro hex
    obtain ⟨x, hfails⟩ := hex
    rw [← List.take_append_drop (i + 1) samples]
    exact ofSamples_append_eq_error hfails.ofSamples_eq_error _

/-! ## The state at the failure -/

/-- In the state in which a deduction fails, the opcode occurs and is open, and no operation is left
for it. -/
theorem FailsIn.remaining_eq_empty (h : FailsIn samples o i x) :
    o ∈ opcodes (samples.take (i + 1)) ∧ x.table.get? o = none ∧
      remaining (samples.take (i + 1)) x.table o = ∅ := by
  obtain ⟨s, hs, htake⟩ := h.take_succ
  obtain ⟨d, s', rest, hd, hs', hopen, hturns, hfails⟩ := h
  rw [hs] at hs'
  cases hs'
  have hstop := ((between_of_ofSamples hd).settling hopen).turns hturns
  obtain ⟨-, hempty⟩ := hstop.visit_eq_error hfails
  obtain ⟨hoccurs, hopen', hremaining⟩ := (hstop.tracks.candidates_iff o ∅).mp hempty
  rw [htake]
  exact ⟨hoccurs, hopen', hremaining.symm⟩

/-- Every operation that the samples of the opcode match is bound to another opcode. -/
theorem FailsIn.exists_get?_eq_some (h : FailsIn samples o i x) {op : Operation}
    (hop : op ∈ evidence (samples.take (i + 1)) o) :
    ∃ o', o' ≠ o ∧ x.table.get? o' = some op := by
  obtain ⟨-, hopen, hempty⟩ := h.remaining_eq_empty
  have hrange : op ∈ x.table.range := by
    by_contra hfree
    have hmem : op ∈ remaining (samples.take (i + 1)) x.table o := mem_remaining.mpr ⟨hop, hfree⟩
    rw [hempty] at hmem
    exact OperationSet.not_mem_empty op hmem
  obtain ⟨o', ho'⟩ := BindingTable.mem_range.mp hrange
  refine ⟨o', ?_, ho'⟩
  rintro rfl
  rw [hopen] at ho'
  cases ho'

/-- Samples on which a deduction fails have no explanation. -/
theorem not_explains_of_ofSamples_eq_error (h : ofSamples samples = .error fault)
    (f : UInt8 → Operation) : ¬ Explains f samples := by
  intro hf
  obtain ⟨d, hd, -⟩ := exists_ofSamples_eq_ok hf
  rw [h] at hd
  cases hd

/-- **A contradiction is justified and put down to the right place.**  The sample that is named
exists, and the opcode occurs up to it.  In the state in which the deduction fails the opcode is not
bound, and every operation that all its samples up to this one match is bound to another opcode.  No
assignment explains the samples up to this one. -/
theorem contradiction_justified (h : deduceBindings samples = .error (.noConsistentOperation o i)) :
    i < samples.length ∧ o ∈ opcodes (samples.take (i + 1)) ∧
      (∃ x, FailsIn samples o i x) ∧
      (∀ x, FailsIn samples o i x → x.table.get? o = none ∧
        ∀ op ∈ evidence (samples.take (i + 1)) o, ∃ o', o' ≠ o ∧ x.table.get? o' = some op) ∧
      ∀ f, ¬ Explains f (samples.take (i + 1)) := by
  obtain ⟨x, hfails⟩ := deduceBindings_eq_noConsistentOperation_iff.mp h
  obtain ⟨s, hs, -⟩ := hfails.take_succ
  obtain ⟨hlt, -⟩ := List.getElem?_eq_some_iff.mp hs
  refine ⟨hlt, hfails.remaining_eq_empty.1, ⟨x, hfails⟩, ?_, ?_⟩
  · intro y hy
    exact ⟨hy.remaining_eq_empty.2.1, fun op hop => hy.exists_get?_eq_some hop⟩
  · exact not_explains_of_ofSamples_eq_error hfails.ofSamples_eq_error

/-- Of two opcodes that look alike one is bound and the other is left without an operation, in the
visits that a sample of a fourth opcode leads to. -/
theorem contradiction_justified_contested :
    deduceBindings Sample.contested = .error (.noConsistentOperation 0 3) ∧
      (∃ x, FailsIn Sample.contested 0 3 x ∧ x.table.get? 0 = none ∧
        ∃ o', o' ≠ 0 ∧ x.table.get? o' = some .addi) ∧
      ∀ f, ¬ Explains f Sample.contested := by
  have hfault : deduceBindings Sample.contested = .error (.noConsistentOperation 0 3) := by
    decide +kernel
  obtain ⟨-, -, ⟨x, hfails⟩, hstate, hnone⟩ := contradiction_justified hfault
  obtain ⟨hopen, hbound⟩ := hstate x hfails
  exact ⟨hfault, ⟨x, hfails, hopen, hbound .addi (by decide +kernel)⟩, hnone⟩

/-! ## Growing evidence -/

open Sample (chained contested doubted)

variable {d : Deduction} {xs ys : List Sample} {k : Nat} {t : BindingTable}

/-- The deduction leaves some opcode without an operation. -/
def Fails (samples : List Sample) : Prop :=
  ∃ o i, deduceBindings samples = .error (.noConsistentOperation o i)

/-- Any part that holds the sample named by a failure fails in the same way. -/
theorem ofSamples_take_of_lt (h : ofSamples samples = .error (.noConsistentOperation o i))
    (hk : i < k) : ofSamples (samples.take k) = .error (.noConsistentOperation o i) := by
  obtain ⟨x, hfails⟩ := exists_failsIn h
  have hpart : (samples.take k).take (i + 1) = samples.take (i + 1) := by
    rw [List.take_take, Nat.min_eq_left hk]
  rw [← List.take_append_drop (i + 1) (samples.take k), hpart]
  exact ofSamples_append_eq_error hfails.ofSamples_eq_error _

/-- A part that ends before the sample named by a failure goes through. -/
theorem exists_ofSamples_take_of_le (h : ofSamples samples = .error (.noConsistentOperation o i))
    (hk : k ≤ i) : ∃ d, ofSamples (samples.take k) = .ok d := by
  obtain ⟨x, d, s, rest, hd, -⟩ := exists_failsIn h
  have hpart : (samples.take i).take k = samples.take k := by
    rw [List.take_take, Nat.min_eq_left hk]
  rw [← List.take_append_drop k (samples.take i), hpart] at hd
  exact exists_ofSamples_of_append hd

/-- The sample named by a failure is the first one up to which the samples fail. -/
theorem isLeast_of_noConsistentOperation
    (h : deduceBindings samples = .error (.noConsistentOperation o i)) :
    IsLeast {k | Fails (samples.take (k + 1))} i := by
  rw [deduceBindings_eq_noConsistentOperation_iff_ofSamples] at h
  constructor
  · have hfails := ofSamples_take_of_lt h (Nat.lt_succ_self i)
    exact ⟨o, i, deduceBindings_eq_noConsistentOperation_iff_ofSamples.mpr hfails⟩
  · intro k hk
    obtain ⟨o', j, hfails⟩ := hk
    rw [deduceBindings_eq_noConsistentOperation_iff_ofSamples] at hfails
    by_contra hlt
    obtain ⟨d, hd⟩ := exists_ofSamples_take_of_le h (show k + 1 ≤ i by omega)
    rw [hd] at hfails
    cases hfails

/-! ## What follows an answer -/

/-- Samples of bound opcodes leave the whole state as it is. -/
theorem ofSamples_append_of_bound (hd : ofSamples xs = .ok d)
    (hbound : ∀ s ∈ ys, d.table.get? s.opcode ≠ none) : ofSamples (xs ++ ys) = .ok d := by
  induction ys using List.reverseRecOn with
  | nil => rwa [List.append_nil]
  | append_singleton ys s ih =>
    have hys : ofSamples (xs ++ ys) = .ok d :=
      ih fun s' hs' => hbound s' (List.mem_append_left [s] hs')
    rw [← List.append_assoc, ofSamples_append_singleton, hys]
    exact observe_of_bound (hbound s (List.mem_append_right ys List.mem_cons_self))

/-- An answer is the table of the final state, and the state after more samples includes it. -/
theorem le_of_deduceBindings_append {t' : BindingTable} (h : deduceBindings xs = .ok t)
    (h' : deduceBindings (xs ++ ys) = .ok t') : t ≤ t' := by
  obtain ⟨d, hd, rfl, -⟩ := exists_of_deduceBindings_eq_ok h
  obtain ⟨e, he, rfl, -⟩ := exists_of_deduceBindings_eq_ok h'
  exact table_le_of_append hd he

theorem deduceBindings_append_of_bound (h : deduceBindings xs = .ok t)
    (hbound : ∀ s ∈ ys, t.get? s.opcode ≠ none) : deduceBindings (xs ++ ys) = .ok t := by
  obtain ⟨d, hd, rfl, -⟩ := exists_of_deduceBindings_eq_ok h
  rw [deduceBindings_of_ofSamples_eq_ok hd] at h
  rw [deduceBindings_of_ofSamples_eq_ok (ofSamples_append_of_bound hd hbound), h]

/-- **Growing evidence.**  A contradiction stays the same when samples follow, and one that is put
down to a sample of the first part is there without the second; it is put down to the first sample
up to which the samples fail.  After an answer, more samples lead to a fault or to a table with all
bindings of the answer, and to the answer itself if they show bound opcodes only. -/
theorem outcome_of_growing_evidence (xs ys : List Sample) :
    (∀ o i, deduceBindings xs = .error (.noConsistentOperation o i) →
      deduceBindings (xs ++ ys) = .error (.noConsistentOperation o i)) ∧
    (∀ o i, deduceBindings (xs ++ ys) = .error (.noConsistentOperation o i) → i < xs.length →
      deduceBindings xs = .error (.noConsistentOperation o i)) ∧
    (∀ o i, deduceBindings xs = .error (.noConsistentOperation o i) →
      IsLeast {k | Fails (xs.take (k + 1))} i) ∧
    ∀ t, deduceBindings xs = .ok t →
      ((∃ fault, deduceBindings (xs ++ ys) = .error fault) ∨
        ∃ t', deduceBindings (xs ++ ys) = .ok t' ∧ t ≤ t') ∧
      ((∀ s ∈ ys, t.get? s.opcode ≠ none) → deduceBindings (xs ++ ys) = .ok t) := by
  refine ⟨?_, ?_, fun o i => isLeast_of_noConsistentOperation, ?_⟩
  · intro o i h
    rw [deduceBindings_eq_noConsistentOperation_iff_ofSamples] at h ⊢
    exact ofSamples_append_eq_error h ys
  · intro o i h hi
    rw [deduceBindings_eq_noConsistentOperation_iff_ofSamples] at h ⊢
    have hpart := ofSamples_take_of_lt h hi
    rwa [List.take_left] at hpart
  · intro t ht
    refine ⟨?_, deduceBindings_append_of_bound ht⟩
    cases hlong : deduceBindings (xs ++ ys) with
    | error fault => exact Or.inl ⟨fault, rfl⟩
    | ok t' => exact Or.inr ⟨t', rfl, le_of_deduceBindings_append ht hlong⟩

/-- The two opcodes that look alike fail at the last of four samples, with three more samples as
without them.  The two samples that are certain keep their bindings when the third one comes, and a
sample that no operation matches changes nothing for a bound opcode. -/
theorem outcome_of_growing_evidence_chained :
    (deduceBindings contested = .error (.noConsistentOperation 0 3) ∧
      deduceBindings (contested ++ chained) = .error (.noConsistentOperation 0 3) ∧
      IsLeast {k | Fails (contested.take (k + 1))} 3) ∧
    (∃ t t', deduceBindings (chained.drop 1) = .ok t ∧
      deduceBindings (chained.drop 1 ++ chained.take 1) = .ok t' ∧ t ≤ t') ∧
    ∃ t, deduceBindings chained = .ok t ∧ (∀ s ∈ doubted.drop 3, t.get? s.opcode ≠ none) ∧
      deduceBindings doubted = .ok t := by
  refine ⟨?_, ?_, ?_⟩
  · have hfault : deduceBindings contested = .error (.noConsistentOperation 0 3) := by
      decide +kernel
    obtain ⟨hkept, hback, hleast, -⟩ := outcome_of_growing_evidence contested chained
    exact ⟨hback 0 3 (hkept 0 3 hfault) (by decide), hkept 0 3 hfault, hleast 0 3 hfault⟩
  · obtain ⟨t, ht⟩ : ∃ t, deduceBindings (chained.drop 1) = .ok t :=
      exists_deduceBindings_eq_ok_of_isSome (by decide +kernel)
    obtain ⟨t', ht'⟩ : ∃ t', deduceBindings (chained.drop 1 ++ chained.take 1) = .ok t' :=
      exists_deduceBindings_eq_ok_of_isSome (by decide +kernel)
    obtain ⟨hgrown, -⟩ := (outcome_of_growing_evidence (chained.drop 1) (chained.take 1)).2.2.2 t ht
    rcases hgrown with ⟨fault, hfault⟩ | ⟨grown, hok, hle⟩
    · rw [ht'] at hfault
      cases hfault
    · exact ⟨t, grown, ht, hok, hle⟩
  · obtain ⟨t, ht⟩ : ∃ t, deduceBindings chained = .ok t :=
      exists_deduceBindings_eq_ok_of_isSome (by decide +kernel)
    have hbound : ∀ s ∈ doubted.drop 3, t.get? s.opcode ≠ none := by
      intro s hs
      rw [get?_ne_none_iff_of_deduceBindings ht]
      have hknown : ∀ s ∈ doubted.drop 3, s.opcode ∈ opcodes chained := by decide
      exact hknown s hs
    exact ⟨t, ht, hbound,
      ((outcome_of_growing_evidence chained (doubted.drop 3)).2.2.2 t ht).2 hbound⟩

end RegisterMachine.Deduction
