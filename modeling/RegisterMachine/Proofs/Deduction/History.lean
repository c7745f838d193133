import RegisterMachine.Proofs.BindingTable.Inclusion
import RegisterMachine.Proofs.Deduction.Observation

set_option autoImplicit false

/-!
# The history of a deduction

A deduction that has gone through some samples has gone through each part that they begin with.  No
binding is ever given up, and an opcode that was open after some samples is later bound to an
operation that all of these match.

So a table that is answered says something about every sample: one that was looked at while its
opcode was open matches the operation of the table, and one that was passed over need not.  This
holds of contradictory samples as well.
-/

namespace RegisterMachine

namespace BindingTable

/-- A table fits a sample if it binds the opcode of the sample to an operation that the sample
matches. -/
def Fits (t : BindingTable) (s : Sample) : Prop := ∃ op, t.get? s.opcode = some op ∧ s.Matches op

end BindingTable

namespace Deduction

open Sample (evidence opcodes doubted crowd)
open Propagation

variable {d e : Deduction} {s : Sample} {samples xs ys : List Sample} {o : UInt8} {op : Operation}
  {t : BindingTable} {fault : Fault}

/-! ## Parts of a run -/

/-- The last observation of a deduction that has gone through. -/
theorem exists_observe_of_ofSamples (h : ofSamples (xs ++ [s]) = .ok e) :
    ∃ d, ofSamples xs = .ok d ∧ Resolves (xs ++ [s]) d.table e.table := by
  rw [ofSamples_append_singleton] at h
  cases hd : ofSamples xs with
  | error fault =>
    rw [hd] at h
    cases h
  | ok d =>
    rw [hd] at h
    exact ⟨d, rfl, ((between_of_ofSamples hd).observe_eq_ok h).2⟩

/-- A deduction that fails on some samples fails in the same way if more follow. -/
theorem ofSamples_append_eq_error (h : ofSamples xs = .error fault) (ys : List Sample) :
    ofSamples (xs ++ ys) = .error fault := by
  induction ys using List.reverseRecOn with
  | nil => rwa [List.append_nil]
  | append_singleton ys s ih =>
    rw [← List.append_assoc, ofSamples_append_singleton, ih]
    rfl

/-- What begins a run that goes through goes through. -/
theorem exists_ofSamples_of_append (h : ofSamples (xs ++ ys) = .ok e) :
    ∃ d, ofSamples xs = .ok d := by
  cases hxs : ofSamples xs with
  | ok d => exact ⟨d, rfl⟩
  | error fault =>
    rw [ofSamples_append_eq_error hxs ys] at h
    cases h

/-- A deduction that fails does so at one sample, all samples before which have gone through. -/
theorem exists_observe_eq_error (h : ofSamples samples = .error fault) :
    ∃ xs s ys d, samples = xs ++ s :: ys ∧ ofSamples xs = .ok d ∧
      d.observe xs.length s = .error fault := by
  induction samples using List.reverseRecOn with
  | nil => cases h
  | append_singleton xs s ih =>
    cases hxs : ofSamples xs with
    | ok d =>
      rw [ofSamples_append_singleton, hxs] at h
      exact ⟨xs, s, [], d, rfl, hxs, h⟩
    | error fault' =>
      rw [ofSamples_append_eq_error hxs [s]] at h
      cases h
      obtain ⟨zs, s', ys, d, rfl, hd, hobserve⟩ := ih hxs
      exact ⟨zs, s', ys ++ [s], d, by simp, hd, hobserve⟩

/-- What was bound stays bound, to the same operation. -/
theorem table_le_of_append (hd : ofSamples xs = .ok d) (he : ofSamples (xs ++ ys) = .ok e) :
    d.table ≤ e.table := by
  induction ys using List.reverseRecOn generalizing e with
  | nil =>
    rw [List.append_nil, hd] at he
    cases he
    exact le_refl d.table
  | append_singleton ys s ih =>
    rw [← List.append_assoc] at he
    obtain ⟨c, hc, hresolves⟩ := exists_observe_of_ofSamples he
    exact le_trans (ih hc) hresolves.1.le

/-- An opcode that was open after some samples is bound to an operation in their evidence on it. -/
theorem mem_evidence_of_append (hd : ofSamples xs = .ok d) (he : ofSamples (xs ++ ys) = .ok e)
    (hopen : d.table.get? o = none) (hop : e.table.get? o = some op) : op ∈ evidence xs o := by
  induction ys using List.reverseRecOn generalizing e with
  | nil =>
    rw [List.append_nil, hd] at he
    cases he
    rw [hopen] at hop
    cases hop
  | append_singleton ys s ih =>
    rw [← List.append_assoc] at he
    obtain ⟨c, hc, hresolves⟩ := exists_observe_of_ofSamples he
    cases hbound : c.table.get? o with
    | none =>
      -- The last sample led to the binding, under the evidence of all samples before it.
      have hmem : op ∈ evidence (xs ++ ys ++ [s]) o := hresolves.1.mem_evidence hbound hop
      rw [List.append_assoc] at hmem
      exact Sample.mem_evidence_of_subset (List.subset_append_left xs (ys ++ [s])) hmem
    | some op' =>
      have hkept : e.table.get? o = some op' := hresolves.1.le o op' hbound
      rw [hop] at hkept
      cases hkept
      exact ih hc hbound

/-! ## Samples that were looked at -/

theorem get?_eq_none_of_not_mem_opcodes (hd : ofSamples xs = .ok d) (ho : o ∉ opcodes xs) :
    d.table.get? o = none := by
  rw [Option.eq_none_iff_forall_ne_some]
  intro op hop
  exact ho ((between_of_ofSamples hd).tracks.occurs_of_bound o op hop)

/-- A sample that was observed while its opcode was open matches whatever the opcode is bound to,
then or later. -/
theorem matches_of_append (hd : ofSamples xs = .ok d) (he : ofSamples (xs ++ s :: ys) = .ok e)
    (hopen : d.table.get? s.opcode = none) (hop : e.table.get? s.opcode = some op) :
    s.Matches op := by
  rw [List.append_cons] at he
  obtain ⟨c, hc⟩ := exists_ofSamples_of_append he
  have hmem : op ∈ evidence (xs ++ [s]) s.opcode := by
    cases hbound : c.table.get? s.opcode with
    | none => exact mem_evidence_of_append hc he hbound hop
    | some op' =>
      have hkept : e.table.get? s.opcode = some op' :=
        table_le_of_append hc he s.opcode op' hbound
      rw [hop] at hkept
      cases hkept
      obtain ⟨d', hd', hresolves⟩ := exists_observe_of_ofSamples hc
      rw [hd] at hd'
      cases hd'
      exact hresolves.1.mem_evidence hopen hbound
  exact (Sample.mem_evidence_append_singleton.mp hmem).2 rfl

theorem fits_of_open (ht : deduceBindings (xs ++ s :: ys) = .ok t) (hd : ofSamples xs = .ok d)
    (hopen : d.table.get? s.opcode = none) : t.Fits s := by
  obtain ⟨e, he, rfl, hbound⟩ := exists_of_deduceBindings_eq_ok ht
  have hoccurs : s.opcode ∈ opcodes (xs ++ s :: ys) :=
    Sample.opcode_mem_opcodes (List.mem_append_right xs List.mem_cons_self)
  obtain ⟨op, hop⟩ := Option.ne_none_iff_exists'.mp (hbound s.opcode hoccurs)
  exact ⟨op, hop, matches_of_append hd he hopen hop⟩

/-! ## The answered table -/

theorem get?_ne_none_iff_of_deduceBindings (ht : deduceBindings samples = .ok t) :
    t.get? o ≠ none ↔ o ∈ opcodes samples := by
  obtain ⟨e, he, rfl, hbound⟩ := exists_of_deduceBindings_eq_ok ht
  constructor
  · intro ho
    obtain ⟨op, hop⟩ := Option.ne_none_iff_exists'.mp ho
    exact (between_of_ofSamples he).tracks.occurs_of_bound o op hop
  · exact hbound o

/-- An answered table has one binding for each opcode that occurs. -/
theorem size_of_deduceBindings (ht : deduceBindings samples = .ok t) :
    t.size = (opcodes samples).toFinset.card := by
  have hdomain : t.domain = (opcodes samples).toFinset := by
    ext o
    rw [BindingTable.mem_domain, get?_ne_none_iff_of_deduceBindings ht, List.mem_toFinset]
  rw [← BindingTable.card_domain, hdomain]

/-- **What an answered table guarantees.**  It binds exactly the opcodes that occur, each to an
operation of its own.  Every sample that was observed while its opcode was open matches the
operation of the table: the first sample of each opcode, and the sample with which the opcode was
bound.  The table is complete exactly if sixteen opcodes occur; for more than sixteen opcodes there
is no answer. -/
theorem deduceBindings_guarantees (samples : List Sample) :
    (∀ t, deduceBindings samples = .ok t →
      (∀ o, t.get? o ≠ none ↔ o ∈ opcodes samples) ∧
      (∀ o o' op, t.get? o = some op → t.get? o' = some op → o = o') ∧
      (∀ xs s ys, samples = xs ++ s :: ys →
        ∃ d e, ofSamples xs = .ok d ∧ d.observe xs.length s = .ok e ∧
          (d.table.get? s.opcode = none → t.Fits s) ∧
          (s.opcode ∉ opcodes xs → t.Fits s) ∧
          ∀ op, d.table.get? s.opcode = none → e.table.get? s.opcode = some op →
            t.get? s.opcode = some op ∧ s.Matches op) ∧
      (t.IsComplete ↔ (opcodes samples).toFinset.card = 16)) ∧
    (16 < (opcodes samples).toFinset.card → ∀ t, deduceBindings samples ≠ .ok t) := by
  refine ⟨?_, ?_⟩
  · intro t ht
    refine ⟨fun o => get?_ne_none_iff_of_deduceBindings ht,
      fun o o' op => BindingTable.get?_injective, ?_, ?_⟩
    · rintro xs s ys rfl
      obtain ⟨c, hc, rfl, -⟩ := exists_of_deduceBindings_eq_ok ht
      obtain ⟨d, hd⟩ := exists_ofSamples_of_append hc
      rw [List.append_cons] at hc
      obtain ⟨e, he⟩ := exists_ofSamples_of_append hc
      have hobserve : d.observe xs.length s = .ok e := by
        rw [ofSamples_append_singleton, hd] at he
        exact he
      refine ⟨d, e, hd, hobserve, fits_of_open ht hd, ?_, ?_⟩
      · intro hfirst
        exact fits_of_open ht hd (get?_eq_none_of_not_mem_opcodes hd hfirst)
      · intro op hopen hop
        exact ⟨table_le_of_append he hc s.opcode op hop, matches_of_append hd he hopen hop⟩
    · rw [BindingTable.isComplete_iff, size_of_deduceBindings ht]
  · intro hmany t ht
    have hle := t.size_le
    rw [size_of_deduceBindings ht] at hle
    omega

/-- A sample that contradicts the others is passed over if its opcode is bound: the table fits the
samples before it, the third of which leads to all bindings that were missing.  Seventeen opcodes
have no answer. -/
theorem deduceBindings_guarantees_doubted :
    (∃ t, deduceBindings doubted = .ok t ∧
      (∀ o, t.get? o ≠ none ↔ o ∈ opcodes doubted) ∧
      (∃ s ∈ doubted.head?, t.Fits s) ∧
      (∃ s ∈ doubted[2]?, t.Fits s ∧ t.get? s.opcode = some .seti ∧ s.Matches .seti) ∧
      ¬ t.IsComplete) ∧
    16 < (opcodes crowd).toFinset.card ∧ ∀ t, deduceBindings crowd ≠ .ok t := by
  refine ⟨?_, ?_⟩
  · have hsome : (deduceBindings doubted).toOption.isSome = true := by decide +kernel
    cases ht : deduceBindings doubted with
    | error fault =>
      rw [ht] at hsome
      exact absurd hsome Bool.false_ne_true
    | ok t =>
      obtain ⟨hdomain, -, hsplit, hcomplete⟩ := (deduceBindings_guarantees doubted).1 t ht
      obtain ⟨-, -, -, -, -, hfirst, -⟩ := hsplit [] _ _ rfl
      obtain ⟨d, e, hd, he, hopen, -, hbinding⟩ := hsplit (doubted.take 2) _ _ rfl
      have hd3 : d.table.get? 3 = none := get?_eq_none_of_not_mem_opcodes hd (by decide)
      have he3 : e.table.get? 3 = some .seti := by
        have hend : ofSamples (doubted.take 3) = .ok e := by
          show ofSamples (doubted.take 2 ++ [_]) = .ok e
          rw [ofSamples_append_singleton, hd]
          exact he
        have hget : (ofSamples (doubted.take 3)).toOption.map (·.table.get? 3) =
            some (some .seti) := by
          decide +kernel
        rw [hend] at hget
        exact Option.some.inj hget
      refine ⟨t, rfl, hdomain, ⟨_, rfl, hfirst (by decide)⟩,
        ⟨_, rfl, hopen hd3, hbinding .seti hd3 he3⟩, ?_⟩
      rw [hcomplete]
      decide
  · have hmany : 16 < (opcodes crowd).toFinset.card := by decide +kernel
    exact ⟨hmany, (deduceBindings_guarantees crowd).2 hmany⟩

end Deduction

end RegisterMachine
