import Mathlib.Data.List.Induction
import RegisterMachine.Proofs.Deduction.Settling

set_option autoImplicit false

/-!
# Observing samples one after the other

The state after some samples records them (`Tracks`) and is settled, and this is kept by every
sample that is observed.  What one observation does is then said by propagation alone: it ends in
the saturated table that propagation reaches from the table before, or it fails because propagation
meets a contradiction.  In neither case does the order of visits appear.

From this follows what a whole deduction does on samples that some assignment explains: it never
fails, and its table is reached by propagation under the evidence of all samples.
-/

namespace RegisterMachine.Deduction

open Std (ExtTreeMap)
open Sample (evidence opcodes Explains)
open Propagation

variable {d e : Deduction} {s : Sample} {i : Nat} {samples seen xs ys : List Sample} {fault : Fault}

/-! ## Taking a sample into account -/

/-- The candidates of the opcode of a sample after narrowing: what the samples before allow, what is
free, and what the sample matches. -/
theorem Tracks.exists_candidates_narrow (h : Tracks d seen)
    (hopen : d.table.get? s.opcode = none) :
    ∃ set : OperationSet, (d.narrow s).candidates = d.candidates.insert s.opcode set ∧
      ∀ op, op ∈ set ↔ op ∈ evidence seen s.opcode ∧ op ∉ d.assigned ∧ s.Matches op := by
  cases hset : d.candidates[s.opcode]? with
  | some current =>
    obtain ⟨-, -, hcurrent⟩ := (h.candidates_iff _ _).mp hset
    refine ⟨current ∩ s.consistentAmong d.unassigned, by simp only [narrow, hset], ?_⟩
    intro op
    simp only [hcurrent, OperationSet.mem_inter, mem_remaining, Sample.mem_consistentAmong,
      unassigned, OperationSet.mem_sdiff, OperationSet.mem_all, true_and, h.assigned_eq]
    tauto
  | none =>
    have hnew : s.opcode ∉ opcodes seen := by
      intro hmem
      rw [(h.candidates_iff _ _).mpr ⟨hmem, hopen, rfl⟩] at hset
      exact absurd hset (by simp)
    refine ⟨s.consistentAmong d.unassigned, by simp only [narrow, hset], ?_⟩
    intro op
    simp only [Sample.evidence_eq_all_of_not_mem hnew, Sample.mem_consistentAmong, unassigned,
      OperationSet.mem_sdiff, OperationSet.mem_all, true_and]

/-- Narrowing by a sample of an opcode that is not bound records the sample. -/
theorem Tracks.narrow (h : Tracks d seen) (hopen : d.table.get? s.opcode = none) :
    Tracks (d.narrow s) (seen ++ [s]) := by
  obtain ⟨narrowed, hcandidates, hmem⟩ := h.exists_candidates_narrow hopen
  refine ⟨h.assigned_eq, ?_, ?_⟩
  · intro o op hop
    exact Sample.mem_opcodes_append_singleton.mpr (Or.inl (h.occurs_of_bound o op hop))
  · intro o set
    rw [hcandidates, ExtTreeMap.getElem?_insert, Sample.mem_opcodes_append_singleton]
    show _ ↔ _ ∧ d.table.get? o = none ∧ set = remaining (seen ++ [s]) d.table o
    by_cases hne : s.opcode = o
    · have hset : remaining (seen ++ [s]) d.table o = narrowed := by
        ext op
        rw [mem_remaining, Sample.mem_evidence_append_singleton, hmem, h.assigned_eq, ← hne]
        tauto
      rw [hset, ← hne]
      simp [hopen, eq_comm]
    · have hset : remaining (seen ++ [s]) d.table o = remaining seen d.table o := by
        simp only [remaining, Sample.evidence_append_singleton_of_ne hne]
      rw [hset]
      simp only [Std.LawfulEqCmp.compare_eq_iff_eq, hne, if_false, h.candidates_iff,
        Ne.symm hne, or_false]

/-- A sample of a bound opcode changes nothing that the state records. -/
theorem Tracks.skip (h : Tracks d seen) (hbound : d.table.get? s.opcode ≠ none) :
    Tracks d (seen ++ [s]) := by
  have hoccurs : s.opcode ∈ opcodes seen := by
    obtain ⟨op, hop⟩ := Option.ne_none_iff_exists'.mp hbound
    exact h.occurs_of_bound _ op hop
  refine ⟨h.assigned_eq, ?_, ?_⟩
  · intro o op hop
    exact Sample.mem_opcodes_append_singleton.mpr (Or.inl (h.occurs_of_bound o op hop))
  · intro o set
    rw [h.candidates_iff, Sample.mem_opcodes_append_singleton]
    by_cases hne : s.opcode = o
    · rw [← hne]
      simp [hbound]
    · simp only [remaining, Sample.evidence_append_singleton_of_ne hne, Ne.symm hne, or_false]

/-- After narrowing, only the opcode of the sample may have to be visited. -/
theorem Settled.queued_narrow (h : d.Settled) (s : Sample) : (d.narrow s).Queued [s.opcode] := by
  intro o set hset hle
  rw [List.mem_singleton]
  by_contra hne
  have hold : d.candidates[o]? = some set := by
    have heq : s.opcode ≠ o := fun heq => hne heq.symm
    simpa only [Deduction.narrow, ExtTreeMap.getElem?_insert, Std.LawfulEqCmp.compare_eq_iff_eq,
      heq, if_false] using hset
  have := h o set hold
  omega

theorem Tracks.saturated_iff_settled (h : Tracks d seen) :
    Saturated seen d.table ↔ d.Settled := by
  constructor
  · intro hsat o set hset
    obtain ⟨hoccurs, hopen, rfl⟩ := (h.candidates_iff o set).mp hset
    exact hsat o hoccurs hopen
  · intro hset o hoccurs hopen
    exact hset o _ ((h.candidates_iff o _).mpr ⟨hoccurs, hopen, rfl⟩)

/-! ## One observation -/

theorem observe_of_bound (h : d.table.get? s.opcode ≠ none) : d.observe i s = .ok d := by
  have hcontains : d.table.contains s.opcode = true := by
    rw [BindingTable.contains_eq_isSome, Option.isSome_iff_ne_none]
    exact h
  unfold observe
  exact if_pos hcontains

theorem observe_of_open (h : d.table.get? s.opcode = none) :
    d.observe i s = (d.narrow s).settle i [s.opcode] := by
  have hcontains : d.table.contains s.opcode = false := by
    rw [BindingTable.contains_eq_isSome, h, Option.isSome_none]
  unfold observe
  rw [hcontains]
  rfl

/-- What is known about the state between two samples. -/
structure Between (d : Deduction) (seen : List Sample) : Prop where
  /-- The state records the samples seen. -/
  tracks : d.Tracks seen
  /-- Every open opcode has several candidates. -/
  settled : d.Settled

theorem Between.settling (h : Between d seen) (hopen : d.table.get? s.opcode = none) :
    Settling (seen ++ [s]) d.table (d.narrow s) [s.opcode] where
  tracks := h.tracks.narrow hopen
  queued := h.settled.queued_narrow s
  steps := .refl

/-- An observation that succeeds ends in the saturated table that propagation reaches. -/
theorem Between.observe_eq_ok (h : Between d seen) (hobserve : d.observe i s = .ok e) :
    Between e (seen ++ [s]) ∧ Resolves (seen ++ [s]) d.table e.table := by
  by_cases hopen : d.table.get? s.opcode = none
  · rw [observe_of_open hopen] at hobserve
    have hend := (h.settling hopen).settle_eq_ok hobserve
    have hsettled : e.Settled := queued_nil_iff.mp hend.queued
    exact ⟨⟨hend.tracks, hsettled⟩, hend.steps, hend.tracks.saturated_iff_settled.mpr hsettled⟩
  · rw [observe_of_bound hopen] at hobserve
    cases hobserve
    have htracks : Tracks d (seen ++ [s]) := h.tracks.skip hopen
    exact ⟨⟨htracks, h.settled⟩, .refl, htracks.saturated_iff_settled.mpr h.settled⟩

/-- An observation fails only because propagation can meet a contradiction, and the fault names the
sample. -/
theorem Between.observe_eq_error (h : Between d seen) (hobserve : d.observe i s = .error fault) :
    (∃ o, fault = .noConsistentOperation o i) ∧ Contradictory (seen ++ [s]) d.table := by
  by_cases hopen : d.table.get? s.opcode = none
  · rw [observe_of_open hopen] at hobserve
    obtain ⟨x, o, rest, hstop, hempty, hfault⟩ := (h.settling hopen).settle_eq_error hobserve
    obtain ⟨hoccurs, hopen', hremaining⟩ := (hstop.tracks.candidates_iff o ∅).mp hempty
    exact ⟨⟨o, hfault⟩, x.table, o, hstop.steps, hoccurs, hopen', hremaining.symm⟩
  · rw [observe_of_bound hopen] at hobserve
    cases hobserve

/-! ## All observations -/

theorem ofSamples_append_singleton (xs : List Sample) (s : Sample) :
    ofSamples (xs ++ [s]) = (ofSamples xs).bind fun d => d.observe xs.length s := by
  simp only [ofSamples, List.zipIdx_append, List.foldlM_append, List.zipIdx_singleton,
    List.foldlM_cons, List.foldlM_nil, Nat.zero_add]
  cases List.foldlM (fun d entry => Deduction.observe d entry.2 entry.1) {} xs.zipIdx with
  | error f => rfl
  | ok d =>
    show Except.bind (d.observe xs.length s) Except.ok = d.observe xs.length s
    cases d.observe xs.length s <;> rfl

/-- The state between two samples of a deduction. -/
theorem between_of_ofSamples (h : ofSamples samples = .ok d) : Between d samples := by
  induction samples using List.reverseRecOn generalizing d with
  | nil =>
    cases h
    refine ⟨⟨?_, ?_, ?_⟩, ?_⟩
    · exact BindingTable.range_empty.symm
    · intro o op hop
      rw [BindingTable.get?_empty] at hop
      exact absurd hop (by simp)
    · intro o set
      simp
    · intro o set hset
      simp at hset
  | append_singleton xs s ih =>
    rw [ofSamples_append_singleton] at h
    cases hxs : ofSamples xs with
    | error f =>
      rw [hxs] at h
      cases h
    | ok c =>
      rw [hxs] at h
      exact ((ih hxs).observe_eq_ok h).1

/-- On samples that some assignment explains the deduction goes through, and its table is reached by
propagation under the evidence of all of them. -/
theorem exists_ofSamples_eq_ok {f : UInt8 → Operation} (hf : Explains f samples) :
    ∃ d, ofSamples samples = .ok d ∧ Resolves samples ∅ d.table := by
  induction samples using List.reverseRecOn with
  | nil => exact ⟨{}, rfl, .refl, fun o ho => absurd ho (by simp)⟩
  | append_singleton xs s ih =>
    obtain ⟨d, hd, hsteps, -⟩ := ih (hf.mono (List.subset_append_left xs [s]))
    have hbetween : Between d xs := between_of_ofSamples hd
    have hreached : Steps (xs ++ [s]) ∅ d.table :=
      hsteps.of_subset hf (List.subset_append_left xs [s])
    rw [ofSamples_append_singleton, hd]
    show ∃ e, d.observe xs.length s = .ok e ∧ _
    cases hobserve : d.observe xs.length s with
    | ok e =>
      obtain ⟨-, hresolves⟩ := hbetween.observe_eq_ok hobserve
      exact ⟨e, rfl, hreached.trans hresolves.1, hresolves.2⟩
    | error fault =>
      obtain ⟨-, hcontra⟩ := hbetween.observe_eq_error hobserve
      exact absurd hcontra ((confines_of_explains hf).steps hreached).not_contradictory

/-! ## The outcome -/

/-- The deduction answers its table if every opcode that occurs is bound. -/
theorem Tracks.finish_eq_ok (h : Tracks d seen)
    (hbound : ∀ o ∈ opcodes seen, d.table.get? o ≠ none) : d.finish = .ok d.table := by
  have hempty : d.candidates.toList = [] := by
    rw [List.eq_nil_iff_forall_not_mem]
    rintro ⟨o, set⟩ hmem
    rw [ExtTreeMap.mem_toList_iff_getElem?_eq_some, h.candidates_iff] at hmem
    exact hbound o hmem.1 hmem.2.1
  unfold finish
  rw [hempty]

/-- The deduction reports an ambiguity if some opcode that occurs is not bound. -/
theorem Tracks.exists_finish_eq_error (h : Tracks d seen) {o : UInt8} (ho : o ∈ opcodes seen)
    (hopen : d.table.get? o = none) : ∃ o' n, d.finish = .error (.ambiguousBinding o' n) := by
  cases hlist : d.candidates.toList with
  | nil =>
    have hmem : (o, remaining seen d.table o) ∈ d.candidates.toList := by
      rw [ExtTreeMap.mem_toList_iff_getElem?_eq_some, h.candidates_iff]
      exact ⟨ho, hopen, rfl⟩
    rw [hlist] at hmem
    exact absurd hmem List.not_mem_nil
  | cons entry rest =>
    unfold finish
    rw [hlist]
    exact ⟨entry.1, entry.2.size, rfl⟩

/-- The two ways in which a deduction that went through all samples can end. -/
theorem Tracks.finish_cases (h : Tracks d seen) :
    ((∀ o ∈ opcodes seen, d.table.get? o ≠ none) ∧ d.finish = .ok d.table) ∨
      ((∃ o ∈ opcodes seen, d.table.get? o = none) ∧
        ∃ o n, d.finish = .error (.ambiguousBinding o n)) := by
  by_cases hbound : ∀ o ∈ opcodes seen, d.table.get? o ≠ none
  · exact Or.inl ⟨hbound, h.finish_eq_ok hbound⟩
  · push Not at hbound
    obtain ⟨o, ho, hopen⟩ := hbound
    exact Or.inr ⟨⟨o, ho, hopen⟩, h.exists_finish_eq_error ho hopen⟩

theorem deduceBindings_of_ofSamples_eq_ok (h : ofSamples samples = .ok d) :
    deduceBindings samples = d.finish := by
  unfold deduceBindings
  rw [h]
  rfl

theorem deduceBindings_of_ofSamples_eq_error (h : ofSamples samples = .error fault) :
    deduceBindings samples = .error fault := by
  unfold deduceBindings
  rw [h]
  rfl

/-- An answered table is that of the final state and binds every opcode that occurs. -/
theorem exists_of_deduceBindings_eq_ok {t : BindingTable} (h : deduceBindings samples = .ok t) :
    ∃ d, ofSamples samples = .ok d ∧ d.table = t ∧ ∀ o ∈ opcodes samples, t.get? o ≠ none := by
  cases hd : ofSamples samples with
  | error fault =>
    rw [deduceBindings_of_ofSamples_eq_error hd] at h
    cases h
  | ok d =>
    rw [deduceBindings_of_ofSamples_eq_ok hd] at h
    rcases (between_of_ofSamples hd).tracks.finish_cases with
      ⟨hbound, hfinish⟩ | ⟨-, o, n, hfinish⟩
    · rw [hfinish] at h
      cases h
      exact ⟨d, rfl, rfl, hbound⟩
    · rw [hfinish] at h
      cases h

/-- That samples have an answer can be found out by computing it. -/
theorem exists_deduceBindings_eq_ok_of_isSome
    (h : (deduceBindings samples).toOption.isSome = true) :
    ∃ t, deduceBindings samples = .ok t := by
  cases ht : deduceBindings samples with
  | error fault =>
    rw [ht] at h
    exact absurd h Bool.false_ne_true
  | ok t => exact ⟨t, rfl⟩

end RegisterMachine.Deduction
