import RegisterMachine.Proofs.Deduction.Observation
import RegisterMachine.Proofs.Renaming

set_option autoImplicit false

/-!
# Deduction does not look at the names of opcodes

A deduction visits opcodes in an order that depends on their numbers.  Renaming the opcodes of all
samples may change that order, and with it the opcode that a fault names.  What it cannot change is
whether the deduction succeeds, at which sample it fails, and the table up to the renaming: all of
this is said by propagation, which renaming carries over, for samples that contradict each other as
well.

A renaming that keeps the order of the opcodes that occur keeps every visit, hence also the opcodes
and the numbers in faults.
-/

namespace RegisterMachine

open Std (ExtTreeMap)
open Sample (opcodes)

variable {ρ : UInt8 ↪ UInt8} {o : UInt8} {op : Operation} {samples seen : List Sample}

/-! ## Propagation -/

namespace Propagation

variable {t u' : BindingTable}

@[simp] theorem remaining_rename (samples : List Sample) (t : BindingTable) (o : UInt8) :
    remaining (samples.map (Sample.rename ρ)) (t.rename ρ) (ρ o) = remaining samples t o := by
  simp only [remaining, Sample.evidence_map_rename, BindingTable.range_rename]

/-- A binding step between renamed opcodes is the renaming of a binding step. -/
theorem Step.of_rename (h : Step (samples.map (Sample.rename ρ)) (t.rename ρ) u') :
    ∃ u, u' = u.rename ρ ∧ Step samples t u := by
  cases h with
  | @bind o' op occurs unbound forced insert =>
    obtain ⟨o, rfl, ho⟩ := Sample.mem_opcodes_map_rename_iff.mp occurs
    rw [BindingTable.get?_rename] at unbound
    rw [remaining_rename] at forced
    have hfree : op ∉ t.range := by
      have hmem : op ∈ remaining samples t o := by
        rw [forced]
        exact OperationSet.mem_singleton.mpr rfl
      exact (mem_remaining.mp hmem).2
    obtain ⟨u, hu⟩ := BindingTable.exists_insert_eq_ok unbound hfree
    have heq := BindingTable.insert_rename_eq_ok (ρ := ρ) hu
    rw [insert] at heq
    exact ⟨u, Except.ok.inj heq, .bind ho unbound forced hu⟩

theorem Steps.of_rename (h : Steps (samples.map (Sample.rename ρ)) (t.rename ρ) u') :
    ∃ u, u' = u.rename ρ ∧ Steps samples t u := by
  induction h with
  | refl => exact ⟨t, rfl, .refl⟩
  | tail _ step ih =>
    obtain ⟨v, rfl, hsteps⟩ := ih
    obtain ⟨u, rfl, hstep⟩ := step.of_rename
    exact ⟨u, rfl, hsteps.tail hstep⟩

theorem Resolves.of_rename (h : Resolves (samples.map (Sample.rename ρ)) (t.rename ρ) u') :
    ∃ u, u' = u.rename ρ ∧ Resolves samples t u := by
  obtain ⟨hsteps, hsaturated⟩ := h
  obtain ⟨u, rfl, hu⟩ := hsteps.of_rename
  refine ⟨u, rfl, hu, ?_⟩
  intro o ho hopen
  rw [← remaining_rename (ρ := ρ)]
  apply hsaturated (ρ o) (Sample.rename_mem_opcodes_map_rename_iff.mpr ho)
  rw [BindingTable.get?_rename, hopen]

theorem Contradictory.of_rename
    (h : Contradictory (samples.map (Sample.rename ρ)) (t.rename ρ)) :
    Contradictory samples t := by
  obtain ⟨u', o', hsteps, hoccurs, hopen, hempty⟩ := h
  obtain ⟨u, rfl, hu⟩ := hsteps.of_rename
  obtain ⟨o, rfl, ho⟩ := Sample.mem_opcodes_map_rename_iff.mp hoccurs
  rw [BindingTable.get?_rename] at hopen
  rw [remaining_rename] at hempty
  exact ⟨u, o, hu, ho, hopen, hempty⟩

end Propagation

namespace Deduction

open Propagation

variable {d d' e : Deduction} {i : Nat} {s : Sample} {again pending rest : List UInt8}
  {start start' : BindingTable} {fault : Fault}

/-! ## The same outcome under other names -/

/-- Outcomes that differ in the names of opcodes only: the same table up to the renaming, or a
failure at the same sample. -/
inductive SameOutcome (ρ : UInt8 ↪ UInt8) :
    Except Fault Deduction → Except Fault Deduction → Prop
  | ok {d d' : Deduction} (table_eq : d'.table = d.table.rename ρ) : SameOutcome ρ (.ok d) (.ok d')
  | error (o o' : UInt8) (i : Nat) :
      SameOutcome ρ (.error (.noConsistentOperation o i)) (.error (.noConsistentOperation o' i))

theorem SameOutcome.exists_ok {outcome : Except Fault Deduction}
    (h : SameOutcome ρ (.ok d) outcome) :
    ∃ d', outcome = .ok d' ∧ d'.table = d.table.rename ρ := by
  cases h with
  | ok htable => exact ⟨_, rfl, htable⟩

theorem SameOutcome.exists_error {outcome : Except Fault Deduction}
    (h : SameOutcome ρ (.error fault) outcome) :
    ∃ o o' i, fault = .noConsistentOperation o i ∧
      outcome = .error (.noConsistentOperation o' i) := by
  cases h with
  | error o o' i => exact ⟨o, o', i, rfl, rfl⟩

/-- Observing a renamed sample in the renamed state has the same outcome. -/
theorem Between.observe_rename (h : Between d seen)
    (h' : Between d' (seen.map (Sample.rename ρ))) (htable : d'.table = d.table.rename ρ)
    (i : Nat) (s : Sample) :
    SameOutcome ρ (d.observe i s) (d'.observe i (s.rename ρ)) := by
  have happend : seen.map (Sample.rename ρ) ++ [s.rename ρ] =
      (seen ++ [s]).map (Sample.rename ρ) := by
    rw [List.map_append, List.map_singleton]
  cases hleft : d.observe i s with
  | ok e =>
    obtain ⟨-, hresolves⟩ := h.observe_eq_ok hleft
    cases hright : d'.observe i (s.rename ρ) with
    | ok e' =>
      obtain ⟨-, hresolves'⟩ := h'.observe_eq_ok hright
      rw [happend, htable] at hresolves'
      obtain ⟨u, hu, hresolvesu⟩ := hresolves'.of_rename
      exact .ok (hu.trans (congrArg _ (hresolvesu.unique hresolves)))
    | error fault =>
      obtain ⟨-, hcontra⟩ := h'.observe_eq_error hright
      rw [happend, htable] at hcontra
      exact absurd hcontra.of_rename hresolves.not_contradictory
  | error fault =>
    obtain ⟨⟨o, rfl⟩, hcontra⟩ := h.observe_eq_error hleft
    cases hright : d'.observe i (s.rename ρ) with
    | ok e' =>
      obtain ⟨-, hresolves'⟩ := h'.observe_eq_ok hright
      rw [happend, htable] at hresolves'
      obtain ⟨u, -, hresolvesu⟩ := hresolves'.of_rename
      exact absurd hcontra hresolvesu.not_contradictory
    | error fault' =>
      obtain ⟨⟨o', rfl⟩, -⟩ := h'.observe_eq_error hright
      exact .error o o' i

/-- All observations together have the same outcome under other names. -/
theorem ofSamples_rename (ρ : UInt8 ↪ UInt8) (samples : List Sample) :
    SameOutcome ρ (ofSamples samples) (ofSamples (samples.map (Sample.rename ρ))) := by
  induction samples using List.reverseRecOn with
  | nil => exact .ok BindingTable.rename_empty.symm
  | append_singleton xs s ih =>
    rw [List.map_append, List.map_singleton, ofSamples_append_singleton,
      ofSamples_append_singleton, List.length_map]
    cases hleft : ofSamples xs with
    | ok d =>
      rw [hleft] at ih
      obtain ⟨d', hright, htable⟩ := ih.exists_ok
      rw [hright]
      exact (between_of_ofSamples hleft).observe_rename (between_of_ofSamples hright)
        htable xs.length s
    | error fault =>
      rw [hleft] at ih
      obtain ⟨o, o', i, rfl, hright⟩ := ih.exists_error
      rw [hright]
      exact .error o o' i

/-- After samples that could be observed, the renamed samples lead to the renamed table. -/
theorem exists_ofSamples_rename_eq_ok (h : ofSamples samples = .ok d) :
    ∃ d', ofSamples (samples.map (Sample.rename ρ)) = .ok d' ∧
      d'.table = d.table.rename ρ := by
  have hsame := ofSamples_rename ρ samples
  rw [h] at hsame
  exact hsame.exists_ok

/-! ## Renamings that keep the order -/

/-- A renaming that keeps the order of the opcodes that occur in the samples. -/
def KeepsOrder (ρ : UInt8 ↪ UInt8) (samples : List Sample) : Prop :=
  ∀ o ∈ opcodes samples, ∀ o' ∈ opcodes samples, o < o' → ρ o < ρ o'

/-- The candidates of a renamed opcode are those of the opcode. -/
theorem Tracks.candidates_rename_iff (h : Tracks d seen)
    (h' : Tracks d' (seen.map (Sample.rename ρ))) (htable : d'.table = d.table.rename ρ)
    (o' : UInt8) (set : OperationSet) :
    d'.candidates[o']? = some set ↔ ∃ o, ρ o = o' ∧ d.candidates[o]? = some set := by
  rw [h'.candidates_iff, htable]
  constructor
  · intro hentry
    obtain ⟨hoccurs, hopen, rfl⟩ := hentry
    obtain ⟨o, rfl, ho⟩ := Sample.mem_opcodes_map_rename_iff.mp hoccurs
    rw [BindingTable.get?_rename] at hopen
    exact ⟨o, rfl, (h.candidates_iff o _).mpr ⟨ho, hopen, remaining_rename seen d.table o⟩⟩
  · intro hex
    obtain ⟨o, rfl, hset⟩ := hex
    obtain ⟨ho, hopen, rfl⟩ := (h.candidates_iff o set).mp hset
    rw [Sample.rename_mem_opcodes_map_rename_iff, BindingTable.get?_rename, remaining_rename]
    exact ⟨ho, hopen, rfl⟩

theorem Tracks.candidates_rename (h : Tracks d seen)
    (h' : Tracks d' (seen.map (Sample.rename ρ))) (htable : d'.table = d.table.rename ρ)
    (o : UInt8) : d'.candidates[ρ o]? = d.candidates[o]? := by
  ext set
  rw [h.candidates_rename_iff h' htable]
  constructor
  · intro hex
    obtain ⟨o', ho', hset⟩ := hex
    rwa [← ρ.injective ho']
  · intro hset
    exact ⟨o, rfl, hset⟩

theorem Tracks.occurs_of_mem_candidates (h : Tracks d seen) (ho : o ∈ d.candidates) :
    o ∈ opcodes seen := by
  rw [ExtTreeMap.mem_iff_isSome_getElem?] at ho
  obtain ⟨set, hset⟩ := Option.isSome_iff_exists.mp ho
  exact ((h.candidates_iff o set).mp hset).1

/-- The opcodes that a binding affects come in the same order. -/
theorem Tracks.affected_rename (hmono : KeepsOrder ρ seen) (h : Tracks d seen)
    (h' : Tracks d' (seen.map (Sample.rename ρ))) (htable : d'.table = d.table.rename ρ)
    (o : UInt8) (op : Operation) :
    affected (d'.candidates.erase (ρ o)) op = (affected (d.candidates.erase o) op).map ρ := by
  have hsame : ∀ (x' : UInt8) (set : OperationSet),
      (d'.candidates.erase (ρ o))[x']? = some set ↔
        ∃ x, ρ x = x' ∧ (d.candidates.erase o)[x]? = some set := by
    intro x' set
    simp only [ExtTreeMap.getElem?_erase, Std.LawfulEqCmp.compare_eq_iff_eq]
    by_cases heq : ρ o = x'
    · subst heq
      simp
    · rw [if_neg heq, h.candidates_rename_iff h' htable]
      constructor
      · intro hex
        obtain ⟨x, rfl, hx⟩ := hex
        exact ⟨x, rfl, by rw [if_neg fun hox => heq (congrArg ρ hox), hx]⟩
      · intro hex
        obtain ⟨x, rfl, hx⟩ := hex
        rw [if_neg fun hox => heq (congrArg ρ hox)] at hx
        exact ⟨x, rfl, hx⟩
  have hlist := toList_eq_map_of_monotone (ρ := ρ) (fun x x' hx hx' =>
    hmono x (h.occurs_of_mem_candidates (ExtTreeMap.mem_of_mem_erase hx))
      x' (h.occurs_of_mem_candidates (ExtTreeMap.mem_of_mem_erase hx'))) hsame
  simp only [affected, hlist, List.filter_map, List.map_map]
  rfl

/-- A visit of a renamed opcode is the renaming of the visit. -/
theorem Tracks.visit_rename (hmono : KeepsOrder ρ seen) (h : Tracks d seen)
    (h' : Tracks d' (seen.map (Sample.rename ρ))) (htable : d'.table = d.table.rename ρ)
    (hvisit : d.visit i o = .ok (e, again)) :
    ∃ e', d'.visit i (ρ o) = .ok (e', again.map ρ) ∧ e'.table = e.table.rename ρ := by
  have hcandidates := h.candidates_rename h' htable o
  rcases candidates_cases d o with hnone | hempty | ⟨op, hop⟩ | ⟨set, hset, hsize⟩
  · rw [visit_of_none hnone] at hvisit
    cases hvisit
    exact ⟨d', visit_of_none (hcandidates.trans hnone), htable⟩
  · rw [visit_of_empty hempty] at hvisit
    cases hvisit
  · rw [visit_of_singleton hop] at hvisit
    obtain ⟨-, -, hinsert, rfl⟩ := bind_eq_ok hvisit
    have hop' := hcandidates.trans hop
    obtain ⟨e', he'⟩ := h'.exists_bind_eq_ok hop'
    obtain ⟨-, -, hinsert', -⟩ := bind_eq_ok he'
    rw [htable, BindingTable.insert_rename_eq_ok hinsert] at hinsert'
    refine ⟨e', ?_, (Except.ok.inj hinsert').symm⟩
    rw [visit_of_singleton hop', he', h.affected_rename hmono h' htable]
  · rw [visit_of_several hset hsize] at hvisit
    cases hvisit
    exact ⟨d', visit_of_several (hcandidates.trans hset) hsize, htable⟩

/-- A loop that stops early stops at the renamed opcode after an order-keeping renaming. -/
theorem Settling.settle_rename (hmono : KeepsOrder ρ seen) (h : Settling seen start d pending)
    (h' : Settling (seen.map (Sample.rename ρ)) start' d' (pending.map ρ))
    (htable : d'.table = d.table.rename ρ)
    (hsettle : d.settle i pending = .error (.noConsistentOperation o i)) :
    d'.settle i (pending.map ρ) = .error (.noConsistentOperation (ρ o) i) := by
  fun_induction Deduction.settle d i pending generalizing d' with
  | case1 d => cases hsettle
  | case2 d x rest fault hvisit =>
    cases hsettle
    obtain ⟨hfault, hempty⟩ := h.visit_eq_error hvisit
    cases hfault
    have hempty' : d'.candidates[ρ o]? = some ∅ :=
      (h.tracks.candidates_rename h'.tracks htable o).trans hempty
    exact settle_cons_of_visit_eq_error (visit_of_empty hempty')
  | case3 d x rest e again hvisit ih =>
    obtain ⟨e', hvisit', htable'⟩ := h.tracks.visit_rename hmono h'.tracks htable hvisit
    have hpending : (again.map ρ).reverse ++ rest.map ρ = (again.reverse ++ rest).map ρ := by
      rw [List.map_append, List.map_reverse]
    have hend := ih (h.visit hvisit) (hpending ▸ h'.visit hvisit') htable' hsettle
    rw [List.map_cons, settle_cons_of_visit_eq_ok hvisit', hpending]
    exact hend

/-- An observation that fails names the renamed opcode after an order-keeping renaming. -/
theorem Between.observe_rename_of_keepsOrder (hmono : KeepsOrder ρ (seen ++ [s]))
    (h : Between d seen) (h' : Between d' (seen.map (Sample.rename ρ)))
    (htable : d'.table = d.table.rename ρ)
    (hobserve : d.observe i s = .error (.noConsistentOperation o i)) :
    d'.observe i (s.rename ρ) = .error (.noConsistentOperation (ρ o) i) := by
  have hopen : d.table.get? s.opcode = none := by
    by_contra hbound
    rw [observe_of_bound hbound] at hobserve
    cases hobserve
  have hopen' : d'.table.get? (s.rename ρ).opcode = none := by
    rw [htable, Sample.opcode_rename, BindingTable.get?_rename, hopen]
  rw [observe_of_open hopen] at hobserve
  rw [observe_of_open hopen']
  have hsettling' := h'.settling hopen'
  rw [← List.map_singleton, ← List.map_append] at hsettling'
  exact (h.settling hopen).settle_rename hmono hsettling' htable hobserve

/-- A deduction that fails names the renamed opcode after an order-keeping renaming. -/
theorem ofSamples_rename_of_keepsOrder (hmono : KeepsOrder ρ samples)
    (h : ofSamples samples = .error (.noConsistentOperation o i)) :
    ofSamples (samples.map (Sample.rename ρ)) = .error (.noConsistentOperation (ρ o) i) := by
  induction samples using List.reverseRecOn with
  | nil => cases h
  | append_singleton xs s ih =>
    have hmono' : KeepsOrder ρ xs := by
      intro x hx y hy
      exact hmono x (Sample.mem_opcodes_append_singleton.mpr (Or.inl hx))
        y (Sample.mem_opcodes_append_singleton.mpr (Or.inl hy))
    rw [ofSamples_append_singleton] at h
    rw [List.map_append, List.map_singleton, ofSamples_append_singleton, List.length_map]
    cases hleft : ofSamples xs with
    | error fault =>
      rw [hleft] at h
      cases h
      rw [ih hmono' hleft]
      rfl
    | ok d =>
      rw [hleft] at h
      obtain ⟨d', hright, htable⟩ := exists_ofSamples_rename_eq_ok (ρ := ρ) hleft
      have hbetween := between_of_ofSamples hleft
      obtain ⟨⟨x, hx⟩, -⟩ := hbetween.observe_eq_error h
      cases hx
      rw [hright]
      exact hbetween.observe_rename_of_keepsOrder hmono (between_of_ofSamples hright) htable h

/-- An ambiguity is reported for the renamed opcode, with the same number of candidates, after an
order-keeping renaming. -/
theorem Tracks.finish_rename (hmono : KeepsOrder ρ seen) (h : Tracks d seen)
    (h' : Tracks d' (seen.map (Sample.rename ρ))) (htable : d'.table = d.table.rename ρ) {n : Nat}
    (hfinish : d.finish = .error (.ambiguousBinding o n)) :
    d'.finish = .error (.ambiguousBinding (ρ o) n) := by
  have hlist := toList_eq_map_of_monotone (ρ := ρ) (fun x x' hx hx' =>
    hmono x (h.occurs_of_mem_candidates hx) x' (h.occurs_of_mem_candidates hx'))
    (h.candidates_rename_iff h' htable)
  cases hentries : d.candidates.toList with
  | nil =>
    unfold finish at hfinish
    rw [hentries] at hfinish
    cases hfinish
  | cons entry rest =>
    unfold finish at hfinish ⊢
    rw [hentries] at hfinish
    rw [hlist, hentries, List.map_cons]
    cases hfinish
    rfl

/-! ## The answer -/

/-- Answers that differ in the names of opcodes only: the renamed table, a failure at the same
sample, or an ambiguity in both cases. -/
inductive SameAnswer (ρ : UInt8 ↪ UInt8) :
    Except Fault BindingTable → Except Fault BindingTable → Prop
  | ok (t : BindingTable) : SameAnswer ρ (.ok t) (.ok (t.rename ρ))
  | inconsistent (o o' : UInt8) (i : Nat) :
      SameAnswer ρ (.error (.noConsistentOperation o i)) (.error (.noConsistentOperation o' i))
  | ambiguous (o o' : UInt8) (n n' : Nat) :
      SameAnswer ρ (.error (.ambiguousBinding o n)) (.error (.ambiguousBinding o' n'))

namespace SameAnswer

variable {answer answer' : Except Fault BindingTable}

theorem ok_iff (h : SameAnswer ρ answer answer') (t' : BindingTable) :
    answer' = .ok t' ↔ ∃ t, answer = .ok t ∧ t' = t.rename ρ := by
  cases h with
  | ok t => simp [eq_comm]
  | inconsistent o o' i => simp
  | ambiguous o o' n n' => simp

theorem inconsistent_iff (h : SameAnswer ρ answer answer') (i : Nat) :
    (∃ o', answer' = .error (.noConsistentOperation o' i)) ↔
      ∃ o, answer = .error (.noConsistentOperation o i) := by
  cases h with
  | ok t => simp
  | inconsistent o o' i => simp
  | ambiguous o o' n n' => simp

theorem ambiguous_iff (h : SameAnswer ρ answer answer') :
    (∃ o' n', answer' = .error (.ambiguousBinding o' n')) ↔
      ∃ o n, answer = .error (.ambiguousBinding o n) := by
  cases h with
  | ok t => simp
  | inconsistent o o' i => simp
  | ambiguous o o' n n' => simp

end SameAnswer

/-- The deduction from renamed samples has the same answer. -/
theorem deduceBindings_sameAnswer (ρ : UInt8 ↪ UInt8) (samples : List Sample) :
    SameAnswer ρ (deduceBindings samples)
      (deduceBindings (samples.map (Sample.rename ρ))) := by
  cases hleft : ofSamples samples with
  | error fault =>
    have hsame := ofSamples_rename ρ samples
    rw [hleft] at hsame
    obtain ⟨o, o', i, rfl, hright⟩ := hsame.exists_error
    rw [deduceBindings_of_ofSamples_eq_error hleft, deduceBindings_of_ofSamples_eq_error hright]
    exact .inconsistent o o' i
  | ok d =>
    obtain ⟨d', hright, htable⟩ := exists_ofSamples_rename_eq_ok (ρ := ρ) hleft
    have htracks' := (between_of_ofSamples hright).tracks
    rw [deduceBindings_of_ofSamples_eq_ok hleft, deduceBindings_of_ofSamples_eq_ok hright]
    rcases (between_of_ofSamples hleft).tracks.finish_cases with
      ⟨hbound, hfinish⟩ | ⟨⟨o, ho, hopen⟩, x, n, hfinish⟩
    · have hbound' : ∀ o' ∈ opcodes (samples.map (Sample.rename ρ)),
          d'.table.get? o' ≠ none := by
        intro o' ho'
        obtain ⟨o, rfl, ho⟩ := Sample.mem_opcodes_map_rename_iff.mp ho'
        rw [htable, BindingTable.get?_rename]
        exact hbound o ho
      rw [hfinish, htracks'.finish_eq_ok hbound', htable]
      exact .ok d.table
    · have hopen' : d'.table.get? (ρ o) = none := by
        rw [htable, BindingTable.get?_rename, hopen]
      obtain ⟨x', n', hfinish'⟩ := htracks'.exists_finish_eq_error
        (Sample.rename_mem_opcodes_map_rename_iff.mpr ho) hopen'
      rw [hfinish, hfinish']
      exact .ambiguous x x' n n'

/-- After an order-keeping renaming an ambiguity names the renamed opcode and the same number of
candidates. -/
theorem deduceBindings_ambiguous_of_keepsOrder (hmono : KeepsOrder ρ samples) {n : Nat}
    (h : deduceBindings samples = .error (.ambiguousBinding o n)) :
    deduceBindings (samples.map (Sample.rename ρ)) = .error (.ambiguousBinding (ρ o) n) := by
  cases hleft : ofSamples samples with
  | error fault =>
    have hsame := ofSamples_rename ρ samples
    rw [hleft] at hsame
    obtain ⟨x, x', i, rfl, -⟩ := hsame.exists_error
    rw [deduceBindings_of_ofSamples_eq_error hleft] at h
    cases h
  | ok d =>
    obtain ⟨d', hright, htable⟩ := exists_ofSamples_rename_eq_ok (ρ := ρ) hleft
    rw [deduceBindings_of_ofSamples_eq_ok hleft] at h
    rw [deduceBindings_of_ofSamples_eq_ok hright]
    exact (between_of_ofSamples hleft).tracks.finish_rename hmono
      (between_of_ofSamples hright).tracks htable h

/-- After an order-keeping renaming a failure names the renamed opcode. -/
theorem deduceBindings_inconsistent_of_keepsOrder (hmono : KeepsOrder ρ samples)
    (h : deduceBindings samples = .error (.noConsistentOperation o i)) :
    deduceBindings (samples.map (Sample.rename ρ)) =
      .error (.noConsistentOperation (ρ o) i) := by
  cases hleft : ofSamples samples with
  | error fault =>
    rw [deduceBindings_of_ofSamples_eq_error hleft] at h
    cases h
    exact deduceBindings_of_ofSamples_eq_error (ofSamples_rename_of_keepsOrder hmono hleft)
  | ok d =>
    rw [deduceBindings_of_ofSamples_eq_ok hleft] at h
    rcases (between_of_ofSamples hleft).tracks.finish_cases with
      ⟨-, hfinish⟩ | ⟨-, x, n, hfinish⟩
    · rw [hfinish] at h
      cases h
    · rw [hfinish] at h
      cases h

/-- **Opcodes are opaque.**  Deduction from renamed samples succeeds exactly when it did before, and
with the renamed table; it fails exactly when it did, at the same sample; and it finds an ambiguity
exactly when it did.  A renaming that keeps the order of the opcodes that occur also keeps the
opcode and the number of candidates in the fault.  A program of opcodes that occur has the same
result under the table as the renamed program under the renamed table. -/
theorem deduceBindings_rename (ρ : UInt8 ↪ UInt8) (samples : List Sample) :
    (∀ t', deduceBindings (samples.map (Sample.rename ρ)) = .ok t' ↔
      ∃ t, deduceBindings samples = .ok t ∧ t' = t.rename ρ) ∧
    (∀ i, (∃ o', deduceBindings (samples.map (Sample.rename ρ)) =
        .error (.noConsistentOperation o' i)) ↔
      ∃ o, deduceBindings samples = .error (.noConsistentOperation o i)) ∧
    ((∃ o' n', deduceBindings (samples.map (Sample.rename ρ)) =
        .error (.ambiguousBinding o' n')) ↔
      ∃ o n, deduceBindings samples = .error (.ambiguousBinding o n)) ∧
    (KeepsOrder ρ samples →
      (∀ o i, deduceBindings samples = .error (.noConsistentOperation o i) →
        deduceBindings (samples.map (Sample.rename ρ)) =
          .error (.noConsistentOperation (ρ o) i)) ∧
      ∀ o n, deduceBindings samples = .error (.ambiguousBinding o n) →
        deduceBindings (samples.map (Sample.rename ρ)) = .error (.ambiguousBinding (ρ o) n)) ∧
    ∀ t, deduceBindings samples = .ok t →
      ∀ program : List RawInstruction, (∀ i ∈ program, i.opcode ∈ opcodes samples) →
        ∀ {n : Nat} (initial : RegisterFile n),
          (t.rename ρ).run (program.map (RawInstruction.rename ρ)) initial =
            t.run program initial := by
  have hsame := deduceBindings_sameAnswer ρ samples
  refine ⟨hsame.ok_iff, hsame.inconsistent_iff, hsame.ambiguous_iff, ?_, ?_⟩
  · intro hmono
    exact ⟨fun _ _ => deduceBindings_inconsistent_of_keepsOrder hmono,
      fun _ _ => deduceBindings_ambiguous_of_keepsOrder hmono⟩
  · intro t hok program hprogram n initial
    obtain ⟨-, -, -, hbound⟩ := exists_of_deduceBindings_eq_ok hok
    exact BindingTable.run_rename (fun i hi => hbound i.opcode (hprogram i hi)) initial

/-- The renaming that exchanges the opcodes 0 and 1. -/
def exchange : UInt8 ↪ UInt8 where
  toFun o := if o = 0 then 1 else if o = 1 then 0 else o
  inj' o o' h := by grind

/-- Two opcodes that are left with one operation fail at the same sample when they change places.
The order in which they are visited changes with them: both deductions name opcode 0.  Where opcode
0 does not occur the exchange keeps the order, and the ambiguous opcode 1 is named as 0.  A program
that the samples determine runs the same after the exchange. -/
theorem deduceBindings_rename_contested :
    deduceBindings (Sample.contested.map (Sample.rename exchange)) =
        .error (.noConsistentOperation 0 3) ∧
      (∃ o', deduceBindings (Sample.contested.map (Sample.rename exchange)) =
        .error (.noConsistentOperation o' 3)) ∧
      deduceBindings ((Sample.chained.take 1).map (Sample.rename exchange)) =
        .error (.ambiguousBinding 0 3) ∧
      ∃ t, deduceBindings Sample.chained = .ok t ∧
        deduceBindings (Sample.chained.map (Sample.rename exchange)) = .ok (t.rename exchange) ∧
        (t.rename exchange).run [⟨0, ⟨2, 1, 2⟩⟩] (⟨#v[3, 2, 1, 1]⟩ : RegisterFile 4) =
          t.run [⟨1, ⟨2, 1, 2⟩⟩] ⟨#v[3, 2, 1, 1]⟩ := by
  have hcontested : deduceBindings Sample.contested = .error (.noConsistentOperation 0 3) := by
    decide +kernel
  have hambiguous : deduceBindings (Sample.chained.take 1) = .error (.ambiguousBinding 1 3) := by
    decide +kernel
  have hkeeps : KeepsOrder exchange (Sample.chained.take 1) := by
    intro o ho o' ho' hlt
    obtain rfl := List.mem_singleton.mp ho
    obtain rfl := List.mem_singleton.mp ho'
    exact absurd hlt (by decide)
  refine ⟨by decide +kernel, ?_, ?_, ?_⟩
  · exact ((deduceBindings_rename exchange Sample.contested).2.1 3).mpr ⟨0, hcontested⟩
  · exact ((deduceBindings_rename exchange (Sample.chained.take 1)).2.2.2.1 hkeeps).2 1 3 hambiguous
  · obtain ⟨hok, -, -, -, hrun⟩ := deduceBindings_rename exchange Sample.chained
    have hsome : (deduceBindings Sample.chained).toOption.isSome = true := by decide +kernel
    obtain ⟨t, ht⟩ : ∃ t, deduceBindings Sample.chained = .ok t := by
      cases hresult : deduceBindings Sample.chained with
      | error fault =>
        rw [hresult] at hsome
        exact absurd hsome Bool.false_ne_true
      | ok t => exact ⟨t, rfl⟩
    refine ⟨t, ht, (hok (t.rename exchange)).mpr ⟨t, ht, rfl⟩, ?_⟩
    exact hrun t ht [⟨1, ⟨2, 1, 2⟩⟩] (by decide) ⟨#v[3, 2, 1, 1]⟩

end Deduction

end RegisterMachine
