import RegisterMachine.Proofs.Deduction.History

set_option autoImplicit false

/-!
# The state between two samples, and ambiguity

Between two samples the state of a deduction has a closed form.  The opcodes that occur are bound or
have candidates, and not both; the assigned operations are those of the table; and the candidates
are the evidence without the assigned operations, at least two of them.

What the report of an ambiguity says is read off this form: the least open opcode and the number of
operations that are left for it.

How many operations a sample matches is counted without regard to other samples, while a deduction
narrows candidates across all of them.  So each sample of an opcode that stays open matches at least
as many operations as are left for the opcode in the end, and samples of which none matches two
operations are never reported as ambiguous.
-/

namespace RegisterMachine.Deduction

open Std (ExtTreeMap)
open Sample (evidence opcodes)
open Propagation

variable {d : Deduction} {samples seen xs : List Sample} {o o' : UInt8} {op : Operation} {n : Nat}

/-! ## Open opcodes -/

theorem Tracks.mem_candidates_iff (h : Tracks d seen) :
    o ∈ d.candidates ↔ o ∈ opcodes seen ∧ d.table.get? o = none := by
  rw [ExtTreeMap.mem_iff_isSome_getElem?, Option.isSome_iff_exists]
  simp only [h.candidates_iff]
  constructor
  · intro hex
    obtain ⟨_, ho, hopen, -⟩ := hex
    exact ⟨ho, hopen⟩
  · intro ho
    exact ⟨remaining seen d.table o, ho.1, ho.2, rfl⟩

/-- Every opcode that occurs has candidates or is bound. -/
theorem Tracks.mem_candidates_or_bound_iff (h : Tracks d seen) :
    o ∈ d.candidates ∨ d.table.get? o ≠ none ↔ o ∈ opcodes seen := by
  rw [h.mem_candidates_iff]
  constructor
  · rintro (ho | hbound)
    · exact ho.1
    · obtain ⟨op, hop⟩ := Option.ne_none_iff_exists'.mp hbound
      exact h.occurs_of_bound o op hop
  · intro ho
    by_cases hopen : d.table.get? o = none
    · exact Or.inl ⟨ho, hopen⟩
    · exact Or.inr hopen

theorem Tracks.mem_assigned_iff (h : Tracks d seen) :
    op ∈ d.assigned ↔ ∃ o, d.table.get? o = some op := by
  rw [h.assigned_eq, BindingTable.mem_range]

theorem Tracks.remaining_eq (h : Tracks d seen) :
    remaining seen d.table o = evidence seen o \ d.assigned := by
  rw [remaining, h.assigned_eq]

/-- The candidates of an open opcode, of which there are several. -/
theorem Between.candidates_of_open (h : Between d seen) (ho : o ∈ opcodes seen)
    (hopen : d.table.get? o = none) :
    d.candidates[o]? = some (evidence seen o \ d.assigned) ∧
      2 ≤ (evidence seen o \ d.assigned).size := by
  have hset : d.candidates[o]? = some (evidence seen o \ d.assigned) :=
    (h.tracks.candidates_iff o _).mpr ⟨ho, hopen, h.tracks.remaining_eq.symm⟩
  exact ⟨hset, h.settled o _ hset⟩

/-- The least of the opcodes that occur and are not bound. -/
structure LeastOpen (d : Deduction) (seen : List Sample) (o : UInt8) : Prop where
  /-- The opcode occurs. -/
  occurs : o ∈ opcodes seen
  /-- The opcode is not bound. -/
  unbound : d.table.get? o = none
  /-- No other such opcode is smaller. -/
  least : ∀ o' ∈ opcodes seen, d.table.get? o' = none → o ≤ o'

theorem LeastOpen.unique (h : d.LeastOpen seen o) (h' : d.LeastOpen seen o') : o = o' :=
  UInt8.le_antisymm (h.least o' h'.occurs h'.unbound) (h'.least o h.occurs h.unbound)

/-! ## The report -/

/-- The candidates are listed by increasing opcode, so the first entry is that of the least open
opcode. -/
theorem Tracks.leastOpen_of_toList_eq_cons (h : Tracks d seen) {set : OperationSet}
    {rest : List (UInt8 × OperationSet)} (hlist : d.candidates.toList = (o, set) :: rest) :
    d.LeastOpen seen o ∧ set = remaining seen d.table o := by
  have hentry : ∀ o' set', (o', set') ∈ (o, set) :: rest ↔
      o' ∈ opcodes seen ∧ d.table.get? o' = none ∧ set' = remaining seen d.table o' := by
    intro o' set'
    rw [← hlist, ExtTreeMap.mem_toList_iff_getElem?_eq_some, h.candidates_iff]
  obtain ⟨hoccurs, hopen, hset⟩ := (hentry o set).mp List.mem_cons_self
  refine ⟨⟨hoccurs, hopen, ?_⟩, hset⟩
  intro o' ho' hopen'
  have hordered : ((o, set) :: rest).Pairwise fun a b => compare a.1 b.1 = .lt := by
    rw [← hlist]
    exact ExtTreeMap.ordered_keys_toList
  rcases List.mem_cons.mp ((hentry o' _).mpr ⟨ho', hopen', rfl⟩) with heq | hmem
  · cases heq
    exact UInt8.le_refl _
  · have hlt := (List.pairwise_cons.mp hordered).1 _ hmem
    exact UInt8.le_of_lt (Std.compare_eq_lt.mp hlt)

/-- An ambiguity is reported for the least open opcode, with the number of operations left for
it. -/
theorem Tracks.finish_eq_error_iff (h : Tracks d seen) :
    d.finish = .error (.ambiguousBinding o n) ↔
      d.LeastOpen seen o ∧ n = (remaining seen d.table o).size := by
  have hreport : ∀ {x : UInt8} {k : Nat}, d.finish = .error (.ambiguousBinding x k) →
      d.LeastOpen seen x ∧ k = (remaining seen d.table x).size := by
    intro x k hfinish
    unfold finish at hfinish
    cases hlist : d.candidates.toList with
    | nil =>
      rw [hlist] at hfinish
      cases hfinish
    | cons entry rest =>
      obtain ⟨y, set⟩ := entry
      rw [hlist] at hfinish
      cases hfinish
      obtain ⟨hleast, rfl⟩ := h.leastOpen_of_toList_eq_cons hlist
      exact ⟨hleast, rfl⟩
  constructor
  · exact hreport
  · rintro ⟨hleast, rfl⟩
    obtain ⟨x, k, hfinish⟩ := h.exists_finish_eq_error hleast.occurs hleast.unbound
    obtain ⟨hleast', rfl⟩ := hreport hfinish
    rw [hfinish, hleast.unique hleast']

/-- The deduction reports an ambiguity only after all samples. -/
theorem deduceBindings_eq_ambiguousBinding_iff :
    deduceBindings samples = .error (.ambiguousBinding o n) ↔
      ∃ d, ofSamples samples = .ok d ∧ d.LeastOpen samples o ∧
        n = (evidence samples o \ d.assigned).size := by
  cases hd : ofSamples samples with
  | ok d =>
    have htracks := (between_of_ofSamples hd).tracks
    rw [deduceBindings_of_ofSamples_eq_ok hd, htracks.finish_eq_error_iff, htracks.remaining_eq]
    simp
  | error fault =>
    obtain ⟨xs, s, ys, c, -, hc, hobserve⟩ := exists_observe_eq_error hd
    obtain ⟨⟨x, rfl⟩, -⟩ := (between_of_ofSamples hc).observe_eq_error hobserve
    rw [deduceBindings_of_ofSamples_eq_error hd]
    simp

/-- An ambiguity is reported exactly if all samples go through and some opcode stays open. -/
theorem exists_ambiguousBinding_iff :
    (∃ o n, deduceBindings samples = .error (.ambiguousBinding o n)) ↔
      ∃ d, ofSamples samples = .ok d ∧ ∃ o ∈ opcodes samples, d.table.get? o = none := by
  constructor
  · intro hex
    obtain ⟨o, n, hreport⟩ := hex
    obtain ⟨d, hd, hleast, -⟩ := deduceBindings_eq_ambiguousBinding_iff.mp hreport
    exact ⟨d, hd, o, hleast.occurs, hleast.unbound⟩
  · intro hex
    obtain ⟨d, hd, o, ho, hopen⟩ := hex
    rw [deduceBindings_of_ofSamples_eq_ok hd]
    exact (between_of_ofSamples hd).tracks.exists_finish_eq_error ho hopen

/-- **The state between two samples.**  After every part of the samples that goes through, the
opcodes with candidates and the bound ones are different, and together they are those that occur;
the assigned operations are the bound ones; and the candidates of an open opcode are at least two,
the evidence on it without the assigned operations.  So an ambiguity is reported exactly if all
samples go through and some opcode that occurs stays open, and then for the least such opcode with
the number of its candidates. -/
theorem state_between_samples (samples : List Sample) :
    (∀ xs d, xs <+: samples → ofSamples xs = .ok d →
      (∀ o, ¬ (o ∈ d.candidates ∧ d.table.get? o ≠ none)) ∧
      (∀ o, o ∈ d.candidates ∨ d.table.get? o ≠ none ↔ o ∈ opcodes xs) ∧
      (∀ op, op ∈ d.assigned ↔ ∃ o, d.table.get? o = some op) ∧
      ∀ o ∈ opcodes xs, d.table.get? o = none →
        d.candidates[o]? = some (evidence xs o \ d.assigned) ∧
          2 ≤ (evidence xs o \ d.assigned).size) ∧
    ((∃ o n, deduceBindings samples = .error (.ambiguousBinding o n)) ↔
      ∃ d, ofSamples samples = .ok d ∧ ∃ o ∈ opcodes samples, d.table.get? o = none) ∧
    ∀ o n, (deduceBindings samples = .error (.ambiguousBinding o n) ↔
        ∃ d, ofSamples samples = .ok d ∧ d.LeastOpen samples o ∧
          n = (evidence samples o \ d.assigned).size) ∧
      (deduceBindings samples = .error (.ambiguousBinding o n) → 2 ≤ n) := by
  refine ⟨?_, exists_ambiguousBinding_iff, ?_⟩
  · intro xs d _ hd
    have hbetween := between_of_ofSamples hd
    refine ⟨?_, fun o => hbetween.tracks.mem_candidates_or_bound_iff,
      fun op => hbetween.tracks.mem_assigned_iff, fun o => hbetween.candidates_of_open⟩
    intro o hboth
    exact hboth.2 (hbetween.tracks.mem_candidates_iff.mp hboth.1).2
  · intro o n
    refine ⟨deduceBindings_eq_ambiguousBinding_iff, ?_⟩
    intro hreport
    obtain ⟨d, hd, hleast, rfl⟩ := deduceBindings_eq_ambiguousBinding_iff.mp hreport
    exact ((between_of_ofSamples hd).candidates_of_open hleast.occurs hleast.unbound).2

/-- After two of the samples that need each other the first opcode has lost one of its three
candidates to the second.  This is reported if no sample follows. -/
theorem state_between_samples_chained :
    deduceBindings (Sample.chained.take 2) = .error (.ambiguousBinding 1 2) ∧
      ∃ d, Sample.chained.take 2 <+: Sample.chained ∧ ofSamples (Sample.chained.take 2) = .ok d ∧
        d.LeastOpen (Sample.chained.take 2) 1 ∧ 1 ∈ d.candidates ∧ d.table.get? 2 = some .mulr ∧
        d.candidates[(1 : UInt8)]? = some (evidence (Sample.chained.take 2) 1 \ d.assigned) ∧
        2 ≤ (evidence (Sample.chained.take 2) 1 \ d.assigned).size := by
  have hreport : deduceBindings (Sample.chained.take 2) = .error (.ambiguousBinding 1 2) := by
    decide +kernel
  have hpart : Sample.chained.take 2 <+: Sample.chained := List.take_prefix 2 _
  obtain ⟨-, -, hambiguous⟩ := state_between_samples (Sample.chained.take 2)
  obtain ⟨d, hd, hleast, -⟩ := (hambiguous 1 2).1.mp hreport
  obtain ⟨-, hunion, -, hclosed⟩ := (state_between_samples Sample.chained).1 _ d hpart hd
  obtain ⟨hset, hsize⟩ := hclosed 1 hleast.occurs hleast.unbound
  have hmulr : d.table.get? 2 = some .mulr := by
    have hget : (ofSamples (Sample.chained.take 2)).toOption.map (·.table.get? 2) =
        some (some .mulr) := by
      decide +kernel
    rw [hd] at hget
    exact Option.some.inj hget
  have hopen : 1 ∈ d.candidates := by
    rcases (hunion 1).mpr hleast.occurs with hmem | hbound
    · exact hmem
    · exact absurd hleast.unbound hbound
  exact ⟨hreport, d, hpart, hd, hleast, hopen, hmulr, hset, hsize⟩

end RegisterMachine.Deduction

/-! ## What single samples tell about the outcome -/

namespace RegisterMachine

open Sample (evidence candidateCounts countAmbiguous)

variable {samples : List Sample} {s : Sample} {o : UInt8} {n threshold : Nat}

namespace Sample

/-- Ambiguous samples are counted by their candidates. -/
theorem countAmbiguous_eq_length_filter (samples : List Sample) (threshold : Nat) :
    countAmbiguous samples threshold =
      ((candidateCounts samples).filter fun count => threshold ≤ count).length := by
  rw [countAmbiguous, candidateCounts, ← List.countP_eq_length_filter, List.countP_map]
  rfl

/-- Some sample matches so many operations if one is counted. -/
theorem countAmbiguous_eq_zero_iff :
    countAmbiguous samples threshold = 0 ↔ ∀ s ∈ samples, s.candidateCount < threshold := by
  simp [countAmbiguous, List.countP_eq_zero]

/-- The evidence on the opcode of a sample has no more members than the sample matches. -/
theorem size_evidence_le_candidateCount (hs : s ∈ samples) :
    (evidence samples s.opcode).size ≤ s.candidateCount := by
  refine OperationSet.size_le_of_forall_mem fun op hop => ?_
  rw [mem_consistentOperations]
  exact mem_evidence_iff.mp hop s hs rfl

end Sample

namespace Deduction

/-- The three ways in which a deduction ends. -/
theorem deduceBindings_cases (samples : List Sample) :
    (∃ t, deduceBindings samples = .ok t) ∨
      (∃ o i, deduceBindings samples = .error (.noConsistentOperation o i)) ∨
      ∃ o n, deduceBindings samples = .error (.ambiguousBinding o n) := by
  cases hd : ofSamples samples with
  | error fault =>
    obtain ⟨xs, s, ys, c, -, hc, hobserve⟩ := exists_observe_eq_error hd
    obtain ⟨⟨o, rfl⟩, -⟩ := (between_of_ofSamples hc).observe_eq_error hobserve
    exact .inr (.inl ⟨o, xs.length, deduceBindings_of_ofSamples_eq_error hd⟩)
  | ok d =>
    rw [deduceBindings_of_ofSamples_eq_ok hd]
    rcases (between_of_ofSamples hd).tracks.finish_cases with
      ⟨-, hfinish⟩ | ⟨-, o, n, hfinish⟩
    · exact .inl ⟨d.table, hfinish⟩
    · exact .inr (.inr ⟨o, n, hfinish⟩)

/-- An opcode that stays open has several candidates left. -/
theorem two_le_of_ambiguousBinding
    (h : deduceBindings samples = .error (.ambiguousBinding o n)) : 2 ≤ n := by
  obtain ⟨d, hd, hleast, rfl⟩ := deduceBindings_eq_ambiguousBinding_iff.mp h
  exact ((between_of_ofSamples hd).candidates_of_open hleast.occurs hleast.unbound).2

theorem exists_sample_of_ambiguousBinding
    (h : deduceBindings samples = .error (.ambiguousBinding o n)) :
    ∃ s ∈ samples, s.opcode = o := by
  obtain ⟨d, -, hleast, -⟩ := deduceBindings_eq_ambiguousBinding_iff.mp h
  exact Sample.mem_opcodes_iff.mp hleast.occurs

/-- Every sample of an opcode that stays open matches the operations that are left for it. -/
theorem le_candidateCount_of_ambiguousBinding
    (h : deduceBindings samples = .error (.ambiguousBinding o n)) (hs : s ∈ samples)
    (ho : s.opcode = o) : n ≤ s.candidateCount := by
  obtain ⟨d, -, -, rfl⟩ := deduceBindings_eq_ambiguousBinding_iff.mp h
  subst ho
  calc (evidence samples s.opcode \ d.assigned).size
      ≤ (evidence samples s.opcode).size :=
        OperationSet.size_le_of_forall_mem fun op hop => (OperationSet.mem_sdiff.mp hop).1
    _ ≤ s.candidateCount := Sample.size_evidence_le_candidateCount hs

/-- So many samples match at least a given number of operations as there are entries of at least
that number among the counts of candidates.  If an opcode is reported as ambiguous, it occurs, and
each of its samples matches at least as many operations as are left for it; so at least as many
samples match that many as the opcode has.  Therefore samples of which none matches two operations
have an answer or contradict each other. -/
theorem sample_counts_bound_ambiguity (samples : List Sample) :
    (∀ threshold, countAmbiguous samples threshold =
      ((candidateCounts samples).filter fun count => threshold ≤ count).length) ∧
    (∀ o n, deduceBindings samples = .error (.ambiguousBinding o n) →
      (∃ s ∈ samples, s.opcode = o) ∧
      (∀ s ∈ samples, s.opcode = o → n ≤ s.candidateCount) ∧
      (samples.filter fun s => s.opcode = o).length ≤ countAmbiguous samples n) ∧
    (countAmbiguous samples 2 = 0 →
      (∃ t, deduceBindings samples = .ok t) ∨
        ∃ o i, deduceBindings samples = .error (.noConsistentOperation o i)) := by
  refine ⟨Sample.countAmbiguous_eq_length_filter samples, fun o n h => ?_, fun hnone => ?_⟩
  · refine ⟨exists_sample_of_ambiguousBinding h,
      fun s hs => le_candidateCount_of_ambiguousBinding h hs, ?_⟩
    rw [← List.countP_eq_length_filter]
    refine List.countP_mono_left fun s hs ho => ?_
    exact decide_eq_true (le_candidateCount_of_ambiguousBinding h hs (of_decide_eq_true ho))
  · rcases deduceBindings_cases samples with hok | hfailed | ⟨o, n, h⟩
    · exact .inl hok
    · exact .inr hfailed
    · obtain ⟨s, hs, ho⟩ := exists_sample_of_ambiguousBinding h
      have hle := le_candidateCount_of_ambiguousBinding h hs ho
      have htwo := two_le_of_ambiguousBinding h
      have hlt := Sample.countAmbiguous_eq_zero_iff.mp hnone s hs
      omega

end Deduction

end RegisterMachine
