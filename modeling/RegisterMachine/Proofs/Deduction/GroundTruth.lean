import RegisterMachine.Proofs.Deduction.Observation

set_option autoImplicit false

/-!
# Deduction keeps every explanation

If the samples come from a machine whose opcodes have a meaning, that meaning explains them.  The
deduction then answers this meaning or says that the samples are ambiguous.  So it can only answer
what all explanations have in common.
-/

namespace RegisterMachine

namespace BindingTable

/-- The meaning that a table gives to opcodes, with some operation for those that are not bound. -/
def meaning (t : BindingTable) (o : UInt8) : Operation := (t.get? o).getD default

theorem meaning_of_get? {t : BindingTable} {o : UInt8} {op : Operation} (h : t.get? o = some op) :
    t.meaning o = op := by
  rw [meaning, h, Option.getD_some]

end BindingTable

namespace Deduction

open Sample (opcodes restrict Explains)
open Propagation

variable {samples : List Sample} {f g : UInt8 → Operation} {t : BindingTable}

/-- A table reached by propagation that binds every opcode that occurs is every explanation. -/
theorem get?_eq_restrict_of_explains (hf : Explains f samples) (hsteps : Steps samples ∅ t)
    (hbound : ∀ o ∈ opcodes samples, t.get? o ≠ none) (o : UInt8) :
    t.get? o = restrict f samples o := by
  cases ho : t.get? o with
  | none =>
    have hnot : o ∉ opcodes samples := fun hmem => hbound o hmem ho
    rw [restrict, if_neg hnot]
  | some op =>
    obtain ⟨hmem, hop⟩ := hsteps.eq_of_explains hf ho
    rw [Sample.restrict_of_mem hmem, hop]

/-- An explanation is answered, or the samples are ambiguous. -/
theorem deduceBindings_of_explains (hf : Explains f samples) :
    (∃ t, deduceBindings samples = .ok t ∧ ∀ o, t.get? o = restrict f samples o) ∨
      ∃ o n, deduceBindings samples = .error (.ambiguousBinding o n) := by
  obtain ⟨d, hd, hsteps, -⟩ := exists_ofSamples_eq_ok hf
  have htracks : d.Tracks samples := (between_of_ofSamples hd).tracks
  rw [deduceBindings_of_ofSamples_eq_ok hd]
  rcases htracks.finish_cases with ⟨hbound, hfinish⟩ | ⟨-, hfinish⟩
  · exact Or.inl ⟨d.table, hfinish, get?_eq_restrict_of_explains hf hsteps hbound⟩
  · exact Or.inr hfinish

/-- A table that answers an explanation answers every explanation. -/
theorem get?_eq_restrict_of_deduceBindings (hok : deduceBindings samples = .ok t)
    (hg : Explains g samples) (o : UInt8) : t.get? o = restrict g samples o := by
  rcases deduceBindings_of_explains hg with ⟨t', ht', hrestrict⟩ | ⟨o', n, herror⟩
  · rw [hok] at ht'
    cases ht'
    exact hrestrict o
  · rw [hok] at herror
    cases herror

/-- A table that matches every sample is an explanation. -/
theorem explains_meaning
    (hfits : ∀ s ∈ samples, ∃ op, t.get? s.opcode = some op ∧ s.Matches op) :
    Explains t.meaning samples where
  injective o ho o' ho' heq := by
    obtain ⟨s, hs, rfl⟩ := Sample.mem_opcodes_iff.mp ho
    obtain ⟨s', hs', rfl⟩ := Sample.mem_opcodes_iff.mp ho'
    obtain ⟨op, hop, -⟩ := hfits s hs
    obtain ⟨op', hop', -⟩ := hfits s' hs'
    rw [BindingTable.meaning_of_get? hop, BindingTable.meaning_of_get? hop'] at heq
    subst heq
    exact BindingTable.get?_injective hop hop'
  fits s hs := by
    obtain ⟨op, hop, hmatch⟩ := hfits s hs
    rw [BindingTable.meaning_of_get? hop]
    exact hmatch

/-- **No explanation is lost.**  Samples that some assignment explains are answered by exactly that
assignment on the opcodes that occur, or reported as ambiguous.  Two explanations that differ on an
opcode that occurs are always reported as ambiguous, and a table that is answered and matches every
sample is the only explanation. -/
theorem explanations_survive (samples : List Sample) :
    (∀ f, Explains f samples →
      (∃ t, deduceBindings samples = .ok t ∧ ∀ o, t.get? o = restrict f samples o) ∨
        ∃ o n, deduceBindings samples = .error (.ambiguousBinding o n)) ∧
    (∀ f g, Explains f samples → Explains g samples → (∃ o ∈ opcodes samples, f o ≠ g o) →
      ∃ o n, deduceBindings samples = .error (.ambiguousBinding o n)) ∧
    (∀ t, deduceBindings samples = .ok t →
      (∀ s ∈ samples, ∃ op, t.get? s.opcode = some op ∧ s.Matches op) →
      (∃ f, Explains f samples ∧ ∀ o, t.get? o = restrict f samples o) ∧
        ∀ g, Explains g samples → ∀ o, t.get? o = restrict g samples o) := by
  refine ⟨fun f hf => deduceBindings_of_explains hf, ?_, ?_⟩
  · rintro f g hf hg ⟨o, ho, hne⟩
    rcases deduceBindings_of_explains hf with ⟨t, hok, hrestrict⟩ | hambiguous
    · have hfg := (hrestrict o).symm.trans (get?_eq_restrict_of_deduceBindings hok hg o)
      rw [Sample.restrict_of_mem ho, Sample.restrict_of_mem ho] at hfg
      exact absurd (Option.some.inj hfg) hne
    · exact hambiguous
  · intro t hok hfits
    have hexplains : Explains t.meaning samples := explains_meaning hfits
    exact ⟨⟨t.meaning, hexplains, get?_eq_restrict_of_deduceBindings hok hexplains⟩,
      fun g hg => get?_eq_restrict_of_deduceBindings hok hg⟩

/-- The meaning of three opcodes that have to be bound one after the other is answered, as the only
explanation.  The first sample alone may be an addition or a multiplication: it is ambiguous. -/
theorem explanations_survive_chained :
    (Explains Sample.chainedMeaning Sample.chained ∧
      ∃ t, deduceBindings Sample.chained = .ok t ∧
        (∀ o, t.get? o = restrict Sample.chainedMeaning Sample.chained o) ∧
        ∀ g, Explains g Sample.chained → ∀ o, t.get? o = restrict g Sample.chained o) ∧
      ∃ o n, deduceBindings (Sample.chained.take 1) = .error (.ambiguousBinding o n) := by
  have hexplains : Explains Sample.chainedMeaning Sample.chained := by
    decide +kernel
  refine ⟨⟨hexplains, ?_⟩, ?_⟩
  · obtain ⟨hkept, -, honly⟩ := explanations_survive Sample.chained
    rcases hkept _ hexplains with ⟨t, hok, hrestrict⟩ | ⟨o, n, herror⟩
    · refine ⟨t, hok, hrestrict, (honly t hok ?_).2⟩
      intro s hs
      refine ⟨Sample.chainedMeaning s.opcode, ?_, hexplains.fits s hs⟩
      rw [hrestrict, Sample.restrict_of_mem (Sample.opcode_mem_opcodes hs)]
    · have hsome : (deduceBindings Sample.chained).toOption.isSome = true := by decide +kernel
      rw [herror] at hsome
      exact absurd hsome Bool.false_ne_true
  · have hadd : Explains (fun _ => .addi) (Sample.chained.take 1) := by
      decide +kernel
    have hmul : Explains (fun _ => .mulr) (Sample.chained.take 1) := by
      decide +kernel
    exact (explanations_survive (Sample.chained.take 1)).2.1 _ _ hadd hmul
      ⟨1, by decide, by decide⟩

end Deduction

end RegisterMachine
