import RegisterMachine.Proofs.Deduction.Observation

set_option autoImplicit false

/-!
# Elimination over all the evidence

The deduction looks at one sample at a time, binds as early as it can and passes over the later
samples of a bound opcode.  The reference is elimination with all evidence on the table: list the
opcodes so that each has a single operation left once the operations of those before it are gone.

For samples that some assignment explains, the deduction succeeds exactly when such a list exists.
Since neither side of that equivalence depends on the order of the samples or on repetitions, the
outcome of the deduction does not either.
-/

namespace RegisterMachine.Deduction

open Sample (evidence opcodes Explains)
open Propagation

variable {samples xs ys : List Sample} {f : UInt8 → Operation} {t : BindingTable}
  {order : List UInt8} {o : UInt8}

/-! ## Elimination orders -/

/-- Each opcode of the list has a single operation left, its own, once the operations of the
opcodes before it are taken away from its evidence. -/
def Eliminates (samples : List Sample) (f : UInt8 → Operation) (order : List UInt8) : Prop :=
  ∀ k (hk : k < order.length),
    evidence samples order[k] \ .ofList ((order.take k).map f) = {f order[k]}

/-- A list of all opcodes that occur, each of them once, that can be eliminated one by one. -/
structure EliminationOrder (samples : List Sample) (f : UInt8 → Operation)
    (order : List UInt8) : Prop where
  /-- No opcode is listed twice. -/
  nodup : order.Nodup
  /-- The opcodes listed are those that occur. -/
  mem_iff : ∀ o, o ∈ order ↔ o ∈ opcodes samples
  /-- Every opcode can be eliminated in its turn. -/
  eliminates : Eliminates samples f order

theorem eliminates_nil : Eliminates samples f [] := by
  intro k hk
  exact absurd hk (Nat.not_lt_zero k)

theorem eliminates_append_singleton :
    Eliminates samples f (order ++ [o]) ↔
      Eliminates samples f order ∧ evidence samples o \ .ofList (order.map f) = {f o} := by
  constructor
  · intro h
    constructor
    · intro k hk
      have hlt : k < (order ++ [o]).length := by
        rw [List.length_append]
        omega
      have hk' := h k hlt
      rwa [List.getElem_append_left hk, List.take_append_of_le_length (by omega)] at hk'
    · have hlast := h order.length (by simp)
      simpa using hlast
  · rintro ⟨h, hlast⟩ k hk
    rw [List.length_append, List.length_singleton] at hk
    rcases Nat.lt_or_ge k order.length with hlt | hge
    · rw [List.getElem_append_left hlt, List.take_append_of_le_length (by omega)]
      exact h k hlt
    · obtain rfl : k = order.length := by omega
      simpa using hlast

/-- Propagation finds an order in which the opcodes that it binds can be eliminated. -/
theorem exists_eliminates_of_steps (hf : Explains f samples) (h : Steps samples ∅ t) :
    ∃ order : List UInt8, order.Nodup ∧ (∀ o, o ∈ order ↔ t.get? o ≠ none) ∧
      t.range = .ofList (order.map f) ∧ Eliminates samples f order := by
  induction h with
  | refl => exact ⟨[], List.nodup_nil, by simp, by simp [OperationSet.ofList], eliminates_nil⟩
  | @tail v w hsteps step ih =>
    obtain ⟨order, hnodup, hmem, hrange, helim⟩ := ih
    have hw : Steps samples ∅ w := hsteps.tail step
    cases step with
    | @bind o op occurs unbound forced insert =>
      have hop : f o = op :=
        (hw.eq_of_explains hf (BindingTable.get?_self_of_insert insert)).2
      refine ⟨order ++ [o], ?_, ?_, ?_, eliminates_append_singleton.mpr ⟨helim, ?_⟩⟩
      · rw [List.nodup_append]
        refine ⟨hnodup, List.nodup_singleton o, ?_⟩
        rintro a ha b hb rfl
        rw [List.mem_singleton] at hb
        rw [hb, hmem] at ha
        exact ha unbound
      · intro o'
        rw [List.mem_append, List.mem_singleton, hmem, BindingTable.get?_of_insert insert]
        by_cases hne : o = o'
        · simp [hne]
        · simp [hne, Ne.symm hne]
      · ext p
        rw [BindingTable.range_of_insert insert, hrange]
        simp [hop]
      · rw [← hrange, hop]
        exact forced

/-- A saturated table that propagation reaches binds every opcode that can be eliminated. -/
theorem bound_of_eliminates (hf : Explains f samples) (h : Resolves samples ∅ t)
    (hoccur : ∀ o ∈ order, o ∈ opcodes samples) (helim : Eliminates samples f order) :
    ∀ o ∈ order, t.get? o ≠ none := by
  induction order using List.reverseRecOn with
  | nil =>
    intro o ho
    exact absurd ho List.not_mem_nil
  | append_singleton order last ih =>
    obtain ⟨hinit, hlast⟩ := eliminates_append_singleton.mp helim
    have hbound := ih (fun o ho => hoccur o (List.mem_append_left _ ho)) hinit
    intro o ho
    rcases List.mem_append.mp ho with hmem | hmem
    · exact hbound o hmem
    · obtain rfl := List.mem_singleton.mp hmem
      intro hopen
      -- What is left for the opcode is among what elimination leaves, and that is one operation.
      have hsmall : (remaining samples t o).size ≤ ({f o} : OperationSet).size := by
        apply OperationSet.size_le_of_forall_mem
        intro p hp
        rw [← hlast, OperationSet.mem_sdiff, OperationSet.mem_ofList, List.mem_map]
        refine ⟨(mem_remaining.mp hp).1, ?_⟩
        intro hex
        obtain ⟨o', ho', rfl⟩ := hex
        obtain ⟨op, hop⟩ := Option.ne_none_iff_exists'.mp (hbound o' ho')
        apply (mem_remaining.mp hp).2
        rw [BindingTable.mem_range]
        exact ⟨o', by rw [hop, (h.1.eq_of_explains hf hop).2]⟩
      have hlarge := h.2 o (hoccur o ho) hopen
      rw [OperationSet.size_singleton] at hsmall
      omega

/-- **What the deduction can resolve.**  Samples that some assignment explains are resolved exactly
if the opcodes that occur can be eliminated in some order under all the evidence. -/
theorem deduceBindings_resolves_iff (hf : Explains f samples) :
    (∃ t, deduceBindings samples = .ok t) ↔ ∃ order, EliminationOrder samples f order := by
  obtain ⟨d, hd, hresolves⟩ := exists_ofSamples_eq_ok hf
  have htracks : d.Tracks samples := (between_of_ofSamples hd).tracks
  rw [deduceBindings_of_ofSamples_eq_ok hd]
  constructor
  · intro hex
    obtain ⟨t, ht⟩ := hex
    obtain ⟨order, hnodup, hmem, -, helim⟩ := exists_eliminates_of_steps hf hresolves.1
    refine ⟨order, hnodup, ?_, helim⟩
    intro o
    rw [hmem]
    constructor
    · intro hbound
      obtain ⟨op, hop⟩ := Option.ne_none_iff_exists'.mp hbound
      exact htracks.occurs_of_bound o op hop
    · intro ho hopen
      obtain ⟨o', n, herror⟩ := htracks.exists_finish_eq_error ho hopen
      rw [ht] at herror
      cases herror
  · intro hex
    obtain ⟨order, -, hmem, helim⟩ := hex
    refine ⟨d.table, htracks.finish_eq_ok ?_⟩
    intro o ho
    exact bound_of_eliminates hf hresolves (fun o ho => (hmem o).mp ho) helim o ((hmem o).mpr ho)

/-- The three opcodes that have to be bound one after the other can be eliminated: the two that are
certain first, the one that depends on them last. -/
theorem deduceBindings_resolves_chained :
    Explains Sample.chainedMeaning Sample.chained ∧
      ∃ t, deduceBindings Sample.chained = .ok t := by
  have hexplains : Explains Sample.chainedMeaning Sample.chained := by
    decide +kernel
  refine ⟨hexplains, (deduceBindings_resolves_iff hexplains).mpr ⟨[3, 2, 1], ?_, ?_, ?_⟩⟩
  · decide
  · intro o
    show o ∈ ([1, 2, 3] : List UInt8).reverse ↔ o ∈ ([1, 2, 3] : List UInt8)
    exact List.mem_reverse
  · show Eliminates _ _ ((([] ++ [3]) ++ [2]) ++ [1])
    rw [eliminates_append_singleton, eliminates_append_singleton, eliminates_append_singleton]
    exact ⟨⟨⟨eliminates_nil, by decide +kernel⟩, by decide +kernel⟩, by decide +kernel⟩

/-! ## Order and multiplicity of the samples -/

/-- Two deductions from the same samples, in whatever order and number, end in the same state. -/
theorem ofSamples_eq_of_same (hsame : ∀ s, s ∈ xs ↔ s ∈ ys) (hf : Explains f xs) :
    ofSamples xs = ofSamples ys := by
  have hxy : xs ⊆ ys := fun s hs => (hsame s).mp hs
  have hyx : ys ⊆ xs := fun s hs => (hsame s).mpr hs
  have hf' : Explains f ys := hf.mono hyx
  obtain ⟨d, hd, hsteps, hsaturated⟩ := exists_ofSamples_eq_ok hf
  obtain ⟨d', hd', hresolves'⟩ := exists_ofSamples_eq_ok hf'
  have hresolves : Resolves ys ∅ d.table :=
    ⟨hsteps.of_subset hf' hxy, hsaturated.of_subset hyx⟩
  have htable : d.table = d'.table := hresolves.unique hresolves'
  have hstate : d = d' := (between_of_ofSamples hd).tracks.eq_of_table_eq
    (between_of_ofSamples hd').tracks hsame htable
  rw [hd, hd', hstate]

/-- **Order and multiplicity do not matter.**  Two lists of the same samples have the same outcome
if some assignment explains them: the same table, or the same ambiguity with the same opcode and
number of candidates. -/
theorem deduceBindings_eq_of_same_samples (hsame : ∀ s, s ∈ xs ↔ s ∈ ys) (hf : Explains f xs) :
    deduceBindings xs = deduceBindings ys ∧
      ((∃ t, deduceBindings xs = .ok t) ∨
        ∃ o n, deduceBindings xs = .error (.ambiguousBinding o n)) := by
  obtain ⟨d, hd, -⟩ := exists_ofSamples_eq_ok hf
  have hd' : ofSamples ys = .ok d := by
    rw [← ofSamples_eq_of_same hsame hf]
    exact hd
  rw [deduceBindings_of_ofSamples_eq_ok hd, deduceBindings_of_ofSamples_eq_ok hd']
  refine ⟨rfl, ?_⟩
  rcases (between_of_ofSamples hd).tracks.finish_cases with ⟨-, hok⟩ | ⟨-, herror⟩
  · exact Or.inl ⟨d.table, hok⟩
  · exact Or.inr herror

/-- The three samples of opcodes that have to be bound one after the other may come in reverse, each
of them twice. -/
theorem deduceBindings_eq_of_same_samples_chained :
    let twice := Sample.chained.reverse ++ Sample.chained.reverse
    (∀ s, s ∈ Sample.chained ↔ s ∈ twice) ∧ Explains Sample.chainedMeaning Sample.chained ∧
      deduceBindings Sample.chained = deduceBindings twice := by
  intro twice
  have hsame : ∀ s, s ∈ Sample.chained ↔ s ∈ twice := by
    intro s
    simp [twice]
  have hexplains : Explains Sample.chainedMeaning Sample.chained := by
    decide +kernel
  exact ⟨hsame, hexplains, (deduceBindings_eq_of_same_samples hsame hexplains).1⟩

end RegisterMachine.Deduction
