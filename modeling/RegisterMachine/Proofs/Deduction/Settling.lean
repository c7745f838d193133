import Mathlib.Logic.Relation
import RegisterMachine.Deduction
import RegisterMachine.Proofs.Deduction.Propagation

set_option autoImplicit false

/-!
# Settling a deduction

The settling loop takes turns: the first of the pending opcodes is visited, and what its binding
affects goes in front of the others.  The loop ends in the state in which no opcode is pending any
more, or fails in the state in which a visit fails.  So what one turn preserves holds of every state
that the loop passes through, and of its end.

While opcodes are visited the state of a deduction is always determined by its table and by the
samples seen: an open opcode has as candidates exactly the operations that propagation has left for
it, and an opcode with fewer than two of them is waiting for its visit.

`Settling` is this invariant of the loop.  A visit keeps it (`Settling.visit`), so the loop either
ends with every open opcode undecided between several operations, or stops at an opcode that has
none left.
-/

namespace RegisterMachine.Deduction

open Std (ExtTreeMap)
open Sample (evidence opcodes)
open Propagation

variable {d d' e : Deduction} {i : Nat} {o : UInt8} {op : Operation} {set : OperationSet}
  {again pending rest : List UInt8} {seen : List Sample} {start : BindingTable} {fault : Fault}

/-! ## Turns of the loop -/

theorem settle_cons_of_visit_eq_ok (h : d.visit i o = .ok (e, again)) :
    d.settle i (o :: rest) = e.settle i (again.reverse ++ rest) := by
  rw [settle]
  split
  case h_1 fault hfault => rw [h] at hfault; cases hfault
  case h_2 e' again' hok =>
    rw [h] at hok
    cases hok
    rfl

theorem settle_cons_of_visit_eq_error (h : d.visit i o = .error fault) :
    d.settle i (o :: rest) = .error fault := by
  rw [settle]
  split
  case h_1 fault' hfault =>
    rw [h] at hfault
    cases hfault
    rfl
  case h_2 hok => rw [h] at hok; cases hok

/-- One turn of the loop, while the sample with index `i` is observed: the first pending opcode is
visited. -/
inductive Turn (i : Nat) : Deduction × List UInt8 → Deduction × List UInt8 → Prop
  | visit {d e : Deduction} {o : UInt8} {rest again : List UInt8}
      (visited : d.visit i o = .ok (e, again)) : Turn i (d, o :: rest) (e, again.reverse ++ rest)

/-- Any number of turns. -/
abbrev Turns (i : Nat) : Deduction × List UInt8 → Deduction × List UInt8 → Prop :=
  Relation.ReflTransGen (Turn i)

/-- What a visit that goes through keeps holds of every state that the loop passes through. -/
theorem invariant_of_turns {P : Deduction → List UInt8 → Prop}
    (visit : ∀ {d e : Deduction} {o : UInt8} {rest again : List UInt8},
      P d (o :: rest) → d.visit i o = .ok (e, again) → P e (again.reverse ++ rest))
    (first : P d pending) (h : Turns i (d, pending) (e, rest)) : P e rest := by
  generalize hlast : (e, rest) = last at h
  induction h generalizing e rest with
  | refl =>
    cases hlast
    exact first
  | tail _ turn ih =>
    cases turn with
    | visit visited =>
      cases hlast
      exact visit (ih rfl) visited

/-- Turns that were taken make no difference to how the loop ends. -/
theorem settle_eq_of_turns (h : Turns i (d, pending) (e, rest)) :
    d.settle i pending = e.settle i rest := by
  refine invariant_of_turns (P := fun x left => d.settle i pending = x.settle i left) ?_ rfl h
  intro x y o left again hsame visited
  rw [hsame, settle_cons_of_visit_eq_ok visited]

/-- The loop ends where it has nothing left to visit. -/
theorem settle_eq_ok_iff : d.settle i pending = .ok e ↔ Turns i (d, pending) (e, []) := by
  constructor
  · intro hsettle
    fun_induction Deduction.settle d i pending with
    | case1 d =>
      cases hsettle
      exact .refl
    | case2 d o rest fault hvisit => cases hsettle
    | case3 d o rest d' again hvisit ih => exact .head (.visit hvisit) (ih hsettle)
  · intro hturns
    rw [settle_eq_of_turns hturns, settle]

/-- The loop fails where a visit fails. -/
theorem settle_eq_error_iff :
    d.settle i pending = .error fault ↔
      ∃ x o rest, Turns i (d, pending) (x, o :: rest) ∧ x.visit i o = .error fault := by
  constructor
  · intro hsettle
    fun_induction Deduction.settle d i pending with
    | case1 d => cases hsettle
    | case2 d o rest fault' hvisit =>
      cases hsettle
      exact ⟨d, o, rest, .refl, hvisit⟩
    | case3 d o rest d' again hvisit ih =>
      obtain ⟨x, o', rest', hturns, hfails⟩ := ih hsettle
      exact ⟨x, o', rest', .head (.visit hvisit) hturns, hfails⟩
  · intro hex
    obtain ⟨x, o, rest, hturns, hfails⟩ := hex
    rw [settle_eq_of_turns hturns, settle_cons_of_visit_eq_error hfails]

/-! ## What one visit does -/

theorem visit_of_none (h : d.candidates[o]? = none) : d.visit i o = .ok (d, []) := by
  unfold visit
  rw [h]

theorem visit_of_empty (h : d.candidates[o]? = some ∅) :
    d.visit i o = .error (.noConsistentOperation o i) := by
  have hempty : (∅ : OperationSet).isEmpty = true := OperationSet.isEmpty_iff.mpr rfl
  unfold visit
  rw [h]
  exact if_pos hempty

theorem visit_of_singleton (h : d.candidates[o]? = some {op}) : d.visit i o = d.bind o op := by
  have hsingle : ({op} : OperationSet).single? = some op :=
    OperationSet.single?_eq_some_iff_eq.mpr rfl
  have hne : ({op} : OperationSet).isEmpty = false := by
    rw [Bool.eq_false_iff]
    intro hempty
    have hmem : op ∈ ({op} : OperationSet) := OperationSet.mem_singleton.mpr rfl
    rw [OperationSet.isEmpty_iff.mp hempty] at hmem
    exact OperationSet.not_mem_empty op hmem
  unfold visit
  rw [h]
  simp only [hne, hsingle, Bool.false_eq_true, if_false]

theorem visit_of_several (h : d.candidates[o]? = some set) (hsize : 2 ≤ set.size) :
    d.visit i o = .ok (d, []) := by
  have hne : set.isEmpty = false := by
    rw [Bool.eq_false_iff]
    intro hempty
    rw [OperationSet.isEmpty_iff.mp hempty, OperationSet.size_empty] at hsize
    omega
  have hsingle : set.single? = none := by
    rw [Option.eq_none_iff_forall_ne_some]
    intro op hop
    rw [OperationSet.single?_eq_some_iff_eq.mp hop, OperationSet.size_singleton] at hsize
    omega
  unfold visit
  rw [h]
  simp only [hne, hsingle, Bool.false_eq_true, if_false]

/-- An opcode is not open, or has no candidate left, or one, or several. -/
theorem candidates_cases (d : Deduction) (o : UInt8) :
    d.candidates[o]? = none ∨ d.candidates[o]? = some ∅ ∨
      (∃ op, d.candidates[o]? = some {op}) ∨
      ∃ set, d.candidates[o]? = some set ∧ 2 ≤ set.size := by
  cases h : d.candidates[o]? with
  | none => exact Or.inl rfl
  | some set =>
    rcases Nat.lt_or_ge set.size 2 with hlt | hge
    · by_cases hzero : set.size = 0
      · rw [OperationSet.size_eq_zero_iff.mp hzero]
        exact Or.inr (Or.inl rfl)
      · obtain ⟨op, rfl⟩ := OperationSet.size_eq_one_iff.mp (show set.size = 1 by omega)
        exact Or.inr (Or.inr (Or.inl ⟨op, rfl⟩))
    · exact Or.inr (Or.inr (Or.inr ⟨set, rfl, hge⟩))

theorem mem_affected_iff {candidates : ExtTreeMap UInt8 OperationSet} :
    o ∈ affected candidates op ↔
      ∃ set : OperationSet,
        candidates[o]? = some set ∧ op ∈ set ∧ (set.erase op).size ≤ 1 := by
  simp [affected, ExtTreeMap.mem_toList_iff_getElem?_eq_some]

/-- An opcode is affected at most once by a binding. -/
theorem nodup_affected (candidates : ExtTreeMap UInt8 OperationSet) (op : Operation) :
    (affected candidates op).Nodup := by
  refine List.Nodup.sublist ?_ (ExtTreeMap.nodup_keys (t := candidates))
  rw [affected, ← ExtTreeMap.map_fst_toList_eq_keys]
  exact List.filter_sublist.map Prod.fst

/-- A binding closes its opcode and strikes the operation from the candidates of all others. -/
theorem getElem?_candidates_of_bind (h : d.bind o op = .ok (e, again)) (o' : UInt8) :
    e.candidates[o']? =
      if o = o' then none else d.candidates[o']?.map fun set => set.erase op := by
  obtain ⟨hcandidates, -, -, -⟩ := bind_eq_ok h
  rw [hcandidates, ExtTreeMap.getElem?_map, ExtTreeMap.getElem?_erase]
  by_cases hne : o = o' <;> simp [hne]

/-- A binding closes its opcode and no other one. -/
theorem mem_candidates_of_bind_iff (h : d.bind o op = .ok (e, again)) {o' : UInt8} :
    o' ∈ e.candidates ↔ o ≠ o' ∧ o' ∈ d.candidates := by
  rw [ExtTreeMap.mem_iff_isSome_getElem?, ExtTreeMap.mem_iff_isSome_getElem?,
    getElem?_candidates_of_bind h]
  by_cases hne : o = o' <;> simp [hne]

theorem getElem?_candidates_of_bind_of_ne (h : d.bind o op = .ok (e, again)) {o' : UInt8}
    (hne : o ≠ o') (hset : d.candidates[o']? = some set) :
    e.candidates[o']? = some (set.erase op) := by
  rw [getElem?_candidates_of_bind h, if_neg hne, hset, Option.map_some]

/-- What a binding asks to be visited: other open opcodes that lose a candidate and keep at most
one. -/
theorem mem_again_iff (h : d.bind o op = .ok (e, again)) {o' : UInt8} :
    o' ∈ again ↔ o ≠ o' ∧ ∃ set : OperationSet,
      d.candidates[o']? = some set ∧ op ∈ set ∧ (set.erase op).size ≤ 1 := by
  obtain ⟨-, -, -, rfl⟩ := bind_eq_ok h
  rw [mem_affected_iff, ExtTreeMap.getElem?_erase]
  by_cases hne : o = o' <;> simp [hne]

theorem nodup_again (h : d.bind o op = .ok (e, again)) : again.Nodup := by
  obtain ⟨-, -, -, rfl⟩ := bind_eq_ok h
  exact nodup_affected _ _

/-! ## The state is determined by the table and the samples -/

/-- The state records the samples seen: the bound operations are assigned, only opcodes that occur
are bound, and the candidates of the others are what propagation has left for them. -/
structure Tracks (d : Deduction) (seen : List Sample) : Prop where
  /-- The operations that are bound to an opcode are those of the table. -/
  assigned_eq : d.assigned = d.table.range
  /-- Only opcodes that occur are bound. -/
  occurs_of_bound : ∀ o op, d.table.get? o = some op → o ∈ opcodes seen
  /-- The candidates belong to the opcodes that occur and are not bound. -/
  candidates_iff : ∀ o set, d.candidates[o]? = some set ↔
    o ∈ opcodes seen ∧ d.table.get? o = none ∧ set = remaining seen d.table o

/-- Two states with the same table record samples with the same evidence in the same way. -/
theorem Tracks.eq_of_table_eq {seen' : List Sample} (h : Tracks d seen) (h' : Tracks d' seen')
    (hsame : ∀ s, s ∈ seen ↔ s ∈ seen') (htable : d.table = d'.table) : d = d' := by
  have hopcodes : ∀ o, o ∈ opcodes seen ↔ o ∈ opcodes seen' := by
    intro o
    simp only [Sample.mem_opcodes_iff, hsame]
  have hevidence : ∀ o, evidence seen o = evidence seen' o := by
    intro o
    ext op
    simp only [Sample.mem_evidence_iff, hsame]
  have hassigned : d.assigned = d'.assigned := by
    rw [h.assigned_eq, h'.assigned_eq, htable]
  have hcandidates : d.candidates = d'.candidates := by
    refine ExtTreeMap.ext_getElem? fun o => Option.ext fun set => ?_
    rw [h.candidates_iff, h'.candidates_iff, hopcodes, htable]
    simp only [remaining, hevidence]
  cases d
  cases d'
  simp_all

/-- An opcode with one candidate left can be bound to it. -/
theorem Tracks.exists_bind_eq_ok (h : Tracks d seen) (ho : d.candidates[o]? = some {op}) :
    ∃ e, d.bind o op = .ok (e, affected (d.candidates.erase o) op) := by
  obtain ⟨-, hopen, hforced⟩ := (h.candidates_iff o {op}).mp ho
  have hmem : op ∈ remaining seen d.table o := by
    rw [← hforced]
    exact OperationSet.mem_singleton.mpr rfl
  obtain ⟨t, ht⟩ := BindingTable.exists_insert_eq_ok hopen (mem_remaining.mp hmem).2
  unfold Deduction.bind
  rw [ht]
  exact ⟨_, rfl⟩

/-- Binding an opcode to its only candidate is a propagation step, and the state still records the
samples. -/
theorem Tracks.bind (h : Tracks d seen) (ho : d.candidates[o]? = some {op})
    (hbind : d.bind o op = .ok (e, again)) : Tracks e seen ∧ Step seen d.table e.table := by
  obtain ⟨hoccurs, hopen, hforced⟩ := (h.candidates_iff o {op}).mp ho
  obtain ⟨-, hassigned, hinsert, -⟩ := bind_eq_ok hbind
  refine ⟨⟨?_, ?_, ?_⟩, .bind hoccurs hopen hforced.symm hinsert⟩
  · rw [hassigned, h.assigned_eq, BindingTable.range_of_insert hinsert]
  · intro o' op' hop'
    by_cases hne : o = o'
    · rw [← hne]
      exact hoccurs
    · rw [BindingTable.get?_of_insert_of_ne hinsert hne] at hop'
      exact h.occurs_of_bound o' op' hop'
  · intro o' set
    rw [getElem?_candidates_of_bind hbind, BindingTable.get?_of_insert hinsert,
      remaining_of_insert hinsert]
    by_cases hne : o = o'
    · simp [hne]
    · simp only [hne, if_false, Option.map_eq_some_iff, h.candidates_iff]
      constructor
      · intro hex
        obtain ⟨_, ⟨ho', hopen', rfl⟩, rfl⟩ := hex
        exact ⟨ho', hopen', rfl⟩
      · intro hentry
        obtain ⟨ho', hopen', rfl⟩ := hentry
        exact ⟨_, ⟨ho', hopen', rfl⟩, rfl⟩

/-! ## The loop -/

/-- Every open opcode with fewer than two candidates is waiting for a visit. -/
def Queued (d : Deduction) (pending : List UInt8) : Prop :=
  ∀ (o : UInt8) (set : OperationSet), d.candidates[o]? = some set → set.size ≤ 1 → o ∈ pending

/-- Every open opcode has several candidates. -/
def Settled (d : Deduction) : Prop :=
  ∀ (o : UInt8) (set : OperationSet), d.candidates[o]? = some set → 2 ≤ set.size

theorem queued_nil_iff : d.Queued [] ↔ d.Settled := by
  constructor
  · intro h o set hset
    by_contra hlt
    exact absurd (h o set hset (by omega)) List.not_mem_nil
  · intro h o set hset hle
    have := h o set hset
    omega

/-- A visit that finds several candidates, or none at all because the opcode is bound, may be
forgotten. -/
theorem Queued.of_cons (h : d.Queued (o :: rest))
    (hskip : ∀ set : OperationSet, d.candidates[o]? = some set → 2 ≤ set.size) : d.Queued rest := by
  intro o' set hset hle
  rcases List.mem_cons.mp (h o' set hset hle) with rfl | hmem
  · have := hskip set hset
    omega
  · exact hmem

/-- A binding queues every opcode that it leaves with fewer than two candidates. -/
theorem Queued.bind (h : d.Queued (o :: rest)) (hbind : d.bind o op = .ok (e, again)) :
    e.Queued (again.reverse ++ rest) := by
  intro o' set hset hle
  rw [getElem?_candidates_of_bind hbind] at hset
  split at hset
  case isTrue => cases hset
  case isFalse hne =>
  obtain ⟨old, hold, rfl⟩ := Option.map_eq_some_iff.mp hset
  rw [List.mem_append, List.mem_reverse, mem_again_iff hbind]
  by_cases hop : op ∈ old
  · exact Or.inl ⟨hne, old, hold, hop, hle⟩
  · -- Nothing was struck, so the opcode was waiting before, and it is not the one visited.
    have hsame : old.erase op = old := by
      ext p
      rw [OperationSet.mem_erase]
      exact ⟨fun hp => hp.1, fun hp => ⟨hp, fun heq => hop (heq ▸ hp)⟩⟩
    rw [hsame] at hle
    rcases List.mem_cons.mp (h o' old hold hle) with heq | hmem
    · exact absurd heq.symm hne
    · exact Or.inr hmem

/-- The invariant of the settling loop that started with the table `start`. -/
structure Settling (seen : List Sample) (start : BindingTable) (d : Deduction)
    (pending : List UInt8) : Prop where
  /-- The state records the samples. -/
  tracks : d.Tracks seen
  /-- No opcode that has to be visited is forgotten. -/
  queued : d.Queued pending
  /-- All bindings made so far were forced. -/
  steps : Steps seen start d.table

/-- A visit keeps the invariant. -/
theorem Settling.visit (h : Settling seen start d (o :: rest))
    (hvisit : d.visit i o = .ok (e, again)) : Settling seen start e (again.reverse ++ rest) := by
  rcases candidates_cases d o with hnone | hempty | ⟨op, hop⟩ | ⟨set, hset, hsize⟩
  · rw [visit_of_none hnone] at hvisit
    cases hvisit
    exact ⟨h.tracks, h.queued.of_cons (by simp [hnone]), h.steps⟩
  · rw [visit_of_empty hempty] at hvisit
    cases hvisit
  · rw [visit_of_singleton hop] at hvisit
    obtain ⟨htracks, hstep⟩ := h.tracks.bind hop hvisit
    exact ⟨htracks, h.queued.bind hvisit, h.steps.tail hstep⟩
  · rw [visit_of_several hset hsize] at hvisit
    cases hvisit
    refine ⟨h.tracks, h.queued.of_cons ?_, h.steps⟩
    intro set' hset'
    rw [hset] at hset'
    cases hset'
    exact hsize

/-- The only fault of a visit is that no candidate is left. -/
theorem Settling.visit_eq_error (h : Settling seen start d (o :: rest))
    (hvisit : d.visit i o = .error fault) :
    fault = .noConsistentOperation o i ∧ d.candidates[o]? = some ∅ := by
  rcases candidates_cases d o with hnone | hempty | ⟨op, hop⟩ | ⟨set, hset, hsize⟩
  · rw [visit_of_none hnone] at hvisit
    cases hvisit
  · rw [visit_of_empty hempty] at hvisit
    cases hvisit
    exact ⟨rfl, hempty⟩
  · obtain ⟨e, he⟩ := h.tracks.exists_bind_eq_ok hop
    rw [visit_of_singleton hop, he] at hvisit
    cases hvisit
  · rw [visit_of_several hset hsize] at hvisit
    cases hvisit

/-- Every state that the loop passes through satisfies the invariant. -/
theorem Settling.turns (h : Settling seen start d pending)
    (hturns : Turns i (d, pending) (e, rest)) : Settling seen start e rest :=
  invariant_of_turns Settling.visit h hturns

/-- When the loop ends, nothing is left to visit. -/
theorem Settling.settle_eq_ok (h : Settling seen start d pending)
    (hsettle : d.settle i pending = .ok e) : Settling seen start e [] :=
  h.turns (settle_eq_ok_iff.mp hsettle)

/-- When the loop stops early, some open opcode has no candidate left. -/
theorem Settling.settle_eq_error (h : Settling seen start d pending)
    (hsettle : d.settle i pending = .error fault) :
    ∃ x o rest, Settling seen start x (o :: rest) ∧ x.candidates[o]? = some ∅ ∧
      fault = .noConsistentOperation o i := by
  obtain ⟨x, o, rest, hturns, hfails⟩ := settle_eq_error_iff.mp hsettle
  have hstop : Settling seen start x (o :: rest) := h.turns hturns
  obtain ⟨hfault, hempty⟩ := hstop.visit_eq_error hfails
  exact ⟨x, o, rest, hstop, hempty, hfault⟩

end RegisterMachine.Deduction
