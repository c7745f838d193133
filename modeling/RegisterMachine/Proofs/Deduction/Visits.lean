import RegisterMachine.Proofs.Deduction.Ambiguity

set_option autoImplicit false

/-!
# The visits of the settling loop

An opcode can be pushed twice before it is visited: when it is left with one candidate, and again
when it loses that one too.  It is not visited twice, because its first visit finds no candidate and
ends the loop.

`Waiting` says this of the pending opcodes: they are open, and one that is pending twice has no
candidate left.  A visit keeps it, so every opcode that is visited is still open, and a visit that
does not end the loop takes its opcode from the open ones for good.
-/

namespace RegisterMachine.Deduction

open Std (ExtTreeMap)
open Sample (contested)

variable {d e x : Deduction} {i : Nat} {o : UInt8} {op : Operation} {s : Sample}
  {again pending rest : List UInt8} {samples seen : List Sample} {start : BindingTable}

/-! ## The record of the visits -/

/-- The visits of the loop in their order: the opcode that is taken from the pending ones, and the
state in which it is visited.  A visit that fails is the last one. -/
def visits (d : Deduction) (i : Nat) (pending : List UInt8) : List (Deduction × UInt8) :=
  match pending with
  | [] => []
  | o :: rest =>
    match _h : d.visit i o with
    | .error _ => [(d, o)]
    | .ok (e, again) => (d, o) :: e.visits i (again.reverse ++ rest)
termination_by d.candidates.size * d.candidates.size + pending.length
decreasing_by
  -- The measure of the loop itself: a binding takes more from the square than it asks visits for.
  rcases visit_progress _h with ⟨rfl, rfl⟩ | ⟨hsize, hlength⟩
  · simp
  · rw [hsize]
    simp [Nat.succ_mul, Nat.mul_succ]
    omega

theorem visits_cons_of_visit_eq_ok (h : d.visit i o = .ok (e, again)) :
    d.visits i (o :: rest) = (d, o) :: e.visits i (again.reverse ++ rest) := by
  rw [visits]
  split
  case h_1 hfault => rw [h] at hfault; cases hfault
  case h_2 hok =>
    rw [h] at hok
    cases hok
    rfl

theorem mem_visits_cons : (d, o) ∈ d.visits i (o :: rest) := by
  rw [visits]
  split <;> exact List.mem_cons_self

/-- After some turns the visits that are left end the record. -/
theorem visits_suffix_of_turns (h : Turns i (d, pending) (e, rest)) :
    e.visits i rest <:+ d.visits i pending := by
  refine invariant_of_turns (P := fun x left => x.visits i left <:+ d.visits i pending)
    ?_ List.suffix_rfl h
  intro x y o left again hsuffix visited
  rw [visits_cons_of_visit_eq_ok visited] at hsuffix
  exact (List.suffix_cons _ _).trans hsuffix

/-- The visits are those of the states that the loop passes through. -/
theorem mem_visits_iff :
    (x, o) ∈ d.visits i pending ↔ ∃ rest, Turns i (d, pending) (x, o :: rest) := by
  constructor
  · intro hmem
    fun_induction Deduction.visits d i pending with
    | case1 d => cases hmem
    | case2 d o' rest _ hvisit =>
      cases List.mem_singleton.mp hmem
      exact ⟨rest, .refl⟩
    | case3 d o' rest e again hvisit ih =>
      rcases List.mem_cons.mp hmem with heq | hlater
      · cases heq
        exact ⟨rest, .refl⟩
      · obtain ⟨rest', hturns⟩ := ih hlater
        exact ⟨rest', .head (.visit hvisit) hturns⟩
  · rintro ⟨rest, hturns⟩
    exact (visits_suffix_of_turns hturns).mem mem_visits_cons

/-! ## The pending opcodes -/

/-- The pending opcodes are open, and one that is pending twice has no candidate left.  Only the
opcode of the sample, with which the loop begins, may have several candidates. -/
structure Waiting (d : Deduction) (pending : List UInt8) : Prop where
  /-- Pending opcodes are open and have at most one candidate, unless only one is pending. -/
  few : ∀ o ∈ pending, ∃ set : OperationSet,
    d.candidates[o]? = some set ∧ (set.size ≤ 1 ∨ pending = [o])
  /-- An opcode that is pending twice has no candidate left. -/
  once : pending.Pairwise fun o o' => o = o' → d.candidates[o]? = some ∅

theorem Waiting.mem_candidates (h : Waiting d (o :: rest)) : o ∈ d.candidates := by
  obtain ⟨set, hset, -⟩ := h.few o List.mem_cons_self
  rw [ExtTreeMap.mem_iff_isSome_getElem?, hset, Option.isSome_some]

/-- A visit that goes through either was the only one, or binds its opcode. -/
theorem Waiting.visit_cases (h : Waiting d (o :: rest)) (hvisit : d.visit i o = .ok (e, again)) :
    (e = d ∧ again.reverse ++ rest = []) ∨
      ∃ op, d.candidates[o]? = some {op} ∧ d.bind o op = .ok (e, again) := by
  obtain ⟨found, hfound, hfew⟩ := h.few o List.mem_cons_self
  rcases candidates_cases d o with hnone | hempty | ⟨op, hop⟩ | ⟨set, hset, hsize⟩
  · rw [hnone] at hfound
    cases hfound
  · rw [visit_of_empty hempty] at hvisit
    cases hvisit
  · rw [visit_of_singleton hop] at hvisit
    exact .inr ⟨op, hop, hvisit⟩
  · rw [visit_of_several hset hsize] at hvisit
    cases hvisit
    rw [hset] at hfound
    cases hfound
    have hlast : o :: rest = [o] := hfew.resolve_left (by omega)
    exact .inl ⟨rfl, (List.cons.inj hlast).2⟩

/-- What is pending behind another opcode has at most one candidate. -/
theorem Waiting.few_behind (h : Waiting d (o :: rest)) {o' : UInt8} (ho' : o' ∈ rest) :
    ∃ set : OperationSet, d.candidates[o']? = some set ∧ set.size ≤ 1 := by
  obtain ⟨set, hset, hfew⟩ := h.few o' (List.mem_cons_of_mem o ho')
  refine ⟨set, hset, hfew.resolve_right fun hlast => ?_⟩
  rw [(List.cons.inj hlast).2] at ho'
  exact List.not_mem_nil ho'

/-- What is pending behind an opcode with one candidate is another opcode. -/
theorem Waiting.ne_of_mem (h : Waiting d (o :: rest)) (hop : d.candidates[o]? = some {op})
    {o' : UInt8} (ho' : o' ∈ rest) : o ≠ o' := by
  intro heq
  have hempty := (List.pairwise_cons.mp h.once).1 o' ho' heq
  rw [hop] at hempty
  have hsize := congrArg OperationSet.size (Option.some.inj hempty)
  rw [OperationSet.size_singleton, OperationSet.size_empty] at hsize
  omega

/-- A binding keeps the pending opcodes in order: an opcode that it pushes although the opcode is
pending already has just lost its last candidate. -/
theorem Waiting.bind (h : Waiting d (o :: rest)) (hop : d.candidates[o]? = some {op})
    (hbind : d.bind o op = .ok (e, again)) : Waiting e (again.reverse ++ rest) := by
  constructor
  · intro o' ho'
    rcases List.mem_append.mp ho' with hagain | hrest
    · obtain ⟨hne, set, hset, -, hsize⟩ := (mem_again_iff hbind).mp (List.mem_reverse.mp hagain)
      exact ⟨set.erase op, getElem?_candidates_of_bind_of_ne hbind hne hset, .inl hsize⟩
    · obtain ⟨set, hset, hsize⟩ := h.few_behind hrest
      exact ⟨set.erase op, getElem?_candidates_of_bind_of_ne hbind (h.ne_of_mem hop hrest) hset,
        .inl ((OperationSet.size_erase_le set op).trans hsize)⟩
  · refine List.pairwise_append.mpr ⟨?_, ?_, ?_⟩
    · refine (List.nodup_reverse.mpr (nodup_again hbind)).imp ?_
      intro o' o'' hne heq
      exact absurd heq hne
    · refine (List.pairwise_cons.mp h.once).2.imp_of_mem ?_
      intro o' o'' ho' _ hempty heq
      rw [getElem?_candidates_of_bind_of_ne hbind (h.ne_of_mem hop ho') (hempty heq),
        OperationSet.erase_empty]
    · rintro o' hagain _ hrest rfl
      obtain ⟨hne, set, hset, hmem, -⟩ := (mem_again_iff hbind).mp (List.mem_reverse.mp hagain)
      obtain ⟨set', hset', hsize⟩ := h.few_behind hrest
      rw [hset] at hset'
      cases hset'
      rw [getElem?_candidates_of_bind_of_ne hbind hne hset,
        OperationSet.eq_singleton_of_mem hmem hsize, OperationSet.erase_singleton]

/-- A visit keeps the pending opcodes in order. -/
theorem Waiting.visit (h : Waiting d (o :: rest)) (hvisit : d.visit i o = .ok (e, again)) :
    Waiting e (again.reverse ++ rest) := by
  rcases h.visit_cases hvisit with ⟨rfl, hnil⟩ | ⟨op, hop, hbind⟩
  · rw [hnil]
    exact ⟨fun o' ho' => absurd ho' List.not_mem_nil, .nil⟩
  · exact h.bind hop hbind

theorem Waiting.turns (h : Waiting d pending) (hturns : Turns i (d, pending) (e, rest)) :
    Waiting e rest :=
  invariant_of_turns Waiting.visit h hturns

/-- The loop begins with the opcode of the sample, which narrowing has opened. -/
theorem waiting_narrow (d : Deduction) (s : Sample) : Waiting (d.narrow s) [s.opcode] := by
  refine ⟨?_, List.pairwise_singleton _ _⟩
  intro o ho
  rw [List.mem_singleton.mp ho]
  exact ⟨_, ExtTreeMap.getElem?_insert_self, .inr rfl⟩

/-! ## What is visited -/

/-- No opcode is visited twice, and all opcodes that are visited are open when the loop begins: a
visit that does not end the loop closes its opcode, and never opens another. -/
theorem Waiting.nodup_visits (h : Waiting d pending) :
    ((d.visits i pending).map Prod.snd).Nodup ∧
      ∀ o ∈ (d.visits i pending).map Prod.snd, o ∈ d.candidates := by
  fun_induction Deduction.visits d i pending with
  | case1 d => simp
  | case2 d o rest _ hvisit => simp [h.mem_candidates]
  | case3 d o rest e again hvisit ih =>
    rw [List.map_cons, List.nodup_cons, List.forall_mem_cons]
    obtain ⟨hnodup, hkeys⟩ := ih (h.visit hvisit)
    rcases h.visit_cases hvisit with ⟨rfl, hnil⟩ | ⟨op, -, hbind⟩
    · rw [hnil, visits]
      exact ⟨⟨List.not_mem_nil, List.nodup_nil⟩, h.mem_candidates,
        fun o' ho' => absurd ho' List.not_mem_nil⟩
    · have hclosed : ∀ o' ∈ (e.visits i (again.reverse ++ rest)).map Prod.snd,
          o ≠ o' ∧ o' ∈ d.candidates :=
        fun o' ho' => (mem_candidates_of_bind_iff hbind).mp (hkeys o' ho')
      exact ⟨⟨fun hmem => (hclosed o hmem).1 rfl, hnodup⟩, h.mem_candidates,
        fun o' ho' => (hclosed o' ho').2⟩

/-- There are no more visits than open opcodes. -/
theorem Waiting.length_visits_le (h : Waiting d pending) :
    (d.visits i pending).length ≤ d.candidates.size := by
  obtain ⟨hnodup, hkeys⟩ := h.nodup_visits (i := i)
  rw [← List.length_map Prod.snd, ← ExtTreeMap.length_keys]
  refine (hnodup.subperm fun o ho => ?_).length_le
  exact ExtTreeMap.mem_keys.mpr (hkeys o ho)

/-- An opcode with one candidate left can be bound to it. -/
theorem Settling.exists_insert_eq_ok (h : Settling seen start d pending)
    (hop : d.candidates[o]? = some {op}) : ∃ t, d.table.insert o op = .ok t := by
  obtain ⟨e, hbind⟩ := h.tracks.exists_bind_eq_ok hop
  exact ⟨e.table, (bind_eq_ok hbind).2.2.1⟩

/-- A settling loop ends with several candidates for every open opcode, or stops at an opcode that
has none. -/
theorem Settling.settle_cases (h : Settling seen start d pending) :
    (∃ e, d.settle i pending = .ok e ∧ e.Settled) ∨
      ∃ o, d.settle i pending = .error (.noConsistentOperation o i) := by
  cases hsettle : d.settle i pending with
  | ok e => exact .inl ⟨e, rfl, queued_nil_iff.mp (h.settle_eq_ok hsettle).queued⟩
  | error fault =>
    obtain ⟨x, o, rest, -, -, rfl⟩ := h.settle_eq_error hsettle
    exact .inr ⟨o, rfl⟩

/-- **The settling loop.**  In a state that samples have led to, let a sample of an opcode that is
not bound be observed.  Every opcode that the loop visits is open, and if it has a single candidate
then the table accepts the binding.  No opcode is visited twice, so there are no more visits than
open opcodes when the loop begins.  It ends with several candidates for each opcode that is still
open, or because an opcode has none.  So a deduction has an answer, or ends with a contradiction or
an ambiguity, whatever the samples are. -/
theorem settling_is_safe (i : Nat) (hd : ofSamples samples = .ok d)
    (hopen : d.table.get? s.opcode = none) :
    d.observe i s = (d.narrow s).settle i [s.opcode] ∧
    (∀ x o, (x, o) ∈ (d.narrow s).visits i [s.opcode] → ∃ set : OperationSet,
      x.candidates[o]? = some set ∧
      ∀ op, set.single? = some op → ∃ t, x.table.insert o op = .ok t) ∧
    (((d.narrow s).visits i [s.opcode]).map Prod.snd).Nodup ∧
    ((d.narrow s).visits i [s.opcode]).length ≤ (d.narrow s).candidates.size ∧
    ((∃ e, d.observe i s = .ok e ∧ e.Settled) ∨
      ∃ o, d.observe i s = .error (.noConsistentOperation o i)) ∧
    ∀ all : List Sample,
      (∃ t, deduceBindings all = .ok t) ∨
        (∃ o k, deduceBindings all = .error (.noConsistentOperation o k)) ∨
        ∃ o n, deduceBindings all = .error (.ambiguousBinding o n) := by
  have hsettling := (between_of_ofSamples hd).settling hopen
  have hwaiting := waiting_narrow d s
  refine ⟨observe_of_open hopen, ?_, hwaiting.nodup_visits.1, hwaiting.length_visits_le, ?_,
    deduceBindings_cases⟩
  · intro x o hvisit
    obtain ⟨rest, hturns⟩ := mem_visits_iff.mp hvisit
    obtain ⟨set, hset, -⟩ := (hwaiting.turns hturns).few o List.mem_cons_self
    refine ⟨set, hset, fun op hop => ?_⟩
    rw [OperationSet.single?_eq_some_iff_eq.mp hop] at hset
    exact (hsettling.turns hturns).exists_insert_eq_ok hset
  · rw [observe_of_open hopen]
    exact hsettling.settle_cases

/-- The last of four samples that leave two opcodes with one operation.  Opcode 0 is pushed with its
last candidate, and again when opcode 1 takes that.  Three opcodes are open, and each is visited
once. -/
theorem settling_is_safe_contested :
    ∃ d s, ofSamples (contested.take 3) = .ok d ∧ contested[3]? = some s ∧
      d.table.get? s.opcode = none ∧
      ((d.narrow s).visits 3 [s.opcode]).map Prod.snd = [3, 1, 0] ∧
      (∀ x o, (x, o) ∈ (d.narrow s).visits 3 [s.opcode] → o ∈ x.candidates) ∧
      3 ≤ (d.narrow s).candidates.size ∧
      ∃ o, d.observe 3 s = .error (.noConsistentOperation o 3) := by
  let last : Sample := ⟨⟨#v[0, 0, 0, 0]⟩, ⟨3, ⟨13, 0, 0⟩⟩, ⟨#v[13, 0, 0, 0]⟩⟩
  have hrun : (ofSamples (contested.take 3)).toOption.map (fun d =>
      (d.table.get? last.opcode, ((d.narrow last).visits 3 [last.opcode]).map Prod.snd,
        (d.observe 3 last).toOption.isSome)) = some (none, [3, 1, 0], false) := by
    decide +kernel
  cases hd : ofSamples (contested.take 3) with
  | error fault =>
    rw [hd] at hrun
    cases hrun
  | ok d =>
    rw [hd] at hrun
    obtain ⟨hopen, hrun⟩ := Prod.mk.inj (Option.some.inj hrun)
    obtain ⟨hvisits, hstops⟩ := Prod.mk.inj hrun
    obtain ⟨-, hsafe, -, hbound, hend, -⟩ := settling_is_safe 3 hd hopen
    refine ⟨d, last, rfl, rfl, hopen, hvisits, fun x o hvisit => ?_, ?_, ?_⟩
    · obtain ⟨set, hset, -⟩ := hsafe x o hvisit
      rw [ExtTreeMap.mem_iff_isSome_getElem?, hset, Option.isSome_some]
    · rw [← List.length_map Prod.snd, hvisits] at hbound
      exact hbound
    · rcases hend with ⟨e, he, -⟩ | hfault
      · rw [he] at hstops
        cases hstops
      · exact hfault

end RegisterMachine.Deduction
