import Mathlib.Data.Set.Card
import RegisterMachine.Proofs.BindingTable.Inclusion

set_option autoImplicit false

/-!
# Tables over a history of requests

A table is asked again and again to bind an opcode to an operation.  A request is granted if neither
of the two is bound by then; otherwise it is refused, and the table stays as it is.

Which requests of a history are granted can be said without a table: those that have neither the
opcode nor the operation of one that was granted before.  They are what the table holds, read in
either direction, and so its size, its completeness and its list of bindings follow from them, as
does the answer to the next request.
-/

namespace RegisterMachine.BindingTable

variable {t t' : BindingTable} {o : UInt8} {op : Operation} {fault : Fault}
  {bindings : List (UInt8 × Operation)}

/-! ## One request -/

/-- The table after a request.  One that is refused leaves it as it was. -/
def request (t : BindingTable) (binding : UInt8 × Operation) : BindingTable :=
  match t.insert binding.1 binding.2 with
  | .ok t' => t'
  | .error _ => t

theorem request_of_ok (h : t.insert o op = .ok t') : t.request (o, op) = t' := by
  simp only [request, h]

theorem request_of_error (h : t.insert o op = .error fault) : t.request (o, op) = t := by
  simp only [request, h]

/-- A request is granted if neither side is bound. -/
theorem exists_insert_eq_ok_iff :
    (∃ t', t.insert o op = .ok t') ↔ t.get? o = none ∧ t.opcodeOf? op = none := by
  constructor
  · rintro ⟨t', h⟩
    obtain ⟨ho, hop, -⟩ := insert_eq_ok_iff.mp h
    exact ⟨ho, hop⟩
  · rintro ⟨ho, hop⟩
    exact exists_insert_eq_ok ho (opcodeOf?_eq_none_iff.mp hop)

/-- A request is refused for its opcode if that is bound, and otherwise for its operation, which is
then bound to another opcode. -/
theorem insert_eq_error_iff :
    t.insert o op = .error fault ↔
      (t.get? o ≠ none ∧ fault = .opcodeAlreadyBound o) ∨
        t.get? o = none ∧ ∃ other, other ≠ o ∧ t.opcodeOf? op = some other ∧
          fault = .duplicateBinding op other := by
  cases ho : t.get? o with
  | some bound => simp [insert_eq_opcodeAlreadyBound ho, eq_comm]
  | none =>
    cases hop : t.opcodeOf? op with
    | some other =>
      have hne : other ≠ o := by
        rintro rfl
        rw [← get?_eq_some_iff, ho] at hop
        cases hop
      rw [insert_eq_duplicateBinding ho hop, Except.error.injEq]
      constructor
      · rintro rfl
        exact .inr ⟨rfl, other, hne, rfl, rfl⟩
      · rintro (⟨hbound, -⟩ | ⟨-, q, -, hq, rfl⟩)
        · exact absurd rfl hbound
        · rw [Option.some.inj hq]
    | none =>
      obtain ⟨t', ht'⟩ := exists_insert_eq_ok_iff.mpr ⟨ho, hop⟩
      simp [ht']

/-- What is bound after a request that is granted, seen from the operations. -/
theorem opcodeOf?_of_insert (h : t.insert o op = .ok t') (p : Operation) :
    t'.opcodeOf? p = if op = p then some o else t.opcodeOf? p := by
  obtain ⟨ho, hop, hget⟩ := insert_eq_ok_iff.mp h
  ext q
  rw [← get?_eq_some_iff, hget]
  by_cases hp : op = p
  · subst hp
    rw [if_pos rfl, Option.some_inj]
    constructor
    · intro hq
      by_cases hoq : o = q
      · exact hoq
      · rw [if_neg hoq, get?_eq_some_iff, hop] at hq
        cases hq
    · intro hoq
      rw [if_pos hoq]
  · rw [if_neg hp, ← get?_eq_some_iff]
    by_cases hoq : o = q
    · subst hoq
      simp [ho, hp]
    · rw [if_neg hoq]

/-! ## A history -/

/-- The table after a history of requests to an empty one. -/
def ofRequests (requests : List (UInt8 × Operation)) : BindingTable := requests.foldl request ∅

/-- Two bindings can stand in one table. -/
def Compatible (a b : UInt8 × Operation) : Prop := a.1 ≠ b.1 ∧ a.2 ≠ b.2

instance (a b : UInt8 × Operation) : Decidable (Compatible a b) :=
  inferInstanceAs (Decidable (_ ∧ _))

/-- The requests granted by then, after one more. -/
def grant (granted : List (UInt8 × Operation)) (binding : UInt8 × Operation) :
    List (UInt8 × Operation) :=
  if ∀ b ∈ granted, Compatible b binding then granted ++ [binding] else granted

/-- The requests of a history that are granted. -/
def granted (requests : List (UInt8 × Operation)) : List (UInt8 × Operation) :=
  requests.foldl grant []

theorem ofRequests_append_singleton (requests : List (UInt8 × Operation))
    (binding : UInt8 × Operation) :
    ofRequests (requests ++ [binding]) = (ofRequests requests).request binding := by
  rw [ofRequests, List.foldl_append]
  rfl

/-- The table binds what the list says. -/
def Holds (t : BindingTable) (bindings : List (UInt8 × Operation)) : Prop :=
  ∀ o op, t.get? o = some op ↔ (o, op) ∈ bindings

/-- A request is granted if it is compatible with all that the table binds. -/
theorem Holds.exists_insert_eq_ok_iff (h : t.Holds bindings) :
    (∃ t', t.insert o op = .ok t') ↔ ∀ b ∈ bindings, Compatible b (o, op) := by
  rw [BindingTable.exists_insert_eq_ok_iff]
  constructor
  · rintro ⟨hopcode, hoperation⟩ ⟨q, p⟩ hmem
    have hget : t.get? q = some p := (h q p).mpr hmem
    constructor
    · rintro rfl
      cases hopcode.symm.trans hget
    · rintro rfl
      cases hoperation.symm.trans (get?_eq_some_iff.mp hget)
  · intro hall
    constructor
    · rw [Option.eq_none_iff_forall_ne_some]
      exact fun p hp => (hall _ ((h o p).mp hp)).1 rfl
    · rw [Option.eq_none_iff_forall_ne_some]
      exact fun q hq => (hall _ ((h q op).mp (get?_eq_some_iff.mpr hq))).2 rfl

/-- A binding that is inserted comes after the others. -/
theorem Holds.insert (h : t.Holds bindings) (hinsert : t.insert o op = .ok t') :
    t'.Holds (bindings ++ [(o, op)]) := by
  intro q p
  have hfree : t.get? o = none := (insert_eq_ok_iff.mp hinsert).1
  rw [get?_of_insert hinsert, List.mem_append, List.mem_singleton, ← h q p, Prod.mk.injEq]
  by_cases hoq : o = q
  · subst hoq
    simp [hfree, eq_comm]
  · simp [hoq, Ne.symm hoq]

/-- A request changes the table as it changes the list. -/
theorem Holds.request (h : t.Holds bindings) (binding : UInt8 × Operation) :
    (t.request binding).Holds (grant bindings binding) := by
  obtain ⟨o, op⟩ := binding
  cases hinsert : t.insert o op with
  | ok t' =>
    have hall := h.exists_insert_eq_ok_iff.mp ⟨t', hinsert⟩
    rw [request_of_ok hinsert, grant, if_pos hall]
    exact h.insert hinsert
  | error fault =>
    have hclash : ¬ ∀ b ∈ bindings, Compatible b (o, op) := by
      rw [← h.exists_insert_eq_ok_iff, hinsert]
      simp
    rw [request_of_error hinsert, grant, if_neg hclash]
    exact h

/-- After any history the table holds the requests that were granted. -/
theorem holds_ofRequests (requests : List (UInt8 × Operation)) :
    (ofRequests requests).Holds (granted requests) := by
  have hrun : ∀ (t : BindingTable) (bindings : List (UInt8 × Operation)), t.Holds bindings →
      (requests.foldl BindingTable.request t).Holds (requests.foldl grant bindings) := by
    induction requests with
    | nil => exact fun t bindings h => h
    | cons binding rest ih =>
      exact fun t bindings h => ih (t.request binding) (grant bindings binding) (h.request binding)
  exact hrun ∅ [] fun o op => by simp

/-! ## Counting and listing -/

theorem ncard_bound_opcodes (t : BindingTable) :
    Set.ncard {o : UInt8 | t.get? o ≠ none} = t.size := by
  have hset : {o : UInt8 | t.get? o ≠ none} = ↑t.domain := by
    ext o
    simp
  rw [hset, Set.ncard_coe_finset, card_domain]

theorem ncard_bound_operations (t : BindingTable) :
    Set.ncard {op : Operation | t.opcodeOf? op ≠ none} = t.size := by
  have hset : {op : Operation | t.opcodeOf? op ≠ none} = ↑t.range.toFinset := by
    ext op
    rw [Set.mem_ofPred_eq, Ne, opcodeOf?_eq_none_iff, not_not, Finset.mem_coe,
      OperationSet.mem_toFinset]
  rw [hset, Set.ncard_coe_finset, OperationSet.card_toFinset, size_range]

/-- As many bindings as there are operations leave out none of them. -/
theorem isComplete_iff_forall : t.IsComplete ↔ ∀ op, t.opcodeOf? op ≠ none := by
  have hbound : (∀ op, t.opcodeOf? op ≠ none) ↔ t.range = OperationSet.all := by
    simp only [ne_eq, opcodeOf?_eq_none_iff, not_not, OperationSet.ext_iff,
      OperationSet.mem_all, iff_true]
  rw [isComplete_iff, hbound, ← size_range]
  constructor
  · intro hsize
    have hle : t.range.toFinset ⊆ OperationSet.all.toFinset := fun op _ => by simp
    have hcard : OperationSet.all.toFinset.card ≤ t.range.toFinset.card := by simp [hsize]
    exact OperationSet.toFinset_inj.mp (Finset.eq_of_subset_of_card_le hle hcard)
  · intro hall
    rw [hall, OperationSet.size_all]

theorem sorted_toList (t : BindingTable) : t.toList.Pairwise fun a b => a.1 < b.1 :=
  t.operations.ordered_keys_toList.imp Std.compare_eq_lt.mp

/-! ## What a history leads to -/

/-- All that can be asked of a table after a history of requests. -/
structure IsOutcomeOf (t : BindingTable) (requests : List (UInt8 × Operation)) : Prop where
  /-- It can be read both ways. -/
  get?_iff_opcodeOf? : ∀ o op, t.get? o = some op ↔ t.opcodeOf? op = some o
  /-- It holds the requests that were granted. -/
  get?_iff_granted : ∀ o op, t.get? o = some op ↔ (o, op) ∈ granted requests
  /-- Its size is the number of bound opcodes. -/
  ncard_opcodes : Set.ncard {o | t.get? o ≠ none} = t.size
  /-- Its size is the number of bound operations. -/
  ncard_operations : Set.ncard {op | t.opcodeOf? op ≠ none} = t.size
  /-- There are no more bindings than operations. -/
  size_le_sixteen : t.size ≤ 16
  /-- It is complete if no operation is missing. -/
  isComplete_iff_bound : t.IsComplete ↔ ∀ op, t.opcodeOf? op ≠ none
  /-- Its list has all bindings. -/
  mem_toList : ∀ o op, (o, op) ∈ t.toList ↔ t.get? o = some op
  /-- Its list goes by increasing opcode, so that it has no binding twice. -/
  pairwise_lt_toList : t.toList.Pairwise fun a b => a.1 < b.1
  /-- The next request is granted if neither side is bound. -/
  granted_iff : ∀ o op,
    (∃ t', t.insert o op = .ok t') ↔ t.get? o = none ∧ t.opcodeOf? op = none
  /-- A request that is granted adds the one binding, in both directions. -/
  of_granted : ∀ o op t', t.insert o op = .ok t' →
    ofRequests (requests ++ [(o, op)]) = t' ∧
      (∀ q, t'.get? q = if o = q then some op else t.get? q) ∧
      ∀ p, t'.opcodeOf? p = if op = p then some o else t.opcodeOf? p
  /-- A request is refused for the opcode if that is bound and else for the operation, naming the
  other opcode that it is bound to. -/
  refused_iff : ∀ o op fault, t.insert o op = .error fault ↔
    (t.get? o ≠ none ∧ fault = .opcodeAlreadyBound o) ∨
      t.get? o = none ∧ ∃ other, other ≠ o ∧ t.opcodeOf? op = some other ∧
        fault = .duplicateBinding op other
  /-- A request that is refused leaves the table as it is. -/
  of_refused : ∀ o op fault, t.insert o op = .error fault → ofRequests (requests ++ [(o, op)]) = t

/-- Whatever a table has been asked, and whether it was granted or refused, the table stays a
one-to-one assignment: it holds what was granted, its size and completeness and its list tell the
same, and the next request is answered by them. -/
theorem table_over_history (requests : List (UInt8 × Operation)) :
    (ofRequests requests).IsOutcomeOf requests where
  get?_iff_opcodeOf? _ _ := get?_eq_some_iff
  get?_iff_granted := holds_ofRequests requests
  ncard_opcodes := ncard_bound_opcodes _
  ncard_operations := ncard_bound_operations _
  size_le_sixteen := size_le _
  isComplete_iff_bound := isComplete_iff_forall
  mem_toList _ _ := mem_toList_iff
  pairwise_lt_toList := sorted_toList _
  granted_iff _ _ := exists_insert_eq_ok_iff
  of_granted o op t' hgranted := by
    rw [ofRequests_append_singleton, request_of_ok hgranted]
    exact ⟨rfl, get?_of_insert hgranted, opcodeOf?_of_insert hgranted⟩
  refused_iff _ _ _ := insert_eq_error_iff
  of_refused o op fault hrefused := by
    rw [ofRequests_append_singleton, request_of_error hrefused]

-- The second and the third request are refused, which does not stand in the way of the fourth.
example : granted [(0, .eqrr), (1, .eqrr), (0, .addr), (1, .addr)] = [(0, .eqrr), (1, .addr)] := by
  decide

end RegisterMachine.BindingTable
