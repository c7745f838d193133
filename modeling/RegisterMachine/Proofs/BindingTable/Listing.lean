import Mathlib.Data.List.Induction
import Mathlib.Data.List.Nodup
import Mathlib.Data.List.Perm.Basic
import Mathlib.Data.Nat.Find
import RegisterMachine.Proofs.BindingTable.History

set_option autoImplicit false

/-!
# Tables built from lists

A list of bindings can be made into a table if no two of them have the opcode or the operation in
common.  The table holds the bindings of the list, so their order does not matter, and a table is
built again from its own list.  Otherwise the first binding that clashes with an earlier one is
reported, for its opcode if that is taken and else for its operation.
-/

namespace RegisterMachine.BindingTable

variable {t t' : BindingTable} {o : UInt8} {op : Operation} {fault : Fault} {k : Nat}
  {binding : UInt8 × Operation} {pairs xs ys : List (UInt8 × Operation)}

/-! ## Lists that make a table -/

theorem ofList_append_singleton (xs : List (UInt8 × Operation)) (binding : UInt8 × Operation) :
    ofList (xs ++ [binding]) = (ofList xs).bind fun t => t.insert binding.1 binding.2 := by
  simp only [ofList, List.foldlM_append]
  cases xs.foldlM (fun t pair => BindingTable.insert t pair.1 pair.2) ∅ with
  | error fault => rfl
  | ok t =>
    show Except.bind (t.insert binding.1 binding.2) Except.ok = t.insert binding.1 binding.2
    cases t.insert binding.1 binding.2 <;> rfl

theorem ofList_append_of_error (h : ofList xs = .error fault) (ys : List (UInt8 × Operation)) :
    ofList (xs ++ ys) = .error fault := by
  rw [ofList] at h
  rw [ofList, List.foldlM_append, h]
  rfl

/-- A table holds the bindings that it was made of. -/
theorem holds_of_ofList (h : ofList pairs = .ok t) : t.Holds pairs := by
  induction pairs using List.reverseRecOn generalizing t with
  | nil =>
    cases h
    exact fun o op => by simp
  | append_singleton xs binding ih =>
    rw [ofList_append_singleton] at h
    cases hxs : ofList xs with
    | error fault =>
      rw [hxs] at h
      cases h
    | ok t' =>
      rw [hxs] at h
      exact (ih hxs).insert h

/-- A list makes a table if any two of its bindings can stand in one. -/
theorem exists_ofList_eq_ok_iff : (∃ t, ofList pairs = .ok t) ↔ pairs.Pairwise Compatible := by
  induction pairs using List.reverseRecOn with
  | nil => exact ⟨fun _ => List.Pairwise.nil, fun _ => ⟨∅, rfl⟩⟩
  | append_singleton xs binding ih =>
    rw [ofList_append_singleton, List.pairwise_append, ← ih]
    cases hxs : ofList xs with
    | error fault => simp [Except.bind]
    | ok t =>
      have hholds : t.Holds xs := holds_of_ofList hxs
      have hinsert : (∃ t', t.insert binding.1 binding.2 = .ok t') ↔
          ∀ b ∈ xs, Compatible b binding := hholds.exists_insert_eq_ok_iff
      simpa [Except.bind] using hinsert

theorem pairwise_compatible_iff :
    pairs.Pairwise Compatible ↔ (pairs.map Prod.fst).Nodup ∧ (pairs.map Prod.snd).Nodup := by
  rw [List.Nodup, List.Nodup, List.pairwise_map, List.pairwise_map]
  exact List.pairwise_and_iff

/-- Which table a list makes. -/
theorem ofList_eq_ok_iff : ofList pairs = .ok t ↔ pairs.Pairwise Compatible ∧ t.Holds pairs := by
  constructor
  · intro h
    exact ⟨exists_ofList_eq_ok_iff.mp ⟨t, h⟩, holds_of_ofList h⟩
  · rintro ⟨hpairwise, hholds⟩
    obtain ⟨t', ht'⟩ := exists_ofList_eq_ok_iff.mpr hpairwise
    have hsame : t' = t := by
      ext o op
      rw [holds_of_ofList ht', hholds]
    rw [ht', hsame]

/-- The order of the bindings does not matter. -/
theorem ofList_eq_ok_of_perm (hperm : xs.Perm ys) (h : ofList ys = .ok t) : ofList xs = .ok t := by
  obtain ⟨hpairwise, hholds⟩ := ofList_eq_ok_iff.mp h
  have hsymmetric : ∀ {a b : UInt8 × Operation}, Compatible a b → Compatible b a :=
    fun hab => ⟨hab.1.symm, hab.2.symm⟩
  refine ofList_eq_ok_iff.mpr ⟨(hperm.pairwise_iff hsymmetric).mpr hpairwise, fun o op => ?_⟩
  rw [hholds, hperm.mem_iff]

/-- A table is made of its own bindings. -/
theorem ofList_toList (t : BindingTable) : ofList t.toList = .ok t :=
  ofList_eq_ok_iff.mpr ⟨t.pairwise_toList, fun _ _ => mem_toList_iff.symm⟩

theorem nodup_of_pairwise_compatible (h : pairs.Pairwise Compatible) : pairs.Nodup :=
  h.imp fun hcompatible heq => hcompatible.1 (congrArg Prod.fst heq)

/-- The bindings of a table are those of the list that it was made of, in another order. -/
theorem perm_toList_of_ofList (h : ofList pairs = .ok t) : t.toList.Perm pairs := by
  obtain ⟨hpairwise, hholds⟩ := ofList_eq_ok_iff.mp h
  rw [List.perm_ext_iff_of_nodup (nodup_of_pairwise_compatible t.pairwise_toList)
    (nodup_of_pairwise_compatible hpairwise)]
  rintro ⟨o, op⟩
  rw [mem_toList_iff, hholds]

/-! ## The first clash -/

/-- The binding at position `k` clashes with an earlier one, and none before it does. -/
structure FirstClash (pairs : List (UInt8 × Operation)) (k : Nat) (binding : UInt8 × Operation) :
    Prop where
  /-- The binding is there. -/
  getElem?_eq : pairs[k]? = some binding
  /-- It has its opcode or its operation in common with an earlier one. -/
  clashes : ∃ b ∈ pairs.take k, ¬ Compatible b binding
  /-- Those before it do not. -/
  before : ∀ j < k, ∀ later, pairs[j]? = some later → ∀ b ∈ pairs.take j, Compatible b later

/-- Bindings of which none clashes with an earlier one can all stand in one table. -/
theorem pairwise_take_of_forall
    (h : ∀ j < k, ∀ later, pairs[j]? = some later → ∀ b ∈ pairs.take j, Compatible b later) :
    (pairs.take k).Pairwise Compatible := by
  induction k with
  | zero => simp
  | succ k ih =>
    have hfront := ih fun j hj => h j (by omega)
    rw [List.take_add_one, List.pairwise_append]
    cases hk : pairs[k]? with
    | none => simpa using hfront
    | some later => simpa [hfront] using h k (by omega) later hk

theorem exists_firstClash (h : ¬ pairs.Pairwise Compatible) :
    ∃ k binding, FirstClash pairs k binding := by
  classical
  have hclash : ∃ k, ∃ binding, pairs[k]? = some binding ∧
      ∃ b ∈ pairs.take k, ¬ Compatible b binding := by
    by_contra hnone
    push Not at hnone
    refine h ?_
    rw [← List.take_length (l := pairs)]
    exact pairwise_take_of_forall fun j _ => hnone j
  obtain ⟨binding, hbinding, hb⟩ := Nat.find_spec hclash
  refine ⟨Nat.find hclash, binding, hbinding, hb, fun j hj later hlater b hmem => ?_⟩
  by_contra hnot
  exact Nat.find_min hclash hj ⟨later, hlater, b, hmem, hnot⟩

/-- The bindings before the first clash make a table, and it refuses the one that clashes. -/
theorem FirstClash.exists_insert_eq_error (h : FirstClash pairs k (o, op)) :
    ∃ (t : BindingTable) (fault : Fault),
      t.Holds (pairs.take k) ∧ t.insert o op = .error fault ∧ ofList pairs = .error fault := by
  obtain ⟨t, ht⟩ := exists_ofList_eq_ok_iff.mpr (pairwise_take_of_forall h.before)
  have hholds : t.Holds (pairs.take k) := holds_of_ofList ht
  cases hinsert : t.insert o op with
  | ok t' =>
    obtain ⟨b, hb, hclash⟩ := h.clashes
    exact absurd (hholds.exists_insert_eq_ok_iff.mp ⟨t', hinsert⟩ b hb) hclash
  | error fault =>
    refine ⟨t, fault, hholds, hinsert, ?_⟩
    have hfront : ofList (pairs.take k ++ [(o, op)]) = .error fault := by
      rw [ofList_append_singleton, ht]
      exact hinsert
    have hsplit : pairs.take k ++ [(o, op)] ++ pairs.drop (k + 1) = pairs := by
      rw [← Option.toList_some, ← h.getElem?_eq, ← List.take_add_one, List.take_append_drop]
    rw [← hsplit]
    exact ofList_append_of_error hfront _

theorem FirstClash.ofList_eq_opcodeAlreadyBound (h : FirstClash pairs k (o, op))
    (ho : o ∈ (pairs.take k).map Prod.fst) : ofList pairs = .error (.opcodeAlreadyBound o) := by
  obtain ⟨t, fault, hholds, hinsert, hfault⟩ := h.exists_insert_eq_error
  obtain ⟨⟨q, bound⟩, hmem, rfl⟩ := List.mem_map.mp ho
  have hbound : t.get? q = some bound := (hholds q bound).mpr hmem
  rw [hfault, ← hinsert, insert_eq_opcodeAlreadyBound hbound]

theorem FirstClash.exists_ofList_eq_duplicateBinding (h : FirstClash pairs k (o, op))
    (ho : o ∉ (pairs.take k).map Prod.fst) :
    ∃ other, (∀ q, (q, op) ∈ pairs.take k ↔ q = other) ∧
      ofList pairs = .error (.duplicateBinding op other) := by
  obtain ⟨t, fault, hholds, hinsert, hfault⟩ := h.exists_insert_eq_error
  have hopen : t.get? o = none := by
    rw [Option.eq_none_iff_forall_ne_some]
    exact fun bound hbound => ho (List.mem_map.mpr ⟨_, (hholds o bound).mp hbound, rfl⟩)
  rcases insert_eq_error_iff.mp hinsert with ⟨hbound, -⟩ | ⟨-, other, -, hother, rfl⟩
  · exact absurd hopen hbound
  · refine ⟨other, fun q => ?_, hfault⟩
    rw [← hholds, get?_eq_some_iff, hother, Option.some_inj, eq_comm]

/-- A list makes a table exactly if its opcodes are different from each other and its operations
are.  Then the table has the bindings of the list, and it is made by the list in every order; every
table is made by its own list.  If the list does not make a table, some binding is the first to
clash with an earlier one, and the list is refused for it: for its opcode if an earlier binding has
it, and else for its operation, with the opcode of the one earlier binding that has it. -/
theorem ofList_accepts_distinct_bindings (pairs : List (UInt8 × Operation)) :
    ((∃ t, ofList pairs = .ok t) ↔ (pairs.map Prod.fst).Nodup ∧ (pairs.map Prod.snd).Nodup) ∧
    (∀ t, ofList pairs = .ok t →
      (∀ o op, t.get? o = some op ↔ (o, op) ∈ pairs) ∧ t.toList.Perm pairs ∧
        ∀ pairs', pairs'.Perm pairs → ofList pairs' = .ok t) ∧
    (∀ t : BindingTable, ofList t.toList = .ok t) ∧
    (¬ ((pairs.map Prod.fst).Nodup ∧ (pairs.map Prod.snd).Nodup) →
      ∃ k binding, FirstClash pairs k binding) ∧
    ∀ k o op, FirstClash pairs k (o, op) →
      (o ∈ (pairs.take k).map Prod.fst → ofList pairs = .error (.opcodeAlreadyBound o)) ∧
      (o ∉ (pairs.take k).map Prod.fst →
        ∃ other, (∀ q, (q, op) ∈ pairs.take k ↔ q = other) ∧
          ofList pairs = .error (.duplicateBinding op other)) := by
  rw [← pairwise_compatible_iff]
  refine ⟨exists_ofList_eq_ok_iff, fun t ht => ?_, ofList_toList, exists_firstClash, ?_⟩
  · exact ⟨holds_of_ofList ht, perm_toList_of_ofList ht,
      fun _ hperm => ofList_eq_ok_of_perm hperm ht⟩
  · intro k o op hclash
    exact ⟨hclash.ofList_eq_opcodeAlreadyBound, hclash.exists_ofList_eq_duplicateBinding⟩

-- Both sides of the last binding are taken; it is refused for the opcode.
example : ofList [(1, .addr), (2, .mulr), (1, .mulr)] = .error (.opcodeAlreadyBound 1) := by
  decide +kernel

end RegisterMachine.BindingTable
