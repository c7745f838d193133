import Mathlib.Order.Basic
import RegisterMachine.BindingTable
import RegisterMachine.Proofs.OperationSet

set_option autoImplicit false

/-!
# Inclusion and size of binding tables

Tables are ordered by the bindings that they hold, and the operations that a table binds form a set,
its range.  Insertion is described through both: it succeeds exactly for an opcode that is not bound
and an operation outside the range, the result is a larger table, and its range has one more member.

A binding table has as many bound opcodes as bound operations, since it is read both ways.  So it
binds at most sixteen opcodes, and it is complete exactly if it binds that many.
-/

namespace RegisterMachine.BindingTable

variable {t t' : BindingTable} {o o' : UInt8} {op : Operation}

/-- The operations that are bound to some opcode. -/
def range (t : BindingTable) : OperationSet := .ofList (t.toList.map Prod.snd)

@[simp] theorem mem_range : op ∈ t.range ↔ ∃ o, t.get? o = some op := by
  simp [range, mem_toList_iff]

@[simp] theorem range_empty : (∅ : BindingTable).range = ∅ := by
  ext op
  simp

/-- No operation is bound to two opcodes. -/
theorem get?_injective (h : t.get? o = some op) (h' : t.get? o' = some op) : o = o' := by
  rw [get?_eq_some_iff] at h h'
  exact Option.some.inj (h.symm.trans h')

theorem opcodeOf?_eq_none_iff : t.opcodeOf? op = none ↔ op ∉ t.range := by
  simp only [mem_range, get?_eq_some_iff, Option.eq_none_iff_forall_ne_some, not_exists]

/-! ## The order -/

/-- A table is included in another that binds every opcode it binds to the same operation. -/
instance : LE BindingTable where
  le t t' := ∀ o op, t.get? o = some op → t'.get? o = some op

/-- Tables included in each other are equal. -/
instance : PartialOrder BindingTable where
  le_refl _ _ _ h := h
  le_trans _ _ _ h h' o op hop := h' o op (h o op hop)
  le_antisymm t t' h h' := by
    ext o op
    exact ⟨h o op, h' o op⟩

/-! ## Insertion -/

theorem insert_eq_ok_iff_not_mem_range :
    t.insert o op = .ok t' ↔
      t.get? o = none ∧ op ∉ t.range ∧
        ∀ o', t'.get? o' = if o = o' then some op else t.get? o' := by
  rw [insert_eq_ok_iff, opcodeOf?_eq_none_iff]

/-- An opcode that is not bound and an operation outside the range can be bound to each other. -/
theorem exists_insert_eq_ok (ho : t.get? o = none) (hop : op ∉ t.range) :
    ∃ t', t.insert o op = .ok t' := by
  rw [← opcodeOf?_eq_none_iff] at hop
  unfold insert
  split
  case h_1 h => simp [ho] at h
  case h_2 h => simp [hop] at h
  case h_3 => exact ⟨_, rfl⟩

theorem get?_of_insert (h : t.insert o op = .ok t') (o' : UInt8) :
    t'.get? o' = if o = o' then some op else t.get? o' :=
  (insert_eq_ok_iff.mp h).2.2 o'

theorem get?_self_of_insert (h : t.insert o op = .ok t') : t'.get? o = some op := by
  rw [get?_of_insert h, if_pos rfl]

theorem get?_of_insert_of_ne (h : t.insert o op = .ok t') (hne : o ≠ o') :
    t'.get? o' = t.get? o' := by
  rw [get?_of_insert h, if_neg hne]

theorem le_of_insert (h : t.insert o op = .ok t') : t ≤ t' := by
  intro o' op' hop'
  have hunbound : t.get? o = none := (insert_eq_ok_iff.mp h).1
  have hne : o ≠ o' := by
    rintro rfl
    rw [hunbound] at hop'
    exact absurd hop' (by simp)
  rw [get?_of_insert_of_ne h hne, hop']

/-- Insertion adds the operation to the range. -/
theorem range_of_insert (h : t.insert o op = .ok t') : t'.range = t.range.insert op := by
  ext p
  rw [OperationSet.mem_insert, mem_range, mem_range]
  constructor
  · intro hex
    obtain ⟨o', ho'⟩ := hex
    by_cases hne : o = o'
    · rw [← hne, get?_self_of_insert h] at ho'
      exact Or.inr (Option.some.inj ho').symm
    · rw [get?_of_insert_of_ne h hne] at ho'
      exact Or.inl ⟨o', ho'⟩
  · rintro (⟨o', ho'⟩ | rfl)
    · exact ⟨o', le_of_insert h o' p ho'⟩
    · exact ⟨o, get?_self_of_insert h⟩

/-! ## Counting bindings -/

/-- The opcodes that are bound. -/
def domain (t : BindingTable) : Finset UInt8 := (t.toList.map Prod.fst).toFinset

@[simp] theorem mem_domain : o ∈ t.domain ↔ t.get? o ≠ none := by
  simp [domain, mem_toList_iff, Option.ne_none_iff_exists']

/-- Two entries of a table differ both in the opcode and in the operation. -/
theorem pairwise_toList (t : BindingTable) :
    t.toList.Pairwise fun a b => a.1 ≠ b.1 ∧ a.2 ≠ b.2 := by
  refine Std.ExtTreeMap.distinct_keys_toList.imp_of_mem ?_
  rintro ⟨o, op⟩ ⟨o', op'⟩ hmem hmem' hdistinct
  have hne : o ≠ o' := fun heq => hdistinct (Std.LawfulEqCmp.compare_eq_iff_eq.mpr heq)
  refine ⟨hne, ?_⟩
  rintro rfl
  exact hne (get?_injective (mem_toList_iff.mp hmem) (mem_toList_iff.mp hmem'))

theorem length_toList (t : BindingTable) : t.toList.length = t.size :=
  Std.ExtTreeMap.length_toList

theorem card_domain (t : BindingTable) : t.domain.card = t.size := by
  have hnodup : (t.toList.map Prod.fst).Nodup :=
    List.pairwise_map.mpr (t.pairwise_toList.imp And.left)
  rw [domain, List.toFinset_card_of_nodup hnodup, List.length_map, length_toList]

/-- There are as many bound operations as bound opcodes. -/
theorem size_range (t : BindingTable) : t.range.size = t.size := by
  have hnodup : (t.toList.map Prod.snd).Nodup :=
    List.pairwise_map.mpr (t.pairwise_toList.imp And.right)
  rw [range, OperationSet.size_ofList hnodup, List.length_map, length_toList]

/-- There are not more bindings than operations. -/
theorem size_le (t : BindingTable) : t.size ≤ 16 := by
  rw [← size_range, ← OperationSet.size_all]
  exact OperationSet.size_le_of_forall_mem fun op _ => OperationSet.mem_all op

theorem isComplete_iff : t.IsComplete ↔ t.size = 16 := Iff.rfl

end RegisterMachine.BindingTable
