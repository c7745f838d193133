import Mathlib.Logic.Embedding.Basic
import RegisterMachine.Proofs.BindingTable.Inclusion
import RegisterMachine.Proofs.PlainRun
import RegisterMachine.Proofs.Sample

set_option autoImplicit false

/-!
# Renaming opcodes

A renaming is a one-to-one map of opcodes.  It acts on raw instructions, samples and binding tables,
and what samples and tables say about a renamed opcode is what they said about the opcode before.

Maps are listed by increasing opcode.  A renaming that keeps the order of the opcodes of a map keeps
its list.
-/

namespace RegisterMachine

open Std (ExtTreeMap)
open Sample (evidence opcodes)

variable {ρ : UInt8 ↪ UInt8} {o o' : UInt8} {op : Operation} {samples : List Sample}
  {t t' u : BindingTable} {β : Type}

/-! ## Maps -/

/-- The map with every opcode renamed. -/
def renameKeys (ρ : UInt8 ↪ UInt8) (m : ExtTreeMap UInt8 β) : ExtTreeMap UInt8 β :=
  .ofList (m.toList.map fun entry => (ρ entry.1, entry.2))

theorem getElem?_renameKeys_eq_some_iff {m : ExtTreeMap UInt8 β} {v : β} :
    (renameKeys ρ m)[o']? = some v ↔ ∃ o, ρ o = o' ∧ m[o]? = some v := by
  have hdistinct : (m.toList.map fun entry => (ρ entry.1, entry.2)).Pairwise
      fun a b => ¬ compare a.1 b.1 = .eq := by
    rw [List.pairwise_map]
    refine m.distinct_keys_toList.imp ?_
    intro a b hne heq
    rw [Std.LawfulEqCmp.compare_eq_iff_eq, ρ.apply_eq_iff_eq] at heq
    exact hne (Std.LawfulEqCmp.compare_eq_iff_eq.mpr heq)
  have hget : ∀ {o : UInt8} {w : β}, m[o]? = some w → (renameKeys ρ m)[ρ o]? = some w := by
    intro o w ho
    apply ExtTreeMap.getElem?_ofList_of_mem Std.ReflCmp.compare_self hdistinct
    exact List.mem_map.mpr ⟨(o, w), ExtTreeMap.mem_toList_iff_getElem?_eq_some.mpr ho, rfl⟩
  constructor
  · intro h
    have hmem : o' ∈ renameKeys ρ m := by
      rw [ExtTreeMap.mem_iff_isSome_getElem?, h, Option.isSome_some]
    rw [renameKeys, ExtTreeMap.mem_ofList, List.contains_iff_mem] at hmem
    simp only [List.map_map, List.mem_map, Function.comp_apply] at hmem
    obtain ⟨⟨o, w⟩, hentry, rfl⟩ := hmem
    have ho : m[o]? = some w := ExtTreeMap.mem_toList_iff_getElem?_eq_some.mp hentry
    rw [hget ho] at h
    exact ⟨o, rfl, ho.trans h⟩
  · intro hex
    obtain ⟨o, rfl, ho⟩ := hex
    exact hget ho

/-- Two maps that agree up to a renaming have the same list up to it, if the renaming keeps the
order of their opcodes. -/
theorem toList_eq_map_of_monotone {m m' : ExtTreeMap UInt8 β}
    (hmono : ∀ o o', o ∈ m → o' ∈ m → o < o' → ρ o < ρ o')
    (hsame : ∀ o' v, m'[o']? = some v ↔ ∃ o, ρ o = o' ∧ m[o]? = some v) :
    m'.toList = m.toList.map fun entry => (ρ entry.1, entry.2) := by
  have hkey : ∀ entry ∈ m.toList, entry.1 ∈ m := by
    rintro ⟨o, v⟩ hentry
    rw [ExtTreeMap.mem_iff_isSome_getElem?, ExtTreeMap.mem_toList_iff_getElem?_eq_some.mp hentry,
      Option.isSome_some]
  have hleft : m'.toList.Pairwise fun a b => a.1 < b.1 :=
    m'.ordered_keys_toList.imp Std.compare_eq_lt.mp
  have hright : (m.toList.map fun entry => (ρ entry.1, entry.2)).Pairwise
      fun a b => a.1 < b.1 := by
    rw [List.pairwise_map]
    refine m.ordered_keys_toList.imp_of_mem ?_
    intro a b ha hb hlt
    exact hmono a.1 b.1 (hkey a ha) (hkey b hb) (Std.compare_eq_lt.mp hlt)
  have hnodup : ∀ {l : List (UInt8 × β)}, l.Pairwise (fun a b => a.1 < b.1) → l.Nodup := by
    intro l hl
    refine hl.imp ?_
    rintro a b hlt rfl
    exact UInt8.lt_irrefl _ hlt
  have hperm : m'.toList.Perm (m.toList.map fun entry => (ρ entry.1, entry.2)) := by
    rw [List.perm_ext_iff_of_nodup (hnodup hleft) (hnodup hright)]
    intro entry
    obtain ⟨o', v⟩ := entry
    simp only [ExtTreeMap.mem_toList_iff_getElem?_eq_some, hsame, List.mem_map, Prod.mk.injEq,
      Prod.exists]
    constructor
    · intro hex
      obtain ⟨o, rfl, ho⟩ := hex
      exact ⟨o, v, ho, rfl, rfl⟩
    · intro hex
      obtain ⟨o, w, ho, rfl, rfl⟩ := hex
      exact ⟨o, rfl, ho⟩
  refine hperm.eq_of_pairwise ?_ hleft hright
  intro a b _ _ hab hba
  exact absurd hba (UInt8.lt_asymm hab)

/-! ## Instructions and samples -/

/-- The instruction with another opcode and the same operands. -/
def RawInstruction.rename (ρ : UInt8 ↪ UInt8) (i : RawInstruction) : RawInstruction :=
  { i with opcode := ρ i.opcode }

/-- The same observation under another opcode. -/
def Sample.rename (ρ : UInt8 ↪ UInt8) (s : Sample) : Sample :=
  { s with instruction := s.instruction.rename ρ }

@[simp] theorem RawInstruction.opcode_rename (i : RawInstruction) :
    (i.rename ρ).opcode = ρ i.opcode := rfl

@[simp] theorem RawInstruction.bind_rename (i : RawInstruction) (op : Operation) :
    (i.rename ρ).bind op = i.bind op := rfl

@[simp] theorem Sample.opcode_rename (s : Sample) : (s.rename ρ).opcode = ρ s.opcode := rfl

@[simp] theorem Sample.matches_rename {s : Sample} : (s.rename ρ).Matches op ↔ s.Matches op :=
  Iff.rfl

theorem Sample.mem_opcodes_map_rename_iff :
    o' ∈ opcodes (samples.map (Sample.rename ρ)) ↔ ∃ o, ρ o = o' ∧ o ∈ opcodes samples := by
  simp only [opcodes, List.mem_map, exists_exists_and_eq_and, Sample.opcode_rename]
  constructor
  · intro hex
    obtain ⟨s, hs, rfl⟩ := hex
    exact ⟨s.opcode, rfl, s, hs, rfl⟩
  · intro hex
    obtain ⟨_, rfl, s, hs, rfl⟩ := hex
    exact ⟨s, hs, rfl⟩

@[simp] theorem Sample.rename_mem_opcodes_map_rename_iff :
    ρ o ∈ opcodes (samples.map (Sample.rename ρ)) ↔ o ∈ opcodes samples := by
  rw [Sample.mem_opcodes_map_rename_iff]
  constructor
  · intro hex
    obtain ⟨o', ho', hmem⟩ := hex
    rwa [← ρ.injective ho']
  · intro hmem
    exact ⟨o, rfl, hmem⟩

/-- The evidence on a renamed opcode is the evidence on the opcode. -/
@[simp] theorem Sample.evidence_map_rename (samples : List Sample) (o : UInt8) :
    evidence (samples.map (Sample.rename ρ)) (ρ o) = evidence samples o := by
  ext op
  simp [Sample.mem_evidence_iff]

/-! ## Binding tables -/

namespace BindingTable

/-- The table that binds the renamed opcodes to the operations of the opcodes. -/
def rename (ρ : UInt8 ↪ UInt8) (t : BindingTable) : BindingTable where
  operations := renameKeys ρ t.operations
  opcodes := t.opcodes.map fun _ o => ρ o
  inverse o' op := by
    rw [getElem?_renameKeys_eq_some_iff, ExtTreeMap.getElem?_map, Option.map_eq_some_iff]
    constructor
    · intro hex
      obtain ⟨o, ho, hop⟩ := hex
      exact ⟨o, (t.inverse o op).mp hop, ho⟩
    · intro hex
      obtain ⟨o, hop, ho⟩ := hex
      exact ⟨o, ho, (t.inverse o op).mpr hop⟩

theorem get?_rename_eq_some_iff :
    (t.rename ρ).get? o' = some op ↔ ∃ o, ρ o = o' ∧ t.get? o = some op :=
  getElem?_renameKeys_eq_some_iff

@[simp] theorem get?_rename (t : BindingTable) (o : UInt8) :
    (t.rename ρ).get? (ρ o) = t.get? o := by
  ext op
  rw [get?_rename_eq_some_iff]
  constructor
  · intro hex
    obtain ⟨o', ho', hop⟩ := hex
    rwa [← ρ.injective ho']
  · intro hop
    exact ⟨o, rfl, hop⟩

@[simp] theorem range_rename (t : BindingTable) : (t.rename ρ).range = t.range := by
  ext op
  simp only [mem_range, get?_rename_eq_some_iff]
  constructor
  · intro hex
    obtain ⟨_, o, rfl, hop⟩ := hex
    exact ⟨o, hop⟩
  · intro hex
    obtain ⟨o, hop⟩ := hex
    exact ⟨ρ o, o, rfl, hop⟩

@[simp] theorem rename_empty : (∅ : BindingTable).rename ρ = ∅ := by
  ext o' op
  rw [get?_rename_eq_some_iff]
  simp

/-- A binding can be inserted before or after renaming. -/
theorem insert_rename_eq_ok (h : t.insert o op = .ok t') :
    (t.rename ρ).insert (ρ o) op = .ok (t'.rename ρ) := by
  rw [insert_eq_ok_iff_not_mem_range] at h ⊢
  obtain ⟨hopen, hfree, hget⟩ := h
  refine ⟨by rw [get?_rename, hopen], by rwa [range_rename], ?_⟩
  intro o'
  ext p
  rw [get?_rename_eq_some_iff]
  by_cases heq : ρ o = o'
  · subst heq
    simp [hget]
  · rw [if_neg heq, get?_rename_eq_some_iff]
    constructor
    · intro hex
      obtain ⟨x, rfl, hx⟩ := hex
      have hne : o ≠ x := fun hox => heq (congrArg ρ hox)
      rw [hget, if_neg hne] at hx
      exact ⟨x, rfl, hx⟩
    · intro hex
      obtain ⟨x, rfl, hx⟩ := hex
      have hne : o ≠ x := fun hox => heq (congrArg ρ hox)
      exact ⟨x, rfl, by rw [hget, if_neg hne, hx]⟩

theorem execute_rename {n : Nat} {i : RawInstruction} (hbound : t.get? i.opcode ≠ none)
    (index : Nat) (r : RegisterFile n) :
    (t.rename ρ).execute index (i.rename ρ) r = t.execute index i r := by
  obtain ⟨op, hop⟩ := Option.ne_none_iff_exists'.mp hbound
  simp only [execute, RawInstruction.opcode_rename, get?_rename, hop, RawInstruction.bind_rename]

/-- The instructions of a program from some position on have the same effect after renaming. -/
theorem runFrom_rename {n : Nat} {program : List RawInstruction}
    (hbound : ∀ i ∈ program, t.get? i.opcode ≠ none) (index : Nat) (r : RegisterFile n) :
    (t.rename ρ).runFrom index (program.map (RawInstruction.rename ρ)) r =
      t.runFrom index program r := by
  induction program generalizing index r with
  | nil => rfl
  | cons i rest ih =>
    rw [List.map_cons, runFrom_cons, runFrom_cons, execute_rename (hbound i List.mem_cons_self)]
    refine bind_congr fun r' => ?_
    exact ih (fun j hj => hbound j (List.mem_cons_of_mem i hj)) (index + 1) r'

/-- A renamed program runs under the renamed table as the program does under the table, if all its
opcodes are bound. -/
theorem run_rename {n : Nat} {program : List RawInstruction}
    (hbound : ∀ i ∈ program, t.get? i.opcode ≠ none) (initial : RegisterFile n) :
    (t.rename ρ).run (program.map (RawInstruction.rename ρ)) initial = t.run program initial := by
  rw [run_eq_runFrom, run_eq_runFrom, runFrom_rename hbound]

end BindingTable

end RegisterMachine
