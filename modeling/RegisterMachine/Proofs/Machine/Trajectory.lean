import Mathlib.Data.Fintype.BigOperators
import RegisterMachine.Machine
import RegisterMachine.Proofs.Instruction.Operands

set_option autoImplicit false

/-!
# The trajectory of a bare machine

A bare machine is a program with the register that points to its instructions: there is no
checkpoint, no counter and no halt.  From one register file it gets to the next by executing the
instruction at the pointer and raising the pointer.  The files that it passes through are its
trajectory, which ends where the pointer is outside the program or the instruction names a register
that does not exist.

There are finitely many register files.  So a trajectory that is long enough comes back to a file,
and from then on it goes round.
-/

namespace RegisterMachine

/-- A program and the register that serves as its instruction pointer. -/
structure BareMachine (n : Nat) where
  program : Array Instruction
  ipRegister : Fin n

namespace BareMachine

variable {n : Nat} {b : BareMachine n} {r r' initial : RegisterFile n} {d j k p q : Nat}

/-- The position that the instruction pointer stands for. -/
def position (b : BareMachine n) (r : RegisterFile n) : Nat := (r.word b.ipRegister).toNat

/-- The instruction at the instruction pointer. -/
def fetch? (b : BareMachine n) (r : RegisterFile n) : Option Instruction := b.program[b.position r]?

/-- The registers after the next instruction, with the instruction pointer raised. -/
def next? (b : BareMachine n) (r : RegisterFile n) : Option (RegisterFile n) :=
  (b.fetch? r).bind fun i => (i.perform? r).map (Machine.advance b.ipRegister)

/-- The registers after the given number of instructions. -/
def trajectory (b : BareMachine n) (initial : RegisterFile n) : Nat → Option (RegisterFile n)
  | 0 => some initial
  | k + 1 => (b.trajectory initial k).bind b.next?

@[simp] theorem trajectory_zero (b : BareMachine n) (initial : RegisterFile n) :
    b.trajectory initial 0 = some initial := rfl

theorem trajectory_succ (b : BareMachine n) (initial : RegisterFile n) (k : Nat) :
    b.trajectory initial (k + 1) = (b.trajectory initial k).bind b.next? := rfl

theorem trajectory_succ_of_eq_some (h : b.trajectory initial k = some r) :
    b.trajectory initial (k + 1) = b.next? r := by
  rw [trajectory_succ, h, Option.bind_some]

/-! ## Where a trajectory goes on -/

theorem fetch?_eq_none_iff : b.fetch? r = none ↔ b.program.size ≤ b.position r :=
  Array.getElem?_eq_none_iff

/-- The next file exists if there is an instruction and all its registers exist. -/
theorem exists_next?_iff : (∃ r', b.next? r = some r') ↔ ∃ i ∈ b.fetch? r, i.InRange n := by
  simp only [next?, Option.bind_eq_some_iff, Option.map_eq_some_iff, Option.mem_def,
    ← Instruction.exists_perform?_iff (r := r)]
  constructor
  · intro hex
    obtain ⟨_, i, hi, after, hafter, -⟩ := hex
    exact ⟨i, hi, after, hafter⟩
  · intro hex
    obtain ⟨i, hi, after, hafter⟩ := hex
    exact ⟨_, i, hi, after, hafter, rfl⟩

/-- A trajectory gets as far as all its instructions exist and can be performed. -/
theorem exists_trajectory_iff :
    (∃ r, b.trajectory initial k = some r) ↔
      ∀ m < k, ∃ r ∈ b.trajectory initial m, ∃ i ∈ b.fetch? r, i.InRange n := by
  induction k with
  | zero => simp
  | succ k ih =>
    rw [trajectory_succ]
    simp only [Option.bind_eq_some_iff]
    constructor
    · intro hex m hm
      obtain ⟨r', r, hr, hnext⟩ := hex
      rcases Nat.lt_succ_iff_lt_or_eq.mp hm with hlt | rfl
      · exact ih.mp ⟨r, hr⟩ m hlt
      · exact ⟨r, hr, exists_next?_iff.mp ⟨r', hnext⟩⟩
    · intro hall
      obtain ⟨r, hr, hfetch⟩ := hall k (Nat.lt_succ_self k)
      obtain ⟨r', hnext⟩ := exists_next?_iff.mpr hfetch
      exact ⟨r', r, hr, hnext⟩

theorem exists_trajectory_of_le (h : b.trajectory initial k = some r) (hjk : j ≤ k) :
    ∃ r', b.trajectory initial j = some r' := by
  rw [exists_trajectory_iff]
  intro m hm
  exact exists_trajectory_iff.mp ⟨r, h⟩ m (by omega)

/-- Before the end of a trajectory the instruction pointer is inside the program. -/
theorem position_lt_of_trajectory (h : b.trajectory initial k = some r) (hjk : j < k)
    (hr' : b.trajectory initial j = some r') : b.position r' < b.program.size := by
  obtain ⟨_, hr, i, hi, -⟩ := exists_trajectory_iff.mp ⟨r, h⟩ j hjk
  rw [Option.mem_def, hr'] at hr
  cases hr
  refine Nat.lt_of_not_le fun hout => ?_
  rw [fetch?_eq_none_iff.mpr hout] at hi
  cases hi

/-! ## Recurrence -/

/-- A trajectory can be cut at any point. -/
theorem trajectory_add (b : BareMachine n) (initial : RegisterFile n) (p d : Nat) :
    b.trajectory initial (p + d) =
      (b.trajectory initial p).bind fun r => b.trajectory r d := by
  induction d with
  | zero => simp
  | succ d ih =>
    rw [← Nat.add_assoc, trajectory_succ, ih, Option.bind_assoc]
    rfl

/-- What follows a file does not depend on when it was reached. -/
theorem trajectory_add_of_recurs (h : b.trajectory initial p = b.trajectory initial q) (d : Nat) :
    b.trajectory initial (p + d) = b.trajectory initial (q + d) := by
  rw [trajectory_add, h, ← trajectory_add]

/-- Once a file has come back, nothing new is ever reached. -/
theorem exists_lt_of_recurs (hpq : p < q)
    (h : b.trajectory initial p = b.trajectory initial q) (hk : p ≤ k) :
    ∃ j, p ≤ j ∧ j < q ∧ b.trajectory initial j = b.trajectory initial k := by
  induction k using Nat.strongRecOn with
  | ind k ih =>
    rcases Nat.lt_or_ge k q with hlt | hge
    · exact ⟨k, hk, hlt, rfl⟩
    · -- One round earlier the same file was reached.
      obtain ⟨d, rfl⟩ := Nat.exists_eq_add_of_le hge
      obtain ⟨j, hpj, hjq, hj⟩ := ih (p + d) (by omega) (by omega)
      exact ⟨j, hpj, hjq, hj.trans (trajectory_add_of_recurs h d)⟩

/-! ## Finitely many files -/

/-- The number of files of `n` registers. -/
def fileCount (n : Nat) : Nat := UInt64.size ^ n

/-- The contents of a file as bounded numbers. -/
def code (r : RegisterFile n) (i : Fin n) : Fin UInt64.size := (r.word i).toFin

theorem code_injective : Function.Injective (code (n := n)) := by
  intro r r' h
  apply RegisterFile.ext_word
  intro i
  exact UInt64.toFin_inj.mp (congrFun h i)

/-- A trajectory that gets far enough comes back to a file. -/
theorem exists_recurs (h : b.trajectory initial (fileCount n) = some r) :
    ∃ p q, p < q ∧ q ≤ fileCount n ∧ b.trajectory initial p = b.trajectory initial q := by
  classical
  let files : Finset (Option (Fin n → Fin UInt64.size)) := Finset.univ.image some
  have hcard : files.card < (Finset.range (fileCount n + 1)).card := by
    rw [Finset.card_image_of_injective _ (Option.some_injective _), Finset.card_univ,
      Fintype.card_fun, Fintype.card_fin, Fintype.card_fin, Finset.card_range, fileCount]
    exact Nat.lt_succ_self _
  have hmaps : Set.MapsTo (fun k => (b.trajectory initial k).map code)
      (Finset.range (fileCount n + 1)) files := by
    intro k hk
    have hle : k ≤ fileCount n := by
      have := Finset.mem_range.mp (Finset.mem_coe.mp hk)
      omega
    obtain ⟨r', hr'⟩ := exists_trajectory_of_le h hle
    simp [files, hr']
  obtain ⟨x, hx, y, hy, hne, heq⟩ := Finset.exists_ne_map_eq_of_card_lt_of_maps_to hcard hmaps
  rw [Finset.mem_range] at hx hy
  have hsame : b.trajectory initial x = b.trajectory initial y :=
    Option.map_injective code_injective heq
  rcases Nat.lt_or_gt_of_ne hne with hlt | hgt
  · exact ⟨x, y, hlt, by omega, hsame⟩
  · exact ⟨y, x, hgt, by omega, hsame.symm⟩

end BareMachine

end RegisterMachine
