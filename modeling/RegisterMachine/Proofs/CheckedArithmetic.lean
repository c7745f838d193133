import Mathlib.Data.BitVec

set_option autoImplicit false

/-!
# Arithmetic that does not overflow

A formula is read twice: with machine words, where sums, differences and products wrap around, and
with checked numbers, where a step has no result unless the exact one is below a given bound, and a
difference or a quotient none unless it exists.  If the checked formula has a value, each of its
steps has been exact, and the formula with words comes to the same value.
-/

namespace RegisterMachine

/-- A number below `size`, or nothing, if there was no such number on the way to it. -/
structure Checked (size : Nat) where
  /-- The number. -/
  value? : Option Nat
  deriving DecidableEq, Repr

namespace Checked

variable {size size' : Nat}

/-- A number that is known to fit. -/
def exact (k : Nat) : Checked size := ⟨some k⟩

/-- A number, if it fits. -/
def ofNat (k : Nat) : Checked size := ⟨if k < size then some k else none⟩

instance (k : Nat) : OfNat (Checked size) k := ⟨ofNat k⟩

/-- A checked step with two operands. -/
def combine (step : Nat → Nat → Checked size) (x y : Checked size) : Checked size :=
  ⟨x.value?.bind fun a => y.value?.bind fun b => (step a b).value?⟩

instance : Add (Checked size) := ⟨combine fun a b => ofNat (a + b)⟩
instance : Sub (Checked size) := ⟨combine fun a b => if b ≤ a then ofNat (a - b) else ⟨none⟩⟩
instance : Mul (Checked size) := ⟨combine fun a b => ofNat (a * b)⟩
instance : Div (Checked size) := ⟨combine fun a b => if b ≠ 0 then ofNat (a / b) else ⟨none⟩⟩
instance : Mod (Checked size) := ⟨combine fun a b => if b ≠ 0 then ofNat (a % b) else ⟨none⟩⟩

/-- The same number, checked against another bound. -/
def cast (x : Checked size) : Checked size' :=
  ⟨x.value?.bind fun a => (ofNat a : Checked size').value?⟩

/-- One of two numbers, by a test of a third. -/
def select (x : Checked size) (p : Nat → Prop) [DecidablePred p] (yes no : Checked size') :
    Checked size' :=
  ⟨x.value?.bind fun a => if p a then yes.value? else no.value?⟩

/-! ## Steps that are exact -/

theorem ofNat_eq_exact {k : Nat} (h : k < size) : (ofNat k : Checked size) = exact k := by
  rw [ofNat, if_pos h, exact]

theorem literal_eq_exact {k : Nat} (h : OfNat.ofNat k < size) :
    (OfNat.ofNat k : Checked size) = exact (OfNat.ofNat k) :=
  ofNat_eq_exact h

theorem exact_add {a b : Nat} (h : a + b < size) :
    (exact a + exact b : Checked size) = exact (a + b) :=
  ofNat_eq_exact h

theorem exact_mul {a b : Nat} (h : a * b < size) :
    (exact a * exact b : Checked size) = exact (a * b) :=
  ofNat_eq_exact h

theorem exact_sub {a b : Nat} (h : b ≤ a) (h' : a < size) :
    (exact a - exact b : Checked size) = exact (a - b) := by
  show (if b ≤ a then ofNat (a - b) else ⟨none⟩ : Checked size) = _
  rw [if_pos h, ofNat_eq_exact (by omega)]

theorem exact_div {a b : Nat} (h : 0 < b) (h' : a < size) :
    (exact a / exact b : Checked size) = exact (a / b) := by
  show (if b ≠ 0 then ofNat (a / b) else ⟨none⟩ : Checked size) = _
  rw [if_pos (by omega), ofNat_eq_exact (Nat.lt_of_le_of_lt (Nat.div_le_self a b) h')]

theorem exact_mod {a b : Nat} (h : 0 < b) (h' : a < size) :
    (exact a % exact b : Checked size) = exact (a % b) := by
  show (if b ≠ 0 then ofNat (a % b) else ⟨none⟩ : Checked size) = _
  rw [if_pos (by omega), ofNat_eq_exact (Nat.lt_of_le_of_lt (Nat.mod_le a b) h')]

theorem cast_exact {k : Nat} (h : k < size') :
    (exact k : Checked size).cast = (exact k : Checked size') :=
  ofNat_eq_exact h

theorem select_exact {k : Nat} (p : Nat → Prop) [DecidablePred p] (yes no : Checked size') :
    (exact k : Checked size).select p yes no = if p k then yes else no := by
  show (⟨if p k then yes.value? else no.value?⟩ : Checked size') = _
  split <;> rfl

/-! ## Words -/

/-- A word of `n` bits is the checked number, if there is one. -/
structure Agrees {n : Nat} (w : BitVec n) (x : Checked size) : Prop where
  /-- Words hold all numbers below the bound. -/
  size_le : size ≤ 2 ^ n
  /-- The word is the number. -/
  toNat_eq : ∀ k, x.value? = some k → w.toNat = k

namespace Agrees

variable {n m : Nat} {w w' : BitVec n} {x x' : Checked size}

theorem ofNat_eq_some {k a : Nat} (h : (ofNat a : Checked size).value? = some k) :
    a = k ∧ k < size := by
  rw [ofNat, Option.ite_none_right_eq_some, Option.some_inj] at h
  exact ⟨h.2, h.2 ▸ h.1⟩

/-- Steps with words that are right where the checked step has a result. -/
theorem combine {f : BitVec n → BitVec n → BitVec n} {step : Nat → Nat → Checked size}
    (hstep : ∀ a b k, (step a.toNat b.toNat).value? = some k → (f a b).toNat = k)
    (h : Agrees w x) (h' : Agrees w' x') : Agrees (f w w') (Checked.combine step x x') where
  size_le := h.size_le
  toNat_eq k hk := by
    rw [Checked.combine, Option.bind_eq_some_iff] at hk
    obtain ⟨a, ha, hk⟩ := hk
    rw [Option.bind_eq_some_iff] at hk
    obtain ⟨b, hb, hk⟩ := hk
    apply hstep
    rw [h.toNat_eq a ha, h'.toNat_eq b hb, hk]

theorem literal (hn : size ≤ 2 ^ n) (k : Nat) :
    Agrees (BitVec.ofNat n k) (OfNat.ofNat k : Checked size) where
  size_le := hn
  toNat_eq a ha := by
    obtain ⟨rfl, hlt⟩ := ofNat_eq_some ha
    rw [BitVec.toNat_ofNat, Nat.mod_eq_of_lt (by omega)]

theorem add (h : Agrees w x) (h' : Agrees w' x') : Agrees (w + w') (x + x') := by
  refine combine (fun a b k hk => ?_) h h'
  obtain ⟨hsum, hlt⟩ := ofNat_eq_some hk
  have hn := h.size_le
  rw [BitVec.toNat_add, hsum, Nat.mod_eq_of_lt (by omega)]

theorem mul (h : Agrees w x) (h' : Agrees w' x') : Agrees (w * w') (x * x') := by
  refine combine (fun a b k hk => ?_) h h'
  obtain ⟨hproduct, hlt⟩ := ofNat_eq_some hk
  have hn := h.size_le
  rw [BitVec.toNat_mul, hproduct, Nat.mod_eq_of_lt (by omega)]

theorem sub (h : Agrees w x) (h' : Agrees w' x') : Agrees (w - w') (x - x') := by
  refine combine (fun a b k hk => ?_) h h'
  split at hk
  · next hle =>
    rw [BitVec.toNat_sub_of_le hle, (ofNat_eq_some hk).1]
  · cases hk

theorem div (h : Agrees w x) (h' : Agrees w' x') : Agrees (w / w') (x / x') := by
  refine combine (fun a b k hk => ?_) h h'
  split at hk
  · rw [BitVec.toNat_udiv, (ofNat_eq_some hk).1]
  · cases hk

theorem mod (h : Agrees w x) (h' : Agrees w' x') : Agrees (w % w') (x % x') := by
  refine combine (fun a b k hk => ?_) h h'
  split at hk
  · rw [BitVec.toNat_umod, (ofNat_eq_some hk).1]
  · cases hk

theorem setWidth (h : Agrees w x) (hm : size' ≤ 2 ^ m) :
    Agrees (w.setWidth m) (x.cast : Checked size') where
  size_le := hm
  toNat_eq k hk := by
    rw [cast, Option.bind_eq_some_iff] at hk
    obtain ⟨a, ha, hk⟩ := hk
    obtain ⟨rfl, hlt⟩ := ofNat_eq_some hk
    rw [BitVec.toNat_setWidth, h.toNat_eq a ha, Nat.mod_eq_of_lt (by omega)]

theorem select {p : Nat → Prop} [DecidablePred p] {c : Prop} [Decidable c]
    {v v' : BitVec m} {y y' : Checked size'} (h : Agrees w x) (hc : c ↔ p w.toNat)
    (hyes : Agrees v y) (hno : Agrees v' y') :
    Agrees (if c then v else v') (x.select p y y') where
  size_le := hyes.size_le
  toNat_eq k hk := by
    rw [Checked.select, Option.bind_eq_some_iff] at hk
    obtain ⟨a, ha, hk⟩ := hk
    rw [h.toNat_eq a ha] at hc
    by_cases hp : p a
    · rw [if_pos hp] at hk
      rw [if_pos (hc.mpr hp), hyes.toNat_eq k hk]
    · rw [if_neg hp] at hk
      rw [if_neg (fun h => hp (hc.mp h)), hno.toNat_eq k hk]

end Agrees

end Checked

end RegisterMachine
