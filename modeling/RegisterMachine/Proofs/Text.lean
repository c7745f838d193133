import Mathlib.Algebra.Group.Nat.Defs
import Mathlib.Logic.Function.Defs
import RegisterMachine.Text

set_option autoImplicit false

/-!
# Texts in columns, and numbers in texts

Texts are ordered as in a dictionary: by the first character in which they differ.  If texts of one
length are put together from columns, the first column in which they differ decides.  In a column of
decimal digits with leading zeros the order of the texts is that of the numbers, as long as the
numbers fit.

A number is written with its decimal digits.  No two numbers are written alike, and a number that is
not followed by a digit can be told from what comes after it.
-/

namespace RegisterMachine

/-! ## Numbers, place by place -/

/-- Numbers are compared by their quotients, and then by their remainders. -/
theorem compare_eq_compare_div_then (d a b : Nat) :
    compare a b = (compare (a / d) (b / d)).then (compare (a % d) (b % d)) := by
  rcases Nat.lt_trichotomy (a / d) (b / d) with h | h | h
  · rw [Nat.compare_eq_lt.mpr h, Ordering.lt_then, Nat.compare_eq_lt]
    exact Nat.lt_of_div_lt_div h
  · rw [Nat.compare_eq_eq.mpr h, Ordering.eq_then]
    have ha := Nat.div_add_mod a d
    have hb := Nat.div_add_mod b d
    rw [← h] at hb
    rcases Nat.lt_trichotomy (a % d) (b % d) with h' | h' | h'
    · rw [Nat.compare_eq_lt.mpr h', Nat.compare_eq_lt]
      omega
    · rw [Nat.compare_eq_eq.mpr h', Nat.compare_eq_eq]
      omega
    · rw [Nat.compare_eq_gt.mpr h', Nat.compare_eq_gt]
      omega
  · rw [Nat.compare_eq_gt.mpr h, Ordering.gt_then, Nat.compare_eq_gt]
    exact Nat.lt_of_div_lt_div h

/-- Quotients and remainders that are put together are compared one after the other. -/
theorem compare_mul_add {d a b c c' : Nat} (hc : c < d) (hc' : c' < d) :
    compare (a * d + c) (b * d + c') = (compare a b).then (compare c c') := by
  have hplaces : ∀ {q k : Nat}, k < d → (q * d + k) / d = q ∧ (q * d + k) % d = k := by
    intro q k hk
    have hpos : 0 < d := by omega
    constructor
    · rw [Nat.add_comm, Nat.add_mul_div_right k q hpos, Nat.div_eq_of_lt hk, Nat.zero_add]
    · rw [Nat.add_comm, Nat.add_mul_mod_self_right, Nat.mod_eq_of_lt hk]
  rw [compare_eq_compare_div_then d, (hplaces hc).1, (hplaces hc).2, (hplaces hc').1,
    (hplaces hc').2]

/-- The last `width` decimal digits of a number. -/
def lastDigits : Nat → Nat → List Char
  | 0, _ => []
  | width + 1, k => lastDigits width (k / 10) ++ [Nat.digitChar (k % 10)]

@[simp] theorem length_lastDigits (width k : Nat) : (lastDigits width k).length = width := by
  induction width generalizing k with
  | zero => rfl
  | succ width ih => rw [lastDigits, List.length_append, ih, List.length_singleton]

theorem div_ten_lt {width k : Nat} (h : k < 10 ^ (width + 1)) : k / 10 < 10 ^ width := by
  rw [Nat.div_lt_iff_lt_mul (by decide), ← Nat.pow_succ]
  exact h

theorem lastDigits_zero (width : Nat) : lastDigits width 0 = List.replicate width '0' := by
  induction width with
  | zero => rfl
  | succ width ih =>
    rw [lastDigits, Nat.zero_div, ih, List.replicate_succ']
    rfl

/-- A number that fits its column is written with as many digits as the column is wide. -/
theorem toList_zeroPadded {width k : Nat} (hpos : 0 < width) (h : k < 10 ^ width) :
    (zeroPadded width k).toList = lastDigits width k := by
  have hpad : (zeroPadded width k).toList =
      List.replicate (width - (Nat.toDigits 10 k).length) '0' ++ Nat.toDigits 10 k := by
    simp [zeroPadded, Alignment.pad, ← String.length_toList]
  rw [hpad]
  clear hpad
  induction width generalizing k with
  | zero => cases hpos
  | succ width ih =>
    by_cases hsmall : k < 10
    · rw [Nat.toDigits_of_lt_base hsmall, lastDigits, Nat.div_eq_of_lt hsmall, lastDigits_zero,
        Nat.mod_eq_of_lt hsmall, List.length_singleton, Nat.add_sub_cancel]
    · have hwide : 0 < width := by
        rcases Nat.eq_zero_or_pos width with rfl | hwide
        · omega
        · exact hwide
      rw [Nat.toDigits_of_base_le (by decide) (Nat.le_of_not_lt hsmall), lastDigits,
        ← ih hwide (div_ten_lt h), List.length_append, List.length_singleton, Nat.add_sub_add_right,
        List.append_assoc]

/-! ## Texts, column by column -/

/-- Two texts have one length, and this is the order in which they stand. -/
structure Stand (x y : List Char) (order : Ordering) : Prop where
  /-- The length is the same. -/
  length_eq : x.length = y.length
  /-- The first difference decides. -/
  compare_eq : compare x y = order

variable {x x' y y' : List Char} {order order' : Ordering}

theorem Stand.refl (x : List Char) : Stand x x .eq :=
  ⟨rfl, Std.compare_self⟩

/-- The first column in which texts differ decides. -/
theorem Stand.append (h : Stand x y order) (h' : Stand x' y' order') :
    Stand (x ++ x') (y ++ y') (order.then order') := by
  obtain ⟨hlength, rfl⟩ := h
  refine ⟨by rw [List.length_append, List.length_append, hlength, h'.length_eq], ?_⟩
  induction x generalizing y with
  | nil =>
    cases y with
    | nil => exact h'.compare_eq
    | cons b y => cases hlength
  | cons a x ih =>
    cases y with
    | nil => cases hlength
    | cons b y =>
      rw [List.cons_append, List.cons_append, List.compare_cons_cons, List.compare_cons_cons,
        ih (Nat.succ.inj hlength), Ordering.then_assoc]

theorem compare_digitChar : ∀ a < 10, ∀ b < 10,
    compare [Nat.digitChar a] [Nat.digitChar b] = compare a b := by
  decide

theorem stand_lastDigits {width a b : Nat} (ha : a < 10 ^ width) (hb : b < 10 ^ width) :
    Stand (lastDigits width a) (lastDigits width b) (compare a b) := by
  induction width generalizing a b with
  | zero =>
    obtain rfl : a = b := by omega
    rw [Nat.compare_eq_eq.mpr rfl]
    exact .refl _
  | succ width ih =>
    rw [compare_eq_compare_div_then 10 a b]
    exact (ih (div_ten_lt ha) (div_ten_lt hb)).append
      ⟨rfl, compare_digitChar _ (Nat.mod_lt a (by decide)) _ (Nat.mod_lt b (by decide))⟩

/-- Numbers in a column that is wide enough stand in their order. -/
theorem stand_zeroPadded {width a b : Nat} (hpos : 0 < width) (ha : a < 10 ^ width)
    (hb : b < 10 ^ width) :
    Stand (zeroPadded width a).toList (zeroPadded width b).toList (compare a b) := by
  rw [toList_zeroPadded hpos ha, toList_zeroPadded hpos hb]
  exact stand_lastDigits ha hb

theorem lt_iff_compare_eq_lt {x y : List Char} : x < y ↔ compare x y = .lt := by
  induction x generalizing y with
  | nil => cases y <;> simp
  | cons a x ih =>
    cases y with
    | nil => simp
    | cons b y =>
      have hchar : compare a b = .lt ↔ a < b := compareOfLessAndEq_eq_lt
      rw [List.cons_lt_cons_iff, List.compare_cons_cons, Ordering.then_eq_lt, ih, hchar,
        Std.compare_eq_iff_eq]

/-! ## Numbers followed by other text -/

variable {k l : Nat} {c : Char} {digits digits' rest rest' : List Char}

theorem isDigit_of_mem_toDigits {k : Nat} : ∀ c ∈ Nat.toDigits 10 k, c.isDigit = true :=
  fun _ hmem => Nat.isDigit_of_mem_toDigits (by omega) (by omega) hmem

theorem toDigits_injective : Function.Injective (Nat.toDigits 10) := by
  intro k l h
  rw [← Nat.ofDigitChars_ten_toDigits (n := k), h, Nat.ofDigitChars_ten_toDigits]

/-- The text does not begin with a digit. -/
def EndsNumber (text : List Char) : Prop := ∀ c ∈ text.head?, c.isDigit = false

theorem endsNumber_cons (h : c.isDigit = false) : EndsNumber (c :: rest) := by
  intro d hd
  cases hd
  exact h

theorem EndsNumber.takeWhile_eq_nil (h : EndsNumber rest) : rest.takeWhile Char.isDigit = [] := by
  cases rest with
  | nil => rfl
  | cons c rest =>
    have hc : c.isDigit = false := h c rfl
    simp [hc]

/-- Digits can be told from what comes after them. -/
theorem digits_append_inj (hdigits : ∀ c ∈ digits, c.isDigit = true)
    (hdigits' : ∀ c ∈ digits', c.isDigit = true) (hrest : EndsNumber rest)
    (hrest' : EndsNumber rest') (h : digits ++ rest = digits' ++ rest') :
    digits = digits' ∧ rest = rest' := by
  have hsame : digits = digits' := by
    have htake := congrArg (List.takeWhile Char.isDigit) h
    rwa [List.takeWhile_append_of_pos hdigits, List.takeWhile_append_of_pos hdigits',
      hrest.takeWhile_eq_nil, hrest'.takeWhile_eq_nil, List.append_nil, List.append_nil] at htake
  subst hsame
  exact ⟨rfl, List.append_cancel_left h⟩

/-- A number can be told from what comes after it. -/
theorem toDigits_append_inj (hrest : EndsNumber rest) (hrest' : EndsNumber rest')
    (h : Nat.toDigits 10 k ++ rest = Nat.toDigits 10 l ++ rest') : k = l ∧ rest = rest' := by
  obtain ⟨hdigits, hsame⟩ :=
    digits_append_inj isDigit_of_mem_toDigits isDigit_of_mem_toDigits hrest hrest' h
  exact ⟨toDigits_injective hdigits, hsame⟩

end RegisterMachine
