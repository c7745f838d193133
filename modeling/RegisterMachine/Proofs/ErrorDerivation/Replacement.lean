import RegisterMachine.Proofs.ErrorDerivation.Expansion
import RegisterMachine.Proofs.ErrorDerivation.Placeholder

set_option autoImplicit false

/-!
# The order of the replacements

The last field is replaced first, and `}` before `:`.  Since all replacements together are one pass,
which marks every reference that is looked for, any other order would do, and so would looking for a
reference more than once.

A number in a message ends where its digits end, so it is found as a whole or not at all: the
reference `{1}` is no part of `{10}`, and numbers that belong to no field, or that are not written
as the numbers of fields are, stay where they are.
-/

namespace RegisterMachine.ErrorDerivation

variable {p : List Char → Prop} [DecidablePred p] {order order' : List Reference} {count : Nat}
  {word numeral : List Char} {close : Char}

/-! ## Any order -/

/-- Which references are looked for decides everything. -/
theorem replaceReferences_congr (h : ∀ ref, ref ∈ order ↔ ref ∈ order') (message : List Char) :
    replaceReferences order message = replaceReferences order' message := by
  rw [replaceReferences_eq_markBraces, replaceReferences_eq_markBraces]
  exact markBraces_congr fun rest => exists_congr fun ref => and_congr_left' (h ref)

theorem replaceReferences_append (order order' : List Reference) (message : List Char) :
    replaceReferences (order ++ order') message =
      replaceReferences order' (replaceReferences order message) :=
  List.foldl_append

/-- A second replacement of the same references finds nothing. -/
theorem replaceReferences_idem (order : List Reference) (message : List Char) :
    replaceReferences order (replaceReferences order message) =
      replaceReferences order message := by
  rw [← replaceReferences_append]
  exact replaceReferences_congr (fun ref => by rw [List.mem_append, or_self]) message

/-! ## Where numbers end -/

/-- Digits can be told from what comes after them. -/
theorem numeral_append_inj {numeral' after after' : List Char} {close' : Char}
    (hdigits : ∀ c ∈ numeral, c.isDigit = true) (hdigits' : ∀ c ∈ numeral', c.isDigit = true)
    (hclose : close.isDigit = false) (hclose' : close'.isDigit = false)
    (h : numeral ++ close :: after = numeral' ++ close' :: after') :
    numeral = numeral' ∧ close = close' := by
  obtain ⟨hnumeral, hafter⟩ :=
    digits_append_inj hdigits hdigits' (endsNumber_cons hclose) (endsNumber_cons hclose') h
  exact ⟨hnumeral, (List.cons.inj hafter).1⟩

theorem isDigit_of_closes (h : close ∈ ['}', ':']) : close.isDigit = false := by
  have hclose : close = '}' ∨ close = ':' := by simpa using h
  rcases hclose with rfl | rfl
  · decide
  · decide

/-- A reference is found only where all its digits stand, and no more of them. -/
theorem Reference.eq_of_written_prefix {ref : Reference} {after : List Char}
    (hdigits : ∀ c ∈ numeral, c.isDigit = true) (hclose : close ∈ ['}', ':'])
    (h : ref.written <+: numeral ++ close :: after) :
    Nat.toDigits 10 ref.field = numeral ∧ ref.close = close := by
  obtain ⟨tail, htail⟩ := h
  rw [Reference.written, List.append_assoc, List.singleton_append] at htail
  exact numeral_append_inj isDigit_of_mem_toDigits hdigits (isDigit_of_closes ref.closes)
    (isDigit_of_closes hclose) htail

/-- Only zero is written with a zero in front. -/
theorem eq_zero_of_toDigits_eq {k : Nat} {digits : List Char}
    (h : Nat.toDigits 10 k = '0' :: digits) : k = 0 ∧ digits = [] := by
  induction k using Nat.strongRecOn generalizing digits with
  | ind k ih =>
    by_cases hk : k < 10
    · rw [Nat.toDigits_of_lt_base hk, List.cons.injEq, Nat.digitChar_eq_zero] at h
      exact ⟨h.1, h.2.symm⟩
    · rw [Nat.toDigits_of_base_le (by decide) (by omega)] at h
      cases hfront : Nat.toDigits 10 (k / 10) with
      | nil => exact absurd hfront Nat.toDigits_ne_nil
      | cons d front =>
        rw [hfront, List.cons_append, List.cons.injEq] at h
        rw [h.1] at hfront
        have hzero := (ih (k / 10) (by omega) hfront).1
        omega

/-! ## What is passed over -/

/-- The replacement copies the word, and before and behind it goes on as if it were not there. -/
def PassesOver (replace : List Char → List Char) (word : List Char) : Prop :=
  ∀ before after, replace (before ++ word ++ after) = replace before ++ word ++ replace after

theorem prefix_append_brace_iff (h : '{' ∉ word) (before rest : List Char) :
    word <+: before ++ '{' :: rest ↔ word <+: before := by
  induction word generalizing before with
  | nil => exact ⟨fun _ => List.nil_prefix, fun _ => List.nil_prefix⟩
  | cons c word ih =>
    rw [List.mem_cons, not_or] at h
    cases before with
    | nil => simp [List.cons_prefix_cons, Ne.symm h.1]
    | cons d before =>
      rw [List.cons_append, List.cons_prefix_cons, List.cons_prefix_cons, ih h.2]

theorem beginsAny_append_brace_iff (before rest : List Char) :
    BeginsAny order (before ++ '{' :: rest) ↔ BeginsAny order before :=
  exists_congr fun ref => and_congr_right fun _ =>
    prefix_append_brace_iff ref.brace_not_mem_written before rest

/-- Text before an opening brace can be marked apart if no mark in it depends on the brace. -/
theorem markBraces_append_brace (h : ∀ before rest, p (before ++ '{' :: rest) ↔ p before)
    (before rest : List Char) :
    markBraces p (before ++ '{' :: rest) = markBraces p before ++ markBraces p ('{' :: rest) := by
  induction before with
  | nil => rfl
  | cons c before ih =>
    rw [List.cons_append]
    by_cases hmark : c = '{' ∧ p before
    · obtain ⟨rfl, hbefore⟩ := hmark
      rw [markBraces_cons_of_marked ((h before rest).mpr hbefore),
        markBraces_cons_of_marked hbefore, ih]
      rfl
    · have hmark' : ¬ (c = '{' ∧ p (before ++ '{' :: rest)) := by rwa [h]
      rw [markBraces_cons_of_unmarked hmark', markBraces_cons_of_unmarked hmark, ih]
      rfl

/-- A number that is not looked for is passed over. -/
theorem passesOver_replaceReferences (hdigits : ∀ c ∈ numeral, c.isDigit = true)
    (hclose : close ∈ ['}', ':'])
    (h : ∀ ref ∈ order, ¬ (Nat.toDigits 10 ref.field = numeral ∧ ref.close = close)) :
    PassesOver (replaceReferences order) (opening numeral close) := by
  intro before after
  have hunmarked : ¬ ('{' = '{' ∧ BeginsAny order (numeral ++ close :: after)) := by
    rintro ⟨-, ref, hmem, hprefix⟩
    exact h ref hmem (Reference.eq_of_written_prefix hdigits hclose hprefix)
  have hbrace : '{' ∉ numeral ++ [close] := brace_not_mem_numeral hdigits hclose
  have hopening : opening numeral close ++ after = '{' :: (numeral ++ close :: after) := by
    simp [opening]
  simp only [replaceReferences_eq_markBraces]
  rw [List.append_assoc, hopening, markBraces_append_brace beginsAny_append_brace_iff,
    markBraces_cons_of_unmarked hunmarked, List.append_cons numeral close after,
    markBraces_append hbrace]
  simp [opening]

/-- One reference passes over every other. -/
theorem Reference.passesOver_replace {ref other : Reference} (h : ref ≠ other) :
    PassesOver ref.replace (opening (Nat.toDigits 10 other.field) other.close) := by
  show PassesOver (replaceReferences [ref]) _
  refine passesOver_replaceReferences isDigit_of_mem_toDigits other.closes ?_
  rintro ref' hmem ⟨hfield, hclose⟩
  obtain rfl := List.mem_singleton.mp hmem
  obtain ⟨k, close, hcloses⟩ := ref'
  obtain rfl := toDigits_injective hfield
  subst hclose
  exact h rfl

/-- A number that is not that of a field is passed over. -/
theorem passesOver_nameFields (hdigits : ∀ c ∈ numeral, c.isDigit = true)
    (hclose : close ∈ ['}', ':']) (h : ∀ k < count, Nat.toDigits 10 k ≠ numeral) :
    PassesOver (nameFields count) (opening numeral close) := by
  intro before after
  simp only [nameFields_eq_replaceReferences]
  exact passesOver_replaceReferences hdigits hclose
    (fun ref hmem heq => h ref.field (mem_references_iff.mp hmem) heq.1) before after

/-- **All replacements at once.**  A character `f` is put after each opening brace that stands
before the number of a field and a character that closes the reference, and nothing else is done.
Any order of the replacements does the same.  No reference is found in another; numbers that belong
to no field, and numbers with zeros in front, are passed over; and nothing is found a second
time. -/
theorem nameFields_marks_references_once (count : Nat) (message : List Char) :
    nameFields count message = markBraces (BeginsReference count) message ∧
    (∀ order : List Reference, (∀ ref, ref ∈ order ↔ ref.field < count) →
      replaceReferences order message = nameFields count message) ∧
    (∀ ref other : Reference, ref ≠ other →
      PassesOver ref.replace (opening (Nat.toDigits 10 other.field) other.close)) ∧
    (∀ k, count ≤ k → ∀ close ∈ ['}', ':'],
      PassesOver (nameFields count) (opening (Nat.toDigits 10 k) close)) ∧
    (∀ d digits, (∀ c ∈ d :: digits, c.isDigit = true) → ∀ close ∈ ['}', ':'],
      PassesOver (nameFields count) (opening ('0' :: d :: digits) close)) ∧
    nameFields count (nameFields count message) = nameFields count message := by
  refine ⟨nameFields_eq_markBraces count message, fun order horder => ?_,
    fun ref other hne => Reference.passesOver_replace hne, fun k hk close hclose => ?_,
    fun d digits hdigits close hclose => ?_, ?_⟩
  · rw [nameFields_eq_replaceReferences]
    exact replaceReferences_congr (fun ref => (horder ref).trans mem_references_iff.symm) message
  · refine passesOver_nameFields isDigit_of_mem_toDigits hclose fun l hl heq => ?_
    have hsame := toDigits_injective heq
    omega
  · refine passesOver_nameFields (List.forall_mem_cons.mpr ⟨by decide, hdigits⟩) hclose
      fun l _ heq => ?_
    exact List.cons_ne_nil d digits (eq_zero_of_toDigits_eq heq).2
  · simp only [nameFields_eq_replaceReferences]
    exact replaceReferences_idem (references count) message

end RegisterMachine.ErrorDerivation
