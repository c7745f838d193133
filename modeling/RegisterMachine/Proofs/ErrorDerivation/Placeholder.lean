import RegisterMachine.ErrorDerivation.Expansion
import RegisterMachine.Proofs.Text

set_option autoImplicit false

/-!
# Naming fields in one pass

Placeholders are renamed by one replacement of text after the other, two for each field.  Together
they do the same as a single pass from left to right, which puts the character `f` after every
opening brace that stands before the number of a field and a character that closes the reference.

The replacements do not get in each other's way: what they look for has an opening brace at its
beginning and nowhere else, and after it a digit, so that a place is never found twice and one
replacement neither makes nor destroys a place for another.
-/

namespace RegisterMachine.ErrorDerivation

variable {p q : List Char → Prop} [DecidablePred p] [DecidablePred q] {word text : List Char}
  {count : Nat}

/-- The text with the character `f` after every opening brace that stands before a text with the
property. -/
def markBraces (p : List Char → Prop) [DecidablePred p] : List Char → List Char
  | [] => []
  | c :: rest =>
    if c = '{' ∧ p rest then '{' :: 'f' :: markBraces p rest else c :: markBraces p rest

/-- The text begins with the number of field `k` and a character that closes the reference to it. -/
def BeginsReferenceTo (k : Nat) (text : List Char) : Prop :=
  ∃ close ∈ ['}', ':'], Nat.toDigits 10 k ++ [close] <+: text

/-- The text begins with a reference to one of so many fields. -/
def BeginsReference (count : Nat) (text : List Char) : Prop :=
  ∃ k < count, BeginsReferenceTo k text

-- only the two closing characters are tried, not all characters
instance (k : Nat) : DecidablePred (BeginsReferenceTo k) := fun _ => List.decidableBEx _ _

instance (count : Nat) : DecidablePred (BeginsReference count) := fun text =>
  inferInstanceAs (Decidable (∃ k < count, BeginsReferenceTo k text))

/-! ## Marked texts -/

theorem markBraces_cons_of_marked {rest : List Char} (h : p rest) :
    markBraces p ('{' :: rest) = '{' :: 'f' :: markBraces p rest :=
  if_pos ⟨rfl, h⟩

theorem markBraces_cons_of_unmarked {c : Char} {rest : List Char} (h : ¬ (c = '{' ∧ p rest)) :
    markBraces p (c :: rest) = c :: markBraces p rest :=
  if_neg h

/-- Text without opening braces stays as it is. -/
theorem markBraces_append (h : '{' ∉ word) (rest : List Char) :
    markBraces p (word ++ rest) = word ++ markBraces p rest := by
  induction word with
  | nil => rfl
  | cons c word ih =>
    rw [List.mem_cons, not_or] at h
    rw [List.cons_append, markBraces_cons_of_unmarked fun hc => h.1 hc.1.symm, ih h.2]
    rfl

theorem markBraces_congr (h : ∀ rest, p rest ↔ q rest) : markBraces p text = markBraces q text := by
  induction text with
  | nil => rfl
  | cons c rest ih => simp only [markBraces, h, ih]

theorem markBraces_of_never (h : ∀ rest, ¬ p rest) : markBraces p text = text := by
  induction text with
  | nil => rfl
  | cons c rest ih => rw [markBraces_cons_of_unmarked fun hc => h rest hc.2, ih]

/-- Marks do not show in a beginning without opening braces. -/
theorem prefix_markBraces_iff (h : '{' ∉ word) : word <+: markBraces p text ↔ word <+: text := by
  induction word generalizing text with
  | nil => exact ⟨fun _ => List.nil_prefix, fun _ => List.nil_prefix⟩
  | cons c word ih =>
    rw [List.mem_cons, not_or] at h
    cases text with
    | nil => rfl
    | cons d rest =>
      by_cases hmark : d = '{' ∧ p rest
      · obtain ⟨rfl, hrest⟩ := hmark
        have hne : c ≠ '{' := fun hc => h.1 hc.symm
        rw [markBraces_cons_of_marked hrest]
        simp only [List.cons_prefix_cons, hne, false_and]
      · rw [markBraces_cons_of_unmarked hmark, List.cons_prefix_cons, List.cons_prefix_cons, ih h.2]

/-- Two passes do the work of one if the second does not see what the first has done. -/
theorem markBraces_markBraces (hstable : ∀ rest, q (markBraces p rest) ↔ q rest)
    (hmarked : ∀ rest, ¬ q ('f' :: rest)) :
    markBraces q (markBraces p text) = markBraces (fun rest => p rest ∨ q rest) text := by
  induction text with
  | nil => rfl
  | cons c rest ih =>
    by_cases hp : c = '{' ∧ p rest
    · obtain ⟨rfl, hrest⟩ := hp
      have hf : ¬ ('f' = '{' ∧ q (markBraces p rest)) := fun hc => absurd hc.1 (by decide)
      rw [markBraces_cons_of_marked hrest, markBraces_cons_of_unmarked fun hc => hmarked _ hc.2,
        markBraces_cons_of_unmarked hf, ih, markBraces_cons_of_marked (Or.inl hrest)]
    · rw [markBraces_cons_of_unmarked hp]
      by_cases hq : c = '{' ∧ q rest
      · obtain ⟨rfl, hrest⟩ := hq
        rw [markBraces_cons_of_marked ((hstable rest).mpr hrest), ih,
          markBraces_cons_of_marked (Or.inr hrest)]
      · have hneither : ¬ (c = '{' ∧ (p rest ∨ q rest)) := by
          rintro ⟨hc, hrest | hrest⟩
          · exact hp ⟨hc, hrest⟩
          · exact hq ⟨hc, hrest⟩
        rw [markBraces_cons_of_unmarked fun hc => hq ⟨hc.1, (hstable rest).mp hc.2⟩, ih,
          markBraces_cons_of_unmarked hneither]

/-! ## One replacement -/

/-- Replacing a word that has its only opening brace in front marks the braces in front of it. -/
theorem replaceAll_eq_markBraces (h : '{' ∉ word) :
    replaceAll ('{' :: word) ('{' :: 'f' :: word) text = markBraces (word <+: ·) text := by
  fun_induction replaceAll ('{' :: word) ('{' :: 'f' :: word) text with
  | case1 => rfl
  | case2 c rest hfound ih =>
    obtain ⟨rfl, tail, rfl⟩ := List.cons_prefix_cons.mp (List.isPrefixOf_iff_prefix.mp hfound)
    rw [markBraces_cons_of_marked (List.prefix_append word tail), markBraces_append h]
    simpa using ih
  | case3 c rest hmissing ih =>
    have hunmarked : ¬ (c = '{' ∧ word <+: rest) := by
      rintro ⟨rfl, hprefix⟩
      exact hmissing (List.isPrefixOf_iff_prefix.mpr (List.cons_prefix_cons.mpr ⟨rfl, hprefix⟩))
    rw [markBraces_cons_of_unmarked hunmarked, ih]

/-! ## References -/

/-- There is no opening brace in digits and a character that closes a reference. -/
theorem brace_not_mem_numeral {numeral : List Char} {close : Char}
    (hdigits : ∀ c ∈ numeral, c.isDigit = true) (hclose : close ∈ ['}', ':']) :
    '{' ∉ numeral ++ [close] := by
  rw [List.mem_append, List.mem_singleton]
  rintro (hmem | rfl)
  · exact absurd (hdigits _ hmem) (by decide)
  · exact absurd hclose (by decide)

/-- A reference begins with a digit. -/
theorem isDigit_of_reference {k : Nat} {close c : Char} {rest : List Char}
    (h : Nat.toDigits 10 k ++ [close] <+: c :: rest) : c.isDigit = true := by
  cases hdigits : Nat.toDigits 10 k with
  | nil => exact absurd hdigits Nat.toDigits_ne_nil
  | cons d digits =>
    rw [hdigits, List.cons_append, List.cons_prefix_cons] at h
    rw [← h.1]
    exact isDigit_of_mem_toDigits d (show d ∈ Nat.toDigits 10 k by simp [hdigits])

theorem not_beginsReference_cons {c : Char} (h : c.isDigit = false) (rest : List Char) :
    ¬ BeginsReference count (c :: rest) := by
  rintro ⟨k, -, close, -, hprefix⟩
  rw [isDigit_of_reference hprefix] at h
  cases h

/-- A brace in front of the number of a field is marked, up to the character that closes it. -/
theorem markBraces_reference {k : Nat} {close : Char} (hk : k < count) (hclose : close ∈ ['}', ':'])
    (rest : List Char) :
    markBraces (BeginsReference count) ('{' :: (Nat.toDigits 10 k ++ close :: rest)) =
      '{' :: (fieldName k ++ close :: markBraces (BeginsReference count) rest) := by
  have hbegins : BeginsReference count (Nat.toDigits 10 k ++ close :: rest) :=
    ⟨k, hk, close, hclose, ⟨rest, by simp⟩⟩
  rw [markBraces_cons_of_marked hbegins, List.append_cons,
    markBraces_append (brace_not_mem_numeral isDigit_of_mem_toDigits hclose)]
  simp [fieldName]

/-! ## One replacement after the other -/

/-- A way in which a message can refer to a field by its number. -/
structure Reference where
  /-- The number of the field. -/
  field : Nat
  /-- The character after the number. -/
  close : Char
  /-- It ends the placeholder, or a format comes after it. -/
  closes : close ∈ ['}', ':']

namespace Reference

/-- What stands behind the opening brace. -/
def written (ref : Reference) : List Char := Nat.toDigits 10 ref.field ++ [ref.close]

/-- The message with this reference made by name. -/
def replace (ref : Reference) (message : List Char) : List Char :=
  replaceAll (opening (Nat.toDigits 10 ref.field) ref.close)
    (opening (fieldName ref.field) ref.close) message

theorem brace_not_mem_written (ref : Reference) : '{' ∉ ref.written :=
  brace_not_mem_numeral isDigit_of_mem_toDigits ref.closes

theorem not_written_prefix_mark (ref : Reference) (rest : List Char) :
    ¬ ref.written <+: 'f' :: rest := by
  intro h
  have hdigit := isDigit_of_reference h
  exact absurd hdigit (by decide)

theorem replace_eq_markBraces (ref : Reference) (message : List Char) :
    ref.replace message = markBraces (ref.written <+: ·) message :=
  replaceAll_eq_markBraces ref.brace_not_mem_written

end Reference

/-- The message with one kind of reference after the other made by name. -/
def replaceReferences (order : List Reference) (message : List Char) : List Char :=
  order.foldl (fun text ref => ref.replace text) message

/-- The text begins with one of the references. -/
def BeginsAny (order : List Reference) (text : List Char) : Prop :=
  ∃ ref ∈ order, ref.written <+: text

instance (order : List Reference) : DecidablePred (BeginsAny order) := fun _ =>
  List.decidableBEx _ _

/-- Replacements one after the other are one pass, in which all places are marked at once. -/
theorem replaceReferences_eq_markBraces (order : List Reference) (message : List Char) :
    replaceReferences order message = markBraces (BeginsAny order) message := by
  induction order generalizing message with
  | nil =>
    rw [markBraces_of_never]
    · rfl
    · rintro rest ⟨ref, hmem, -⟩
      exact absurd hmem List.not_mem_nil
  | cons ref order ih =>
    show replaceReferences order (ref.replace message) = _
    have hstable : ∀ rest, BeginsAny order (markBraces (ref.written <+: ·) rest) ↔
        BeginsAny order rest := fun rest =>
      exists_congr fun other => and_congr_right fun _ =>
        prefix_markBraces_iff other.brace_not_mem_written
    have hmarked : ∀ rest, ¬ BeginsAny order ('f' :: rest) := by
      rintro rest ⟨other, -, hprefix⟩
      exact other.not_written_prefix_mark rest hprefix
    rw [ih, ref.replace_eq_markBraces, markBraces_markBraces hstable hmarked]
    exact markBraces_congr fun rest => by simp [BeginsAny]

/-! ## All replacements -/

/-- The references to so many fields, in the order in which they are replaced. -/
def references : Nat → List Reference
  | 0 => []
  | i + 1 => ⟨i, '}', by decide⟩ :: ⟨i, ':', by decide⟩ :: references i

theorem mem_references_iff {ref : Reference} : ref ∈ references count ↔ ref.field < count := by
  induction count with
  | zero => simp [references]
  | succ i ih =>
    obtain ⟨k, close, hcloses⟩ := ref
    rw [references, List.mem_cons, List.mem_cons, ih]
    simp only [Reference.mk.injEq]
    have hclose : close = '}' ∨ close = ':' := by simpa using hcloses
    constructor
    · rintro (⟨rfl, -⟩ | ⟨rfl, -⟩ | hlt)
      · exact Nat.lt_succ_self k
      · exact Nat.lt_succ_self k
      · exact Nat.lt_succ_of_lt hlt
    · intro hlt
      rcases Nat.lt_succ_iff_lt_or_eq.mp hlt with hlt | rfl
      · exact Or.inr (Or.inr hlt)
      · rcases hclose with rfl | rfl
        · exact Or.inl ⟨rfl, rfl⟩
        · exact Or.inr (Or.inl ⟨rfl, rfl⟩)

theorem nameFields_eq_replaceReferences (count : Nat) (message : List Char) :
    nameFields count message = replaceReferences (references count) message := by
  induction count generalizing message with
  | zero => rfl
  | succ i ih => exact ih (nameField i message)

/-- The references to so many fields are found where a number of one of them stands. -/
theorem beginsAny_iff_beginsReference {order : List Reference}
    (h : ∀ ref, ref ∈ order ↔ ref.field < count) :
    BeginsAny order text ↔ BeginsReference count text := by
  constructor
  · rintro ⟨ref, hmem, hprefix⟩
    exact ⟨ref.field, (h ref).mp hmem, ref.close, ref.closes, hprefix⟩
  · rintro ⟨k, hk, close, hclose, hprefix⟩
    exact ⟨⟨k, close, hclose⟩, (h _).mpr hk, hprefix⟩

/-- All replacements together are one pass, which marks the references to fields. -/
theorem nameFields_eq_markBraces (count : Nat) (text : List Char) :
    nameFields count text = markBraces (BeginsReference count) text := by
  rw [nameFields_eq_replaceReferences, replaceReferences_eq_markBraces]
  exact markBraces_congr fun rest => beginsAny_iff_beginsReference fun _ => mem_references_iff

end RegisterMachine.ErrorDerivation
