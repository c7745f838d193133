import RegisterMachine.Proofs.ErrorDerivation.Expansion
import RegisterMachine.Proofs.ErrorDerivation.Format
import RegisterMachine.Proofs.ErrorDerivation.Placeholder

set_option autoImplicit false

/-!
# Messages with numbered placeholders

The author of a message refers to fields without names by their numbers; the message that is written
refers to them by the names under which they are passed.  The change is made to the bare text, not
to its pieces, so it also finds a reference behind a doubled brace, in `{{0}}` for instance, where
there is no placeholder but literal text.

Such references are hidden.  Every piece of a message stays what it is, and its placeholders refer
to the same fields as before, but a character `f` is printed for every hidden reference.  Therefore
a message is printed as its author wrote it exactly if it hides no reference.
-/

namespace RegisterMachine.ErrorDerivation

variable {p : Piece} {pieces : List Piece} {count : Nat} {message : String}

/-! ## References by number and by name -/

/-- A placeholder refers to one of so many fields by its number, and its format refers to no other
argument. -/
def Piece.Numbered (count : Nat) : Piece → Prop
  | placeholder name format =>
    (∃ k < count, name = Nat.toDigits 10 k) ∧ ∀ spec ∈ format, '$' ∉ spec ∧ '*' ∉ spec
  | char _ | openBrace | closeBrace => True

instance (count : Nat) : DecidablePred (Piece.Numbered count)
  | .placeholder _ _ => inferInstanceAs (Decidable (_ ∧ _))
  | .char _ | .openBrace | .closeBrace => inferInstanceAs (Decidable True)

/-- The piece with the name of a field in place of its number. -/
def Piece.byName : Piece → Piece
  | placeholder name format => placeholder ('f' :: name) format
  | p => p

/-- The piece is a doubled brace in front of what would be a reference behind a single one. -/
def Piece.Hides (count : Nat) (rest : List Piece) (p : Piece) : Prop :=
  p = openBrace ∧ BeginsReference count (texts rest)

instance (count : Nat) (rest : List Piece) (p : Piece) : Decidable (p.Hides count rest) :=
  inferInstanceAs (Decidable (_ ∧ _))

/-- Some doubled brace hides a reference. -/
def HidesReference (count : Nat) (pieces : List Piece) : Prop :=
  ∃ p rest, p :: rest <:+ pieces ∧ p.Hides count rest

/-- The number of doubled braces that hide a reference. -/
def hiddenReferences (count : Nat) : List Piece → Nat
  | [] => 0
  | p :: rest => (if p.Hides count rest then 1 else 0) + hiddenReferences count rest

/-- The pieces with names in place of numbers, also in hidden references. -/
def nameReferences (count : Nat) : List Piece → List Piece
  | [] => []
  | p :: rest =>
    if p.Hides count rest then p.byName :: .char 'f' :: nameReferences count rest
    else p.byName :: nameReferences count rest

theorem not_hidesReference_nil : ¬ HidesReference count [] := by
  rintro ⟨p, rest, hsuffix, -⟩
  exact List.cons_ne_nil p rest (List.suffix_nil.mp hsuffix)

theorem hidesReference_cons_iff {rest : List Piece} :
    HidesReference count (p :: rest) ↔ p.Hides count rest ∨ HidesReference count rest := by
  simp only [HidesReference, List.suffix_cons_iff, List.cons.injEq]
  constructor
  · rintro ⟨q, after, ⟨rfl, rfl⟩ | hsuffix, hhides⟩
    · exact Or.inl hhides
    · exact Or.inr ⟨q, after, hsuffix, hhides⟩
  · rintro (hhides | ⟨q, after, hsuffix, hhides⟩)
    · exact ⟨p, rest, Or.inl ⟨rfl, rfl⟩, hhides⟩
    · exact ⟨q, after, Or.inr hsuffix, hhides⟩

theorem hiddenReferences_eq_zero_iff :
    hiddenReferences count pieces = 0 ↔ ¬ HidesReference count pieces := by
  induction pieces with
  | nil => exact ⟨fun _ => not_hidesReference_nil, fun _ => rfl⟩
  | cons p rest ih =>
    rw [hidesReference_cons_iff, not_or, ← ih, hiddenReferences]
    by_cases hhides : p.Hides count rest
    · simp [hhides]
    · simp [hhides]

/-! ## The text of the message -/

/-- The names are put into one piece after the other. -/
theorem markBraces_text_append (hwell : p.WellFormed) (hnumbered : p.Numbered count)
    (rest : List Piece) :
    markBraces (BeginsReference count) (p.text ++ Piece.texts rest) =
      p.byName.text ++ (if p.Hides count rest then ['f'] else []) ++
        markBraces (BeginsReference count) (Piece.texts rest) := by
  cases p with
  | char c =>
    rw [markBraces_append (by simpa [Piece.text] using hwell.1.symm)]
    simp [Piece.Hides, Piece.byName]
  | openBrace =>
    have hsecond : ¬ ('{' = '{' ∧ BeginsReference count ('{' :: Piece.texts rest)) :=
      fun h => not_beginsReference_cons (by decide) _ h.2
    show markBraces (BeginsReference count) ('{' :: '{' :: Piece.texts rest) = _
    rw [markBraces_cons_of_unmarked hsecond, markBraces]
    by_cases hbegins : BeginsReference count (Piece.texts rest)
    · simp [Piece.Hides, Piece.byName, Piece.text, hbegins]
    · simp [Piece.Hides, Piece.byName, Piece.text, hbegins]
  | closeBrace =>
    rw [markBraces_append (by decide)]
    simp [Piece.Hides, Piece.byName]
  | placeholder name format =>
    obtain ⟨⟨k, hk, rfl⟩, -⟩ := hnumbered
    have hhides : ¬ (Piece.placeholder (Nat.toDigits 10 k) format).Hides count rest :=
      fun h => by cases h.1
    rw [if_neg hhides]
    cases format with
    | none =>
      have hmark := markBraces_reference hk (show '}' ∈ ['}', ':'] by decide) (Piece.texts rest)
      simpa [Piece.text, Piece.byName, fieldName] using hmark
    | some format =>
      have hspec : '{' ∉ format ++ ['}'] := by
        rw [List.mem_append, not_or]
        exact ⟨fun hmem => (hwell.2.2 format rfl _ hmem).1 rfl, by decide⟩
      have hmark := markBraces_reference hk (show ':' ∈ ['}', ':'] by decide)
        (format ++ ['}'] ++ Piece.texts rest)
      rw [markBraces_append hspec] at hmark
      simpa [Piece.text, Piece.byName, fieldName] using hmark

theorem markBraces_texts (hwell : ∀ p ∈ pieces, p.WellFormed)
    (hnumbered : ∀ p ∈ pieces, p.Numbered count) :
    markBraces (BeginsReference count) (Piece.texts pieces) =
      Piece.texts (nameReferences count pieces) := by
  induction pieces with
  | nil => rfl
  | cons p rest ih =>
    rw [List.forall_mem_cons] at hwell hnumbered
    rw [Piece.texts_cons, markBraces_text_append hwell.1 hnumbered.1, ih hwell.2 hnumbered.2,
      nameReferences]
    by_cases hhides : p.Hides count rest
    · simp [hhides, Piece.text]
    · simp [hhides]

theorem Piece.WellFormed.byName (h : p.WellFormed) : p.byName.WellFormed := by
  cases p with
  | char c => exact h
  | openBrace => exact h
  | closeBrace => exact h
  | placeholder name format =>
    refine ⟨List.forall_mem_cons.mpr ⟨by decide, h.1⟩, ?_, h.2.2⟩
    rw [List.mem_cons, not_or]
    exact ⟨by decide, h.2.1⟩

theorem wellFormed_of_mem_nameReferences (hwell : ∀ p ∈ pieces, p.WellFormed) :
    ∀ p ∈ nameReferences count pieces, p.WellFormed := by
  induction pieces with
  | nil => simp [nameReferences]
  | cons p rest ih =>
    rw [List.forall_mem_cons] at hwell
    have hmark : (Piece.char 'f').WellFormed := ⟨by decide, by decide⟩
    rw [nameReferences]
    by_cases hhides : p.Hides count rest
    · rw [if_pos hhides]
      exact List.forall_mem_cons.mpr
        ⟨hwell.1.byName, List.forall_mem_cons.mpr ⟨hmark, ih hwell.2⟩⟩
    · rw [if_neg hhides]
      exact List.forall_mem_cons.mpr ⟨hwell.1.byName, ih hwell.2⟩

/-- The pieces of the message that is written. -/
theorem scan_positionalMessage (hscan : Piece.scan message.toList = some pieces)
    (hnumbered : ∀ p ∈ pieces, p.Numbered count) :
    Piece.scan (positionalMessage count message).toList = some (nameReferences count pieces) := by
  obtain ⟨htext, hwell⟩ := Piece.scan_eq_some_iff.mp hscan
  rw [positionalMessage, String.toList_ofList, nameFields_eq_markBraces, htext,
    markBraces_texts hwell hnumbered]
  exact Piece.scan_eq_some_iff.mpr ⟨rfl, wellFormed_of_mem_nameReferences hwell⟩

theorem length_nameReferences :
    (nameReferences count pieces).length = pieces.length + hiddenReferences count pieces := by
  induction pieces with
  | nil => rfl
  | cons p rest ih =>
    rw [nameReferences, hiddenReferences]
    by_cases hhides : p.Hides count rest
    · simp only [hhides, if_true, List.length_cons, ih]
      omega
    · simp only [hhides, if_false, List.length_cons, ih]
      omega

/-- Nothing but placeholders changes exactly if no reference is hidden. -/
theorem nameReferences_eq_map_iff :
    nameReferences count pieces = pieces.map Piece.byName ↔ ¬ HidesReference count pieces := by
  rw [← hiddenReferences_eq_zero_iff]
  constructor
  · intro heq
    have hlength := @length_nameReferences pieces count
    rw [heq, List.length_map] at hlength
    omega
  · intro hnone
    induction pieces with
    | nil => rfl
    | cons p rest ih =>
      rw [hiddenReferences, Nat.add_eq_zero_iff] at hnone
      have hhides : ¬ p.Hides count rest := by simpa using hnone.1
      rw [nameReferences, if_neg hhides, ih hnone.2, List.map_cons]

/-! ## What is printed -/

/-- The field with a number, given the values of so many fields. -/
def fieldValue? (count : Nat) (shown : Nat → Shown) (number : List Char) : Option Shown :=
  ((List.range count).find? fun k => Nat.toDigits 10 k = number).map shown

/-- The arguments include the fields, each under its name. -/
def PassesFields (count : Nat) (shown : Nat → Shown) (argument? : List Char → Option Shown) :
    Prop :=
  ∀ k < count, argument? (fieldName k) = some (shown k)

/-- Where the argument with a name comes from. -/
def Write.source? (w : Write) (name : List Char) : Option Source :=
  ((w.arguments.getD []).find? fun a => a.name.toList = name).map (·.source)

/-- What is printed when a message is written, given the values of the sources. -/
def Write.printed? (w : Write) (value? : Source → Option Shown) : Option (List Char) :=
  (Piece.scan w.message.toList).bind (Piece.printAll? fun name => (w.source? name).bind value?)

/-- What an arm prints for the value of a variant, given the values of its fields. -/
def Arm.printed? (a : Arm) (shown : Nat → Shown) : Option (List Char) :=
  a.write.printed? fun
    | .binding name => (a.pattern.bound.idxOf? name).map shown
    | .field _ => none

/-- What is printed for the value of a structure with so many fields without names. -/
def Write.printedOfTuple? (w : Write) (count : Nat) (shown : Nat → Shown) : Option (List Char) :=
  w.printed? fun
    | .binding _ => none
    | .field selector => fieldValue? count shown selector.toList

/-- The first number that has the digits of `k` is `k`. -/
theorem find?_range_toDigits {k : Nat} (hk : k < count) :
    (List.range count).find? (fun l => Nat.toDigits 10 l = Nat.toDigits 10 k) = some k := by
  rw [List.find?_range_eq_some]
  refine ⟨by simp, List.mem_range.mpr hk, fun l hl => ?_⟩
  simpa using fun heq => Nat.ne_of_lt hl (toDigits_injective heq)

theorem fieldValue?_toDigits {k : Nat} (hk : k < count) (shown : Nat → Shown) :
    fieldValue? count shown (Nat.toDigits 10 k) = some (shown k) := by
  rw [fieldValue?, find?_range_toDigits hk]
  rfl

theorem idxOf?_positionalNames {k : Nat} (hk : k < count) :
    (positionalNames count).idxOf? (String.ofList (fieldName k)) = some k := by
  rw [List.idxOf?_eq_some_iff]
  refine ⟨by simpa using hk, by simp [positionalNames], fun l hl heq => ?_⟩
  have hname : String.ofList (fieldName l) = String.ofList (fieldName k) := by
    simpa [positionalNames] using heq
  exact Nat.ne_of_lt hl (fieldName_injective (String.ofList_injective hname))

/-- Where arguments have the names of fields, the name of a field leads to its argument. -/
theorem source?_of_names {w : Write} {source : Nat → Source} {k : Nat} (hk : k < count)
    (harguments : w.arguments =
      some ((List.range count).map fun l => ⟨String.ofList (fieldName l), source l⟩)) :
    w.source? (fieldName k) = some (source k) := by
  have hmatch : (fun a : Argument => decide (a.name.toList = fieldName k)) ∘
      (fun l => ⟨String.ofList (fieldName l), source l⟩) =
        fun l => decide (Nat.toDigits 10 l = Nat.toDigits 10 k) := by
    funext l
    simp [fieldName]
  rw [Write.source?, harguments, Option.getD_some, List.find?_map, hmatch, find?_range_toDigits hk]
  rfl

theorem arguments_arm_tuple (variant : String) :
    (arm variant (.tuple count) message).write.arguments = some ((List.range count).map fun l =>
      ⟨String.ofList (fieldName l), .binding (String.ofList (fieldName l))⟩) := by
  simp [arm, positionalNames]

theorem arguments_recordWrite_tuple :
    (recordWrite (.tuple count) message).arguments = some ((List.range count).map fun l =>
      ⟨String.ofList (fieldName l), .field (toString l)⟩) := by
  refine congrArg some (List.ext_getElem (by simp) fun l _ _ => ?_)
  simp [positionalNames]

/-- A piece is printed in the same way if it has a name in place of a number. -/
theorem print?_byName (shown : Nat → Shown) (hnumbered : p.Numbered count) :
    ∃ text, p.print? (fieldValue? count shown) = some text ∧
      ∀ argument?, PassesFields count shown argument? → p.byName.print? argument? = some text := by
  cases p with
  | char c => exact ⟨_, rfl, fun _ _ => rfl⟩
  | openBrace => exact ⟨_, rfl, fun _ _ => rfl⟩
  | closeBrace => exact ⟨_, rfl, fun _ _ => rfl⟩
  | placeholder name format =>
    obtain ⟨⟨k, hk, rfl⟩, -⟩ := hnumbered
    refine ⟨shown k format, ?_, fun argument? hpasses => ?_⟩
    · rw [Piece.print?, fieldValue?_toDigits hk]
      rfl
    · show (argument? (fieldName k)).map _ = _
      rw [hpasses k hk]
      rfl

/-- Each hidden reference costs one more character, and nothing else changes. -/
theorem printAll?_nameReferences (shown : Nat → Shown)
    (hnumbered : ∀ p ∈ pieces, p.Numbered count) :
    ∃ text written, Piece.printAll? (fieldValue? count shown) pieces = some text ∧
      (∀ argument?, PassesFields count shown argument? →
        Piece.printAll? argument? (nameReferences count pieces) = some written) ∧
      written.length = text.length + hiddenReferences count pieces ∧
      (hiddenReferences count pieces = 0 → written = text) := by
  induction pieces with
  | nil => exact ⟨[], [], rfl, fun _ _ => rfl, rfl, fun _ => rfl⟩
  | cons p rest ih =>
    rw [List.forall_mem_cons] at hnumbered
    obtain ⟨front, hfront, hnamed⟩ := print?_byName shown hnumbered.1
    obtain ⟨text, written, htext, hwritten, hlength, hsame⟩ := ih hnumbered.2
    by_cases hhides : p.Hides count rest
    · refine ⟨front ++ text, front ++ 'f' :: written, Piece.printAll?_cons hfront htext,
        ?_, ?_, ?_⟩
      · intro argument? hpasses
        have hmark : (Piece.char 'f').print? argument? = some ['f'] := rfl
        rw [nameReferences, if_pos hhides]
        exact Piece.printAll?_cons (hnamed argument? hpasses)
          (Piece.printAll?_cons hmark (hwritten argument? hpasses))
      · rw [hiddenReferences, if_pos hhides]
        simp only [List.length_append, List.length_cons, hlength]
        omega
      · rw [hiddenReferences, if_pos hhides]
        omega
    · refine ⟨front ++ text, front ++ written, Piece.printAll?_cons hfront htext, ?_, ?_, ?_⟩
      · intro argument? hpasses
        rw [nameReferences, if_neg hhides]
        exact Piece.printAll?_cons (hnamed argument? hpasses) (hwritten argument? hpasses)
      · rw [hiddenReferences, if_neg hhides]
        simp only [List.length_append, hlength]
        omega
      · rw [hiddenReferences, if_neg hhides, Nat.zero_add]
        exact fun hnone => congrArg (front ++ ·) (hsame hnone)

/-- The arm of a variant passes the fields on under their names. -/
theorem exists_printed?_arm_eq (variant message : String) (shown : Nat → Shown) :
    ∃ argument?, PassesFields count shown argument? ∧
      (arm variant (.tuple count) message).printed? shown =
        (Piece.scan (positionalMessage count message).toList).bind (Piece.printAll? argument?) := by
  refine ⟨_, fun k hk => ?_, rfl⟩
  rw [source?_of_names hk (arguments_arm_tuple variant)]
  show ((positionalNames count).idxOf? _).map shown = _
  rw [idxOf?_positionalNames hk]
  rfl

/-- So does the code of a structure. -/
theorem exists_printedOfTuple?_eq (message : String) (shown : Nat → Shown) :
    ∃ argument?, PassesFields count shown argument? ∧
      (recordWrite (.tuple count) message).printedOfTuple? count shown =
        (Piece.scan (positionalMessage count message).toList).bind (Piece.printAll? argument?) := by
  refine ⟨_, fun k hk => ?_, rfl⟩
  rw [source?_of_names hk arguments_recordWrite_tuple]
  show fieldValue? count shown (toString k).toList = _
  rw [Nat.toString_eq_repr, Nat.toList_repr, fieldValue?_toDigits hk]

/-- **What becomes of numbers.**  In the message that is written, every placeholder has the name of
the field whose number it had, in the same format, and every other piece of the message is there as
it was; but behind each doubled brace that hides a reference there is one more character.  Hence
what is printed for a variant or a structure is what the message with numbers would print exactly if
the message hides no reference. -/
theorem printed_by_number_iff (hscan : Piece.scan message.toList = some pieces)
    (hnumbered : ∀ p ∈ pieces, p.Numbered count) (shown : Nat → Shown) :
    Piece.scan (positionalMessage count message).toList = some (nameReferences count pieces) ∧
    (Piece.scan (positionalMessage count message).toList = some (pieces.map Piece.byName) ↔
      ¬ HidesReference count pieces) ∧
    ∃ text written, Piece.printAll? (fieldValue? count shown) pieces = some text ∧
      (∀ variant, (arm variant (.tuple count) message).printed? shown = some written) ∧
      (recordWrite (.tuple count) message).printedOfTuple? count shown = some written ∧
      written.length = text.length + hiddenReferences count pieces ∧
      (written = text ↔ ¬ HidesReference count pieces) := by
  have hmessage := scan_positionalMessage hscan hnumbered
  obtain ⟨text, written, htext, hwritten, hlength, hsame⟩ :=
    printAll?_nameReferences shown hnumbered
  refine ⟨hmessage, ?_, text, written, htext, fun variant => ?_, ?_, hlength, ?_⟩
  · rw [hmessage, Option.some.injEq, nameReferences_eq_map_iff]
  · obtain ⟨argument?, hpasses, heq⟩ := exists_printed?_arm_eq variant message shown
    rw [heq, hmessage]
    exact hwritten argument? hpasses
  · obtain ⟨argument?, hpasses, heq⟩ := exists_printedOfTuple?_eq message shown
    rw [heq, hmessage]
    exact hwritten argument? hpasses
  · rw [← hiddenReferences_eq_zero_iff]
    constructor
    · intro heq
      rw [heq] at hlength
      omega
    · exact hsame

/-- The pieces of the message `{{x}} {1:?} {0}`, with literal text in braces that hides no
reference. -/
def bracedLetter : List Piece :=
  [.openBrace, .char 'x', .closeBrace, .char ' ', .placeholder ['1'] (some ['?']), .char ' ',
    .placeholder ['0'] none]

/-- The message is printed as it was written: with the fields shown as `7` and `8`, as `{x} 8 7`. -/
theorem printed_by_number_iff_bracedLetter :
    Piece.scan "{{x}} {1:?} {0}".toList = some bracedLetter ∧
    (∀ p ∈ bracedLetter, p.Numbered 2) ∧ ¬ HidesReference 2 bracedLetter ∧
    (arm "V" (.tuple 2) "{{x}} {1:?} {0}").printed? (fun k _ => Nat.toDigits 10 (k + 7)) =
      some "{x} 8 7".toList := by
  have hscan : Piece.scan "{{x}} {1:?} {0}".toList = some bracedLetter :=
    Piece.scan_eq_some_iff.mpr ⟨by decide +kernel, by simp [bracedLetter, Piece.WellFormed, Plain]⟩
  have hnumbered : ∀ p ∈ bracedLetter, p.Numbered 2 := by decide
  have hharmless : ¬ HidesReference 2 bracedLetter := hiddenReferences_eq_zero_iff.mp (by decide)
  obtain ⟨-, -, text, written, htext, harm, -, -, hsame⟩ :=
    printed_by_number_iff hscan hnumbered fun k _ => Nat.toDigits 10 (k + 7)
  have hshown : Piece.printAll? (fieldValue? 2 fun k _ => Nat.toDigits 10 (k + 7)) bracedLetter =
      some "{x} 8 7".toList := by decide +kernel
  refine ⟨hscan, hnumbered, hharmless, ?_⟩
  rw [harm "V", hsame.mpr hharmless, ← htext, hshown]

/-- The pieces of the message `{{0}} is {0}`, with literal text in braces that hides a reference. -/
def bracedDigits : List Piece :=
  [.openBrace, .char '0', .closeBrace, .char ' ', .char 'i', .char 's', .char ' ',
    .placeholder ['0'] none]

/-- Digits in literal braces are taken for the number of a field: with a field shown as `7` the
message is meant to print `{0} is 7`, but `{f0} is 7` is printed. -/
theorem braced_digits_printed_as_name :
    Piece.scan "{{0}} is {0}".toList = some bracedDigits ∧
    (∀ p ∈ bracedDigits, p.Numbered 1) ∧
    positionalMessage 1 "{{0}} is {0}" = "{{f0}} is {f0}" ∧
    Piece.scan (positionalMessage 1 "{{0}} is {0}").toList ≠ some (bracedDigits.map Piece.byName) ∧
    Piece.printAll? (fieldValue? 1 fun _ _ => ['7']) bracedDigits = some "{0} is 7".toList ∧
    (arm "V" (.tuple 1) "{{0}} is {0}").printed? (fun _ _ => ['7']) = some "{f0} is 7".toList := by
  have hscan : Piece.scan "{{0}} is {0}".toList = some bracedDigits :=
    Piece.scan_eq_some_iff.mpr ⟨by decide +kernel, by simp [bracedDigits, Piece.WellFormed, Plain]⟩
  have hnumbered : ∀ p ∈ bracedDigits, p.Numbered 1 := by decide
  have hmessage := scan_positionalMessage hscan hnumbered
  refine ⟨hscan, hnumbered, by decide +kernel, ?_, by decide +kernel, ?_⟩
  · rw [hmessage]
    decide
  · show (Piece.scan (positionalMessage 1 "{{0}} is {0}").toList).bind (Piece.printAll? _) = _
    rw [hmessage]
    decide +kernel

end RegisterMachine.ErrorDerivation
