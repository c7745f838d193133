import Mathlib.Logic.Relation
import RegisterMachine.Proofs.ErrorDerivation.Expansion

set_option autoImplicit false

/-!
# Which types are accepted

The attributes of a variant or of a structure hold a message if the first of them that is called
`error` is a list with a single string literal; they lack one if there is no such attribute, if it
is not a list, or if it is a list of anything else.  An enumeration is accepted if each variant
holds a message, a structure if it holds one itself, and a union never.  For a type that is accepted
two implementations are generated, for any other type an error for the compiler to report, which the
first variant that lacks a message is to blame for, or the structure.

All this depends on the first attributes called `error` alone.  So a type may be edited in any other
attributes: the code stays the same, and so does what is to blame for a refusal.
-/

namespace RegisterMachine.ErrorDerivation

variable {attributes attributes' : List Attribute} {a : Attribute} {owner : Owner}
  {message : String} {refusal : Refusal} {v v' : Variant} {variants variants' : List Variant}
  {item item' : Item} {i : Implementation}

/-! ## Messages of attributes -/

/-- The first of the attributes that is called `error`. -/
def FirstError (attributes : List Attribute) (a : Attribute) : Prop :=
  a.path = "error" ∧ ∃ before after, attributes = before ++ a :: after ∧
    ∀ b ∈ before, b.path ≠ "error"

/-- The first attribute called `error` is a list with the message and nothing else. -/
def HoldsMessage (attributes : List Attribute) (message : String) : Prop :=
  FirstError attributes { path := "error", form := .list [.text message] }

/-- What is wrong with attributes that hold no message. -/
inductive LacksMessage (owner : Owner) (attributes : List Attribute) : Refusal → Prop
  /-- None of them is called `error`. -/
  | missing (absent : ∀ a ∈ attributes, a.path ≠ "error") :
      LacksMessage owner attributes (.missingMessage owner)
  /-- The first one called `error` is not a list. -/
  | notAList {a : Attribute} (first : FirstError attributes a)
      (form : ∀ arguments, a.form ≠ .list arguments) : LacksMessage owner attributes .notAList
  /-- The first one called `error` is a list of something else than a single string literal. -/
  | notALiteral {a : Attribute} {arguments : List Expression} (first : FirstError attributes a)
      (form : a.form = .list arguments) (content : ∀ message, arguments ≠ [.text message]) :
      LacksMessage owner attributes .notALiteral

theorem find?_eq_some_iff_firstError :
    (attributes.find? fun a => a.path == "error") = some a ↔ FirstError attributes a := by
  simp [List.find?_eq_some_iff_append, FirstError]

theorem find?_eq_none_iff_forall_path_ne :
    (attributes.find? fun a => a.path == "error") = none ↔ ∀ a ∈ attributes, a.path ≠ "error" := by
  simp [List.find?_eq_none]

theorem messageOf_of_firstError (h : FirstError attributes a) :
    messageOf attributes owner = a.message := by
  rw [messageOf, find?_eq_some_iff_firstError.mpr h]

theorem messageOf_of_holdsMessage (h : HoldsMessage attributes message) :
    messageOf attributes owner = .ok message := by
  rw [messageOf_of_firstError h]
  rfl

theorem messageOf_of_lacksMessage (h : LacksMessage owner attributes refusal) :
    messageOf attributes owner = .error refusal := by
  cases h with
  | missing absent => rw [messageOf, find?_eq_none_iff_forall_path_ne.mpr absent]
  | @notAList a first form =>
    rw [messageOf_of_firstError first, Attribute.message]
    cases hform : a.form with
    | bare | value expression => rfl
    | list arguments => exact absurd hform (form arguments)
  | @notALiteral a arguments first form content =>
    rw [messageOf_of_firstError first, Attribute.message, form]
    split
    case h_1 message heq =>
      cases heq
      exact absurd rfl (content message)
    case h_2 => rfl
    case h_3 heq => cases heq
    case h_4 heq => cases heq

/-- Attributes either hold a message or lack one. -/
theorem holdsMessage_or_lacksMessage (attributes : List Attribute) (owner : Owner) :
    (∃ message, HoldsMessage attributes message) ∨
      ∃ refusal, LacksMessage owner attributes refusal := by
  cases hfirst : attributes.find? fun a => a.path == "error" with
  | none => exact Or.inr ⟨_, .missing (find?_eq_none_iff_forall_path_ne.mp hfirst)⟩
  | some a =>
    rw [find?_eq_some_iff_firstError] at hfirst
    obtain ⟨path, form⟩ := a
    obtain rfl : path = "error" := hfirst.1
    cases form with
    | bare | value expression => exact Or.inr ⟨_, .notAList hfirst (by rintro _ ⟨⟩)⟩
    | list arguments =>
      by_cases hcontent : ∃ message, arguments = [.text message]
      · obtain ⟨message, rfl⟩ := hcontent
        exact Or.inl ⟨message, hfirst⟩
      · exact Or.inr ⟨_, .notALiteral hfirst rfl fun message heq => hcontent ⟨message, heq⟩⟩

theorem messageOf_eq_error_iff :
    messageOf attributes owner = .error refusal ↔ LacksMessage owner attributes refusal := by
  refine ⟨fun herror => ?_, messageOf_of_lacksMessage⟩
  rcases holdsMessage_or_lacksMessage attributes owner with ⟨message, hholds⟩ | ⟨other, hlacks⟩
  · rw [messageOf_of_holdsMessage hholds] at herror
    cases herror
  · rw [messageOf_of_lacksMessage hlacks] at herror
    cases herror
    exact hlacks

/-! ## Types -/

/-- The type has all the messages that it needs. -/
def Item.Accepted (item : Item) : Prop :=
  match item.shape with
  | .enumeration variants => ∀ v ∈ variants, ∃ message, HoldsMessage v.attributes message
  | .record _ => ∃ message, HoldsMessage item.attributes message
  | .union => False

/-- The implementation writes the messages that the attributes of the type hold. -/
inductive Item.Writes (item : Item) : Implementation → Prop
  /-- There is an arm for each variant, with its message. -/
  | enumeration {variants : List Variant} {arms : List Arm}
      (shape : item.shape = .enumeration variants)
      (each : List.Forall₂ (fun v a => ∃ message, HoldsMessage v.attributes message ∧
        a = arm v.name v.fields message) variants arms) :
      item.Writes { name := item.name, generics := item.generics, conditions := item.conditions,
                    body := .arms arms }
  /-- The one message is written. -/
  | record {fields : Fields} {message : String} (shape : item.shape = .record fields)
      (holds : HoldsMessage item.attributes message) :
      item.Writes { name := item.name, generics := item.generics, conditions := item.conditions,
                    body := .write (recordWrite fields message) }

/-- What is to blame for a refusal. -/
inductive Offender where
  /-- The type itself. -/
  | type
  /-- The variant at this position. -/
  | variant (position : Nat)
  deriving DecidableEq, Repr

/-- The variant at the position is the first one that lacks a message, and this is what is wrong
with it. -/
inductive FirstLacking : List Variant → Nat → Refusal → Prop
  /-- It is the first of all. -/
  | here {v : Variant} {rest : List Variant} {refusal : Refusal}
      (lacks : LacksMessage (.variant v.name) v.attributes refusal) :
      FirstLacking (v :: rest) 0 refusal
  /-- It comes after one that holds a message. -/
  | there {v : Variant} {rest : List Variant} {position : Nat} {refusal : Refusal}
      {message : String} (holds : HoldsMessage v.attributes message)
      (first : FirstLacking rest position refusal) : FirstLacking (v :: rest) (position + 1) refusal

/-- What is to blame for the refusal of a type, and why. -/
inductive Item.Blames (item : Item) : Offender → Refusal → Prop
  /-- Unions are refused as such. -/
  | union (shape : item.shape = .union) : item.Blames .type .union
  /-- A structure lacks a message. -/
  | record {fields : Fields} {refusal : Refusal} (shape : item.shape = .record fields)
      (lacks : LacksMessage (.type item.name) item.attributes refusal) : item.Blames .type refusal
  /-- A variant lacks a message. -/
  | variant {variants : List Variant} {position : Nat} {refusal : Refusal}
      (shape : item.shape = .enumeration variants)
      (first : FirstLacking variants position refusal) : item.Blames (.variant position) refusal

/-! ## Code and refusals -/

theorem HoldsMessage.not_lacksMessage (h : HoldsMessage attributes message) :
    ¬ LacksMessage owner attributes refusal := by
  intro hlacks
  have hok : messageOf attributes owner = .ok message := messageOf_of_holdsMessage h
  rw [messageOf_of_lacksMessage hlacks] at hok
  cases hok

theorem LacksMessage.unique {other : Refusal} (h : LacksMessage owner attributes refusal)
    (h' : LacksMessage owner attributes other) : refusal = other :=
  Except.error.inj ((messageOf_of_lacksMessage h).symm.trans (messageOf_of_lacksMessage h'))

theorem Variant.arm_of_lacksMessage (h : LacksMessage (.variant v.name) v.attributes refusal) :
    v.arm = .error refusal := by
  rw [Variant.arm, messageOf_of_lacksMessage h]
  rfl

/-- The first variant that lacks a message decides what the refusal is. -/
theorem FirstLacking.mapM_arm {position : Nat} (h : FirstLacking variants position refusal) :
    variants.mapM Variant.arm = .error refusal := by
  induction h with
  | here lacks =>
    rw [List.mapM_cons, Variant.arm_of_lacksMessage lacks]
    rfl
  | there holds _ ih =>
    rw [List.mapM_cons, Variant.arm_eq_ok_iff.mpr ⟨_, messageOf_of_holdsMessage holds, rfl⟩, ih]
    rfl

theorem FirstLacking.unique {position position' : Nat} {refusal' : Refusal}
    (h : FirstLacking variants position refusal) (h' : FirstLacking variants position' refusal') :
    position = position' ∧ refusal = refusal' := by
  induction h generalizing position' with
  | here lacks =>
    cases h' with
    | here lacks' => exact ⟨rfl, lacks.unique lacks'⟩
    | there holds' => exact absurd lacks holds'.not_lacksMessage
  | there holds _ ih =>
    cases h' with
    | here lacks' => exact absurd lacks' holds.not_lacksMessage
    | there _ first' =>
      obtain ⟨rfl, rfl⟩ := ih first'
      exact ⟨rfl, rfl⟩

/-- Either all variants hold messages, or there is a first one that does not. -/
theorem forall_holdsMessage_or_firstLacking (variants : List Variant) :
    (∀ v ∈ variants, ∃ message, HoldsMessage v.attributes message) ∨
      ∃ position refusal, FirstLacking variants position refusal := by
  induction variants with
  | nil => exact Or.inl fun v hv => absurd hv List.not_mem_nil
  | cons v rest ih =>
    rcases holdsMessage_or_lacksMessage v.attributes (.variant v.name) with
      ⟨message, hholds⟩ | ⟨refusal, hlacks⟩
    · rcases ih with hall | ⟨position, refusal, hfirst⟩
      · exact Or.inl (List.forall_mem_cons.mpr ⟨⟨message, hholds⟩, hall⟩)
      · exact Or.inr ⟨position + 1, refusal, .there hholds hfirst⟩
    · exact Or.inr ⟨0, refusal, .here hlacks⟩

/-- There is an arm for each variant exactly if all of them hold messages. -/
theorem exists_arms_iff :
    (∃ arms, List.Forall₂ (fun v a => ∃ message, HoldsMessage v.attributes message ∧
      a = arm v.name v.fields message) variants arms) ↔
      ∀ v ∈ variants, ∃ message, HoldsMessage v.attributes message := by
  induction variants with
  | nil => simp
  | cons v rest ih =>
    rw [List.forall_mem_cons, ← ih]
    constructor
    · rintro ⟨_, _ | ⟨⟨message, hholds, -⟩, harms⟩⟩
      exact ⟨⟨message, hholds⟩, _, harms⟩
    · rintro ⟨⟨message, hholds⟩, arms, harms⟩
      exact ⟨_, .cons ⟨message, hholds, rfl⟩ harms⟩

theorem Item.Writes.expand_eq (h : item.Writes i) : item.expand = .ok i := by
  cases h with
  | enumeration shape each =>
    refine (Item.expand_eq_ok_iff_of_enumeration shape).mpr ⟨_, each.imp ?_, rfl⟩
    rintro v a ⟨message, hholds, rfl⟩
    exact Variant.arm_eq_ok_iff.mpr ⟨message, messageOf_of_holdsMessage hholds, rfl⟩
  | record shape holds =>
    simp only [Item.expand, shape, messageOf_of_holdsMessage holds]
    rfl

theorem Item.Blames.expand_eq {offender : Offender} (h : item.Blames offender refusal) :
    item.expand = .error refusal := by
  cases h with
  | union shape =>
    simp only [Item.expand, shape]
    rfl
  | record shape lacks =>
    simp only [Item.expand, shape, messageOf_of_lacksMessage lacks]
    rfl
  | variant shape first =>
    simp only [Item.expand, shape, first.mapM_arm]
    rfl

theorem Item.Blames.unique {offender offender' : Offender} {refusal' : Refusal}
    (h : item.Blames offender refusal) (h' : item.Blames offender' refusal') :
    offender = offender' ∧ refusal = refusal' := by
  have hrefusal : refusal = refusal' := Except.error.inj (h.expand_eq.symm.trans h'.expand_eq)
  refine ⟨?_, hrefusal⟩
  cases h with
  | union shape | record shape =>
    cases h' with
    | union | record => rfl
    | variant shape' =>
      rw [shape] at shape'
      cases shape'
  | variant shape first =>
    cases h' with
    | union shape' | record shape' =>
      rw [shape] at shape'
      cases shape'
    | variant shape' first' =>
      rw [shape] at shape'
      cases shape'
      rw [(first.unique first').1]

theorem Item.accepted_iff_exists_writes : item.Accepted ↔ ∃ i, item.Writes i := by
  unfold Item.Accepted
  constructor
  · intro haccepted
    split at haccepted
    case h_1 variants shape =>
      obtain ⟨arms, each⟩ := exists_arms_iff.mpr haccepted
      exact ⟨_, .enumeration shape each⟩
    case h_2 fields shape =>
      obtain ⟨message, holds⟩ := haccepted
      exact ⟨_, .record shape holds⟩
    case h_3 => exact haccepted.elim
  · rintro ⟨i, ⟨shape, each⟩ | ⟨shape, holds⟩⟩
    · simp only [shape]
      exact exists_arms_iff.mp ⟨_, each⟩
    · simp only [shape]
      exact ⟨_, holds⟩

/-- Something is to blame if a type is not accepted. -/
theorem Item.exists_blames_of_not_accepted (h : ¬ item.Accepted) :
    ∃ offender refusal, item.Blames offender refusal := by
  unfold Item.Accepted at h
  split at h
  case h_1 variants shape =>
    rcases forall_holdsMessage_or_firstLacking variants with hall | ⟨position, refusal, first⟩
    · exact absurd hall h
    · exact ⟨.variant position, refusal, .variant shape first⟩
  case h_2 fields shape =>
    rcases holdsMessage_or_lacksMessage item.attributes (.type item.name) with
      hholds | ⟨refusal, lacks⟩
    · exact absurd hholds h
    · exact ⟨.type, refusal, .record shape lacks⟩
  case h_3 shape => exact ⟨.type, .union, .union shape⟩

/-- The types that are accepted are those for which there is code. -/
theorem Item.accepted_iff_exists_expand : item.Accepted ↔ ∃ i, item.expand = .ok i := by
  constructor
  · intro haccepted
    obtain ⟨i, hwrites⟩ := Item.accepted_iff_exists_writes.mp haccepted
    exact ⟨i, hwrites.expand_eq⟩
  · rintro ⟨i, hexpand⟩
    by_contra hrefused
    obtain ⟨offender, refusal, hblames⟩ := Item.exists_blames_of_not_accepted hrefused
    rw [hblames.expand_eq] at hexpand
    cases hexpand

/-! ## The text of the code -/

theorem Item.Writes.code_eq (h : item.Writes i) : item.code = i.text := by
  rw [Item.code, h.expand_eq]
  exact i.renderAll_tokens

theorem Item.Blames.code_eq {offender : Offender} (h : item.Blames offender refusal)
    (hreports : refusal.Reports message) :
    item.code = ":: core :: compile_error ! \x7b " ++ stringLiteral message ++ " \x7d" := by
  rw [Item.code, h.expand_eq]
  exact hreports.renderAll_tokens

theorem Refusal.exists_reports (refusal : Refusal) : ∃ message, refusal.Reports message := by
  cases refusal with
  | union => exact ⟨_, .union⟩
  | missingMessage owner =>
    cases owner with
    | variant name => exact ⟨_, .variant name⟩
    | type name => exact ⟨_, .type name⟩
  | notAList => exact ⟨_, .notAList⟩
  | notALiteral => exact ⟨_, .notALiteral⟩

/-- Implementations begin with a name, reports of a refusal with a path from the root. -/
theorem Implementation.text_ne_report (i : Implementation) (rest : String) :
    i.text ≠ ":: core :: compile_error ! \x7b " ++ rest := by
  have htext : ∃ rest, i.text = "impl" ++ rest := by
    simp only [text, implText, String.append_assoc]
    exact ⟨_, rfl⟩
  obtain ⟨rest', hrest⟩ := htext
  rw [hrest]
  intro hsame
  have hheads := congrArg (fun text => text.toList.head?) hsame
  simp at hheads

/-- A type is accepted exactly if its code is that of two implementations. -/
theorem Item.exists_code_eq_iff :
    (∃ i : Implementation, item.code = i.text) ↔ item.Accepted := by
  constructor
  · rintro ⟨i, hcode⟩
    by_contra hrefused
    obtain ⟨offender, refusal, hblames⟩ := Item.exists_blames_of_not_accepted hrefused
    obtain ⟨message, hreports⟩ := refusal.exists_reports
    rw [hblames.code_eq hreports, String.append_assoc] at hcode
    exact i.text_ne_report _ hcode.symm
  · intro haccepted
    obtain ⟨i, hwrites⟩ := Item.accepted_iff_exists_writes.mp haccepted
    exact ⟨i, hwrites.code_eq⟩

/-! ## Edits that change nothing -/

/-- Attributes other than the first one called `error` are added or moved. -/
inductive Edit : List Attribute → List Attribute → Prop
  /-- An attribute that is not called `error` is added anywhere. -/
  | other (before after : List Attribute) {a : Attribute} (path : a.path ≠ "error") :
      Edit (before ++ after) (before ++ a :: after)
  /-- An attribute that is not called `error` changes places with its neighbour. -/
  | swap (before after : List Attribute) {a b : Attribute} (path : a.path ≠ "error") :
      Edit (before ++ a :: b :: after) (before ++ b :: a :: after)
  /-- Any attribute is added behind one that is called `error`. -/
  | later (before after : List Attribute) {a b : Attribute} (path : b.path = "error")
      (behind : b ∈ before) : Edit (before ++ after) (before ++ a :: after)

/-- Some attributes are added, removed and moved. -/
def Edits : List Attribute → List Attribute → Prop := Relation.EqvGen Edit

theorem Edit.find?_eq (h : Edit attributes attributes') :
    (attributes.find? fun a => a.path == "error") =
      attributes'.find? fun a => a.path == "error" := by
  cases h with
  | other before after path =>
    rw [List.find?_append, List.find?_append, List.find?_cons_of_neg (by simpa using path)]
  | swap before after path =>
    simp only [List.find?_append, List.find?_cons, beq_eq_false_iff_ne.mpr path]
  | later before after path behind =>
    have hfound : (before.find? fun a => a.path == "error").isSome = true :=
      List.find?_isSome.mpr ⟨_, behind, beq_iff_eq.mpr path⟩
    rw [List.find?_append, List.find?_append, Option.or_of_isSome hfound,
      Option.or_of_isSome hfound]

theorem Edits.find?_eq (h : Edits attributes attributes') :
    (attributes.find? fun a => a.path == "error") =
      attributes'.find? fun a => a.path == "error" := by
  induction h with
  | rel _ _ h => exact h.find?_eq
  | refl => rfl
  | symm _ _ _ ih => exact ih.symm
  | trans _ _ _ _ _ ih ih' => exact ih.trans ih'

theorem Edits.messageOf_eq (h : Edits attributes attributes') (owner : Owner) :
    messageOf attributes' owner = messageOf attributes owner := by
  rw [messageOf, messageOf, h.find?_eq]

theorem Edits.holdsMessage_iff (h : Edits attributes attributes') :
    HoldsMessage attributes' message ↔ HoldsMessage attributes message := by
  rw [HoldsMessage, HoldsMessage, ← find?_eq_some_iff_firstError, ← find?_eq_some_iff_firstError,
    h.find?_eq]

theorem Edits.lacksMessage_iff (h : Edits attributes attributes') :
    LacksMessage owner attributes' refusal ↔ LacksMessage owner attributes refusal := by
  rw [← messageOf_eq_error_iff, ← messageOf_eq_error_iff, h.messageOf_eq]

/-- A variant is edited in its attributes. -/
structure Variant.Edited (v v' : Variant) : Prop where
  /-- Its name is kept. -/
  name : v'.name = v.name
  /-- Its fields are kept. -/
  fields : v'.fields = v.fields
  /-- The edits pass over the first attribute called `error`. -/
  attributes : Edits v.attributes v'.attributes

/-- A type is edited in its attributes, or in those of its variants. -/
inductive Item.Edited (item : Item) : Item → Prop
  /-- An enumeration may be given any other attributes of its own. -/
  | enumeration {variants variants' : List Variant} (attributes' : List Attribute)
      (shape : item.shape = .enumeration variants)
      (edited : List.Forall₂ Variant.Edited variants variants') :
      item.Edited { item with attributes := attributes', shape := .enumeration variants' }
  /-- A structure is edited in its own attributes. -/
  | record {fields : Fields} {attributes' : List Attribute} (shape : item.shape = .record fields)
      (edited : Edits item.attributes attributes') :
      item.Edited { item with attributes := attributes' }
  /-- A union may be given any other attributes. -/
  | union (attributes' : List Attribute) (shape : item.shape = .union) :
      item.Edited { item with attributes := attributes' }

theorem Variant.Edited.arm_eq (h : v.Edited v') : v'.arm = v.arm := by
  rw [Variant.arm, Variant.arm, h.name, h.fields, h.attributes.messageOf_eq]

theorem mapM_arm_of_edited (h : List.Forall₂ Variant.Edited variants variants') :
    variants'.mapM Variant.arm = variants.mapM Variant.arm := by
  induction h with
  | nil => rfl
  | cons hedited _ ih => rw [List.mapM_cons, List.mapM_cons, hedited.arm_eq, ih]

theorem Item.Edited.expand_eq (h : item.Edited item') : item'.expand = item.expand := by
  cases h with
  | enumeration attributes' shape edited =>
    simp only [Item.expand, shape, mapM_arm_of_edited edited]
  | record shape edited => simp only [Item.expand, shape, edited.messageOf_eq]
  | union attributes' shape => simp only [Item.expand, shape]

theorem Item.Edited.accepted_iff (h : item.Edited item') : item'.Accepted ↔ item.Accepted := by
  rw [Item.accepted_iff_exists_expand, Item.accepted_iff_exists_expand, h.expand_eq]

theorem Item.Edited.code_eq (h : item.Edited item') : item'.code = item.code := by
  rw [Item.code, Item.code, h.expand_eq]

theorem FirstLacking.of_edited {position : Nat} (h : FirstLacking variants position refusal)
    (hedited : List.Forall₂ Variant.Edited variants variants') :
    FirstLacking variants' position refusal := by
  induction h generalizing variants' with
  | here lacks =>
    obtain ⟨v', rest', hv, -, rfl⟩ := List.forall₂_cons_left_iff.mp hedited
    refine .here ?_
    rw [hv.name]
    exact hv.attributes.lacksMessage_iff.mpr lacks
  | there holds _ ih =>
    obtain ⟨v', rest', hv, hrest, rfl⟩ := List.forall₂_cons_left_iff.mp hedited
    exact .there (hv.attributes.holdsMessage_iff.mpr holds) (ih hrest)

theorem Item.Blames.of_edited {offender : Offender} (h : item.Blames offender refusal)
    (hedited : item.Edited item') : item'.Blames offender refusal := by
  cases hedited with
  | enumeration attributes' shape edited =>
    cases h with
    | union shape' | record shape' =>
      rw [shape] at shape'
      cases shape'
    | variant shape' first =>
      rw [shape] at shape'
      cases shape'
      exact .variant rfl (first.of_edited edited)
  | record shape edited =>
    cases h with
    | union shape' | variant shape' =>
      rw [shape] at shape'
      cases shape'
    | record shape' lacks =>
      exact .record shape' (edited.lacksMessage_iff.mpr lacks)
  | union attributes' shape =>
    cases h with
    | record shape' | variant shape' =>
      rw [shape] at shape'
      cases shape'
    | union shape' => exact .union shape'

theorem Item.Edited.blames_iff (h : item.Edited item') {offender : Offender} :
    item'.Blames offender refusal ↔ item.Blames offender refusal := by
  refine ⟨fun hblames' => ?_, fun hblames => hblames.of_edited h⟩
  have hrefused : ¬ item.Accepted := by
    rw [← h.accepted_iff, Item.accepted_iff_exists_expand, hblames'.expand_eq]
    rintro ⟨i, ⟨⟩⟩
  obtain ⟨_, _, hblames⟩ := Item.exists_blames_of_not_accepted hrefused
  obtain ⟨rfl, rfl⟩ := (hblames.of_edited h).unique hblames'
  exact hblames

/-- **Types with messages are accepted, and only the first attributes called `error` count.**
The code of a type is two implementations exactly if it is accepted, and these write the messages
that the attributes hold.  Of any other type, such as a union, the code reports the one refusal that
the type or the first variant without a message is to blame for.  The texts of both are spelled out
by `Implementation.text` and `Refusal.Reports`.  Edits of a type that pass over the first attributes
called `error` change neither the code nor what is to blame. -/
theorem code_follows_first_errors (item : Item) :
    ((∃ i : Implementation, item.code = i.text) ↔ item.Accepted) ∧
    (item.Accepted → ∃ i, item.Writes i ∧ item.code = i.text) ∧
    (¬ item.Accepted → ∃ offender refusal message, item.Blames offender refusal ∧
      refusal.Reports message ∧
      item.code = ":: core :: compile_error ! \x7b " ++ stringLiteral message ++ " \x7d" ∧
      ∀ offender' refusal', item.Blames offender' refusal' →
        offender' = offender ∧ refusal' = refusal) ∧
    (item.shape = .union →
      ¬ item.Accepted ∧ item.code = ":: core :: compile_error ! \x7b " ++
        stringLiteral "Error derive does not support unions" ++ " \x7d") ∧
    ∀ item', item.Edited item' →
      item'.code = item.code ∧ (item'.Accepted ↔ item.Accepted) ∧
        ∀ offender refusal, item'.Blames offender refusal ↔ item.Blames offender refusal := by
  refine ⟨Item.exists_code_eq_iff, ?_, ?_, ?_, fun item' hedited =>
    ⟨hedited.code_eq, hedited.accepted_iff, fun offender refusal => hedited.blames_iff⟩⟩
  · intro haccepted
    obtain ⟨i, hwrites⟩ := Item.accepted_iff_exists_writes.mp haccepted
    exact ⟨i, hwrites, hwrites.code_eq⟩
  · intro hrefused
    obtain ⟨offender, refusal, hblames⟩ := Item.exists_blames_of_not_accepted hrefused
    obtain ⟨message, hreports⟩ := refusal.exists_reports
    exact ⟨offender, refusal, message, hblames, hreports, hblames.code_eq hreports,
      fun _ _ h => h.unique hblames⟩
  · intro shape
    refine ⟨?_, (Item.Blames.union shape).code_eq .union⟩
    rw [Item.Accepted, shape]
    exact not_false

/-- An enumeration with the given attributes of its own, whose variants hold messages before or
after other attributes. -/
def fetchError (attributes : List Attribute) : Item :=
  { name := "FetchError"
    attributes
    generics := [⟨"T", some "Display"⟩, ⟨"U", none⟩]
    conditions := [⟨"U", "Display"⟩]
    shape := .enumeration
      [⟨"Empty", [⟨"doc", .value (.text "Nothing there.")⟩, ⟨"error", .list [.text "no program"]⟩],
        .unit⟩,
      ⟨"Outside", [⟨"error", .list [.text "no word at \x7b0\x7d"]⟩, ⟨"error", .bare⟩], .tuple 1⟩,
      ⟨"Unbound", [⟨"error", .list [.text "unbound \x7bop\x7d"]⟩], .named ["op"]⟩] }

/-- An enumeration of which the second variant has the given attributes. -/
def secondError (attributes : List Attribute) : Item :=
  { name := "SecondError"
    attributes := []
    generics := []
    conditions := []
    shape := .enumeration [⟨"Empty", [⟨"error", .list [.text "none"]⟩], .unit⟩,
      ⟨"Lost", attributes, .tuple 1⟩] }

/-- A type without variants, with the given attributes. -/
def plainError (attributes : List Attribute) (shape : Shape) : Item :=
  { name := "PlainError", attributes, generics := [], conditions := [], shape }

/-- The code of an enumeration whose variants all hold messages, whatever its own attributes, that
of a structure which holds one, and what is reported for each way of holding none, also if a good
attribute comes later. -/
theorem code_follows_first_errors_written :
    (fetchError []).Accepted ∧
    (fetchError []).code =
      "impl < T : Display , U > :: std :: fmt :: Display for FetchError < T , U > " ++
      "where U : Display \x7b fn fmt (& self , f : & mut :: std :: fmt :: Formatter < '_ >) " ++
      "-> :: std :: fmt :: Result \x7b match self \x7b " ++
      "Self :: Empty => write ! (f , \"no program\") , " ++
      "Self :: Outside (f0) => write ! (f , \"no word at \x7bf0\x7d\" , f0 = f0) , " ++
      "Self :: Unbound \x7b op \x7d => write ! (f , \"unbound \x7bop\x7d\" , op = op) , " ++
      "\x7d \x7d \x7d " ++
      "impl < T : Display , U > :: std :: error :: Error for FetchError < T , U > " ++
      "where U : Display \x7b \x7d" ∧
    (fetchError [⟨"error", .bare⟩, ⟨"non_exhaustive", .bare⟩]).code = (fetchError []).code ∧
    (plainError [⟨"error", .list [.text "lost \x7b0\x7d"]⟩] (.record (.tuple 1))).code =
      "impl :: std :: fmt :: Display for PlainError \x7b " ++
      "fn fmt (& self , f : & mut :: std :: fmt :: Formatter < '_ >) " ++
      "-> :: std :: fmt :: Result \x7b " ++
      "write ! (f , \"lost \x7bf0\x7d\" , f0 = self . 0) \x7d \x7d " ++
      "impl :: std :: error :: Error for PlainError \x7b \x7d" ∧
    (secondError []).Blames (.variant 1) (.missingMessage (.variant "Lost")) ∧
    (secondError []).code = ":: core :: compile_error ! \x7b " ++
      "\"missing #[error(\\\"...\\\")] attribute on variant `Lost`\" \x7d" ∧
    (secondError [⟨"error", .list [.text "at", .number 1]⟩,
        ⟨"error", .list [.text "lost"]⟩]).code = ":: core :: compile_error ! \x7b " ++
      "\"#[error] message must be a string literal, " ++
      "e.g. #[error(\\\"unbound opcode \x7b0\x7d\\\")]\" \x7d" ∧
    (plainError [⟨"error", .value (.text "lost")⟩, ⟨"error", .list [.text "lost"]⟩]
        (.record (.tuple 2))).code =
      ":: core :: compile_error ! \x7b \"expected #[error(\\\"message\\\")]\" \x7d" ∧
    (plainError [⟨"errors", .list [.text "lost"]⟩] (.record .unit)).code =
      ":: core :: compile_error ! \x7b " ++
      "\"missing #[error(\\\"...\\\")] attribute on type `PlainError`\" \x7d" ∧
    (plainError [⟨"error", .list [.text "lost"]⟩] .union).code =
      ":: core :: compile_error ! \x7b \"Error derive does not support unions\" \x7d" := by
  have haccepted : (fetchError []).Accepted := Item.accepted_iff_exists_expand.mpr ⟨_, rfl⟩
  have hedited : (fetchError []).Edited
      (fetchError [⟨"error", .bare⟩, ⟨"non_exhaustive", .bare⟩]) :=
    .enumeration _ rfl (List.forall₂_same.mpr fun v _ => ⟨rfl, rfl, .refl v.attributes⟩)
  have hblames : (secondError []).Blames (.variant 1) (.missingMessage (.variant "Lost")) := by
    refine .variant rfl (.there ⟨rfl, [], [], rfl, ?_⟩ (.here (.missing ?_)))
    · exact fun _ hb => absurd hb List.not_mem_nil
    · exact fun _ ha => absurd ha List.not_mem_nil
  refine ⟨haccepted, ?_, ((code_follows_first_errors _).2.2.2.2 _ hedited).1, ?_, hblames,
    ?_, ?_, ?_, ?_, ?_⟩
  all_goals decide +kernel

end RegisterMachine.ErrorDerivation
