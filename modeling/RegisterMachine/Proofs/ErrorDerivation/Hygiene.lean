import RegisterMachine.ErrorDerivation.Printer
import RegisterMachine.Proofs.ErrorDerivation.Expansion

set_option autoImplicit false

/-!
# Names in generated arms

All names in an arm live in one scope: the formatter is a parameter of the function around it, and
the names that the pattern binds hide parameters of the same name.  An arm is hygienic if this does
no harm: it binds different names, passes each of them on once, and still writes to the formatter.

Fields without names are given names of more than one character, so they never hide the formatter,
which is called `f`.  Fields with names keep them.  Hence an arm is hygienic unless its variant has
a field called `f`; if it has one, the arm writes to that field.
-/

namespace RegisterMachine.ErrorDerivation

/-- The names that the author of a type gave to fields. -/
def Fields.names : Fields → List String
  | .named names => names
  | .unit | .tuple _ => []

/-! ## What names stand for -/

/-- What a name in an arm can stand for. -/
inductive Referent where
  /-- The field at this position of the variant. -/
  | field (position : Nat)
  /-- The formatter that the function writes to. -/
  | formatter
  deriving DecidableEq, Repr

/-- The name of the formatter among the parameters of the function that displays a value. -/
def Implementation.formatter? (i : Implementation) : Option String :=
  match i.displayTokens with
  | _ :: _ :: .parens (_ :: _ :: _ :: .word name :: .word ":" :: _) :: _ => some name
  | _ => none

/-- The name of what is written to. -/
def Write.destination? (w : Write) : Option String :=
  match w.tokens with
  | [.word "write", .word "!", .parens (.word name :: .word "," :: _)] => some name
  | _ => none

/-- What a name stands for in an arm: names that the pattern binds come before the parameter. -/
def Implementation.refer? (i : Implementation) (a : Arm) (name : String) : Option Referent :=
  if name ∈ a.pattern.bound then some (.field (a.pattern.bound.idxOf name))
  else if i.formatter? = some name then some .formatter
  else none

/-- What an arm writes to. -/
def Implementation.destination? (i : Implementation) (a : Arm) : Option Referent :=
  a.write.destination?.bind (i.refer? a)

/-- A pattern binds one name for each of the fields; fields with names are bound by these. -/
def Pattern.BindsEach (p : Pattern) : Fields → Prop
  | .unit => p = .unit
  | .tuple count => ∃ names, p = .tuple names ∧ names.length = count
  | .named names => p = .named names

/-- An arm passes on each name that it binds, in order and under the name itself. -/
def Arm.PassesBound (a : Arm) : Prop :=
  a.write.arguments.getD [] = a.pattern.bound.map fun name => { name, source := .binding name }

instance (a : Arm) : Decidable a.PassesBound := inferInstanceAs (Decidable (_ = _))

/-- An arm in which no name is taken for another. -/
structure Implementation.Hygienic (i : Implementation) (a : Arm) : Prop where
  /-- No two fields are bound to one name. -/
  distinct : a.pattern.bound.Nodup
  /-- The formatter is not hidden. -/
  visible : ∀ name ∈ i.formatter?, name ∉ a.pattern.bound
  /-- Every bound name is passed on once. -/
  passes : a.PassesBound
  /-- The arm writes to the formatter. -/
  destination : i.destination? a = some .formatter

/-! ## The formatter -/

@[simp] theorem formatter?_eq (i : Implementation) : i.formatter? = some "f" := rfl

@[simp] theorem destination?_eq (w : Write) : w.destination? = some "f" := rfl

/-- An arm writes to the formatter exactly if its pattern does not bind the name `f`. -/
theorem destination?_eq_formatter_iff {i : Implementation} {a : Arm} :
    i.destination? a = some .formatter ↔ "f" ∉ a.pattern.bound := by
  by_cases hbound : "f" ∈ a.pattern.bound
  · simp [Implementation.destination?, Implementation.refer?, hbound]
  · simp [Implementation.destination?, Implementation.refer?, hbound]

/-! ## Arms of a variant -/

variable {item : Item} {variants : List Variant} {i : Implementation}

section Arm

variable (name message : String) (fields : Fields)

theorem bindsEach_arm : (arm name fields message).pattern.BindsEach fields := by
  cases fields with
  | unit => rfl
  | tuple count => exact ⟨positionalNames count, rfl, length_positionalNames count⟩
  | named names => rfl

theorem passesBound_arm : (arm name fields message).PassesBound := by
  cases fields with
  | unit => rfl
  | tuple count => rfl
  | named names => rfl

theorem nodup_bound_arm {fields : Fields} (h : fields.names.Nodup) :
    (arm name fields message).pattern.bound.Nodup := by
  cases fields with
  | unit => exact List.nodup_nil
  | tuple count => exact nodup_positionalNames count
  | named names => exact h

/-- The name of the formatter is bound exactly if a field has it. -/
theorem formatter_mem_bound_arm_iff :
    "f" ∈ (arm name fields message).pattern.bound ↔ "f" ∈ fields.names := by
  cases fields with
  | unit => rfl
  | tuple count =>
    constructor
    · intro hmem
      exact absurd hmem (ofList_singleton_not_mem_positionalNames 'f')
    · intro hmem
      exact absurd hmem List.not_mem_nil
  | named names => rfl

theorem hygienic_arm_iff {fields : Fields} (h : fields.names.Nodup) :
    i.Hygienic (arm name fields message) ↔ "f" ∉ fields.names := by
  rw [← formatter_mem_bound_arm_iff name message]
  constructor
  · intro hygienic
    exact hygienic.visible "f" (formatter?_eq i)
  · intro hfree
    refine ⟨nodup_bound_arm name message h, ?_, passesBound_arm name message fields,
      destination?_eq_formatter_iff.mpr hfree⟩
    intro other hother
    rw [formatter?_eq, Option.mem_some_iff] at hother
    rw [← hother]
    exact hfree

end Arm

/-- **Which arms are hygienic.**  The code of an enumeration has an arm for each variant, which
binds a different name for each field and passes each of them on once, under its own name and in
order.  It writes to the formatter exactly if no field of the variant is called `f`. -/
theorem arms_hygienic_iff (hshape : item.shape = .enumeration variants)
    (hdistinct : ∀ v ∈ variants, v.fields.names.Nodup) (hcode : item.expand = .ok i) :
    ∃ arms, i.body = .arms arms ∧
      List.Forall₂ (fun v a => a.variant = v.name ∧ a.pattern.BindsEach v.fields ∧
        a.pattern.bound.Nodup ∧ a.PassesBound ∧
        (i.destination? a = some .formatter ↔ "f" ∉ v.fields.names) ∧
        (i.Hygienic a ↔ "f" ∉ v.fields.names)) variants arms := by
  obtain ⟨arms, harms, hi⟩ := (Item.expand_eq_ok_iff_of_enumeration hshape).mp hcode
  refine ⟨arms, by rw [hi], ?_⟩
  rw [List.forall₂_iff_get] at harms ⊢
  obtain ⟨hlength, harm⟩ := harms
  refine ⟨hlength, ?_⟩
  intro k hk hk'
  obtain ⟨message, -, heq⟩ := Variant.arm_eq_ok_iff.mp (harm k hk hk')
  have hnodup := hdistinct _ (variants.get_mem ⟨k, hk⟩)
  rw [heq]
  refine ⟨?_, bindsEach_arm _ _ _, nodup_bound_arm _ _ hnodup, passesBound_arm _ _ _, ?_,
    hygienic_arm_iff _ _ hnodup⟩
  · cases (variants.get ⟨k, hk⟩).fields <;> rfl
  · rw [destination?_eq_formatter_iff, formatter_mem_bound_arm_iff]

/-- An enumeration with two variants: one has two fields without names, the other a field that is
called `f`. -/
def intruded : Item where
  name := "E"
  attributes := []
  generics := []
  conditions := []
  shape := .enumeration
    [{ name := "Pair", attributes := [⟨"error", .list [.text "bad {0} and {1}"]⟩],
       fields := .tuple 2 },
     { name := "Hidden", attributes := [⟨"error", .list [.text "bad {f}"]⟩],
       fields := .named ["f"] }]

/-- The arm for the fields without names is hygienic, the arm for the field `f` is not. -/
theorem arms_hygienic_iff_intruded :
    ∃ i first second, intruded.expand = .ok i ∧ i.body = .arms [first, second] ∧
      i.Hygienic first ∧ ¬ i.Hygienic second := by
  obtain ⟨i, hcode⟩ : ∃ i, intruded.expand = .ok i := ⟨_, rfl⟩
  obtain ⟨arms, hbody, harms⟩ := arms_hygienic_iff rfl (by decide) hcode
  obtain ⟨first, rest, hfirst, hrest, rfl⟩ := List.forall₂_cons_left_iff.mp harms
  obtain ⟨second, last, hsecond, hlast, rfl⟩ := List.forall₂_cons_left_iff.mp hrest
  obtain rfl := List.forall₂_nil_left_iff.mp hlast
  refine ⟨i, first, second, hcode, hbody, ?_, ?_⟩
  · exact hfirst.2.2.2.2.2.mpr (by decide)
  · intro hygienic
    exact hsecond.2.2.2.2.2.mp hygienic (by decide)

/-- Not every arm writes to the formatter, although all field names are different: in the second arm
of this enumeration the destination is the field. -/
theorem field_hides_formatter :
    ∃ i first second, intruded.expand = .ok i ∧ i.body = .arms [first, second] ∧
      second.pattern = .named ["f"] ∧ ["f"].Nodup ∧
      i.destination? second = some (.field 0) ∧ ¬ i.Hygienic second := by
  refine ⟨_, _, _, rfl, rfl, rfl, List.nodup_singleton "f", by decide +kernel, ?_⟩
  intro hygienic
  exact absurd hygienic.destination (by decide +kernel)

end RegisterMachine.ErrorDerivation
