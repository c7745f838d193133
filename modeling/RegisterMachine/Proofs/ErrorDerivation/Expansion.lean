import Mathlib.Data.List.Forall2
import Mathlib.Data.List.Nodup
import RegisterMachine.ErrorDerivation.Printer
import RegisterMachine.Proofs.Text

set_option autoImplicit false

/-!
# Generated code and its text

The code of an enumeration has one arm for each variant, in order, and there is code exactly if each
variant has a message.  The fields of a variant without field names are called `f0`, `f1`, and so
on; no two of these names are the same, and each of them is longer than one character.

Code is printed from tokens, and the blanks between them are put in by the printer.  Here the text
of each part of the code is written out as it stands on the page: first what is said about one
field, one variant and one type, then the two implementations with their heads.  The text of the
tokens is that text.  In place of refused code stands one of five messages, each of them a literal
but for the name of what lacks a message.
-/

namespace RegisterMachine.ErrorDerivation

variable {item : Item} {variants : List Variant} {v : Variant} {a : Arm} {arms : List Arm}
  {i : Implementation} {count : Nat}

/-! ## One arm for each variant -/

theorem Variant.arm_eq_ok_iff :
    v.arm = .ok a ↔
      ∃ message, messageOf v.attributes (.variant v.name) = .ok message ∧
        a = ErrorDerivation.arm v.name v.fields message := by
  unfold Variant.arm
  cases messageOf v.attributes (.variant v.name) with
  | error refusal => simp [bind, Except.bind]
  | ok message => simp [bind, Except.bind, pure, Except.pure, eq_comm]

theorem mapM_arm_cons_eq_ok_iff :
    (v :: variants).mapM Variant.arm = .ok arms ↔
      ∃ a rest, v.arm = .ok a ∧ variants.mapM Variant.arm = .ok rest ∧ arms = a :: rest := by
  rw [List.mapM_cons]
  cases v.arm with
  | error refusal => simp [bind, Except.bind]
  | ok a =>
    cases variants.mapM Variant.arm with
    | error refusal => simp [bind, Except.bind]
    | ok rest => simp [bind, Except.bind, pure, Except.pure, eq_comm]

/-- All variants have arms exactly if each one has. -/
theorem mapM_arm_eq_ok_iff :
    variants.mapM Variant.arm = .ok arms ↔
      List.Forall₂ (fun v a => v.arm = .ok a) variants arms := by
  induction variants generalizing arms with
  | nil => simp [pure, Except.pure, eq_comm]
  | cons v rest ih =>
    simp only [mapM_arm_cons_eq_ok_iff, List.forall₂_cons_left_iff, ih]

/-- The code of an enumeration has the arms of its variants. -/
theorem Item.expand_eq_ok_iff_of_enumeration (hshape : item.shape = .enumeration variants) :
    item.expand = .ok i ↔
      ∃ arms, List.Forall₂ (fun v a => v.arm = .ok a) variants arms ∧
        i = { name := item.name, generics := item.generics, conditions := item.conditions,
              body := .arms arms } := by
  unfold Item.expand
  simp only [hshape, ← mapM_arm_eq_ok_iff]
  cases variants.mapM Variant.arm with
  | error refusal => simp [bind, Except.bind]
  | ok arms => simp [bind, Except.bind, pure, Except.pure, eq_comm]

/-! ## The names of fields that have none -/

theorem fieldName_injective : Function.Injective fieldName := fun _ _ h =>
  toDigits_injective (List.cons.inj h).2

@[simp] theorem length_positionalNames (count : Nat) : (positionalNames count).length = count := by
  simp [positionalNames]

theorem nodup_positionalNames (count : Nat) : (positionalNames count).Nodup := by
  refine List.Nodup.map (fun k l h => ?_) List.nodup_range
  exact fieldName_injective (String.ofList_injective h)

/-- The name of a field has digits after its first character. -/
theorem ofList_singleton_not_mem_positionalNames (c : Char) :
    String.ofList [c] ∉ positionalNames count := by
  intro hmem
  obtain ⟨k, -, hk⟩ := List.mem_map.mp hmem
  have hdigits : Nat.toDigits 10 k = [] := (List.cons.inj (String.ofList_injective hk)).2
  exact Nat.toDigits_ne_nil hdigits

/-! ## Texts -/

/-- Texts with commas between them, and a blank before the first one. -/
def inRow : List String → String
  | [] => ""
  | text :: texts => " " ++ " , ".intercalate (text :: texts)

/-- Texts in a row between angle brackets, if there are any. -/
def inAngles : List String → String
  | [] => ""
  | text :: texts => " <" ++ inRow (text :: texts) ++ " >"

def Source.text : Source → String
  | binding name => name
  | field selector => "self . " ++ selector

def Argument.text (a : Argument) : String := a.name ++ " = " ++ a.source.text

/-- The message, and the arguments after it.  Without fields there is no comma either. -/
def Write.text (w : Write) : String :=
  "write ! (f , " ++ stringLiteral w.message ++
    (match w.arguments with
      | none => ""
      | some arguments => " ," ++ inRow (arguments.map Argument.text)) ++ ")"

/-- What follows the name of a variant, with a blank before it. -/
def Pattern.text : Pattern → String
  | unit => ""
  | tuple names => " (" ++ " , ".intercalate names ++ ")"
  | named names => " \x7b" ++ inRow names ++ " \x7d"

def Arm.text (a : Arm) : String :=
  "Self :: " ++ a.variant ++ a.pattern.text ++ " => " ++ a.write.text ++ " ,"

def Body.text : Body → String
  | .arms list => "match self \x7b" ++ String.join (list.map fun a => " " ++ a.text) ++ " \x7d"
  | .write w => w.text

def GenericParameter.text (g : GenericParameter) : String :=
  match g.bound with
  | none => g.name
  | some bound => g.name ++ " : " ++ bound

def WherePredicate.text (c : WherePredicate) : String := c.name ++ " : " ++ c.bound

namespace Implementation

/-- The type, with the names of its parameters. -/
def typeText (i : Implementation) : String :=
  i.name ++ inAngles (i.generics.map GenericParameter.name)

/-- The conditions on the parameters, if there are any. -/
def conditionText (i : Implementation) : String :=
  match i.conditions with
  | [] => ""
  | c :: rest => " where" ++ inRow ((c :: rest).map WherePredicate.text)

/-- The text of an implementation of the subject, with the given members. -/
def implText (i : Implementation) (subject members : String) : String :=
  "impl" ++ inAngles (i.generics.map GenericParameter.text) ++ subject ++ " for " ++ i.typeText ++
    i.conditionText ++ " \x7b" ++ members ++ " \x7d"

/-- The text of the function that displays a value. -/
def displayText (i : Implementation) : String :=
  " fn fmt (& self , f : & mut :: std :: fmt :: Formatter < '_ >) -> :: std :: fmt :: Result" ++
    " \x7b " ++ i.body.text ++ " \x7d"

/-- The text of both implementations. -/
def text (i : Implementation) : String :=
  i.implText " :: std :: fmt :: Display" i.displayText ++ " " ++
    i.implText " :: std :: error :: Error" ""

end Implementation

/-- What the author of a type is told about a refusal. -/
inductive Refusal.Reports : Refusal → String → Prop
  | union : Reports .union "Error derive does not support unions"
  | variant (name : String) : Reports (.missingMessage (.variant name))
      ("missing #[error(\"...\")] attribute on variant `" ++ name ++ "`")
  | type (name : String) : Reports (.missingMessage (.type name))
      ("missing #[error(\"...\")] attribute on type `" ++ name ++ "`")
  | notAList : Reports .notAList "expected #[error(\"message\")]"
  | notALiteral : Reports .notALiteral
      "#[error] message must be a string literal, e.g. #[error(\"unbound opcode \x7b0\x7d\")]"

/-! ## Sequences of tokens -/

namespace Token

variable {t : Token} {tokens rest : List Token} {parts : List (List Token)}

/-- The text of tokens that stand after others: each has a blank before it. -/
def trailing : List Token → String
  | [] => ""
  | t :: rest => " " ++ t.render ++ trailing rest

@[simp] theorem trailing_nil : trailing [] = "" := rfl

@[simp] theorem trailing_cons : trailing (t :: rest) = " " ++ (t.render ++ trailing rest) :=
  String.append_assoc

@[simp] theorem trailing_append :
    trailing (tokens ++ rest) = trailing tokens ++ trailing rest := by
  induction tokens with
  | nil => simp
  | cons t tokens ih => simp [ih, String.append_assoc]

@[simp] theorem renderAll_cons : renderAll (t :: rest) = t.render ++ trailing rest := by
  induction rest generalizing t with
  | nil => rw [renderAll, trailing_nil, String.append_empty]
  | cons t' rest ih =>
    rw [renderAll, ih, trailing_cons, String.append_assoc]
    rintro ⟨⟩

theorem trailing_eq_of_ne_nil (h : tokens ≠ []) : trailing tokens = " " ++ renderAll tokens := by
  cases tokens with
  | nil => exact absurd rfl h
  | cons t rest => rw [trailing_cons, renderAll_cons]

@[simp] theorem render_word (text : String) : (word text).render = text := render.eq_1 text

@[simp] theorem render_literal (value : String) : (literal value).render = stringLiteral value :=
  render.eq_2 value

@[simp] theorem render_parens : (parens tokens).render = "(" ++ renderAll tokens ++ ")" :=
  render.eq_3 tokens

@[simp] theorem render_braces : (braces tokens).render = "\x7b" ++ trailing tokens ++ " \x7d" := by
  cases tokens with
  | nil => rfl
  | cons t rest =>
    rw [render, trailing_eq_of_ne_nil (List.cons_ne_nil t rest), ← String.append_assoc]
    rfl

theorem renderAll_append (h : tokens ≠ []) :
    renderAll (tokens ++ rest) = renderAll tokens ++ trailing rest := by
  cases tokens with
  | nil => exact absurd rfl h
  | cons t tokens =>
    rw [List.cons_append, renderAll_cons, renderAll_cons, trailing_append, String.append_assoc]

theorem commaSeparated_cons_cons {part part' : List Token} :
    commaSeparated (part :: part' :: parts) =
      part ++ word "," :: commaSeparated (part' :: parts) := by
  simp [commaSeparated, List.intercalate_cons_cons]

theorem commaSeparated_ne_nil {part : List Token} (h : part ≠ []) (parts : List (List Token)) :
    commaSeparated (part :: parts) ≠ [] := by
  cases parts with
  | nil => simpa [commaSeparated] using h
  | cons part' parts => simp [commaSeparated_cons_cons, h]

theorem renderAll_commaSeparated (h : ∀ part ∈ parts, part ≠ []) :
    renderAll (commaSeparated parts) = " , ".intercalate (parts.map renderAll) := by
  induction parts with
  | nil => rfl
  | cons part parts ih =>
    obtain ⟨hpart, hparts⟩ := List.forall_mem_cons.mp h
    cases parts with
    | nil => simp [commaSeparated]
    | cons part' parts =>
      have hrest := commaSeparated_ne_nil (hparts part' List.mem_cons_self) parts
      rw [commaSeparated_cons_cons, renderAll_append hpart, trailing_cons,
        trailing_eq_of_ne_nil hrest, ih hparts, List.map_cons, List.map_cons, List.map_cons,
        String.intercalate_cons_cons]
      apply String.toList_injective
      simp

theorem trailing_commaSeparated (h : ∀ part ∈ parts, part ≠ []) :
    trailing (commaSeparated parts) = inRow (parts.map renderAll) := by
  cases parts with
  | nil => rfl
  | cons part parts =>
    have hne := commaSeparated_ne_nil (h part List.mem_cons_self) parts
    rw [trailing_eq_of_ne_nil hne, renderAll_commaSeparated h]
    rfl

/-- Names are tokens of their own. -/
theorem map_renderAll_names (names : List String) :
    (names.map fun name => [word name]).map renderAll = names := by
  simp [Function.comp_def]

/-- What stands between angle brackets, as the printer has it. -/
theorem trailing_angles {α : Type} (f : α → List Token) (list : List α) (h : ∀ a, f a ≠ []) :
    trailing (if list.isEmpty then [] else
        [word "<"] ++ commaSeparated (list.map f) ++ [word ">"]) =
      inAngles (list.map fun a => renderAll (f a)) := by
  cases list with
  | nil => rfl
  | cons a rest =>
    have hrow : trailing (commaSeparated ((a :: rest).map f)) =
        inRow ((a :: rest).map fun a => renderAll (f a)) := by
      rw [trailing_commaSeparated (by simp [h]), List.map_map]
      rfl
    apply String.toList_injective
    simpa [inAngles] using congrArg String.toList hrow

end Token

/-! ## The text of the tokens -/

open Token

theorem Argument.renderAll_tokens (a : Argument) : renderAll a.tokens = a.text := by
  apply String.toList_injective
  obtain ⟨name, binding | selector⟩ := a <;>
    simp [tokens, text, Source.tokens, Source.text, words]

theorem Write.renderAll_tokens (w : Write) : renderAll w.tokens = w.text := by
  apply String.toList_injective
  obtain ⟨message, _ | arguments⟩ := w
  · simp [tokens, text]
  · have hne : ∀ part ∈ arguments.map Argument.tokens, part ≠ [] := by
      simp [Argument.tokens, words]
    have htexts : renderAll ∘ Argument.tokens = Argument.text := funext Argument.renderAll_tokens
    simp [tokens, text, trailing_commaSeparated hne, htexts]

theorem Write.trailing_tokens (w : Write) : trailing w.tokens = " " ++ w.text := by
  rw [trailing_eq_of_ne_nil (by simp [tokens]), w.renderAll_tokens]

theorem Pattern.trailing_tokens (p : Pattern) : trailing p.tokens = p.text := by
  apply String.toList_injective
  cases p with
  | unit => rfl
  | tuple names =>
    have hrow : renderAll (commaSeparated (names.map fun name => [word name])) =
        " , ".intercalate names := by
      rw [renderAll_commaSeparated (by simp), map_renderAll_names]
    simp [tokens, text, hrow]
  | named names =>
    have hrow : trailing (commaSeparated (names.map fun name => [word name])) = inRow names := by
      rw [trailing_commaSeparated (by simp), map_renderAll_names]
    simp [tokens, text, hrow]

theorem Arm.trailing_tokens (a : Arm) : trailing a.tokens = " " ++ a.text := by
  apply String.toList_injective
  simp [tokens, text, words, a.pattern.trailing_tokens, a.write.trailing_tokens]

theorem trailing_arms (arms : List Arm) :
    trailing (arms.flatMap Arm.tokens) = String.join (arms.map fun a => " " ++ a.text) := by
  induction arms with
  | nil => rfl
  | cons a arms ih =>
    rw [List.flatMap_cons, trailing_append, a.trailing_tokens, ih, List.map_cons,
      String.join_cons]

theorem Body.trailing_tokens (b : Body) : trailing b.tokens = " " ++ b.text := by
  cases b with
  | arms list =>
    apply String.toList_injective
    simp [tokens, text, words, trailing_arms]
  | write w => exact w.trailing_tokens

namespace Implementation

variable (i : Implementation)

theorem trailing_parameterTokens :
    trailing i.parameterTokens = inAngles (i.generics.map GenericParameter.text) := by
  rw [parameterTokens, trailing_angles]
  · refine congrArg inAngles (List.map_congr_left fun g _ => ?_)
    apply String.toList_injective
    obtain ⟨name, _ | bound⟩ := g <;> simp [GenericParameter.text, bounded, words]
  · rintro ⟨name, _ | bound⟩ <;> simp [bounded, words]

theorem trailing_conditionTokens : trailing i.conditionTokens = i.conditionText := by
  have htext (c : WherePredicate) : renderAll (bounded c.name c.bound) = c.text := by
    apply String.toList_injective
    simp [WherePredicate.text, bounded, words]
  rw [conditionTokens, conditionText]
  cases i.conditions with
  | nil => rfl
  | cons c rest =>
    have hrow : trailing (commaSeparated ((c :: rest).map fun c => bounded c.name c.bound)) =
        inRow ((c :: rest).map WherePredicate.text) := by
      rw [trailing_commaSeparated (by simp [bounded, words]), List.map_map]
      exact congrArg inRow (List.map_congr_left fun c _ => htext c)
    rw [if_neg (by simp), trailing_cons, hrow, render_word, ← String.append_assoc]
    rfl

theorem trailing_typeTokens : trailing i.typeTokens = " " ++ i.typeText := by
  rw [typeTokens, trailing_cons, trailing_angles _ _ (by simp)]
  simp [typeText]

theorem trailing_displayTokens : trailing i.displayTokens = i.displayText := by
  have hbody : trailing [braces i.body.tokens] = " \x7b " ++ i.body.text ++ " \x7d" := by
    apply String.toList_injective
    simp [i.body.trailing_tokens]
  rw [displayTokens, trailing_append, hbody, ← String.append_assoc, ← String.append_assoc]
  rfl

theorem renderAll_implTokens (subject : List String) (members : List Token) :
    renderAll (i.implTokens subject members) =
      i.implText (trailing (path subject)) (trailing members) := by
  apply String.toList_injective
  simp [implTokens, implText, trailing_parameterTokens, trailing_typeTokens,
    trailing_conditionTokens]

/-- The text of the tokens is the one that is written out. -/
theorem renderAll_tokens : renderAll i.tokens = i.text := by
  have hne (subject : List String) (members : List Token) : i.implTokens subject members ≠ [] := by
    simp [implTokens]
  rw [tokens, renderAll_append (hne _ _), trailing_eq_of_ne_nil (hne _ _), renderAll_implTokens,
    renderAll_implTokens, trailing_displayTokens, ← String.append_assoc]
  rfl

end Implementation

/-- A refusal is reported by an error of the compiler, with the message as a literal. -/
theorem Refusal.Reports.renderAll_tokens {r : Refusal} {message : String} (h : r.Reports message) :
    renderAll r.tokens =
      ":: core :: compile_error ! \x7b " ++ stringLiteral message ++ " \x7d" := by
  have htext : r.text = message := by
    cases h <;> rfl
  have hhead : renderAll (path ["core", "compile_error"]) ++ " ! \x7b " =
      ":: core :: compile_error ! \x7b " := by rfl
  have hrest : trailing [word "!", braces [literal message]] =
      " ! \x7b " ++ (stringLiteral message ++ " \x7d") := by
    apply String.toList_injective
    simp
  rw [tokens, htext, renderAll_append (by simp [path, words]), hrest, ← String.append_assoc, hhead,
    ← String.append_assoc]

end RegisterMachine.ErrorDerivation
