set_option autoImplicit false

/-!
# Error types

The description of a type whose values are errors: its name and generic parameters, the variants or
fields it has, and the attributes in which its author wrote the messages.

The message of a variant or of a structure is the string literal in its first attribute named
`error`.  Attributes of other names do not matter, and later ones named `error` are never read, so
they cannot make up for a bad first one.
-/

namespace RegisterMachine.ErrorDerivation

/-- What stands after the equals sign of an attribute or among its arguments. -/
inductive Expression where
  /-- A string literal. -/
  | text (value : String)
  /-- A number. -/
  | number (value : Nat)
  /-- Anything else, as it is written. -/
  | other (source : String)
  deriving DecidableEq, Repr, Inhabited

/-- What follows the path of an attribute. -/
inductive AttributeForm where
  /-- Nothing. -/
  | bare
  /-- An equals sign and a value. -/
  | value (expression : Expression)
  /-- Arguments in parentheses. -/
  | list (arguments : List Expression)
  deriving DecidableEq, Repr, Inhabited

/-- An attribute of a type or of a variant. -/
structure Attribute where
  path : String
  form : AttributeForm
  deriving DecidableEq, Repr, Inhabited

/-- The fields of a variant or of a structure. -/
inductive Fields where
  /-- No fields, and no list of fields either. -/
  | unit
  /-- Fields that are known by their position. -/
  | tuple (count : Nat)
  /-- Fields that have names. -/
  | named (names : List String)
  deriving DecidableEq, Repr, Inhabited

/-- A variant of an enumeration. -/
structure Variant where
  name : String
  attributes : List Attribute
  fields : Fields
  deriving DecidableEq, Repr, Inhabited

/-- A generic parameter, with a bound if it has one. -/
structure GenericParameter where
  name : String
  bound : Option String
  deriving DecidableEq, Repr, Inhabited

/-- A condition on a generic parameter. -/
structure WherePredicate where
  name : String
  bound : String
  deriving DecidableEq, Repr, Inhabited

/-- What kind of type it is. -/
inductive Shape where
  /-- One of several variants. -/
  | enumeration (variants : List Variant)
  /-- Always the same fields. -/
  | record (fields : Fields)
  /-- Fields that share their storage. -/
  | union
  deriving DecidableEq, Repr, Inhabited

/-- The description of a type. -/
structure Item where
  name : String
  attributes : List Attribute
  generics : List GenericParameter
  conditions : List WherePredicate
  shape : Shape
  deriving DecidableEq, Repr, Inhabited

/-! ## Messages -/

/-- What a message is looked for. -/
inductive Owner where
  /-- A variant of an enumeration. -/
  | variant (name : String)
  /-- A structure. -/
  | type (name : String)
  deriving DecidableEq, Repr, Inhabited

/-- Why no code is generated for a type. -/
inductive Refusal where
  /-- The type is a union. -/
  | union
  /-- There is no attribute with the message. -/
  | missingMessage (owner : Owner)
  /-- The attribute has no arguments in parentheses. -/
  | notAList
  /-- The arguments are not just one string literal. -/
  | notALiteral
  deriving DecidableEq, Repr, Inhabited

/-- What the author of the type is told. -/
def Refusal.text : Refusal → String
  | union => "Error derive does not support unions"
  | missingMessage (.variant name) => s!"missing #[error(\"...\")] attribute on variant `{name}`"
  | missingMessage (.type name) => s!"missing #[error(\"...\")] attribute on type `{name}`"
  | notAList => "expected #[error(\"message\")]"
  | notALiteral =>
    "#[error] message must be a string literal, e.g. #[error(\"unbound opcode \x7b0\x7d\")]"

/-- The message that an attribute holds. -/
def Attribute.message (a : Attribute) : Except Refusal String :=
  match a.form with
  | .list [.text message] => .ok message
  | .list _ => .error .notALiteral
  | .bare | .value _ => .error .notAList

/-- The message of the variant or structure with these attributes. -/
def messageOf (attributes : List Attribute) (owner : Owner) : Except Refusal String :=
  match attributes.find? fun a => a.path == "error" with
  | none => .error (.missingMessage owner)
  | some a => a.message

end RegisterMachine.ErrorDerivation
