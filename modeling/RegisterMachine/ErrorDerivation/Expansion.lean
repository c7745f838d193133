import RegisterMachine.ErrorDerivation.Item

set_option autoImplicit false

/-!
# The code for an error type

What is generated for an error type is a function that writes the message of a value to a formatter.
For an enumeration it distinguishes the variants; each arm binds the fields of its variant and
passes each of them on under its own name.  For a structure the fields are taken from the value
itself.

In a message a field is referred to by a placeholder: a number or a name between braces, with or
without a colon and a format after it.  Fields without names are passed under the names `f0`, `f1`,
and so on, and the placeholders that refer to them by number are made to refer to these names.
Placeholders are looked for in the bare text: a doubled brace, which stands for a literal brace, is
not treated apart.
-/

namespace RegisterMachine.ErrorDerivation

/-! ## Placeholders -/

/-- The text with every occurrence of `pattern`, which is not empty, replaced.  Occurrences are
taken from left to right and do not overlap. -/
def replaceAll (pattern replacement : List Char) (text : List Char) : List Char :=
  match text with
  | [] => []
  | c :: rest =>
    if pattern.isPrefixOf (c :: rest) then
      replacement ++ replaceAll pattern replacement (rest.drop (pattern.length - 1))
    else c :: replaceAll pattern replacement rest
termination_by text.length
decreasing_by
  · rw [List.length_drop, List.length_cons]
    omega
  · exact Nat.lt_succ_self rest.length

/-- The name under which the field at position `i` is passed. -/
def fieldName (i : Nat) : List Char := 'f' :: Nat.toDigits 10 i

/-- The beginning of a placeholder that refers to `reference`, up to and including the character
that closes the reference. -/
def opening (reference : List Char) (close : Char) : List Char := '{' :: (reference ++ [close])

/-- The message with the placeholders of field `i` referring to it by its name. -/
def nameField (i : Nat) (message : List Char) : List Char :=
  ['}', ':'].foldl
    (fun text close =>
      replaceAll (opening (Nat.toDigits 10 i) close) (opening (fieldName i) close) text)
    message

/-- The message with the placeholders of the fields `0`, …, `count - 1` referring to them by name.
The last field comes first. -/
def nameFields : Nat → List Char → List Char
  | 0, message => message
  | i + 1, message => nameFields i (nameField i message)

example : nameFields 2 "bad {0} and {1:?}".toList = "bad {f0} and {f1:?}".toList := by
  decide +kernel

/-! ## Generated code -/

/-- Where the value of an argument comes from. -/
inductive Source where
  /-- A name that the pattern of the arm binds. -/
  | binding (name : String)
  /-- A field of the value itself, by its name or position. -/
  | field (selector : String)
  deriving DecidableEq, Repr, Inhabited

/-- A value passed to be written in place of placeholders, under the name that they use. -/
structure Argument where
  name : String
  source : Source
  deriving DecidableEq, Repr, Inhabited

/-- Writing a message. -/
structure Write where
  message : String
  /-- What is passed to it; nothing at all, not even an empty list, where there are no fields. -/
  arguments : Option (List Argument)
  deriving DecidableEq, Repr, Inhabited

/-- The pattern of an arm. -/
inductive Pattern where
  /-- The bare name of a variant. -/
  | unit
  /-- Names for the fields, by position. -/
  | tuple (names : List String)
  /-- The fields, by their own names. -/
  | named (names : List String)
  deriving DecidableEq, Repr, Inhabited

/-- The names that a pattern binds, in order. -/
def Pattern.bound : Pattern → List String
  | unit => []
  | tuple names | named names => names

/-- What is done for one variant. -/
structure Arm where
  variant : String
  pattern : Pattern
  write : Write
  deriving DecidableEq, Repr, Inhabited

/-- The body of the function. -/
inductive Body where
  /-- The variants are told apart. -/
  | arms (arms : List Arm)
  /-- The same is done for every value. -/
  | write (write : Write)
  deriving DecidableEq, Repr, Inhabited

/-- The code generated for a type. -/
structure Implementation where
  name : String
  generics : List GenericParameter
  conditions : List WherePredicate
  body : Body
  deriving DecidableEq, Repr, Inhabited

/-- The names under which so many fields without names are passed. -/
def positionalNames (count : Nat) : List String :=
  (List.range count).map fun i => String.ofList (fieldName i)

/-- The message of a type or variant with so many fields without names. -/
def positionalMessage (count : Nat) (message : String) : String :=
  String.ofList (nameFields count message.toList)

/-- The arm for a variant with the given message. -/
def arm (variant : String) (fields : Fields) (message : String) : Arm :=
  let pass (names : List String) : Option (List Argument) :=
    some (names.map fun name => { name, source := .binding name })
  match fields with
  | .unit => { variant, pattern := .unit, write := { message, arguments := none } }
  | .tuple count =>
    let names := positionalNames count
    { variant
      pattern := .tuple names
      write := { message := positionalMessage count message, arguments := pass names } }
  | .named names =>
    { variant, pattern := .named names, write := { message, arguments := pass names } }

/-- What is written for a structure with the given message. -/
def recordWrite (fields : Fields) (message : String) : Write :=
  match fields with
  | .unit => { message, arguments := none }
  | .tuple count =>
    { message := positionalMessage count message
      arguments := some <| (positionalNames count).zipIdx.map fun (name, i) =>
        { name, source := .field (toString i) } }
  | .named names =>
    { message, arguments := some (names.map fun name => { name, source := .field name }) }

/-- The arm for a variant; refused if it has no message. -/
def Variant.arm (v : Variant) : Except Refusal Arm := do
  let message ← messageOf v.attributes (.variant v.name)
  return ErrorDerivation.arm v.name v.fields message

/-- The code for a type.  The first variant without a message is the reason for a refusal. -/
def Item.expand (item : Item) : Except Refusal Implementation := do
  let body ←
    match item.shape with
    | .enumeration variants => do pure (Body.arms (← variants.mapM Variant.arm))
    | .record fields => do
      let message ← messageOf item.attributes (.type item.name)
      pure (Body.write (recordWrite fields message))
    | .union => throw .union
  return { name := item.name, generics := item.generics, conditions := item.conditions, body }

end RegisterMachine.ErrorDerivation
