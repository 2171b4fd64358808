import ClusterRing.Json.Token

/-!
# Reading and writing JSON

A text is read token by token, with the open arrays and objects on a stack, so
there is no limit to how deep values nest. Writing is compact: tokens follow one
another without white space.
-/

namespace ClusterRing.Json

/-! ### Writing -/

mutual

/-- The tokens of a value. -/
def toTokens : Json → List Token
  | .null => [.null]
  | .bool value => [.bool value]
  | .number numeral => [.number numeral]
  | .string content => [.string content]
  | .array items => .leftBracket :: itemTokens items ++ [.rightBracket]
  | .object members => .leftBrace :: memberTokens members ++ [.rightBrace]

/-- The tokens of array items, with commas between them. -/
def itemTokens : List Json → List Token
  | [] => []
  | [item] => toTokens item
  | item :: rest => toTokens item ++ .comma :: itemTokens rest

/-- The tokens of object members, with commas between them. -/
def memberTokens : List (Option String × Json) → List Token
  | [] => []
  | [(name, value)] => .string name :: .colon :: toTokens value
  | (name, value) :: rest =>
    .string name :: .colon :: toTokens value ++ .comma :: memberTokens rest

end

/-- The compact text of a value. -/
def render (value : Json) : String :=
  String.ofList (value.toTokens.flatMap Token.text)

/-! ### Reading -/

/-- An array or object that is still open. -/
inductive Container where
  /-- An array and its items so far, the last one first. -/
  | array (items : List Json)
  /-- An object, its members so far, the last one first, and the name of the next value. -/
  | object (members : List (Option String × Json)) (name : Option String)

/-- What the next token must be. -/
inductive Expected where
  /-- The start of a value. -/
  | value
  /-- The first item of an array, or its end. -/
  | firstItem
  /-- The name of the first member of an object, or its end. -/
  | firstName
  /-- The name of the next member of an object with the members so far. -/
  | name (members : List (Option String × Json))
  /-- The colon after the name of a member. -/
  | colon (members : List (Option String × Json)) (name : Option String)
  /-- What can follow a complete value. -/
  | afterValue (value : Json)

/-- How far the reading of a text has come. -/
structure Progress where
  expected : Expected
  /-- The open containers, the innermost first. -/
  containers : List Container

/-- Nothing read yet. -/
def Progress.start : Progress := ⟨.value, []⟩

/-- The value that has been read, if it is complete. -/
def Progress.result? : Progress → Option Json
  | ⟨.afterValue value, []⟩ => some value
  | _ => none

/-- Takes the first token of a value. -/
def startValue? (containers : List Container) : Token → Option Progress
  | .null => some ⟨.afterValue .null, containers⟩
  | .bool value => some ⟨.afterValue (.bool value), containers⟩
  | .number numeral => some ⟨.afterValue (.number numeral), containers⟩
  | .string content => some ⟨.afterValue (.string content), containers⟩
  | .leftBracket => some ⟨.firstItem, containers⟩
  | .leftBrace => some ⟨.firstName, containers⟩
  | _ => none

/-- Takes the token after a complete value. -/
def closeValue? (value : Json) : List Container → Token → Option Progress
  | .array items :: outer, .comma => some ⟨.value, .array (value :: items) :: outer⟩
  | .array items :: outer, .rightBracket =>
    some ⟨.afterValue (.array (value :: items).reverse), outer⟩
  | .object members name :: outer, .comma => some ⟨.name ((name, value) :: members), outer⟩
  | .object members name :: outer, .rightBrace =>
    some ⟨.afterValue (.object ((name, value) :: members).reverse), outer⟩
  | _, _ => none

/-- Takes one token. -/
def Progress.step? (progress : Progress) (token : Token) : Option Progress :=
  let containers := progress.containers
  match progress.expected, token with
  | .value, token => startValue? containers token
  | .firstItem, .rightBracket => some ⟨.afterValue (.array []), containers⟩
  | .firstItem, token => startValue? (.array [] :: containers) token
  | .firstName, .rightBrace => some ⟨.afterValue (.object []), containers⟩
  | .firstName, .string name => some ⟨.colon [] name, containers⟩
  | .name members, .string name => some ⟨.colon members name, containers⟩
  | .colon members name, .colon => some ⟨.value, .object members name :: containers⟩
  | .afterValue value, token => closeValue? value containers token
  | _, _ => none

/-- The value that a list of tokens spells. -/
def ofTokens? (tokens : List Token) : Option Json := do
  let progress ← tokens.foldlM Progress.step? Progress.start
  progress.result?

/-- The value that a text spells. -/
def parse? (text : List Char) : Option Json := do
  let tokens ← tokens? text
  ofTokens? tokens

end ClusterRing.Json
