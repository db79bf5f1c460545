import TypeSchema.Json.Number
import TypeSchema.Json.Text

/-!
# Reading JSON values

A text is read from left to right and refused at the first fault. Every value starts with its
`Head`, a whole scalar or an opening bracket, on which a typed reader decides; what follows an
opening bracket is read by `arrayEnd` and `objectEnd`. Containers may be nested to a limit, so a
reader of nested values is given the number of containers that it may still open (`room`).
-/

namespace TypeSchema.Json

/-- Blanks between tokens. -/
def isBlank (c : Char) : Bool := c == ' ' || c == '\n' || c == '\t' || c == '\r'

namespace Reader

/-- Refuses the text. -/
def fail {α : Type} (fault : Fault) : Reader α := throw fault

/-- Refuses the form of a value. -/
def refuse {α : Type} (fault : DataFault) : Reader α := throw (.data fault)

/-- A function on the text as a reader. -/
def ofStep {α : Type} (step : List Char → Except Fault (α × List Char)) : Reader α := step

/-- Skips blanks and looks at the next character. -/
def peek : Reader (Option Char) := do
  modify (·.dropWhile isBlank)
  return (← get).head?

/-- Drops the next character. -/
def skip : Reader Unit := modify (·.drop 1)

/-- The given characters and no others. -/
def word : List Char → Reader Unit
  | [] => return
  | expected :: more => do
    match ← get with
    | [] => fail .endOfText
    | c :: rest =>
      if c = expected then do
        set rest
        word more
      else fail .malformed

/-- The head of the next value. -/
def head : Reader Head := do
  match ← peek with
  | none => fail .endOfText
  | some c =>
    if c = 'n' then do word "null".toList; return .null
    else if c = 't' then do word "true".toList; return .boolean true
    else if c = 'f' then do word "false".toList; return .boolean false
    else if c = '-' then do skip; return .number (← ofStep (numeralAfterSign true))
    else if c.isDigit then return .number (← ofStep (numeralAfterSign false))
    else if c = '"' then do skip; return .string (← ofStep stringAfterQuote)
    else if c = '[' then do skip; return .array
    else if c = '\x7b' then do skip; return .object
    else fail .malformed

/-- Whether an element of an array follows; if none does, the closing bracket is next. -/
def hasElement (isFirst : Bool) : Reader Bool := do
  match ← peek with
  | none => fail .endOfText
  | some c =>
    if c = ']' then return false
    else if isFirst then return true
    else if c = ',' then do
      skip
      match ← peek with
      | none => fail .endOfText
      | some c => if c = ']' then fail .malformed else return true
    else fail .malformed

/-- The end of an array of which no further element is read. -/
def closeArray : Reader Unit := do
  match ← peek with
  | none => fail .endOfText
  | some c => if c = ']' then skip else fail .malformed

/-- The elements of an array, at most as many as given. -/
def elements {α : Type} (element : Reader α) : (count : Nat) → (isFirst : Bool) → Reader (List α)
  | 0, _ => fail .malformed
  | count + 1, isFirst => do
    if ← hasElement isFirst then do
      let first ← element
      let rest ← elements element count false
      return first :: rest
    else return []

/-- The elements of an array after its opening bracket. Each of them takes a character at least. -/
def arrayEnd {α : Type} (element : Reader α) : Reader (List α) := do
  let result ← elements element ((← get).length + 1) true
  closeArray
  return result

/-- Whether a member of an object follows; if none does, the closing bracket is next. -/
def hasMember (isFirst : Bool) : Reader Bool := do
  match ← peek with
  | none => fail .endOfText
  | some c =>
    if c = '\x7d' then return false
    else if isFirst then if c = '"' then return true else fail .malformed
    else if c = ',' then do
      skip
      match ← peek with
      | none => fail .endOfText
      | some c => if c = '"' then return true else fail .malformed
    else fail .malformed

/-- The key of a member. -/
def key : Reader String := do
  skip
  ofStep stringAfterQuote

/-- The colon between a key and its value. -/
def colon : Reader Unit := do
  match ← peek with
  | none => fail .endOfText
  | some c => if c = ':' then skip else fail .malformed

/-- The end of an object of which no further member is read. -/
def closeObject : Reader Unit := do
  match ← peek with
  | none => fail .endOfText
  | some c => if c = '\x7d' then skip else fail .malformed

/-- The members of an object, at most as many as given. A member is read into the value so far by
a reader that is given its key and starts at the colon. -/
def members {σ : Type} (member : String → σ → Reader σ) :
    (count : Nat) → (isFirst : Bool) → σ → Reader σ
  | 0, _, _ => fail .malformed
  | count + 1, isFirst, value => do
    if ← hasMember isFirst then do
      let name ← key
      let value ← member name value
      members member count false value
    else return value

/-- The members of an object after its opening bracket. -/
def objectEnd {σ : Type} (member : String → σ → Reader σ) (start : σ) : Reader σ := do
  let result ← members member ((← get).length + 1) true start
  closeObject
  return result

/-- A container, unless no more may be opened. -/
def nested {α : Type} (room : Nat) (container : Reader α) : Reader α :=
  if room = 0 then fail .malformed else container

/-- A value that may be null. -/
def optional {α : Type} (value : Head → Reader α) : Reader (Option α) := do
  match ← head with
  | .null => return none
  | found => return some (← value found)

/-- A string. -/
def string : Head → Reader String
  | .string value => return value
  | found => refuse (.wrongType found "a string")

/-- The null value of an alternative that carries nothing. -/
def unit : Head → Reader Unit
  | .null => return
  | found => refuse (.wrongType found "unit")

/-- The alternative of a given name. -/
def alternativeNamed {α : Type} (known : List (String × α)) (name : String) : Reader α :=
  match known.lookup name with
  | some value => return value
  | none => refuse (.unknownVariant name (known.map (·.1)))

/-- The object form of an alternative, after its opening bracket: the name with a null. -/
def alternativeEnd {α : Type} (known : List (String × α)) : Reader α := do
  match ← peek with
  | none => fail .endOfText
  | some c =>
    if c = '"' then do
      let value ← alternativeNamed known (← key)
      colon
      unit (← head)
      closeObject
      return value
    else fail .malformed

/-- One of several named alternatives: its name, or an object with the name and a null. -/
def alternative {α : Type} (room : Nat) (known : List (String × α)) : Reader α := do
  match ← peek with
  | none => fail .endOfText
  | some c =>
    if c = '"' then do
      let name ← key
      alternativeNamed known name
    else if c = '\x7b' then do
      skip
      nested room (alternativeEnd known)
    else fail .malformed

/-- Refuses a field that was read before. -/
def once {α : Type} (name : String) (field : Option α) : Reader Unit :=
  match field with
  | some _ => refuse (.duplicateField name)
  | none => return

/-- A whole text: what is read, and nothing but blanks after it. -/
def run {α : Type} (reader : Reader α) (text : String) : Except Fault α := do
  let (value, rest) ← reader text.toList
  if rest.all isBlank then return value else throw .malformed

/-- The greatest depth to which containers are nested. -/
def maxDepth : Nat := 127

end Reader

end TypeSchema.Json
