import TypeSchema.Text.Lines

/-!
# Logging settings

What is logged and in which format is taken from the environment. Without a filter nothing is.
-/

namespace TypeSchema

/-- The format of log output. -/
inductive LogFormat where
  | text | tree | json
deriving DecidableEq, Repr, Inhabited

namespace LogFormat

/-- The name of a format. -/
def name : LogFormat → String
  | text => "Text"
  | tree => "Tree"
  | json => "Json"

/-- The format of a given name; any other name is `text`. White space around the name and the case
of its letters do not matter. No letter past ASCII has a lower case in the names. -/
def ofName (name : String) : LogFormat :=
  let plain := String.ofList ((Text.trim name.toList).map Char.toLower)
  if plain = "tree" then tree
  else if plain = "json" then json
  else text

end LogFormat

/-- The settings of logging. -/
structure LogSettings where
  /-- Filter directives. -/
  filter : String
  format : LogFormat := .text
deriving DecidableEq, Repr

namespace LogSettings

/-- The variables that hold the filter, the first one that is set being taken. -/
def filterVariables : List String := ["ONETYPED_LOG", "RUST_LOG"]

/-- The variable that holds the name of the format. -/
def formatVariable : String := "ONETYPED_LOG_FORMAT"

/-- The settings of an environment, if it sets a filter. -/
def ofEnvironment (value? : String → Option String) : Option LogSettings :=
  (filterVariables.findSome? value?).map fun filter =>
    ⟨filter, .ofName ((value? formatVariable).getD "")⟩

end LogSettings

end TypeSchema
