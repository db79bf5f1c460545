/-!
# Repeated names
-/

namespace TypeSchema

/-- The first name of a list that is among the names before it or those already `seen`. -/
def firstRepeated? (seen : List String) : List String → Option String
  | [] => none
  | name :: rest => if name ∈ seen then some name else firstRepeated? (name :: seen) rest

end TypeSchema
