import TypeSchema.Schema.Basic

/-!
# Traversals of a schema tree

`preorder` lists a tree, each node before its children. What a tree refers to and what it
establishes are read off that list.
-/

namespace TypeSchema.Schema

mutual

/-- The nodes of a tree, each before its children. -/
def preorder : Schema → List Schema
  | node@(primitive ..) | node@(literal ..) | node@(reference ..) => [node]
  | node@(object properties _) => node :: preorderProperties properties
  | node@(array element _) => node :: element.preorder
  | node@(tuple elements _) => node :: preorderList elements
  | node@(composite _ members _) => node :: preorderList members
  | node@(record key value _) => node :: (key.preorder ++ value.preorder)
  | node@(function arguments returns _) =>
    node :: (preorderList arguments ++ returns.preorder)

/-- The nodes of a list of trees. -/
def preorderList : List Schema → List Schema
  | [] => []
  | node :: rest => node.preorder ++ preorderList rest

/-- The nodes of the values of a list of properties. -/
def preorderProperties : List (String × Schema) → List Schema
  | [] => []
  | (_, node) :: rest => node.preorder ++ preorderProperties rest

end

/-- What a reference node refers to. -/
def target? : Schema → Option String
  | reference target _ => some target
  | _ => none

/-- The targets of the references of a tree, in order. -/
def references (node : Schema) : List String := node.preorder.filterMap target?

/-- The identifiers that the nodes of a tree carry, in order. -/
def identifiers (node : Schema) : List String := node.preorder.filterMap identifier

mutual

/-- A tree with every description cleared. -/
def withoutDescriptions : Schema → Schema
  | primitive type info => primitive type { info with description := none }
  | literal value info => literal value { info with description := none }
  | object properties info =>
    object (withoutDescriptionsProperties properties) { info with description := none }
  | array element info => array element.withoutDescriptions { info with description := none }
  | tuple elements info =>
    tuple (withoutDescriptionsList elements) { info with description := none }
  | composite connective members info =>
    composite connective (withoutDescriptionsList members) { info with description := none }
  | record key value info =>
    record key.withoutDescriptions value.withoutDescriptions { info with description := none }
  | function arguments returns info =>
    function (withoutDescriptionsList arguments) returns.withoutDescriptions
      { info with description := none }
  | reference target info => reference target { info with description := none }

/-- A list of trees with every description cleared. -/
def withoutDescriptionsList : List Schema → List Schema
  | [] => []
  | node :: rest => node.withoutDescriptions :: withoutDescriptionsList rest

/-- A list of properties with every description in their values cleared. -/
def withoutDescriptionsProperties : List (String × Schema) → List (String × Schema)
  | [] => []
  | (name, node) :: rest => (name, node.withoutDescriptions) :: withoutDescriptionsProperties rest

end

end TypeSchema.Schema
