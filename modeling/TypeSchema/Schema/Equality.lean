import TypeSchema.Schema.Basic

/-!
# Equality of schema trees

Two trees are the same when they have the same structure and information. Properties are compared as
a map, so their order does not matter, and number literals as numbers, so a NaN differs from itself
and the two zeros agree. It is not an equivalence because of the NaN.
-/

namespace TypeSchema.Schema

mutual

/-- Whether two trees are the same. -/
def same : Schema → Schema → Bool
  | primitive type info, primitive type' info' => type == type' && info == info'
  | literal value info, literal value' info' => value.same value' && info == info'
  | object properties info, object properties' info' =>
    properties.length == properties'.length && sameProperties properties properties' &&
      info == info'
  | array element info, array element' info' => element.same element' && info == info'
  | tuple elements info, tuple elements' info' => sameList elements elements' && info == info'
  | composite connective members info, composite connective' members' info' =>
    connective == connective' && sameList members members' && info == info'
  | record key value info, record key' value' info' =>
    key.same key' && value.same value' && info == info'
  | function arguments returns info, function arguments' returns' info' =>
    sameList arguments arguments' && returns.same returns' && info == info'
  | reference target info, reference target' info' => target == target' && info == info'
  | _, _ => false

/-- Whether two lists of trees are the same, place by place. -/
def sameList : List Schema → List Schema → Bool
  | [], [] => true
  | node :: rest, node' :: rest' => node.same node' && sameList rest rest'
  | _, _ => false

/-- Whether each property has the same value among the other properties. -/
def sameProperties : List (String × Schema) → List (String × Schema) → Bool
  | [], _ => true
  | (name, node) :: rest, others =>
    (match others.lookup name with
      | some node' => node.same node'
      | none => false) && sameProperties rest others

end

instance : BEq Schema := ⟨same⟩

end TypeSchema.Schema
