import TypeSchema.Graph.Store
import TypeSchema.Syntax.Basic

/-!
# Alias chains

An alias whose body is the bare name of another alias stands for the same type. Its chain is
followed to the first alias that is resolved already or has a body of its own; a chain that comes
back to one of its aliases stands for nothing.
-/

namespace TypeSchema

/-- The declaration of a name. -/
def declared? (declarations : List Declaration) (name : String) : Option Declaration :=
  declarations.find? (·.name == name)

/-- The alias that a body is the bare name of. -/
def TypeExpr.aliasTarget? (declarations : List Declaration) : TypeExpr → Option String
  | .named name [] => (declared? declarations name).map fun _ => name
  | _ => none

/-- Where an alias chain ends. The names of the chain are given last one first. -/
inductive ChainEnd where
  /-- A name is not declared. -/
  | undeclared (name : String)
  /-- The chain comes back to an alias. -/
  | cycle (name : String)
  /-- The last alias is the name of a resolved one. -/
  | resolved (chain : List String) (id : TypeId)
  /-- The last alias has a body of its own. -/
  | body (chain : List String) (declaration : Declaration)

/-- Follows an alias chain from a name that comes after the names of `chain`. Each name of the chain
is declared and occurs in it once, so one step more than there are declarations is never used up. -/
def followChain (declarations : List Declaration) (resolved : List (String × TypeId)) :
    (steps : Nat) → (chain : List String) → String → ChainEnd
  | 0, _, name => .cycle name
  | steps + 1, chain, name =>
    match declared? declarations name with
    | none => .undeclared name
    | some declaration =>
      if declaration.name ∈ chain then .cycle declaration.name
      else
        let chain := declaration.name :: chain
        match declaration.type.aliasTarget? declarations with
        | none => .body chain declaration
        | some target =>
          match resolved.lookup target with
          | some id => .resolved chain id
          | none => followChain declarations resolved steps chain target

/-- The end of the alias chain of a name. -/
def chainEnd (declarations : List Declaration) (resolved : List (String × TypeId))
    (name : String) : ChainEnd :=
  followChain declarations resolved (declarations.length + 1) [] name

end TypeSchema
