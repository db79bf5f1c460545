import Mathlib
import TypeSchema.Proofs.Schema.Constructed
import TypeSchema.Proofs.Wire.Decoded
import TypeSchema.Proofs.Wire.Written

/-!
# Serialized nodes and the nodes they are read as

Reading undoes writing, for every node that construction makes and the format can hold, and writing
and reading again gives every node that was read.
-/

namespace TypeSchema

open Json

/-- The serialized form of a well-formed node is read back as the node. -/
lemma ofText_eq_ok {node : Schema} (w : node.WellFormed) (f : node.Finite)
    (b : node.NumbersReadBack) (shallow : node.nesting ≤ Reader.maxDepth) :
    Schema.ofText node.wireText = .ok node := by
  obtain ⟨found, mid, -, r, r'⟩ := spells_wireNode w f b shallow [] nofun
  have front : WireNode.ofFront node.wireText = .ok (WireNode.ofSchema node, []) := by
    rw [List.append_nil] at r
    exact r.bind r'
  rw [Schema.ofText, front]
  simp only [toSchema_ofSchema w.root]
  rfl

/-- A constructed node is read back from its serialized form, and what is read of any text is the
same after it is written and read again. The numbers of the node have to be read back one by one. -/
theorem ofText_wireText :
    (∀ node : Schema, node.Constructed → node.Finite → node.nesting ≤ Reader.maxDepth →
      node.NumbersReadBack → Schema.ofText node.wireText = .ok node) ∧
    ∀ (text : String) (node : Schema), Schema.ofText text = .ok node →
      node.NumbersReadBack → Schema.ofText node.wireText = .ok node := by
  constructor
  · intro node c f shallow back
    exact ofText_eq_ok c.wellFormed f back shallow
  · intro text node h back
    -- what is read could have been constructed, so it is written like any other node
    have d := decoded_of_ofText h
    exact ofText_eq_ok d.wellFormed d.finite back d.nesting_le

/-- A named shape with a number, an empty name and a reference to itself. -/
def recursiveShape : Schema :=
  .object [
    ("size", .literal (.number ⟨0x3ff8000000000000⟩) { description := some "in \"mm\"\n" }),
    ("", .function [.primitive .string {}, .tuple [] {}] (.primitive .void {}) {}),
    ("next", .composite .union [.reference "shape" {}, .primitive .undefined {}] {})]
    { identifier := some "shape" }

/-- A text that lists the fields of a node instead of naming them. -/
def listedTuple : String :=
  "[ \"tuple\", null, null, [\x7b\"type\": \"void\", \"typeName\": \"void\"\x7d], null, null ]"

/-- A shape is written and read, and what is read of a list of fields is written and read. -/
theorem ofText_wireText_recursiveShape :
    recursiveShape.Constructed ∧ recursiveShape.Finite ∧
      recursiveShape.nesting ≤ Reader.maxDepth ∧ recursiveShape.NumbersReadBack ∧
      Schema.ofText recursiveShape.wireText = .ok recursiveShape ∧
      Schema.ofText listedTuple = .ok (.tuple [.primitive .void {}] {}) ∧
      Schema.ofText (Schema.tuple [.primitive .void {}] {}).wireText =
        .ok (.tuple [.primitive .void {}] {}) := by
  have number : ∀ inner ∈ recursiveShape.preorder, ∀ number info,
      inner = .literal (.number number) info → number = ⟨0x3ff8000000000000⟩ := by
    simp [recursiveShape, Schema.preorder, Schema.preorderProperties, Schema.preorderList]
  have constructed : recursiveShape.Constructed :=
    Schema.constructed_iff_wellFormed.2 (by decide)
  have finite : recursiveShape.Finite := by
    intro inner m x info e
    rw [number inner m x info e]
    decide
  have back : recursiveShape.NumbersReadBack := by
    intro inner m x info e _
    rw [number inner m x info e]
    exact ⟨.float ⟨0x3ff8000000000000⟩, by decide +kernel, rfl⟩
  have shallow : recursiveShape.nesting ≤ Reader.maxDepth := by decide
  have written := ofText_wireText.1 recursiveShape constructed finite shallow back
  have listed : Schema.ofText listedTuple = .ok (.tuple [.primitive .void {}] {}) := by cbv
  have numberless : (Schema.tuple [.primitive .void {}] {}).NumbersReadBack := by
    simp [Schema.NumbersReadBack, Schema.preorder, Schema.preorderList]
  exact ⟨constructed, finite, shallow, back, written, listed,
    ofText_wireText.2 listedTuple _ listed numberless⟩

end TypeSchema
