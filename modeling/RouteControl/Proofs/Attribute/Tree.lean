import RouteControl.Proofs.Attribute.Framing
import RouteControl.Proofs.Attribute.Kind

/-!
# Trees of attributes

An attribute holds bytes, or further attributes, which its type tells by a flag.  A tree is laid out
as one attribute: the bytes of a leaf, or the children of a node, each on the next grid line
(`toAttribute`).  Reading goes by the flag alone (`readAll`), and it finds the trees that were laid
out as long as all lengths fit into the headers (`readAll_layOut`).
-/

namespace RouteControl

open Bytes

/-- Bytes under a kind, or attributes under one. -/
inductive AttributeTree where
  | leaf (kind : UInt16) (payload : Bytes)
  | node (kind : UInt16) (children : List AttributeTree)

namespace AttributeTree

/-- What holds of leaves, and of a node whenever it holds of all its children, holds of any tree. -/
@[induction_eliminator]
theorem induct {motive : AttributeTree → Prop}
    (leaf : ∀ kind payload, motive (leaf kind payload))
    (node : ∀ kind children, (∀ t ∈ children, motive t) → motive (node kind children))
    (t : AttributeTree) : motive t :=
  AttributeTree.rec (motive_1 := motive) (motive_2 := fun ts => ∀ t ∈ ts, motive t) leaf node
    (fun _ h => nomatch h) (fun _ _ ht hts => List.forall_mem_cons.2 ⟨ht, hts⟩) t

inductive Unflagged : AttributeTree → Prop
  | leaf {kind : UInt16} (h : AttributeHeader.IsFree kind) (payload : Bytes) :
      Unflagged (leaf kind payload)
  | node {kind : UInt16} (h : AttributeHeader.IsFree kind) {children : List AttributeTree}
      (hchildren : ∀ t ∈ children, Unflagged t) : Unflagged (node kind children)

/-! ## Laying out -/

mutual

def toAttribute : AttributeTree → Attribute
  | leaf kind payload => ⟨kind, payload⟩
  | node kind children =>
    ⟨kind ||| AttributeHeader.nestedFlag, stack [] ((toAttributes children).map Attribute.bytes)⟩

def toAttributes : List AttributeTree → List Attribute
  | [] => []
  | t :: ts => t.toAttribute :: toAttributes ts

end

private theorem toAttributes_eq (ts : List AttributeTree) :
    toAttributes ts = ts.map toAttribute := by
  induction ts with
  | nil => rfl
  | cons t ts ih => rw [toAttributes, ih, List.map_cons]

/-- The bytes of the trees, one behind the other. -/
def layOut (ts : List AttributeTree) : Bytes := stack [] ((toAttributes ts).map Attribute.bytes)

private theorem toAttribute_node (kind : UInt16) (children : List AttributeTree) :
    (node kind children).toAttribute =
      ⟨kind ||| AttributeHeader.nestedFlag, layOut children⟩ := by
  rw [toAttribute, layOut]

private theorem fits_of_length_layOut {ts : List AttributeTree}
    (h : (layOut ts).length ≤ Attribute.maxLength) : ∀ a ∈ toAttributes ts, a.Fits := by
  intro a ha
  have hle := length_le_stack_of_mem (List.mem_map_of_mem (f := Attribute.bytes) ha) []
  rw [Attribute.length_bytes] at hle
  exact Nat.le_trans hle h

/-! ## Reading -/

/-- The trees in some bytes: what an attribute that is flagged as a nest holds is read in turn. -/
def readAll (bytes : Bytes) : List AttributeTree :=
  (Attribute.walk bytes).attach.map fun a =>
    if a.1.header.isNested then node a.1.kind (readAll a.1.payload) else leaf a.1.kind a.1.payload
termination_by bytes.length
decreasing_by exact Attribute.length_payload_lt_of_mem_walk a.2

/-- The tree that an attribute is read as. -/
def ofAttribute (a : Attribute) : AttributeTree :=
  if a.header.isNested then node a.kind (readAll a.payload) else leaf a.kind a.payload

theorem readAll_eq (bytes : Bytes) : readAll bytes = (Attribute.walk bytes).map ofAttribute := by
  rw [readAll]
  exact List.attach_map_val (f := ofAttribute)

/-- Trees of which each is read back from its attribute are read back from a row of them. -/
theorem readAll_layOut_of_forall {ts : List AttributeTree}
    (hlength : (layOut ts).length ≤ Attribute.maxLength)
    (h : ∀ t ∈ ts, t.toAttribute.Fits → ofAttribute t.toAttribute = t) :
    readAll (layOut ts) = ts := by
  have hfits := fits_of_length_layOut hlength
  rw [readAll_eq, layOut, Attribute.walk_stack hfits, toAttributes_eq, List.map_map]
  rw [toAttributes_eq, List.forall_mem_map] at hfits
  have hsame : ∀ t ∈ ts, (ofAttribute ∘ toAttribute) t = id t := fun t ht => h t ht (hfits t ht)
  rw [List.map_congr_left hsame, List.map_id]

theorem ofAttribute_toAttribute {t : AttributeTree} (h : t.Unflagged)
    (hfits : t.toAttribute.Fits) : ofAttribute t.toAttribute = t := by
  induction h with
  | leaf hkind payload =>
      have hplain : (Attribute.mk _ payload).header.isNested = false :=
        AttributeHeader.isNested_of_free hkind
      rw [toAttribute, ofAttribute, hplain]
      exact congrArg (leaf · payload) (AttributeHeader.kind_of_free hkind)
  | @node kind hkind children _ ih =>
      rw [toAttribute_node] at hfits ⊢
      have hlength : (layOut children).length ≤ Attribute.maxLength :=
        Nat.le_trans (Nat.le_add_left _ _) hfits
      have hnested : (Attribute.mk (kind ||| AttributeHeader.nestedFlag)
          (layOut children)).header.isNested = true :=
        AttributeHeader.isNested_of_nested hkind
      rw [ofAttribute, hnested, if_pos rfl, readAll_layOut_of_forall hlength ih]
      exact congrArg (node · children) (AttributeHeader.kind_of_nested hkind)

theorem readAll_layOut {ts : List AttributeTree} (h : ∀ t ∈ ts, t.Unflagged)
    (hlength : (layOut ts).length ≤ Attribute.maxLength) : readAll (layOut ts) = ts :=
  readAll_layOut_of_forall hlength fun t ht => ofAttribute_toAttribute (h t ht)

end AttributeTree

end RouteControl
