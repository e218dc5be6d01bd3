import RouteControl.Proofs.Attribute.Tree
import RouteControl.Proofs.Draft.Contents

/-!
# Trees in drafts

A tree of attributes is written depth first, a leaf as an attribute and a node as a nest around its
children.  In a buffer that is no longer than an attribute may be, this puts the attribute that the
tree is laid out as behind the payload (`writesIn_write`).  So the trees behind the header of a
family are read back from the message (`trees_read_back`).
-/

namespace RouteControl.AttributeTree

open MessageHeader Bytes Draft

mutual

/-- Writes a leaf as an attribute, and a node as a nest of what its children are written as. -/
def write : AttributeTree → Edit Unit
  | leaf kind payload => appendAttribute kind payload
  | node kind children => do
    let nest ← openNest kind
    writeAll children
    closeNest nest

def writeAll : List AttributeTree → Edit Unit
  | [] => return ()
  | t :: ts => do
    t.write
    writeAll ts

end

variable {f : Form} {ts : List AttributeTree}

theorem writesIn_writeAll_of_forall (h : ∀ t ∈ ts, WritesIn f t.write [t.toAttribute.bytes]) :
    WritesIn f (writeAll ts) ((toAttributes ts).map Attribute.bytes) := by
  induction ts with
  | nil => exact writesIn_pure f
  | cons t ts ih =>
      obtain ⟨ht, hts⟩ := List.forall_mem_cons.1 h
      exact ht.bind (ih hts)

theorem writesIn_write (hsmall : f.capacity ≤ Attribute.maxLength) (t : AttributeTree) :
    WritesIn f t.write [t.toAttribute.bytes] := by
  induction t with
  | leaf kind payload =>
      rw [write, toAttribute]
      exact writesIn_appendAttribute_of_small hsmall ⟨kind, payload⟩
  | node kind children ih =>
      rw [write, toAttribute]
      exact (writesIn_writeAll_of_forall ih).nest kind

theorem writesIn_writeAll (hsmall : f.capacity ≤ Attribute.maxLength) (ts : List AttributeTree) :
    WritesIn f (writeAll ts) ((toAttributes ts).map Attribute.bytes) :=
  writesIn_writeAll_of_forall fun t _ => writesIn_write hsmall t

/-- Trees are written behind a header that ends on the grid just when they fit into the buffer, and
they are read back from what lies behind the header, nested where they are nodes and only there. -/
theorem trees_read_back (type : MessageType) (flags : MessageFlags) {capacity : Nat}
    (hcapacity : capacity ≤ 65535) {header : Bytes} (hheader : header.length % 4 = 0)
    {ts : List AttributeTree} (hts : ∀ t ∈ ts, t.Unflagged) :
    (∀ d, (new type flags capacity).edited (append header >>= fun _ => writeAll ts) = .ok d →
      readAll (d.bytes.drop (size + header.length)) = ts) ∧
    ((∃ d, (new type flags capacity).edited (append header >>= fun _ => writeAll ts) = .ok d) ↔
      size + header.length + (layOut ts).length ≤ max capacity size) := by
  have hsmall : (Form.ofCapacity type flags capacity).capacity ≤ Attribute.maxLength :=
    Nat.max_le.2 ⟨hcapacity, by decide⟩
  have hwrites := (writes_iff.1 (writes_append header) (Form.ofCapacity type flags capacity)).bind
    (writesIn_writeAll hsmall ts)
  have hpayload : stack [] ([header] ++ (toAttributes ts).map Attribute.bytes) =
      header ++ layOut ts :=
    stack_of_front_aligned hheader _
  have hfits : (Form.ofCapacity type flags capacity).Fits (header ++ layOut ts) ↔
      size + header.length + (layOut ts).length ≤ max capacity size := by
    rw [Form.Fits, List.length_append, ← Nat.add_assoc]
    rfl
  by_cases hroom : (Form.ofCapacity type flags capacity).Fits (header ++ layOut ts)
  · have hedited := hwrites.edited_of_room (by rwa [hpayload])
    rw [hpayload] at hedited
    refine ⟨?_, iff_of_true ⟨_, hedited⟩ (hfits.1 hroom)⟩
    intro d hd
    rw [hedited] at hd
    cases hd
    have hbehind : ((Form.ofCapacity type flags capacity).holding (header ++ layOut ts)).bytes.drop
        (size + header.length) = layOut ts := by
      rw [bytes_holding, ← List.append_assoc]
      exact List.drop_left' (by rw [List.length_append, length_bytes])
    have hlength : (layOut ts).length ≤ Attribute.maxLength := by
      have hle := hfits.1 hroom
      have hmax : max capacity size ≤ Attribute.maxLength := hsmall
      omega
    rw [hbehind, readAll_layOut hts hlength]
  · obtain ⟨needed, hedited⟩ := hwrites.edited_of_full (by rwa [hpayload])
    refine ⟨fun d hd => ?_, iff_of_false ?_ (mt hfits.2 hroom)⟩
    · rw [hedited] at hd
      cases hd
    · rintro ⟨d, hd⟩
      rw [hedited] at hd
      cases hd

/-- A node in a node, with leaves that do not end on the grid in front, inside and behind, and a
node without children. -/
def unevenTrees : List AttributeTree :=
  [.leaf 1 [7], .node 8 [.leaf 2 [1, 2, 3], .node 3 [.leaf 9 [4, 5]], .leaf 4 []], .node 5 [],
    .leaf 6 [8, 9]]

theorem trees_read_back_unevenTrees :
    (∀ t ∈ unevenTrees, t.Unflagged) ∧
    ∃ d, (new .newRoute .request 88).edited
        (append (zeros 12) >>= fun _ => writeAll unevenTrees) = .ok d ∧
      readAll (d.bytes.drop 28) = unevenTrees := by
  have hinner : ∀ t ∈ [leaf 2 [1, 2, 3], node 3 [leaf 9 [4, 5]], leaf 4 []], t.Unflagged := by
    simp only [List.forall_mem_cons]
    exact ⟨.leaf (by decide) _, .node (by decide) (by simpa using .leaf (by decide) _),
      .leaf (by decide) _, by simp⟩
  have hts : ∀ t ∈ unevenTrees, t.Unflagged := by
    simp only [unevenTrees, List.forall_mem_cons]
    exact ⟨.leaf (by decide) _, .node (by decide) hinner, .node (by decide) (by simp),
      .leaf (by decide) _, by simp⟩
  obtain ⟨hread, hwritten⟩ := trees_read_back .newRoute .request
    (show 88 ≤ 65535 by decide) (show (zeros 12).length % 4 = 0 by decide) hts
  obtain ⟨d, hd⟩ := hwritten.2 (by decide)
  exact ⟨hts, d, hd, hread d hd⟩

end RouteControl.AttributeTree
