import RouteControl.Bytes.Word

/-!
# Blocks on the grid

Blocks of bytes put one behind the other, each on the next grid line, with zeros in the gaps
(`stack`).  What lies on the grid in front of a stack does not change it (`stack_append`), and a
stack only grows (`length_le_stack`).
-/

namespace RouteControl.Bytes

theorem zeros_add (m n : Nat) : zeros (m + n) = zeros m ++ zeros n :=
  List.replicate_append_replicate.symm

theorem padded_of_aligned {bytes : Bytes} (h : bytes.length % 4 = 0) : bytes.padded = bytes := by
  rw [padded, align_eq_self h, Nat.sub_self]
  exact List.append_nil bytes

theorem padded_padded (bytes : Bytes) : bytes.padded.padded = bytes.padded := by
  refine padded_of_aligned ?_
  rw [length_padded]
  exact align_mod_four _

theorem padded_append {aligned : Bytes} (h : aligned.length % 4 = 0) (bytes : Bytes) :
    (aligned ++ bytes).padded = aligned ++ bytes.padded := by
  simp only [padded, List.length_append, align_add_of_mod h, List.append_assoc,
    Nat.add_sub_add_left]

theorem overwrite_append (front : Bytes) {old new : Bytes} (back : Bytes)
    (h : old.length = new.length) :
    overwrite (front ++ (old ++ back)) front.length new = front ++ (new ++ back) := by
  have htake : (front ++ (old ++ back)).take front.length = front := List.take_left
  have hdrop : (front ++ (old ++ back)).drop (front.length + new.length) = back := by
    rw [← h, ← List.append_assoc, ← List.length_append]
    exact List.drop_left
  rw [overwrite, htake, hdrop, List.append_assoc]

/-- The bytes with more blocks behind them, each on the next grid line. -/
def stack (front : Bytes) (blocks : List Bytes) : Bytes :=
  blocks.foldl (fun bytes block => bytes.padded ++ block) front

@[simp] theorem stack_nil (front : Bytes) : stack front [] = front := rfl

theorem stack_cons (front block : Bytes) (blocks : List Bytes) :
    stack front (block :: blocks) = stack (front.padded ++ block) blocks := rfl

theorem stack_append_blocks (front : Bytes) (first second : List Bytes) :
    stack front (first ++ second) = stack (stack front first) second :=
  List.foldl_append

theorem length_le_stack (front : Bytes) (blocks : List Bytes) :
    front.length ≤ (stack front blocks).length := by
  induction blocks generalizing front with
  | nil => exact Nat.le_refl _
  | cons block blocks ih =>
      have hle := le_align front.length
      have hrest := ih (front.padded ++ block)
      rw [List.length_append, length_padded] at hrest
      rw [stack_cons]
      omega

theorem stack_append {aligned : Bytes} (h : aligned.length % 4 = 0) (front : Bytes)
    (blocks : List Bytes) :
    stack (aligned ++ front) blocks = aligned ++ stack front blocks := by
  induction blocks generalizing front with
  | nil => rfl
  | cons block blocks ih =>
      rw [stack_cons, stack_cons, padded_append h, List.append_assoc, ih]

theorem padded_stack (front : Bytes) (blocks : List Bytes) :
    (stack front blocks).padded = front.padded ++ blocks.flatMap padded := by
  induction blocks generalizing front with
  | nil => exact (List.append_nil _).symm
  | cons block blocks ih =>
      have haligned : front.padded.length % 4 = 0 := by rw [length_padded, align_mod_four]
      rw [stack_cons, ih, padded_append haligned, List.append_assoc, List.flatMap_cons]

theorem length_le_stack_of_mem {block : Bytes} {blocks : List Bytes} (h : block ∈ blocks)
    (front : Bytes) : block.length ≤ (stack front blocks).length := by
  induction blocks generalizing front with
  | nil => cases h
  | cons first blocks ih =>
      rcases List.mem_cons.1 h with rfl | hrest
      · have hle := length_le_stack (front.padded ++ block) blocks
        rw [List.length_append] at hle
        rw [stack_cons]
        omega
      · exact ih hrest _

theorem stack_of_front_aligned {block : Bytes} (h : block.length % 4 = 0) (blocks : List Bytes) :
    stack [] (block :: blocks) = block ++ stack [] blocks := by
  have happend := stack_append h [] blocks
  rw [List.append_nil] at happend
  rw [stack_cons, padded_of_aligned rfl, List.nil_append, happend]

theorem stack_of_aligned {front : Bytes} (h : front.length % 4 = 0) {blocks : List Bytes}
    (hblocks : ∀ block ∈ blocks, block.length % 4 = 0) :
    stack front blocks = front ++ blocks.flatten := by
  induction blocks generalizing front with
  | nil => simp
  | cons block blocks ih =>
      obtain ⟨hblock, hrest⟩ := List.forall_mem_cons.1 hblocks
      have hfront : (front ++ block).length % 4 = 0 := by
        rw [List.length_append]
        omega
      rw [stack_cons, padded_of_aligned h, ih hfront hrest]
      simp

end RouteControl.Bytes
