import MercuryFix.ByteBlocks

/-!
# Patches of a block

A patch takes a number of cells of a block, and writes the first of them.  The
others keep what the block held before.
-/

namespace ByteBlock

variable {Cell : Type*}

/-- The cells that a patch writes, and how many it takes. -/
structure Patch (Cell : Type*) where
  cells : List Cell
  span : Nat
  fits : cells.length ≤ span

def spanOf : List (Patch Cell) → Nat
  | [] => 0
  | patch :: patches => patch.span + spanOf patches

/-- The cells that the patches take, over an old block. -/
def overlay : List (Patch Cell) → List Cell → List Cell
  | [], _ => []
  | patch :: patches, old =>
    patch.cells ++ (old.take patch.span).drop patch.cells.length ++
      overlay patches (old.drop patch.span)

variable {patches : List (Patch Cell)}

@[simp]
theorem spanOf_nil : spanOf ([] : List (Patch Cell)) = 0 := rfl

@[simp]
theorem spanOf_cons (patch : Patch Cell) (patches : List (Patch Cell)) :
    spanOf (patch :: patches) = patch.span + spanOf patches :=
  rfl

@[simp]
theorem spanOf_append (before after : List (Patch Cell)) :
    spanOf (before ++ after) = spanOf before + spanOf after := by
  induction before with
  | nil => rw [List.nil_append, spanOf_nil, Nat.zero_add]
  | cons patch before induction =>
    rw [List.cons_append, spanOf_cons, spanOf_cons, induction, Nat.add_assoc]

theorem length_overlay (old : List Cell) (room : spanOf patches ≤ old.length) :
    (overlay patches old).length = spanOf patches := by
  induction patches generalizing old with
  | nil => rfl
  | cons patch patches induction =>
    have fits := patch.fits
    rw [spanOf_cons] at room ⊢
    have rest := induction (old.drop patch.span) (by rw [List.length_drop]; omega)
    simp only [overlay, List.length_append, List.length_drop, List.length_take, rest]
    omega

theorem overlay_full (full : ∀ patch ∈ patches, patch.cells.length = patch.span) (old : List Cell) :
    overlay patches old = (patches.map Patch.cells).flatten := by
  induction patches generalizing old with
  | nil => rfl
  | cons patch patches induction =>
    have width := full patch List.mem_cons_self
    have hidden : (old.take patch.span).drop patch.cells.length = [] := by
      rw [width]
      exact List.drop_of_length_le (List.length_take_le _ _)
    rw [overlay, hidden, List.append_nil, List.map_cons, List.flatten_cons,
      induction fun patch member =>
        full patch (List.mem_cons_of_mem _ member)]

theorem getElem?_overlay_gap {before after : List (Patch Cell)}
    {patch : Patch Cell} (old : List Cell) (gap : patch.cells.length < patch.span)
    (room : spanOf (before ++ patch :: after) ≤ old.length) :
    (overlay (before ++ patch :: after) old)[spanOf before + patch.cells.length]? =
      old[spanOf before + patch.cells.length]? := by
  induction before generalizing old with
  | nil =>
    simp only [List.nil_append, spanOf_nil, Nat.zero_add, spanOf_cons, overlay] at room ⊢
    have inside : 0 < ((old.take patch.span).drop patch.cells.length).length := by
      rw [List.length_drop, List.length_take]
      omega
    rw [List.append_assoc, List.getElem?_append_right le_rfl, Nat.sub_self,
      List.getElem?_append_left inside, List.getElem?_drop, Nat.add_zero,
      List.getElem?_take_of_lt gap]
  | cons first before induction =>
    have fits := first.fits
    simp only [List.cons_append, spanOf_cons, overlay] at room ⊢
    have width : (first.cells ++
        (old.take first.span).drop first.cells.length).length = first.span := by
      rw [List.length_append, List.length_drop, List.length_take]
      omega
    have rest := induction (old.drop first.span) (by rw [List.length_drop]; omega)
    rw [List.getElem?_append_right (by omega), width, Nat.add_assoc,
      Nat.add_sub_cancel_left, rest, List.getElem?_drop]

theorem blit_patch (block : List Cell) (offset : Nat) (patch : Patch Cell) :
    blit block offset patch.cells = block.take offset ++ overlay [patch] (block.drop offset) ++
        block.drop (offset + patch.span) := by
  have fits := patch.fits
  rw [blit, overlay, overlay, List.append_nil, List.append_assoc,
    List.append_assoc, List.append_assoc]
  congr 2
  obtain ⟨more, gap⟩ := Nat.exists_eq_add_of_le fits
  have behind : block.drop (offset + patch.span) =
      (block.drop (offset + patch.cells.length)).drop more := by
    rw [List.drop_drop, gap, Nat.add_assoc]
  rw [behind, List.drop_take, List.drop_drop, gap, Nat.add_sub_cancel_left, List.take_append_drop]

end ByteBlock
