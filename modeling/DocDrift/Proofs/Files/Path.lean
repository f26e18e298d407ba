import Mathlib.Data.Char
import Mathlib.Data.List.Lex
import Mathlib.Data.Prod.Lex
import DocDrift.Files.Path

namespace DocDrift

/-! # The order of paths

Paths are compared by their components, and components by their characters.  No component that is read
from a text holds a slash, so there is no path with a root whose components are those of a path without
one.
-/

namespace Text

theorem less_iff_lt (s t : Text) : less s t = true ↔ s < t := by
  induction s generalizing t with
  | nil => cases t <;> simp [less]
  | cons a s ih =>
      cases t with
      | nil => simp [less]
      | cons b t =>
          have codes : a.toNat < b.toNat ↔ a < b := Iff.rfl
          simp [less, ih, codes, List.cons_lt_cons_iff]

theorem notMem_of_mem_splitAt {mark : Char} {text piece : Text} (found : piece ∈ splitAt mark text) :
    mark ∉ piece := by
  induction text generalizing piece with
  | nil => simp_all [splitAt]
  | cons c rest ih =>
      rw [splitAt] at found
      split at found
      · rcases List.mem_cons.mp found with rfl | later
        · simp
        · exact ih later
      · rename_i other
        cases pieces : splitAt mark rest with
        | nil => simp_all [Ne.symm other]
        | cons first more =>
            rw [pieces] at found ih
            rcases List.mem_cons.mp found with rfl | later
            · have clear := ih List.mem_cons_self
              simp [clear, Ne.symm other]
            · exact ih (List.mem_cons_of_mem first later)

end Text

namespace Path

variable {a b c : Path}

theorem keyLess_iff_lt (s t : List Text) : keyLess s t = true ↔ s < t := by
  induction s generalizing t with
  | nil => cases t <;> simp [keyLess]
  | cons a s ih =>
      cases t with
      | nil => simp [keyLess]
      | cons b t => simp [keyLess, ih, Text.less_iff_lt, List.cons_lt_cons_iff]

/-- The components of a path in a linear order, and behind them whether it has a root, as a relative path
comes before an absolute one with the same components. -/
def rank (path : Path) : List Text ×ₗ Bool := toLex (path.key, !path.root.isEmpty)

theorem less_iff_rank : a.less b = true ↔ a.rank < b.rank := by
  simp [less, rank, keyLess_iff_lt, Prod.Lex.toLex_lt_toLex, Bool.lt_iff, and_assoc]

theorem rank_injective : Function.Injective rank := by
  rintro ⟨root, parts⟩ ⟨otherRoot, otherParts⟩ same
  obtain ⟨keys, empty⟩ : key ⟨root, parts⟩ = key ⟨otherRoot, otherParts⟩ ∧
      root.isEmpty = otherRoot.isEmpty := by
    simpa [rank] using same
  have roots : root = [] ↔ otherRoot = [] := by
    rw [← List.isEmpty_iff, empty, List.isEmpty_iff]
  by_cases relative : root = []
  · obtain rfl : otherRoot = [] := roots.mp relative
    subst relative
    simpa [key] using keys
  · have rooted : otherRoot ≠ [] := mt roots.mpr relative
    simpa only [key, if_neg relative, if_neg rooted, List.cons.injEq, mk.injEq] using keys

theorem not_less_self (path : Path) : ¬ path.less path = true := by
  rw [less_iff_rank]
  exact lt_irrefl _

theorem less_trans (first : a.less b = true) (second : b.less c = true) : a.less c = true := by
  rw [less_iff_rank] at first second ⊢
  exact first.trans second

theorem eq_of_not_less (left : ¬ a.less b = true) (right : ¬ b.less a = true) : a = b := by
  rw [less_iff_rank] at left right
  exact rank_injective (le_antisymm (not_lt.mp right) (not_lt.mp left))

/-- A path as one that is read from a text: slashes stand in its root and nowhere else. -/
structure IsProper (path : Path) : Prop where
  root : path.root ≠ [] → '/' ∈ path.root
  parts : ∀ part ∈ path.parts, '/' ∉ part

theorem ofText_isProper (text : Text) : (ofText text).IsProper where
  root := by
    intro rooted
    change '/' ∈ rootOf text
    change rootOf text ≠ [] at rooted
    unfold rootOf at rooted ⊢
    split at rooted <;> simp_all
  parts := fun _ member => Text.notMem_of_mem_splitAt (List.mem_of_mem_filter member)

theorem IsProper.root_eq_nil (first : a.IsProper) (second : b.IsProper) (same : a.key = b.key)
    (relative : a.root = []) : b.root = [] := by
  by_contra rooted
  have inside : b.root ∈ a.parts := by
    simp only [key, relative, if_pos, rooted, if_false] at same
    simp [same]
  exact first.parts _ inside (second.root rooted)

/-- The components alone decide how paths are ordered that are read from texts. -/
theorem IsProper.less_iff (first : a.IsProper) (second : b.IsProper) :
    a.less b = true ↔ a.key < b.key := by
  have ties : ¬ (a.key = b.key ∧ a.root = [] ∧ b.root ≠ []) := by
    rintro ⟨same, relative, rooted⟩
    exact rooted (first.root_eq_nil second same relative)
  simp only [less, Bool.or_eq_true, keyLess_iff_lt, Bool.and_eq_true, beq_iff_eq, List.isEmpty_iff,
    Bool.not_eq_true', List.isEmpty_eq_false_iff, and_assoc, ties, or_false]

end Path
end DocDrift
