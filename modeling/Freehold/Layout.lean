import Freehold.Word

/-!
# Shapes of memory requests

A layout is the size and the alignment of a piece of memory.  It is valid when
the alignment is a power of two and the size, rounded up to the alignment, is
representable as a signed word.  Layouts of types, of blocks and of arrays are
all built through `of?`, so an impossible request is refused before an
allocator sees it.
-/

namespace Freehold

structure Layout where
  size : Nat
  align : Nat
  deriving DecidableEq, Inhabited

namespace Layout

/-- The size leaves room for rounding up to the alignment below `2 ^ 63`. -/
def Valid (layout : Layout) : Prop :=
  layout.align.isPowerOfTwo ∧ layout.size + layout.align ≤ 1 <<< 63

instance (layout : Layout) : Decidable layout.Valid :=
  inferInstanceAs (Decidable (_ ∧ _))

def of? (size align : Nat) : Option Layout :=
  if Valid ⟨size, align⟩ then some ⟨size, align⟩ else none

/-- The layout of `count` consecutive elements. -/
def array? (element : Layout) (count : Nat) : Option Layout :=
  of? (element.size * count) element.align

/-- The size a type occupies in an array of itself: a multiple of the alignment. -/
def padded (size align : Nat) : Layout :=
  ⟨Word.roundUp size align, align⟩

def text (layout : Layout) : String :=
  let size := toString layout.size
  let align := toString layout.align
  let shift := toString layout.align.log2
  s!"Layout \x7b size: {size}, align: {align} (1 << {shift}) \x7d"

theorem of?_eq_some_iff {size align : Nat} {layout : Layout} :
    of? size align = some layout ↔ Valid ⟨size, align⟩ ∧ layout = ⟨size, align⟩ := by
  unfold of?
  split <;> simp_all [eq_comm]

theorem Valid.size_lt {layout : Layout} (h : layout.Valid) : layout.size < 1 <<< 63 := by
  have hpos := Nat.pos_of_isPowerOfTwo h.1
  have hle := h.2
  omega

theorem Valid.align_le {layout : Layout} (h : layout.Valid) : layout.align ≤ 1 <<< 63 := by
  have hle := h.2
  omega

/-- If there is a layout for so many elements, there is one for fewer. -/
theorem array?_ne_none_of_le {element : Layout} {count more : Nat} (hle : count ≤ more)
    (h : element.array? more ≠ none) : element.array? count ≠ none := by
  obtain ⟨layout, hlayout⟩ := Option.ne_none_iff_exists'.1 h
  obtain ⟨hvalid, -⟩ := of?_eq_some_iff.1 hlayout
  have hsize : element.size * count + element.align ≤ element.size * more + element.align :=
    Nat.add_le_add_right (Nat.mul_le_mul_left _ hle) _
  have hfewer : Valid ⟨element.size * count, element.align⟩ :=
    ⟨hvalid.1, Nat.le_trans hsize hvalid.2⟩
  rw [array?, of?_eq_some_iff.2 ⟨hfewer, rfl⟩]
  exact Option.some_ne_none _

end Layout
end Freehold
