import Freehold.Proofs.Memory.Arena
import Freehold.Proofs.Memory.Contents
import Freehold.Proofs.Memory.Handover

/-!
# The extent of memory in use

An operation takes some addresses back and passes others on.  For every allocator that
uses memory again, this is all that happens: afterwards exactly the addresses are in use
that were in use before, less what came back, with what was passed on.  What is passed on
lies within the memory that the allocator was given in the first place.
-/

namespace Freehold

/-! ## The memory of an allocator -/

namespace Backend

/-- The memory that an allocator deals in.  A free list has its regions; the heap and the
system may use any address. -/
def Reach (regions : List Span) : Backend → Nat → Prop
  | .stack arena, address => arena.base ≤ address ∧ address < arena.base + arena.capacity
  | .freeList _, address | .basic _, address => ∃ region ∈ regions, address ∈ region
  | .heap _, _ | .pages _, _ => True

/-- What can still be handed out lies within reach. -/
def Bounded (regions : List Span) : Backend → Prop
  | .stack arena => arena.used ≤ arena.capacity
  | .freeList list | .basic list =>
    ∀ address, FreeList.Free list.spans address → ∃ region ∈ regions, address ∈ region
  | .heap _ | .pages _ => True

/-- An allocator of the same kind that deals in the same memory. -/
def Continues : Backend → Backend → Prop
  | .stack arena, .stack arena' =>
    arena'.base = arena.base ∧ arena'.capacity = arena.capacity ∧
      (arena.used ≤ arena.capacity → arena'.used ≤ arena'.capacity)
  | .freeList _, .freeList _ | .basic _, .basic _ | .heap _, .heap _ | .pages _, .pages _ => True
  | _, _ => False

theorem Continues.refl (backend : Backend) : Continues backend backend := by
  cases backend <;> simp [Continues]

theorem Continues.trans {first second third : Backend} (h : Continues first second)
    (hnext : Continues second third) : Continues first third := by
  cases first <;> cases second <;> cases third <;> grind [Continues]

/-- An allocator that hands out again whatever came back. -/
def Reuses : Backend → Prop
  | .stack _ => False
  | .freeList _ | .basic _ | .heap _ | .pages _ => True

theorem Continues.reuses {backend backend' : Backend} (h : Continues backend backend')
    (hreuses : backend.Reuses) : backend'.Reuses := by
  cases backend <;> cases backend' <;> simp_all [Continues, Reuses]

end Backend

/-- What is passed on lies within reach, and so does what is left. -/
theorem Passes.within {memory memory' : Memory} {given taken : Span} {regions : List Span}
    (h : Passes memory memory' given taken)
    (hcontinues : memory.backend.Continues memory'.backend)
    (hbounded : memory.backend.Bounded regions)
    (hgiven : ∀ address ∈ given, memory.backend.Reach regions address) :
    memory'.backend.Bounded regions ∧
      (∀ address, memory.backend.Reach regions address → memory'.backend.Reach regions address) ∧
      ∀ address ∈ taken, memory'.backend.Reach regions address := by
  obtain ⟨backend, bytes⟩ := memory
  obtain ⟨backend', bytes'⟩ := memory'
  have hlist : ∀ {list list' : FreeList},
      (∀ address, ¬ FreeList.Free list.spans address → address ∉ given →
        ¬ FreeList.Free list'.spans address) →
      (∀ address ∈ taken, ¬ FreeList.Free list.spans address → address ∈ given) →
      (∀ address, FreeList.Free list.spans address → ∃ region ∈ regions, address ∈ region) →
      (∀ address ∈ given, ∃ region ∈ regions, address ∈ region) →
      (∀ address, FreeList.Free list'.spans address → ∃ region ∈ regions, address ∈ region) ∧
        ∀ address ∈ taken, ∃ region ∈ regions, address ∈ region := by
    intro list list' hstays hfresh hbounded hgiven
    constructor
    · intro address hfree
      by_cases hbefore : FreeList.Free list.spans address
      · exact hbounded address hbefore
      · by_cases hin : address ∈ given
        · exact hgiven address hin
        · exact absurd hfree (hstays address hbefore hin)
    · intro address hin
      by_cases hbefore : FreeList.Free list.spans address
      · exact hbounded address hbefore
      · exact hgiven address (hfresh address hin hbefore)
  cases backend <;> cases backend' <;> try exact hcontinues.elim
  case stack.stack arena arena' =>
    obtain ⟨hbase, hcapacity, hused⟩ := hcontinues
    have hroom : arena'.used ≤ arena'.capacity := hused hbounded
    refine ⟨hroom, fun address hreach => ?_, fun address hin => ?_⟩
    · simpa only [Backend.Reach, hbase, hcapacity] using hreach
    · have hend : address < arena'.base + arena'.used := h.occupied address hin
      by_cases hbefore : address < arena.base + arena.used
      · have hreach := hgiven address (h.fresh address hin hbefore)
        simpa only [Backend.Reach, hbase, hcapacity] using hreach
      · simp only [Backend.Reach]
        omega
  case freeList.freeList list list' =>
    obtain ⟨hleft, htaken⟩ := hlist h.stays h.fresh hbounded hgiven
    exact ⟨hleft, fun _ hreach => hreach, htaken⟩
  case basic.basic list list' =>
    obtain ⟨hleft, htaken⟩ := hlist h.stays h.fresh hbounded hgiven
    exact ⟨hleft, fun _ hreach => hreach, htaken⟩
  all_goals exact ⟨trivial, fun _ _ => trivial, fun _ _ => trivial⟩

theorem StackArena.continues_allocate {arena arena' : StackArena} {layout : Layout} {block : Block}
    (h : arena.allocate layout = .ok (block, arena')) :
    (Backend.stack arena).Continues (.stack arena') := by
  rcases Nat.eq_zero_or_pos layout.size with hzero | hpos
  · obtain ⟨-, -, rfl⟩ | ⟨hpos, -⟩ := allocate_ok h
    · exact .refl _
    · omega
  · obtain ⟨-, refusal, hrefused, -⟩ | ⟨hroom, -, hgranted⟩ := arena.allocate_cases hpos
    · cases hrefused.symm.trans h
    · obtain ⟨-, rfl⟩ := Prod.mk.inj (Except.ok.inj (hgranted.symm.trans h))
      exact ⟨rfl, rfl, fun _ => hroom⟩

theorem StackArena.continues_expand {arena arena' : StackArena} {address wanted size : Nat}
    {layout : Layout} (h : arena.expand address layout wanted = .ok (size, arena')) :
    (Backend.stack arena).Continues (.stack arena') := by
  by_cases hle : wanted ≤ layout.size
  · obtain ⟨-, -, rfl⟩ | ⟨hlt, -⟩ := expand_ok h
    · exact .refl _
    · omega
  · cases hlast : arena.lastStart? address layout.size with
    | none =>
      rw [expand_of_lastStart?_none hlast (Nat.lt_of_not_le hle)] at h
      cases h
    | some start =>
      rw [expand_of_lastStart? hlast (Nat.lt_of_not_le hle)] at h
      split at h
      · cases h
      · rename_i hroom
        obtain ⟨-, rfl⟩ := Prod.mk.inj (Except.ok.inj h)
        refine ⟨rfl, rfl, fun _ => ?_⟩
        show start + wanted ≤ arena.capacity
        omega

theorem StackArena.continues_deallocate (arena : StackArena) (address : Nat) (layout : Layout) :
    (Backend.stack arena).Continues (.stack (arena.deallocate address layout)) := by
  unfold deallocate
  split
  · exact .refl _
  split
  · exact .refl _
  · rename_i start hlast
    obtain ⟨-, hends⟩ := lastStart?_some hlast
    refine ⟨rfl, rfl, fun hroom => ?_⟩
    show start ≤ arena.capacity
    omega

namespace Memory

variable {memory memory' : Memory} {layout : Layout} {block : Block} {address wanted : Nat}

theorem continues_allocate (h : memory.allocate layout = .ok (block, memory')) :
    memory.backend.Continues memory'.backend := by
  have hcases := allocate_ok h
  cases hbackend : memory.backend with
  | stack arena =>
    rw [hbackend] at hcases
    obtain ⟨arena', hfound, rfl⟩ := hcases
    exact StackArena.continues_allocate hfound
  | freeList list | basic list | heap heap | pages pages =>
    rw [hbackend] at hcases
    obtain ⟨books, -, rfl⟩ := hcases
    trivial

theorem continues_expand {size : Nat}
    (h : memory.expand address layout wanted = .ok (size, memory')) :
    memory.backend.Continues memory'.backend := by
  have hcases := expand_ok h
  cases hbackend : memory.backend with
  | stack arena =>
    rw [hbackend] at hcases
    obtain ⟨arena', hfound, rfl⟩ := hcases
    exact StackArena.continues_expand hfound
  | freeList list | pages pages =>
    rw [hbackend] at hcases
    obtain ⟨books, -, rfl⟩ := hcases
    trivial
  | basic list | heap heap =>
    rw [hbackend] at hcases
    obtain ⟨-, -, rfl⟩ := hcases
    rw [hbackend]
    trivial

theorem continues_deallocate (memory : Memory) (address : Nat) (layout : Layout) :
    memory.backend.Continues (memory.deallocate address layout).backend := by
  unfold deallocate
  cases hbackend : memory.backend with
  | stack arena => exact arena.continues_deallocate address layout
  | freeList list | basic list | heap heap | pages pages => trivial

/-- What is given back does not depend on the contents. -/
theorem backend_deallocate_bytes (memory : Memory) (bytes : Bytes) (address : Nat)
    (layout : Layout) :
    (deallocate { memory with bytes := bytes } address layout).backend =
      (memory.deallocate address layout).backend := by
  have hbooks : backend { memory with bytes := bytes } = memory.backend := rfl
  exact backend_deallocate_congr hbooks address layout

theorem continues_reallocate (h : memory.reallocate address layout wanted = .ok (block, memory')) :
    memory.backend.Continues memory'.backend := by
  have hcopy : memory.reallocateByCopy address layout wanted = .ok (block, memory') →
      memory.backend.Continues memory'.backend := by
    intro hcopied
    rcases reallocateByCopy_ok hcopied with
      ⟨-, -, rfl⟩ | ⟨-, -, hgrown⟩ | ⟨-, -, moved, hfound, rfl⟩
    · exact .refl _
    · exact continues_expand hgrown
    · refine (continues_allocate hfound).trans ?_
      exact continues_deallocate
        { moved with bytes := moved.bytes.copy address block.address layout.size } address layout
  have hcases := reallocate_ok h
  cases hbackend : memory.backend with
  | stack arena | freeList list | basic list =>
    rw [hbackend] at hcases
    rw [← hbackend]
    exact hcopy hcases
  | heap heap | pages pages =>
    rw [hbackend] at hcases
    obtain ⟨books, -, rfl⟩ := hcases
    trivial

end Memory

/-! ## What is in use afterwards -/

/-- Nothing is in use afterwards but what was in use before, less the given span, and the
taken span. -/
def Backend.Exact (backend backend' : Backend) (given taken : Span) : Prop :=
  ∀ address, backend'.Occupied address →
    (backend.Occupied address ∧ address ∉ given) ∨ address ∈ taken

namespace Backend.Exact

variable {first second third : Backend} {given taken : Span}

theorem still (backend : Backend) (span : Span) : Exact backend backend span span := by
  intro address hused
  by_cases hin : address ∈ span
  · exact Or.inr hin
  · exact Or.inl ⟨hused, hin⟩

/-- A span of no addresses may come back at any time. -/
theorem give (h : Exact first second .nothing taken) (hempty : ∀ address, address ∉ given) :
    Exact first second given taken := by
  intro address hused
  exact (h address hused).imp_left fun hbefore => ⟨hbefore.1, hempty address⟩

theorem thenObtain (h : Exact first second given .nothing)
    (hnext : Exact second third .nothing taken) : Exact first third given taken := by
  intro address hused
  refine (hnext address hused).imp_left fun hbetween => ?_
  exact (h address hbetween.1).resolve_right (Span.not_mem_nothing address)

theorem thenRelease (h : Exact first second .nothing taken)
    (hnext : Exact second third given .nothing) : Exact first third given taken := by
  intro address hused
  have hbetween := (hnext address hused).resolve_right (Span.not_mem_nothing address)
  exact (h address hbetween.1).imp_left fun hbefore => ⟨hbefore.1, hbetween.2⟩

end Backend.Exact

/-- The addresses in use after an operation. -/
theorem Passes.occupied_iff {memory memory' : Memory} {given taken : Span}
    (h : Passes memory memory' given taken)
    (hexact : memory.backend.Exact memory'.backend given taken) (address : Nat) :
    memory'.backend.Occupied address ↔
      (memory.backend.Occupied address ∧ address ∉ given) ∨ address ∈ taken := by
  constructor
  · exact hexact address
  · rintro (⟨hused, hout⟩ | hin)
    · exact h.stays address hused hout
    · exact h.occupied address hin

section Lists

variable {wrap : FreeList → Backend} {list list' : FreeList} {given taken : Span}

theorem list_exact (hwrap : Lists wrap)
    (hleft : ∀ address, FreeList.Free list.spans address ∨ address ∈ given →
      FreeList.Free list'.spans address ∨ address ∈ taken) :
    (wrap list).Exact (wrap list') given taken := by
  intro address hused
  rw [hwrap.occupied] at hused ⊢
  by_cases hbefore : FreeList.Free list.spans address ∨ address ∈ given
  · exact Or.inr ((hleft address hbefore).resolve_left hused)
  · exact Or.inl (not_or.1 hbefore)

theorem list_exact_allocate (hwrap : Lists wrap) (htidy : FreeList.Tidy list.spans)
    {layout : Layout} (hvalid : layout.Valid) {block : Block}
    (h : list.allocate layout = .ok (block, list')) :
    (wrap list).Exact (wrap list') .nothing block.span := by
  refine list_exact hwrap fun address hbefore => ?_
  have hfree := hbefore.resolve_right (Span.not_mem_nothing address)
  rcases FreeList.allocate_ok h with ⟨-, rfl, rfl⟩ | ⟨hpos, -⟩
  · exact Or.inl hfree
  · obtain ⟨htaken, -⟩ := FreeList.allocate_taken htidy hvalid hpos h
    by_cases hin : address ∈ block.span
    · exact Or.inr hin
    · exact Or.inl ((htaken.free_iff address).2 ⟨hfree, hin⟩)

theorem list_exact_deallocate (hwrap : Lists wrap) (htidy : FreeList.Tidy list.spans)
    {holding : Holding} (hhoused : (wrap list).Houses holding) {size : Nat}
    (hfits : holding.Fits size) :
    (wrap list).Exact (wrap (list.deallocate holding.address (holding.layout size)))
      holding.span .nothing := by
  have hround := hhoused.roundUp_of_fits hfits
  refine list_exact hwrap fun address hbefore => Or.inl ?_
  unfold FreeList.deallocate
  by_cases hzero : (holding.layout size).size = 0
  · rw [if_pos hzero]
    have hsize : size = 0 := hzero
    rw [hsize, Word.roundUp_zero] at hround
    refine hbefore.resolve_right fun hin => ?_
    simp only [Span.mem_iff, Holding.span, ← hround] at hin
    omega
  · rw [if_neg hzero]
    have hgiven := deallocate_given hwrap htidy hhoused hfits (Nat.pos_of_ne_zero hzero)
    exact (hgiven.free_iff address).2 hbefore

theorem list_exact_expand (hwrap : Lists wrap) (htidy : FreeList.Tidy list.spans)
    {holding : Holding} (hhoused : (wrap list).Houses holding) {size wanted answer : Nat}
    (hfits : holding.Fits size)
    (h : list.expand holding.address (holding.layout size) wanted = .ok (answer, list')) :
    (wrap list).Exact (wrap list') holding.span ⟨holding.address, max holding.recorded answer⟩ := by
  have hround : Word.roundUp (holding.layout size).size FreeList.granule = holding.recorded := by
    rw [← hwrap.granule list]
    exact hhoused.roundUp_of_fits hfits
  have hkept : ∀ answer, answer ≤ holding.recorded →
      (wrap list).Exact (wrap list) holding.span
        ⟨holding.address, max holding.recorded answer⟩ := by
    intro answer hle
    rw [Nat.max_eq_left hle]
    exact .still _ _
  rcases FreeList.expand_ok h with
    ⟨-, rfl, rfl⟩ | ⟨-, -, rfl, rfl⟩ | ⟨hlt, spans, habsorb, rfl, rfl⟩
  · exact hkept _ hfits.2
  · exact hkept _ (Nat.le_of_eq hround)
  · rw [hround] at hlt habsorb
    have hextra : FreeList.granule ∣ Word.roundUp wanted FreeList.granule - holding.recorded :=
      Nat.dvd_sub (Word.dvd_roundUp _ _) (hround ▸ Word.dvd_roundUp _ _)
    have htaken := FreeList.absorb_taken hextra (Nat.sub_pos_of_lt hlt) htidy habsorb
    have hparts := Span.mem_parts holding.address (Nat.le_of_lt hlt)
    refine list_exact hwrap fun address hbefore => ?_
    rw [Nat.max_eq_right (Nat.le_of_lt hlt)]
    by_cases hin : address ∈ (⟨holding.address, Word.roundUp wanted FreeList.granule⟩ : Span)
    · exact Or.inr hin
    · have hout := not_or.1 (mt (hparts address).2 hin)
      have hfree := hbefore.resolve_right hout.1
      exact Or.inl ((htaken.free_iff address).2 ⟨hfree, hout.2⟩)

end Lists

section Heap

variable {heap heap' : Heap} {block : Block}

theorem heap_exact_obtain {layout : Layout} (h : heap.obtain? layout = some (block, heap')) :
    (Backend.heap heap).Exact (.heap heap') .nothing block.span := by
  obtain ⟨-, -, rfl⟩ := Heap.obtain?_some h
  rintro address ⟨span, hmem, hin⟩
  rcases List.mem_cons.1 hmem with rfl | hmem
  · exact Or.inr hin
  · exact Or.inl ⟨⟨span, hmem, hin⟩, Span.not_mem_nothing address⟩

theorem heap_exact_release (horderly : (Backend.heap heap).Orderly) {holding : Holding}
    (hfooting : holding.span ∈ heap.used) :
    (Backend.heap heap).Exact (.heap (heap.release holding.address)) holding.span .nothing := by
  rintro address ⟨span, hmem, hin⟩
  obtain ⟨hused, hother⟩ := List.mem_filter.1 hmem
  refine Or.inl ⟨⟨span, hused, hin⟩, fun hboth => ?_⟩
  have hsame := Span.eq_of_shared horderly.1 hused hfooting hin hboth
  exact of_decide_eq_true hother (congrArg Span.start hsame)

end Heap

section Pages

variable {pages pages' : PageMap} {block : Block}

theorem pages_exact_obtain {size : Nat} (h : pages.obtain? size = some (block, pages')) :
    (Backend.pages pages).Exact (.pages pages') .nothing block.span := by
  obtain ⟨-, -, rfl⟩ := PageMap.obtain?_some h
  rintro address ⟨span, hmem, hin⟩
  rcases List.mem_cons.1 hmem with rfl | hmem
  · exact Or.inr hin
  · exact Or.inl ⟨⟨span, hmem, hin⟩, Span.not_mem_nothing address⟩

theorem pages_exact_unmap (pages : PageMap) (given : Span) :
    (Backend.pages pages).Exact (.pages (pages.unmap given)) given .nothing := by
  rintro address ⟨piece, hmem, hin⟩
  obtain ⟨span, hused, hpiece⟩ := List.mem_flatMap.1 hmem
  obtain ⟨hspan, hout⟩ := Span.mem_without.1 ⟨piece, hpiece, hin⟩
  exact Or.inl ⟨⟨span, hused, hspan⟩, hout⟩

theorem pages_exact_place {holding : Holding} {answer : Nat}
    (hplace : (answer ≤ holding.recorded ∧ pages' = pages) ∨
      (holding.recorded < answer ∧
        pages.growAt? holding.address holding.recorded answer = some pages')) :
    (Backend.pages pages).Exact (.pages pages') holding.span
      ⟨holding.address, max holding.recorded answer⟩ := by
  rcases hplace with ⟨hle, rfl⟩ | ⟨hmore, hgrown⟩
  · rw [Nat.max_eq_left hle]
    exact .still _ _
  · rw [Nat.max_eq_right (Nat.le_of_lt hmore)]
    obtain ⟨-, -, rfl⟩ := PageMap.growAt?_some hgrown
    rintro address ⟨span, hmem, hin⟩
    by_cases hwhole : address ∈ (⟨holding.address, answer⟩ : Span)
    · exact Or.inr hwhole
    · have hparts := Span.mem_parts holding.address (Nat.le_of_lt hmore) address
      have hout := not_or.1 (mt hparts.2 hwhole)
      rcases List.mem_cons.1 hmem with rfl | hmem
      · exact absurd hin hout.2
      · exact Or.inl ⟨⟨span, hmem, hin⟩, hout.1⟩

end Pages
theorem Holding.not_mem_of_empty {holding : Holding} (h : holding.recorded = 0) (address : Nat) :
    address ∉ holding.span := by
  simp only [Span.mem_iff, Holding.span, h]
  omega

namespace Memory

variable {memory memory' : Memory} {holding : Holding} {size wanted : Nat} {block : Block}

theorem exact_allocate (hreuses : memory.backend.Reuses) (horderly : memory.backend.Orderly)
    {layout : Layout} (hvalid : layout.Valid)
    (h : memory.allocate layout = .ok (block, memory')) :
    memory.backend.Exact memory'.backend .nothing block.span := by
  have hcases := allocate_ok h
  obtain ⟨backend, bytes⟩ := memory
  cases backend with
  | stack arena => exact hreuses.elim
  | freeList list =>
    obtain ⟨list', hfound, rfl⟩ := hcases
    exact list_exact_allocate lists_freeList horderly hvalid hfound
  | basic list =>
    obtain ⟨list', hfound, rfl⟩ := hcases
    exact list_exact_allocate lists_basic horderly hvalid hfound
  | heap heap =>
    obtain ⟨heap', hfound, rfl⟩ := hcases
    rcases Heap.allocate_ok hfound with ⟨-, -, rfl⟩ | ⟨-, hobtain⟩
    · exact fun address hused => Or.inl ⟨hused, Span.not_mem_nothing address⟩
    · exact heap_exact_obtain hobtain
  | pages pages =>
    obtain ⟨pages', hfound, rfl⟩ := hcases
    rcases PageMap.allocate_ok hfound with ⟨-, -, rfl⟩ | ⟨-, -, hobtain⟩
    · exact fun address hused => Or.inl ⟨hused, Span.not_mem_nothing address⟩
    · exact pages_exact_obtain hobtain

theorem exact_deallocate (hreuses : memory.backend.Reuses) (horderly : memory.backend.Orderly)
    (hhoused : memory.backend.Houses holding) (hfits : holding.Fits size) :
    memory.backend.Exact (memory.deallocate holding.address (holding.layout size)).backend
      holding.span .nothing := by
  have hround := hhoused.roundUp_of_fits hfits
  obtain ⟨backend, bytes⟩ := memory
  have hempty : size = 0 → Backend.Exact backend backend holding.span .nothing := by
    rintro rfl
    rw [Word.roundUp_zero] at hround
    exact fun address hused => Or.inl ⟨hused, Holding.not_mem_of_empty hround.symm address⟩
  cases backend with
  | stack arena => exact hreuses.elim
  | freeList list => exact list_exact_deallocate lists_freeList horderly hhoused hfits
  | basic list => exact list_exact_deallocate lists_basic horderly hhoused hfits
  | heap heap =>
    unfold deallocate Heap.deallocate
    dsimp only
    split
    · rename_i hzero
      exact hempty hzero
    · rename_i hpos
      have hrecorded := Nat.lt_of_lt_of_le (Nat.pos_of_ne_zero hpos) hfits.2
      exact heap_exact_release horderly (hhoused.footing hrecorded)
  | pages pages =>
    unfold deallocate PageMap.deallocate
    dsimp only
    split
    · rename_i hzero
      exact hempty hzero
    · have hspan : (⟨holding.address, Word.roundUp (holding.layout size).size pages.pageSize⟩ :
          Span) = holding.span := congrArg (Span.mk holding.address) hround
      rw [hspan]
      exact pages_exact_unmap pages holding.span

theorem exact_expand (hreuses : memory.backend.Reuses) (horderly : memory.backend.Orderly)
    (hhoused : memory.backend.Houses holding) (hfits : holding.Fits size) {answer : Nat}
    (h : memory.expand holding.address (holding.layout size) wanted = .ok (answer, memory')) :
    memory.backend.Exact memory'.backend holding.span
      ⟨holding.address, max holding.recorded answer⟩ := by
  have hround := hhoused.roundUp_of_fits hfits
  have hcases := expand_ok h
  obtain ⟨backend, bytes⟩ := memory
  cases backend with
  | stack arena => exact hreuses.elim
  | freeList list =>
    obtain ⟨list', hfound, rfl⟩ := hcases
    exact list_exact_expand lists_freeList horderly hhoused hfits hfound
  | basic list | heap heap =>
    obtain ⟨-, hsame, rfl⟩ := hcases
    rw [show answer = size from hsame, Nat.max_eq_left hfits.2]
    exact .still _ _
  | pages pages =>
    obtain ⟨pages', hfound, rfl⟩ := hcases
    have hold : Word.roundUp (holding.layout size).size pages.pageSize = holding.recorded :=
      hround
    have hplace := PageMap.expand_ok hfound
    rw [hold] at hplace
    refine pages_exact_place ?_
    rcases hplace with ⟨-, rfl, hsame⟩ | ⟨-, -, ⟨rfl, hsame⟩ | hgrown⟩
    · exact Or.inl ⟨hfits.2, hsame⟩
    · exact Or.inl ⟨Nat.le_refl _, hsame⟩
    · exact Or.inr hgrown

/-- A block that is left as it is spans what it spanned before. -/
theorem span_resized_of_le (hfits : holding.Fits size) (wanted : Nat) :
    (holding.resized wanted ⟨holding.address, size⟩).span = holding.span :=
  congrArg (Span.mk holding.address) (Nat.max_eq_left hfits.2)

theorem exact_reallocateByCopy (hreuses : memory.backend.Reuses)
    (horderly : memory.backend.Orderly) (hhoused : memory.backend.Houses holding)
    (hfits : holding.Fits size)
    (h : memory.reallocateByCopy holding.address (holding.layout size) wanted =
      .ok (block, memory')) :
    memory.backend.Exact memory'.backend holding.span (holding.resized wanted block).span := by
  rcases reallocateByCopy_ok h with
    ⟨-, rfl, rfl⟩ | ⟨-, haddress, hgrown⟩ | ⟨hlt, hvalid, moved, hfound, rfl⟩
  · rw [show (holding.layout size).size = size from rfl, span_resized_of_le hfits]
    exact .still _ _
  · obtain ⟨address, answer⟩ := block
    obtain rfl : address = holding.address := haddress
    exact exact_expand hreuses horderly hhoused hfits hgrown
  · have hgrants := allocate_grants horderly hvalid hfound
    have hsize : block.size = Word.roundUp wanted memory.backend.granule := by
      rw [← hgrants.passes.units]
      exact hgrants.houses.rounded
    rw [resized_eq_of hhoused hfits hlt hsize]
    have hhoused' : moved.backend.Houses holding :=
      hgrants.passes.houses hhoused fun address _ => Span.not_mem_nothing address
    have hreuses' : moved.backend.Reuses := (continues_allocate hfound).reuses hreuses
    have hobtained := exact_allocate hreuses horderly hvalid hfound
    have hreleased := exact_deallocate hreuses' hgrants.passes.orderly hhoused' hfits
    refine hobtained.thenRelease ?_
    rw [backend_deallocate_bytes]
    exact hreleased

theorem exact_reallocate (hreuses : memory.backend.Reuses) (horderly : memory.backend.Orderly)
    (hhoused : memory.backend.Houses holding) (hfits : holding.Fits size)
    (h : memory.reallocate holding.address (holding.layout size) wanted = .ok (block, memory')) :
    memory.backend.Exact memory'.backend holding.span (holding.resized wanted block).span := by
  have hcases := reallocate_ok h
  have hround := hhoused.roundUp_of_fits hfits
  obtain ⟨backend, bytes⟩ := memory
  cases backend with
  | stack arena => exact hreuses.elim
  | freeList list | basic list =>
    exact exact_reallocateByCopy hreuses horderly hhoused hfits hcases
  | heap heap =>
    obtain ⟨heap', hfound, rfl⟩ := hcases
    rcases Heap.reallocate_ok hfound with
      ⟨hle, rfl, rfl⟩ | ⟨hlt, hvalid, ⟨hzero, hanew⟩ | ⟨hpos, hobtain⟩⟩
    · rw [show (holding.layout size).size = size from rfl, span_resized_of_le hfits]
      exact .still _ _
    all_goals
      have hgrows : size < wanted := hlt
    · have hempty : holding.recorded = 0 := by
        rw [← hround, show size = 0 from hzero, Word.roundUp_zero]
      have hsize := (Heap.allocate_aligned hanew).1.trans (Word.roundUp_one wanted).symm
      rw [resized_eq_of hhoused hfits hgrows hsize]
      refine Backend.Exact.give ?_ (Holding.not_mem_of_empty hempty)
      rcases Heap.allocate_ok hanew with ⟨-, -, rfl⟩ | ⟨-, hobtain⟩
      · exact fun address hused => Or.inl ⟨hused, Span.not_mem_nothing address⟩
      · exact heap_exact_obtain hobtain
    · have hsize := (Heap.obtain?_aligned hobtain).1.trans (Word.roundUp_one wanted).symm
      have hrecorded := Nat.lt_of_lt_of_le hpos hfits.2
      rw [resized_eq_of hhoused hfits hgrows hsize]
      exact (heap_exact_release horderly (hhoused.footing hrecorded)).thenObtain
        (heap_exact_obtain hobtain)
  | pages pages =>
    obtain ⟨pages', hfound, rfl⟩ := hcases
    rcases PageMap.reallocate_ok hfound with
      ⟨hle, rfl, rfl⟩ | ⟨hzero, hpos, hvalid, hanew⟩ | ⟨-, hlt, hsize, hplace⟩
    · rw [show (holding.layout size).size = size from rfl, span_resized_of_le hfits]
      exact .still _ _
    · have hempty : holding.recorded = 0 := by
        rw [← hround, show size = 0 from hzero, Word.roundUp_zero]
      have hgrows : size < wanted := by
        rw [show size = 0 from hzero]
        exact hpos
      rw [resized_eq_of hhoused hfits hgrows (PageMap.allocate_aligned hvalid hanew).1]
      refine Backend.Exact.give ?_ (Holding.not_mem_of_empty hempty)
      rcases PageMap.allocate_ok hanew with ⟨-, -, rfl⟩ | ⟨-, -, hobtain⟩
      · exact fun address hused => Or.inl ⟨hused, Span.not_mem_nothing address⟩
      · exact pages_exact_obtain hobtain
    · have hold : Word.roundUp (holding.layout size).size pages.pageSize = holding.recorded :=
        hround
      rw [hold] at hplace
      rcases hplace with ⟨haddress, hplace⟩ | ⟨moved, hobtain, rfl⟩
      · obtain ⟨address, answer⟩ := block
        obtain rfl : address = holding.address := haddress
        refine pages_exact_place (hplace.imp_left fun hsame => ?_)
        exact ⟨Nat.le_of_eq hsame.1, hsame.2⟩
      · rw [resized_eq_of hhoused hfits hlt hsize]
        exact (pages_exact_obtain hobtain).thenRelease (pages_exact_unmap moved holding.span)

end Memory
end Freehold
