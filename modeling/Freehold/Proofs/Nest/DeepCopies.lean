import Freehold.Element.Catalogue
import Freehold.Proofs.Nest.Copies
import Freehold.Proofs.Nest.Steps

/-!
# Deep copies

A copy of a nested owner has nothing in common with its source: no block, no object.  So the
source does not notice when the copy is made, when making it fails, or what becomes of the copy
later on.
-/

namespace Freehold

/-! ## What is left alone -/

namespace Store

/-- Nothing has become of what is owned: the blocks have all their bytes, and what was put on
record is not about any of the objects. -/
structure Untouched (before after : Store) (assets : Assets) (held : Multiset Holding) : Prop where
  spares : before.memory.Spares after.memory held
  unnamed : ∃ entries, after.trace = entries ++ before.trace ∧
    ∀ entry ∈ entries, ∀ serial, entry.serial? = some serial → .object (some serial) ∉ assets

variable {before after : Store} {given left kept : Assets} {regions : List Span}
  {held others : Multiset Holding}

/-- Whoever has some assets leaves the objects and blocks of others alone. -/
theorem Settles.untouched (hsettles : before.Settles after given left)
    (hspends : before.Spends after)
    (hlodged : given.Lodged before.memory regions (held + others))
    (hkept : ∀ serial, .object (some serial) ∈ kept →
      serial ≤ before.serials ∧ .object (some serial) ∉ given) :
    before.Untouched after kept held := by
  obtain ⟨entries, htrace, hentries, hspent⟩ := hsettles.joined hspends
  obtain ⟨-, hspares⟩ := hsettles.lodged hspends hlodged
  obtain ⟨-, -, hnamed⟩ := hentries.fresh hspent
  refine ⟨hspares.mono (Multiset.subset_of_le (Multiset.le_add_right _ _)), entries, htrace, ?_⟩
  intro entry hentry serial hserial hobject
  obtain ⟨hold, hother⟩ := hkept serial hobject
  rcases hnamed entry hentry serial hserial with hmine | hnew
  · exact hother hmine
  · have hlast : before.serials < serial := hnew
    omega

/-- Objects that are left were given before, or have new numbers. -/
theorem Settles.left_fresh (hsettles : before.Settles after given left)
    (hspends : before.Spends after) :
    before.serials ≤ after.serials ∧
      ∀ serial, .object (some serial) ∈ left →
        .object (some serial) ∈ given ∨ before.serials < serial := by
  obtain ⟨entries, -, hentries, hspent⟩ := hsettles.joined hspends
  obtain ⟨hmono, hleft, -⟩ := hentries.fresh hspent
  exact ⟨hmono, hleft⟩

theorem Settles.left_numbered (hsettles : before.Settles after given left)
    (hspends : before.Spends after) (hgiven : given.Numbered before.serials) :
    left.Numbered after.serials := by
  obtain ⟨entries, -, hentries, hspent⟩ := hsettles.joined hspends
  exact hentries.numbered hspent hgiven

end Store

namespace Nest

/-- A copy that was made between two stores, with blocks of its own.  All the while, `held` are
the blocks of the source. -/
structure DeepCopy (nest : Nest) (source copy : nest.Carrier) (before after : Store)
    (regions : List Span) (mine : List Holding) (held others : Multiset Holding) : Prop where
  alike : nest.Alike copy source
  whole : nest.Whole copy
  blocks : (nest.owns copy).filled = nest.copyBlocks source
  /-- All that was made on the way is owned by the copy or gone. -/
  settles : before.Settles after 0 (nest.owns copy)
  occupies : (nest.owns copy).Occupies mine after.memory regions (held + others)
  /-- So the copy can be a source itself. -/
  numbered : (nest.owns copy).Numbered after.serials
  apart : ∀ block ∈ mine, ∀ kept ∈ held, block.span.Apart kept.span
  unshared : ∀ serial, .object (some serial) ∈ nest.owns copy →
    .object (some serial) ∉ nest.owns source
  /-- Whatever is done with the blocks of the copy, those of the source stay as they are. -/
  used : ∀ occurrences : List AllocatorState.Occurrence,
    (∀ occurrence ∈ occurrences, occurrence.Private) →
    (AllocatorState.mk after.memory mine regions).Permitted occurrences →
    after.memory.Spares ((AllocatorState.mk after.memory mine regions).live occurrences).memory held
  /-- The copy is destroyed without a trace, and the source does not notice. -/
  dropped : after.Settles (nest.element.destroy copy after).2 (nest.owns copy) 0 ∧
    after.Untouched (nest.element.destroy copy after).2 (nest.owns source) held ∧
    (nest.element.destroy copy after).2.memory.Retains regions (held + others)

/-- A deep copy, or an error when everything that was made on the way is gone. -/
inductive CopyEnds (nest : Nest) (source : nest.Carrier) (before : Store) (regions : List Span)
    (held others : Multiset Holding) : Except ErrorKind nest.Carrier × Store → Prop
  | copied {copy : nest.Carrier} {after : Store} {mine : List Holding}
      (h : nest.DeepCopy source copy before after regions mine held others) :
    CopyEnds nest source before regions held others (.ok copy, after)
  | undone {kind : ErrorKind} {after : Store} (hsettles : before.Settles after 0 0)
      (hretains : after.memory.Retains regions (held + others)) :
    CopyEnds nest source before regions held others (.error kind, after)

/-- A value that has been built is a source for copies. -/
theorem make_lodged {nest : Nest} (hproper : nest.Proper) {args : nest.Args}
    (hfits : nest.Fits args) {store after : Store} {regions : List Span} {others : Multiset Holding}
    (hretains : store.memory.Retains regions others) {source : nest.Carrier}
    (hrun : nest.make args store = (.ok source, after)) :
    nest.Whole source ∧ (nest.owns source).Lodged after.memory regions others ∧
      (nest.owns source).Numbered after.serials := by
  have hnothing : Assets.Lodged 0 store.memory regions others := Assets.lodged_zero.2 hretains
  have hmanages := Attempt.manages_iff.1 (nest.make_manages hproper hfits).1
  obtain ⟨hsettles, hspends⟩ := hmanages store regions others hnothing
  rw [hrun] at hsettles hspends
  exact ⟨(nest.make_yields hfits).1 store source after hrun,
    (hsettles.lodged hspends hnothing).1,
    hsettles.left_numbered hspends (Assets.numbered_zero store.serials)⟩

theorem clone_settles {nest : Nest} (hproper : nest.Proper) {source : nest.Carrier}
    (hwhole : nest.Whole source) {store : Store} {regions : List Span} {others : Multiset Holding}
    (hretains : store.memory.Retains regions others) :
    store.Settles (nest.copier.clone source store).2 0
        (Assets.afterwards nest.owns 0 (nest.copier.clone source store).1) ∧
      store.Spends (nest.copier.clone source store).2 := by
  rw [clone_eq_passing]
  exact nest.copier_manages hproper hwhole .passing store regions others
    (Assets.lodged_zero.2 hretains)

section Copying

variable {nest : Nest} (hproper : nest.Proper) {source : nest.Carrier} (hwhole : nest.Whole source)
  {store : Store} {regions : List Span} {held others : Multiset Holding}
  (hoccupies : (nest.owns source).Occupies held store.memory regions others)
  (hserials : (nest.owns source).Numbered store.serials)

include hproper hwhole hoccupies hserials

theorem clone_untouched :
    store.Untouched (nest.copier.clone source store).2 (nest.owns source) held := by
  obtain ⟨hsettles, hspends⟩ := nest.clone_settles hproper hwhole hoccupies.retains
  refine hsettles.untouched hspends (Assets.lodged_zero.2 hoccupies.retains) fun serial hmem => ?_
  exact ⟨hserials serial hmem, Multiset.notMem_zero _⟩

theorem clone_deep {copy : nest.Carrier} {after : Store}
    (hrun : nest.copier.clone source store = (.ok copy, after)) :
    ∃ mine, nest.DeepCopy source copy store after regions mine held others := by
  have hcopied : nest.CopyOf copy source := by
    rw [clone_eq_passing] at hrun
    exact nest.copier_yields hwhole .passing store copy after hrun
  obtain ⟨hsettles, hspends⟩ := nest.clone_settles hproper hwhole hoccupies.retains
  rw [hrun] at hsettles hspends
  have hlodged := (hsettles.lodged hspends (Assets.lodged_zero.2 hoccupies.retains)).1
  obtain ⟨hmono, hnew⟩ := hsettles.left_fresh hspends
  have hnumbered := hsettles.left_numbered hspends (Assets.numbered_zero store.serials)
  have hunshared : ∀ serial, .object (some serial) ∈ nest.owns copy →
      .object (some serial) ∉ nest.owns source := by
    intro serial hmine hsource
    have hold := hserials serial hsource
    rcases hnew serial hmine with hnothing | hlater
    · exact Multiset.notMem_zero _ hnothing
    · omega
  obtain ⟨hdropped, hdrops⟩ :=
    nest.destroy_givesUp hproper copy after regions (held + others) hlodged
  obtain ⟨blocks, hblocks⟩ := hlodged
  obtain ⟨mine, rfl⟩ := Quotient.exists_rep blocks
  exact ⟨mine,
    { alike := hcopied.alike
      whole := hcopied.whole hwhole
      blocks := hcopied.filled
      settles := hsettles
      occupies := hblocks
      numbered := hnumbered
      apart := fun block hmine kept hheld =>
        hblocks.retains.apart block hmine kept (Multiset.mem_add.2 (Or.inl hheld))
      unshared := hunshared
      used := fun occurrences hprivate hpermitted =>
        (hblocks.retains.live occurrences hprivate hpermitted).2.mono
          (Multiset.subset_of_le (Multiset.le_add_right _ _))
      dropped := ⟨hdropped,
        hdropped.untouched hdrops ⟨_, hblocks⟩ fun serial hsource =>
          ⟨(hserials serial hsource).trans hmono, fun hmine => hunshared serial hmine hsource⟩,
        Assets.lodged_zero.1 (hdropped.lodged hdrops ⟨_, hblocks⟩).1⟩ }⟩

/-- A copy is a deep copy, or it fails with the error of the first step that fails and nothing
of it is left.  The source is untouched in both cases. -/
theorem clones_deeply :
    Agrees (nest.copier.clone source store) (nest.copySteps source store) ∧
      store.Untouched (nest.copier.clone source store).2 (nest.owns source) held ∧
      nest.CopyEnds source store regions held others (nest.copier.clone source store) := by
  refine ⟨?_, clone_untouched hproper hwhole hoccupies hserials, ?_⟩
  · rw [clone_eq_passing]
    exact nest.copier_covers hwhole .passing store
  obtain ⟨hsettles, hspends⟩ := nest.clone_settles hproper hwhole hoccupies.retains
  have hdeep := @clone_deep nest hproper source hwhole store regions held others hoccupies hserials
  generalize nest.copier.clone source store = run at hsettles hspends hdeep ⊢
  obtain ⟨answer, after⟩ := run
  cases answer with
  | ok copy =>
    obtain ⟨mine, hcopy⟩ := hdeep rfl
    exact .copied hcopy
  | error kind =>
    obtain ⟨hnothing, -⟩ := hsettles.lodged hspends (Assets.lodged_zero.2 hoccupies.retains)
    exact .undone hsettles (Assets.lodged_zero.1 hnothing)

end Copying

/-! Rows of pieces that draw a block each. -/

def rows : Nest := .vec (.vec (.leaf Catalogue.heap))

theorem rows_proper : rows.Proper := Catalogue.heap_proper

/-- An arena that nothing was asked of. -/
def arena : Store := { memory := { backend := .stack { base := 4096, capacity := 4096 } } }

def twoRows : rows.Args := [[.number 1, .number 2], [.number 3, .number 4]]

theorem twoRows_fits : rows.Fits twoRows := by
  have hrows : ∀ row ∈ ([[.number 1, .number 2], [.number 3, .number 4]] : List (List Datum)),
      row.length < Word.limit := by decide
  exact ⟨by decide, fun row hmem => ⟨hrows row hmem, fun _ _ => trivial⟩⟩

/-- The request for the block of the second piece in the first row of a copy is refused. -/
def refusing (made : Store) : Store := { made with failing := [11] }

/-- How a copy of two rows fails, with the objects that were made and destroyed. -/
def twoRowsRefused : Option (ErrorKind × List (Option Nat) × List (Option Nat)) :=
  match rows.make twoRows arena with
  | (.error _, _) => none
  | (.ok source, made) =>
    match rows.copier.clone source (refusing made) with
    | (.ok _, _) => none
    | (.error kind, after) =>
      some (kind, after.trace.filterMap Entry.born?, after.trace.filterMap Entry.gone?)

theorem clones_deeply_twoRows :
    ∃ source made held after,
      rows.make twoRows arena = (.ok source, made) ∧ rows.Proper ∧ rows.Whole source ∧
        (rows.owns source).Occupies held (refusing made).memory [] 0 ∧
        (rows.owns source).Numbered (refusing made).serials ∧
        rows.copier.clone source (refusing made) = (.error .allocationFailed, after) ∧
        (Agrees (rows.copier.clone source (refusing made)) (rows.copySteps source (refusing made)) ∧
          (refusing made).Untouched (rows.copier.clone source (refusing made)).2
            (rows.owns source) held ∧
          rows.CopyEnds source (refusing made) [] held 0
            (rows.copier.clone source (refusing made))) ∧
        after.trace.filterMap Entry.born? = [some 5, some 4, some 3, some 2, some 1] ∧
        after.trace.filterMap Entry.gone? = [some 5] := by
  have hrefused : twoRowsRefused =
      some (.allocationFailed, [some 5, some 4, some 3, some 2, some 1], [some 5]) := by
    decide +kernel
  unfold twoRowsRefused at hrefused
  cases hmade : rows.make twoRows arena with
  | mk answer made =>
    rw [hmade] at hrefused
    cases answer with
    | error kind => cases hrefused
    | ok source =>
      cases hcloned : rows.copier.clone source (refusing made) with
      | mk answer after =>
        simp only [hcloned] at hrefused
        cases answer with
        | ok copy => cases hrefused
        | error kind =>
          simp only [Option.some.injEq, Prod.mk.injEq] at hrefused
          obtain ⟨rfl, hborn, hgone⟩ := hrefused
          have hunused : arena.memory.Retains [] 0 := .of_unused rfl
          obtain ⟨hwhole, ⟨held, hoccupies⟩, hnumbered⟩ :=
            make_lodged rows_proper twoRows_fits hunused hmade
          have hmine : (rows.owns source).Occupies held (refusing made).memory [] 0 := hoccupies
          exact ⟨source, made, held, after, rfl, rows_proper, hwhole, hmine, hnumbered, hcloned,
            clones_deeply rows_proper hwhole hmine hnumbered, hborn, hgone⟩

end Nest
end Freehold
