import Freehold.Proofs.Placing.Strategies

/-!
# Holding a block

Every factory that places a value takes a block of its own, does something while it holds
the block, and gives it back if that fails.  Stated once for this form: a call that fails
leaves nothing, and what was made under the block was destroyed before the block was given
back.
-/

namespace Freehold

/-- The record of a call that fails, its latest entry first: how it got over what it was
given, and what it did with its own block.

Without a layout no block is asked for, and without a block what was given is given up.  A
block that was had is given back last, with the layout that was asked for, and everything
between the two calls comes to nothing. -/
inductive Undone (given : Assets) : Option Layout → ErrorKind → List Entry → Prop
  | unasked {after : List Entry} (hafter : Settles given after 0) :
    Undone given none .integerOverflow after
  | refused {layout : Layout} {kind : ErrorKind} {remarks after : List Entry}
      (hremarks : ∀ entry ∈ remarks, entry.log?.isSome) (hafter : Settles given after 0) :
    Undone given (some layout) kind
      (after ++ .call (.allocate layout (.error kind)) :: remarks)
  | returned {layout : Layout} {kind : ErrorKind} {block : Block} {inner : List Entry}
      (hsize : layout.size ≤ block.size) (hinner : Settles given inner 0) :
    Undone given (some layout) kind
      (.call (.deallocate block.address layout) ::
        (inner ++ [.call (.allocate layout (.ok block))]))

namespace Attempt

variable {γ δ : Type} {given : Assets} {layout? : Option Layout}

/-- How an attempt ends that was run on a store: it has placed what it was given, or has
undone what it did. -/
inductive Ends (store : Store) (layout? : Option Layout) (given : Assets)
    (whole : γ → Assets) : Except ErrorKind γ × Store → Prop
  | placed {value : γ} {after : Store} (hsettles : store.Settles after given (whole value)) :
    Ends store layout? given whole (.ok value, after)
  | undone {kind : ErrorKind} {after : Store} {entries : List Entry}
      (htrace : after.trace = entries ++ store.trace)
      (hundone : Undone given layout? kind entries) :
    Ends store layout? given whole (.error kind, after)

def Places (attempt : Attempt γ) (layout? : Option Layout) (given : Assets)
    (whole : γ → Assets) : Prop :=
  ∀ store : Store, Ends store layout? given whole (attempt store)

theorem Places.wrap {attempt : Attempt γ} {whole : γ → Assets}
    (h : attempt.Places layout? given whole) (wrapped : γ → δ) {whole' : δ → Assets}
    (hwhole : ∀ value, whole' (wrapped value) = whole value) :
    Places (attempt >>= fun value => pure (wrapped value)) layout? given whole' := by
  intro store
  have hstore := h store
  rw [bind_apply]
  generalize attempt store = run at hstore
  cases hstore with
  | @placed value after hsettles =>
    rw [← hwhole value] at hsettles
    exact .placed hsettles
  | undone htrace hundone => exact .undone htrace hundone

/-- Takes a block and does something while holding it; the block is given back if that
fails. -/
def holding (layout : Layout) (unused : Effect Unit) (body : Block → Attempt γ) :
    Attempt (Block × γ) := do
  let block ← Attempt.undoing (Allocator.allocate layout) unused
  let result ← Attempt.undoing (body block) (Allocator.deallocate block.address layout)
  pure (block, result)

theorem holding_places (layout : Layout) {unused : Effect Unit} {body : Block → Attempt γ}
    {part : γ → Assets} (hunused : unused.Turns given (fun _ => 0))
    (hbody : ∀ block, (body block).Turns given part 0) :
    (holding layout unused body).Places (some layout) given
      (fun held => {.block held.1.address layout} + part held.2) := by
  intro store
  obtain ⟨remarks, htrace, hremarks, hnone⟩ := Allocator.allocate_trace layout store
  have hfulfils := Allocator.allocate_fulfils layout store
  unfold holding
  rw [bind_apply, undoing_apply]
  generalize Allocator.allocate layout store = run at htrace hnone hfulfils
  obtain ⟨answer, granted⟩ := run
  cases answer with
  | error kind =>
    obtain ⟨later, hlater, hsettles⟩ := hunused granted
    refine .undone ?_ (.refused hremarks hsettles)
    rw [hlater, htrace]
    simp
  | ok block =>
    rw [hnone block rfl] at htrace
    dsimp only
    rw [bind_apply, undoing_apply]
    have hturns : granted.Settles (body block granted).2 given
        (Assets.afterwards part 0 (body block granted).1) := hbody block granted
    generalize body block granted = result at hturns
    obtain ⟨answer, finished⟩ := result
    obtain ⟨inner, hinner, hsettles⟩ := hturns
    cases answer with
    | ok result =>
      have hgranted := (Allocator.settles_granted hfulfils).frame given
      have hheld := hsettles.frame {Asset.block block.address layout}
      rw [zero_add, add_comm] at hgranted
      rw [add_comm (Assets.afterwards part 0 (.ok result))] at hheld
      refine .placed ⟨inner ++ [.call (.allocate layout (.ok block))], ?_,
        hheld.append hgranted⟩
      rw [hinner, htrace]
      simp
    | error kind =>
      refine .undone ?_ (.returned hfulfils hsettles)
      show _ :: finished.trace = _
      rw [hinner, htrace]
      simp

theorem holding_covers {layout : Layout} {unused : Effect Unit} {body : Block → Attempt γ}
    {steps : Block → Attempt δ} (hbody : ∀ block, (body block).Covers (steps block)) :
    Covers (holding layout unused body) (Allocator.allocate layout >>= steps) := by
  apply Covers.undoing_bind
  intro block
  exact ((hbody block).undoing _).wrap _

end Attempt
end Freehold
