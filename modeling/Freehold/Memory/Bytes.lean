/-!
# Contents of memory

The contents of memory are one byte per address.  Filling and copying say what
they do to every address at once, so each has a single equation, and a copy
reads all of its source before it writes.
-/

namespace Freehold

abbrev Bytes : Type := Nat → UInt8

namespace Bytes

def fill (bytes : Bytes) (start count : Nat) (value : UInt8) : Bytes :=
  fun address => if start ≤ address ∧ address < start + count then value else bytes address

def copy (bytes : Bytes) (source target count : Nat) : Bytes :=
  fun address =>
    if target ≤ address ∧ address < target + count then bytes (source + (address - target))
    else bytes address

def overlay (bytes : Bytes) (layer : Nat → Option UInt8) : Bytes :=
  fun address => (layer address).getD (bytes address)

def read (bytes : Bytes) (start count : Nat) : List UInt8 :=
  (List.range count).map (fun index => bytes (start + index))

theorem fill_of_mem {bytes : Bytes} {start count address : Nat} {value : UInt8}
    (h : start ≤ address ∧ address < start + count) :
    bytes.fill start count value address = value := if_pos h

theorem fill_of_not_mem {bytes : Bytes} {start count address : Nat} {value : UInt8}
    (h : ¬ (start ≤ address ∧ address < start + count)) :
    bytes.fill start count value address = bytes address := if_neg h

theorem copy_target {bytes : Bytes} {source target count index : Nat} (h : index < count) :
    bytes.copy source target count (target + index) = bytes (source + index) := by
  unfold copy
  rw [if_pos (by omega), Nat.add_sub_cancel_left]

theorem copy_of_not_mem {bytes : Bytes} {source target count address : Nat}
    (h : ¬ (target ≤ address ∧ address < target + count)) :
    bytes.copy source target count address = bytes address := if_neg h

end Bytes

/-- Puts a byte before some runs: it joins the first one if that has the same byte. -/
def pushRun (byte : UInt8) : List (UInt8 × Nat) → List (UInt8 × Nat)
  | [] => [(byte, 1)]
  | (next, count) :: later =>
    if byte = next then (byte, count + 1) :: later
    else (byte, 1) :: (next, count) :: later

def runs (bytes : List UInt8) : List (UInt8 × Nat) := bytes.foldr pushRun []

def expandRuns (runs : List (UInt8 × Nat)) : List UInt8 :=
  runs.flatMap fun run => List.replicate run.2 run.1

theorem expandRuns_pushRun (byte : UInt8) (runs : List (UInt8 × Nat)) :
    expandRuns (pushRun byte runs) = byte :: expandRuns runs := by
  cases runs with
  | nil => rfl
  | cons run later =>
    obtain ⟨next, count⟩ := run
    simp only [expandRuns, pushRun]
    split
    · rename_i heq
      subst heq
      simp only [List.flatMap_cons]
      rw [List.replicate_succ, List.cons_append]
    · simp only [List.flatMap_cons]
      rfl

theorem runs_expand (bytes : List UInt8) : expandRuns (runs bytes) = bytes := by
  induction bytes with
  | nil => rfl
  | cons byte rest ih =>
    have heq : runs (byte :: rest) = pushRun byte (runs rest) := rfl
    rw [heq, expandRuns_pushRun, ih]

end Freehold
