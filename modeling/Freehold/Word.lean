/-!
# Quantities held in a machine word

Sizes, counts and addresses are natural numbers.  A machine word holds those
below `2 ^ 64`, so an operation that promises to notice an overflow is partial
here: `add?`, `mul?` and `roundUp?` answer `none` exactly when the mathematical
result does not fit.
-/

namespace Freehold
namespace Word

def limit : Nat := 1 <<< 64

def greatest : Nat := limit - 1

def fit? (n : Nat) : Option Nat :=
  if n < limit then some n else none

def add? (a b : Nat) : Option Nat := fit? (a + b)

def mul? (a b : Nat) : Option Nat := fit? (a * b)

/-- The least multiple of `granule` that is not below `n`. -/
def roundUp (n granule : Nat) : Nat :=
  (n + (granule - 1)) / granule * granule

def roundUp? (n granule : Nat) : Option Nat := fit? (roundUp n granule)

theorem fit?_eq_some_iff {n m : Nat} : fit? n = some m ↔ n < limit ∧ n = m := by
  unfold fit?
  split
  · simp [*]
  · simp only [reduceCtorEq, false_iff]
    omega

theorem fit?_eq_none_iff {n : Nat} : fit? n = none ↔ limit ≤ n := by
  simp [fit?]

theorem dvd_roundUp (n granule : Nat) : granule ∣ roundUp n granule :=
  Nat.dvd_mul_left granule _

theorem le_roundUp (n : Nat) {granule : Nat} (h : 0 < granule) :
    n ≤ roundUp n granule := by
  unfold roundUp
  have hdiv := Nat.div_add_mod (n + (granule - 1)) granule
  have hmod := Nat.mod_lt (n + (granule - 1)) h
  rw [Nat.mul_comm] at hdiv
  omega

theorem roundUp_lt (n : Nat) {granule : Nat} (h : 0 < granule) :
    roundUp n granule < n + granule := by
  have hle : roundUp n granule ≤ n + (granule - 1) :=
    Nat.div_mul_le_self (n + (granule - 1)) granule
  omega

theorem roundUp_le {n m granule : Nat} (hdvd : granule ∣ m) (hle : n ≤ m) :
    roundUp n granule ≤ m := by
  obtain ⟨k, rfl⟩ := hdvd
  rcases Nat.eq_zero_or_pos granule with rfl | hpos
  · simp [roundUp]
  · unfold roundUp
    rw [Nat.mul_comm granule k]
    apply Nat.mul_le_mul_right
    rw [Nat.div_le_iff_le_mul_add_pred hpos]
    rw [Nat.mul_comm]
    rw [Nat.mul_comm] at hle
    omega

theorem roundUp_of_dvd {n granule : Nat} (h : granule ∣ n) : roundUp n granule = n := by
  rcases Nat.eq_zero_or_pos granule with rfl | hpos
  · simp [roundUp, Nat.eq_zero_of_zero_dvd h]
  · exact Nat.le_antisymm (roundUp_le h (Nat.le_refl n)) (le_roundUp n hpos)

theorem roundUp_add_of_dvd {n m granule : Nat} (hpos : 0 < granule) (h : granule ∣ n) :
    roundUp (n + m) granule = n + roundUp m granule := by
  obtain ⟨k, rfl⟩ := h
  unfold roundUp
  rw [Nat.add_assoc, Nat.mul_add_div hpos, Nat.add_mul, Nat.mul_comm k granule]

theorem roundUp_eq_of_between {n m granule : Nat} (hpos : 0 < granule) (hleft : n ≤ m)
    (hright : m ≤ roundUp n granule) : roundUp m granule = roundUp n granule := by
  apply Nat.le_antisymm
  · exact roundUp_le (dvd_roundUp n granule) hright
  · exact roundUp_le (dvd_roundUp m granule) (Nat.le_trans hleft (le_roundUp m hpos))

/-- The multiples of a granule that lie below a number are those below the next multiple. -/
theorem lt_roundUp_iff {n x granule : Nat} (hpos : 0 < granule) :
    x < roundUp n granule ↔ x / granule * granule < n := by
  unfold roundUp
  rw [← Nat.div_lt_iff_lt_mul hpos, Nat.lt_iff_add_one_le, Nat.le_div_iff_mul_le hpos,
    Nat.add_mul, Nat.one_mul]
  omega

theorem roundUp_mono {n m granule : Nat} (hpos : 0 < granule) (h : n ≤ m) :
    roundUp n granule ≤ roundUp m granule :=
  roundUp_le (dvd_roundUp m granule) (Nat.le_trans h (le_roundUp m hpos))

theorem roundUp_pos {n granule : Nat} (hpos : 0 < granule) (h : 0 < n) :
    0 < roundUp n granule :=
  Nat.lt_of_lt_of_le h (le_roundUp n hpos)

end Word
end Freehold
