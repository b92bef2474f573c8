import FinalGrades.Proofs.Number.Order

/-!
Operations that keep the order of doubles, the infinities included: a product with a positive
number, a quotient by one, and the nearest whole number. A sum of numbers from zero on is not below
any of them, in whatever order it is rounded.
-/

namespace FinalGrades.Binary64

variable {x y : Binary64}

section Infinities

theorem isNaN_of_le (h : x ≤ y) : x.isNaN = false ∧ y.isNaN = false := by
  cases x with
  | nan => cases h
  | infinite s => cases y <;> first | exact ⟨rfl, rfl⟩ | cases h
  | finite s m hm => cases y <;> first | exact ⟨rfl, rfl⟩ | cases h

theorem infinite_le (hy : y.isNaN = false) : infinite true ≤ y := by
  cases y with
  | nan => cases hy
  | infinite t => rfl
  | finite t n hn => rfl

theorem le_infinite (hx : x.isNaN = false) : x ≤ infinite false := by
  cases x with
  | nan => cases hx
  | infinite s => exact Bool.or_true s
  | finite s n hn => rfl

theorem eq_infinite_of_le (h : x ≤ infinite true) : x = infinite true := by
  cases x with
  | nan => cases h
  | infinite s =>
    obtain rfl : s = true := (Bool.or_false s).symm.trans h
    rfl
  | finite s n hn => cases h

theorem eq_infinite_of_ge (h : infinite false ≤ y) : y = infinite false := by
  cases y with
  | nan => cases h
  | infinite t =>
    cases t with
    | false => rfl
    | true => cases h
  | finite t n hn => cases h

theorem not_lt_of_le (h : x ≤ y) : ¬y < x := by
  obtain ⟨hx, hy⟩ := isNaN_of_le h
  intro hlt
  exact Int.not_lt.mpr ((le_iff hx hy).mp h) ((lt_iff hy hx).mp hlt)

theorem isFinite_of_between {z : Binary64} (hlow : x ≤ y) (hhigh : y ≤ z)
    (hx : x.isFinite = true) (hz : z.isFinite = true) : y.isFinite = true := by
  cases y with
  | nan => cases (isNaN_of_le hlow).2
  | infinite s =>
    cases s with
    | true =>
      rw [eq_infinite_of_le hlow] at hx
      cases hx
    | false =>
      rw [eq_infinite_of_ge hhigh] at hz
      cases hz
  | finite s n hn => rfl

/-- What keeps the infinities and the order of the finite numbers keeps the order of all. -/
theorem le_of_finite {f : Binary64 → Binary64} (hinfinite : ∀ s, f (infinite s) = infinite s)
    (hnumber : ∀ x, x.isFinite = true → (f x).isNaN = false)
    (hfinite : ∀ x y, x.isFinite = true → y.isFinite = true → x.position ≤ y.position →
      (f x).position ≤ (f y).position) (h : x ≤ y) : f x ≤ f y := by
  have hresult : ∀ z, z.isNaN = false → (f z).isNaN = false := by
    intro z hz
    cases z with
    | nan => cases hz
    | infinite s =>
      rw [hinfinite]
      rfl
    | finite s n hn => exact hnumber _ rfl
  obtain ⟨hx, hy⟩ := isNaN_of_le h
  cases x with
  | nan => cases hx
  | infinite s =>
    cases s with
    | true =>
      rw [hinfinite]
      exact infinite_le (hresult y hy)
    | false =>
      rw [eq_infinite_of_ge h, hinfinite]
      exact le_infinite rfl
  | finite s m hm =>
    cases y with
    | nan => cases hy
    | infinite t =>
      cases t with
      | true => cases eq_infinite_of_le h
      | false =>
        rw [hinfinite]
        exact le_infinite (hnumber _ rfl)
    | finite t n hn =>
      exact (le_iff (hnumber _ rfl) (hnumber _ rfl)).mpr
        (hfinite _ _ rfl rfl ((le_iff hx hy).mp h))

end Infinities

section Operations

variable {n : Nat} {hn : Representable n}

theorem mul_le_mul_right (hpos : 0 < n) (h : x ≤ y) :
    x * finite false n hn ≤ y * finite false n hn := by
  have hne := Nat.ne_of_gt hpos
  refine le_of_finite (f := (· * finite false n hn)) (fun s => ?_) (fun z hz => ?_)
    (fun z w hz hw hle => ?_) h
  · exact (infinite_mul_finite hne).trans (congrArg infinite (Bool.bne_false s))
  · exact isNaN_mul (isNaN_of_isFinite hz) hne
  · have hfactor : (finite false n hn).isFinite = true := rfl
    have hnonneg : (0 : Int) ≤ (finite false n hn).position := Int.natCast_nonneg n
    rw [position_mul hz hfactor, position_mul hw hfactor]
    exact rounded_mono unit_pos unit_pos (Int.mul_le_mul_of_nonneg_right
      (Int.mul_le_mul_of_nonneg_right hle hnonneg) (Int.natCast_nonneg _))

theorem div_le_div_right (hpos : 0 < n) (h : x ≤ y) :
    x / finite false n hn ≤ y / finite false n hn := by
  have hne := Nat.ne_of_gt hpos
  refine le_of_finite (f := (· / finite false n hn)) (fun s => ?_) (fun z hz => ?_)
    (fun z w hz hw hle => ?_) h
  · exact congrArg infinite (Bool.bne_false s)
  · exact isNaN_div (isNaN_of_isFinite hz) hne
  · rw [position_div hz hpos, position_div hw hpos]
    exact rounded_mono hpos hpos (Int.mul_le_mul_of_nonneg_right
      (Int.mul_le_mul_of_nonneg_right hle (Int.natCast_nonneg _)) (Int.natCast_nonneg _))

/-- The whole number of units nearest to a count of smallest doubles, a half going up. -/
def nearestUnits (units : Nat) : Nat := (2 * units + unit) / (2 * unit)

theorem nearestUnits_mono {m n : Nat} (h : m ≤ n) : nearestUnits m ≤ nearestUnits n :=
  Nat.div_le_div_right (by omega)

theorem nearestUnits_zero : nearestUnits 0 = 0 := by
  have hpos := unit_pos
  exact Nat.div_eq_of_lt (by omega)

theorem signed_nearestUnits_mono {s t : Bool} {m n : Nat} (h : signed s m ≤ signed t n) :
    signed s (nearestUnits m * unit) ≤ signed t (nearestUnits n * unit) := by
  have hmono : ∀ {k l : Nat}, k ≤ l → nearestUnits k * unit ≤ nearestUnits l * unit :=
    fun hle => Nat.mul_le_mul_right unit (nearestUnits_mono hle)
  cases s <;> cases t <;> simp only [signed, if_true, Bool.false_eq_true, if_false] at h ⊢
  · exact Int.ofNat_le.mpr (hmono (Int.ofNat_le.mp h))
  · -- Only zero is neither below zero nor above it.
    obtain ⟨rfl, rfl⟩ : m = 0 ∧ n = 0 := by omega
    rw [nearestUnits_zero, Nat.zero_mul]
    exact Int.le_refl 0
  · omega
  · have hle : nearestUnits n * unit ≤ nearestUnits m * unit := hmono (by omega)
    omega

theorem round_le_round (h : x ≤ y) : x.round ≤ y.round := by
  refine le_of_finite (f := round) (fun s => rfl) (fun z hz => ?_) (fun z w hz hw hle => ?_) h
  · exact isNaN_round (isNaN_of_isFinite hz)
  · obtain ⟨s, m, hm, rfl⟩ := eq_finite_of_isFinite hz
    obtain ⟨t, k, hk, rfl⟩ := eq_finite_of_isFinite hw
    have hround : ∀ {u : Bool} {l : Nat} {hl : Representable l},
        (finite u l hl).round.position = rounded (signed u (nearestUnits l * unit)) 1 :=
      position_ofRatio _ _ 1
    rw [hround, hround]
    refine rounded_mono Nat.one_pos Nat.one_pos ?_
    exact Int.mul_le_mul_of_nonneg_right (signed_nearestUnits_mono hle) (Int.natCast_nonneg 1)

end Operations

section Sum

variable {z : Binary64}

theorem le_self (h : x.isNaN = false) : x ≤ x := (le_iff h h).mpr (Int.le_refl _)

theorem le_of_le_of_le (h : x ≤ y) (h' : y ≤ z) : x ≤ z := by
  obtain ⟨hx, hy⟩ := isNaN_of_le h
  obtain ⟨_, hz⟩ := isNaN_of_le h'
  exact (le_iff hx hz).mpr (Int.le_trans ((le_iff hx hy).mp h) ((le_iff hy hz).mp h'))

theorem position_nonneg (h : 0 ≤ x) : 0 ≤ x.position := by
  have hzero : (0 : Binary64).position = 0 := by decide +kernel
  have hle := (le_iff (isNaN_of_le h).1 (isNaN_of_le h).2).mp h
  rwa [hzero] at hle

/-- A finite sum of numbers from zero on is not below either of them. -/
theorem le_add (h : (x + y).isFinite = true) (hx : 0 ≤ x) (hy : 0 ≤ y) : x ≤ x + y ∧ y ≤ x + y := by
  obtain ⟨hx', hy'⟩ := isFinite_of_add h
  have hnonneg := position_nonneg hx
  have hnonneg' := position_nonneg hy
  have hterm : ∀ {w : Binary64}, w.isFinite = true → w.position ≤ x.position + y.position →
      w ≤ x + y := by
    intro w hw hle
    obtain ⟨s, n, hn, rfl⟩ := eq_finite_of_isFinite hw
    refine (le_iff rfl (isNaN_of_isFinite h)).mpr ?_
    rw [position_add hx' hy']
    refine le_rounded Nat.one_pos ?_ (by omega)
    rwa [position_finite, natAbs_signed]
  exact ⟨hterm hx' (by omega), hterm hy' (by omega)⟩

theorem isFinite_of_foldl {xs : List Binary64} (h : (xs.foldl (· + ·) x).isFinite = true) :
    x.isFinite = true := by
  induction xs generalizing x with
  | nil => exact h
  | cons y xs ih => exact (isFinite_of_add (ih h)).1

/-- What was added up so far and what comes is never above the sum. -/
theorem le_foldl_add {xs : List Binary64} (hxs : ∀ y ∈ xs, 0 ≤ y) (hx : 0 ≤ x)
    (h : (xs.foldl (· + ·) x).isFinite = true) :
    x ≤ xs.foldl (· + ·) x ∧ ∀ y ∈ xs, y ≤ xs.foldl (· + ·) x := by
  induction xs generalizing x with
  | nil => exact ⟨le_self (isNaN_of_isFinite h), List.forall_mem_nil _⟩
  | cons y xs ih =>
    obtain ⟨hy, hrest⟩ := List.forall_mem_cons.mp hxs
    obtain ⟨hle, hle'⟩ := le_add (isFinite_of_foldl h) hx hy
    obtain ⟨hsum, hterms⟩ := ih hrest (le_of_le_of_le hx hle) h
    exact ⟨le_of_le_of_le hle hsum,
      List.forall_mem_cons.mpr ⟨le_of_le_of_le hle' hsum, hterms⟩⟩

/-- No term of a finite sum of numbers from zero on is above the sum. -/
theorem le_sum {xs : List Binary64} (hxs : ∀ y ∈ xs, 0 ≤ y) (h : (sum xs).isFinite = true) :
    ∀ y ∈ xs, y ≤ sum xs :=
  (le_foldl_add hxs (by decide +kernel) h).2

end Sum

end FinalGrades.Binary64
