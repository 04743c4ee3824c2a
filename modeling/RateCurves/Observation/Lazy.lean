/-!
# Lazy values

A value that is computed when it is asked for and kept until an input announces a change. While
frozen, a computed value is kept through changes; they count once it is thawed.
-/

namespace RateCurves

/-- A value with its validity: whether it was computed, whether a change has been announced since,
and how many freezes are in force. The count has 32 bits. -/
structure LazyCell (β : Type) where
  value : Option β := none
  calculated : Bool := false
  stale : Bool := false
  freezes : UInt32 := 0

namespace LazyCell

variable {ε β σ : Type}

def invalidate (cell : LazyCell β) : LazyCell β := { cell with stale := true }

/-- Puts one more freeze in force; one more than the count can hold leaves none. -/
def freeze (cell : LazyCell β) : LazyCell β := { cell with freezes := cell.freezes + 1 }

/-- Takes one freeze back, if there is any. -/
def unfreeze (cell : LazyCell β) : LazyCell β :=
  { cell with freezes := if 0 < cell.freezes then cell.freezes - 1 else cell.freezes }

def isFrozen (cell : LazyCell β) : Bool := 0 < cell.freezes

/-- The value can be used as it is. -/
def isCalculated (cell : LazyCell β) : Bool :=
  cell.calculated && (cell.isFrozen || !cell.stale)

/-- Unless frozen, an announced change makes the value invalid. -/
def settle (cell : LazyCell β) : LazyCell β :=
  if !cell.isFrozen && cell.stale then { cell with stale := false, calculated := false } else cell

/-- Makes sure that the value is valid, by running the computation if need be. A computation that
fails leaves the value as it was, but invalid. -/
def calculate (cell : LazyCell β) (compute : σ → Except ε β × σ) (s : σ) :
    (Except ε Unit × LazyCell β) × σ :=
  let cell := cell.settle
  if cell.calculated then ((.ok (), cell), s)
  else
    match compute s with
    | (.ok value, s) => ((.ok (), { cell with value := some value, calculated := true }), s)
    | (.error e, s) => ((.error e, { cell with calculated := false }), s)

/-! ## What a calculation does -/

theorem settle_calculated (cell : LazyCell β) : cell.settle.calculated = cell.isCalculated := by
  unfold settle isCalculated
  cases cell.isFrozen <;> cases cell.stale <;> simp

theorem settle_freezes (cell : LazyCell β) : cell.settle.freezes = cell.freezes := by
  unfold settle
  split <;> rfl

theorem settle_stale (cell : LazyCell β) : cell.settle.stale = (cell.isFrozen && cell.stale) := by
  unfold settle
  cases hfrozen : cell.isFrozen <;> cases hstale : cell.stale <;> simp [hstale]

theorem settle_valid {cell : LazyCell β} (h : cell.isCalculated = true) : cell.settle = cell := by
  unfold isCalculated at h
  unfold settle
  cases hfrozen : cell.isFrozen <;> simp_all

variable {cell : LazyCell β} {compute : σ → Except ε β × σ} {s s' : σ}

theorem isFrozen_iff : cell.isFrozen = true ↔ 0 < cell.freezes.toNat := by
  rw [isFrozen, decide_eq_true_iff, UInt32.lt_iff_toNat_lt]
  rfl

theorem freeze_freezes (cell : LazyCell β) : cell.freeze.freezes.toNat = (cell.freezes.toNat + 1) % UInt32.size :=
  UInt32.toNat_add cell.freezes 1

theorem unfreeze_freezes (cell : LazyCell β) : cell.unfreeze.freezes.toNat = cell.freezes.toNat - 1 := by
  show (if 0 < cell.freezes then cell.freezes - 1 else cell.freezes).toNat = _
  by_cases hfrozen : 0 < cell.freezes
  · have hle : (1 : UInt32) ≤ cell.freezes := UInt32.le_iff_toNat_le.mpr (UInt32.lt_iff_toNat_lt.mp hfrozen)
    rw [if_pos hfrozen]
    exact UInt32.toNat_sub_of_le _ _ hle
  · have hzero : ¬0 < cell.freezes.toNat := fun h => hfrozen (UInt32.lt_iff_toNat_lt.mpr h)
    rw [if_neg hfrozen]
    omega

theorem unfreeze_free (h : cell.isFrozen = false) : cell.unfreeze = cell := by
  rw [isFrozen, decide_eq_false_iff_not] at h
  rw [unfreeze, if_neg h]

/-- A value that can be used as it is is not computed, and nothing changes. -/
theorem calculate_valid (h : cell.isCalculated = true) (compute : σ → Except ε β × σ) (s : σ) :
    cell.calculate compute s = ((.ok (), cell), s) := by
  have hcalculated := settle_calculated cell
  rw [settle_valid h, h] at hcalculated
  unfold calculate
  simp [settle_valid h, hcalculated]

theorem calculate_succeeds (h : cell.isCalculated = false) {value : β} (hrun : compute s = (.ok value, s')) :
    cell.calculate compute s =
      ((.ok (), { cell.settle with value := some value, calculated := true }), s') := by
  unfold calculate
  simp [settle_calculated, h, hrun]

theorem calculate_fails (h : cell.isCalculated = false) {e : ε} (hrun : compute s = (.error e, s')) :
    cell.calculate compute s = ((.error e, { cell.settle with calculated := false }), s') := by
  unfold calculate
  simp [settle_calculated, h, hrun]

theorem calculate_uncalculated (h : cell.isCalculated = false) (compute : σ → Except ε β × σ) (s : σ) :
    (cell.calculate compute s).1.1 = (compute s).1.map fun _ => () := by
  rcases hrun : compute s with ⟨e | value, s'⟩
  · rw [calculate_fails h hrun]
    rfl
  · rw [calculate_succeeds h hrun]
    rfl

theorem calculate_ends (cell : LazyCell β) (compute : σ → Except ε β × σ) (s : σ) :
    (cell.calculate compute s).1.1 = .ok () ∨
      ∃ e, (compute s).1 = .error e ∧ (cell.calculate compute s).1.1 = .error e := by
  cases h : cell.isCalculated with
  | true => exact .inl (by rw [calculate_valid h])
  | false =>
    rw [calculate_uncalculated h]
    cases (compute s).1 with
    | error e => exact .inr ⟨e, rfl, rfl⟩
    | ok value => exact .inl rfl

variable (cell compute s)

theorem calculate_freezes : (cell.calculate compute s).1.2.freezes = cell.freezes := by
  cases h : cell.isCalculated with
  | true => rw [calculate_valid h]
  | false =>
    rcases hrun : compute s with ⟨e | value, s'⟩
    · rw [calculate_fails h hrun]
      exact settle_freezes cell
    · rw [calculate_succeeds h hrun]
      exact settle_freezes cell

theorem calculate_stale : (cell.calculate compute s).1.2.stale = (cell.isFrozen && cell.stale) := by
  cases h : cell.isCalculated with
  | true =>
    rw [calculate_valid h, ← settle_stale, settle_valid h]
  | false =>
    rcases hrun : compute s with ⟨e | value, s'⟩
    · rw [calculate_fails h hrun]
      exact settle_stale cell
    · rw [calculate_succeeds h hrun]
      exact settle_stale cell

/-- After a calculation the value can be used exactly if it has succeeded. -/
theorem calculate_isCalculated :
    (cell.calculate compute s).1.2.isCalculated = true ↔ (cell.calculate compute s).1.1 = .ok () := by
  cases h : cell.isCalculated with
  | true => simp [calculate_valid h, h]
  | false =>
    rcases hrun : compute s with ⟨e | value, s'⟩
    · simp [calculate_fails h hrun, isCalculated]
    · have hsettled : (cell.settle.isFrozen || !cell.settle.stale) = true := by
        rw [settle_stale, isFrozen, settle_freezes, isFrozen]
        cases decide (0 < cell.freezes) <;> simp
      simp only [calculate_succeeds h hrun, isCalculated, iff_true, Bool.true_and]
      exact hsettled

end LazyCell

end RateCurves
