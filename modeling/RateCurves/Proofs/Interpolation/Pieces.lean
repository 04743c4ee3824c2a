import Mathlib
import RateCurves.Proofs.Interpolation.Local

/-!
# Functions put together from pieces

Most schemes have a formula for each interval, which they apply to the interval an abscissa belongs to:
`Nodes.pieced`. The interval stays the same for a while to the right of every abscissa, so such a
function has the derivative of its piece from the right (`pieced_right`). To the left it may be the
interval before, so where neighbouring pieces meet at the node between them the function is continuous
(`pieced_continuous`), and differentiable if their derivatives meet as well (`pieced_hasDerivAt`).
-/

namespace RateCurves.Nodes

open Set Filter Topology

variable (nodes : Nodes ℝ)

/-! ## Neighbouring abscissae -/

theorem x_lt {i j : Nat} (hij : i < j) (hj : j < nodes.size) : nodes.x i < nodes.x j :=
  nodes.axis.value_lt hij hj

theorem locate_spec (t : ℝ) : nodes.axis.Belongs (nodes.locate t) t := nodes.axis.locate_spec t

theorem locate_lt (t : ℝ) : nodes.locate t + 1 < nodes.size := (nodes.locate_spec t).bound

theorem locate_eq {i : Nat} {t : ℝ} (h : nodes.axis.Belongs i t) : nodes.locate t = i := Axis.locate_eq h

/-- Between the first and the last node an abscissa lies in the interval it belongs to. -/
theorem locate_encloses {t : ℝ} (ht : t ∈ Icc (nodes.x 0) (nodes.x nodes.final)) :
    t ∈ Icc (nodes.x (nodes.locate t)) (nodes.x (nodes.locate t + 1)) := by
  obtain ⟨-, hleft, hright⟩ := nodes.locate_spec t
  constructor
  · rcases hleft with hfirst | hle
    · rw [hfirst]
      exact ht.1
    · exact hle
  · rcases hright with hlast | hlt
    · have hfinal : nodes.locate t + 1 = nodes.final :=
        Nat.succ_injective (hlast.trans nodes.final_succ.symm)
      rw [hfinal]
      exact ht.2
    · exact hlt.le

theorem locate_right (t : ℝ) : ∀ᶠ s in 𝓝[≥] t, nodes.locate s = nodes.locate t := by
  obtain ⟨hbound, hleft, hright⟩ := nodes.locate_spec t
  have hnear : ∀ᶠ s in 𝓝[≥] t, nodes.locate t + 2 = nodes.size ∨ s < nodes.x (nodes.locate t + 1) := by
    rcases hright with hlast | hnext
    · exact .of_forall fun _ => .inl hlast
    · filter_upwards [Ico_mem_nhdsGE hnext] with s hs using .inr hs.2
  filter_upwards [hnear, self_mem_nhdsWithin] with s hs hts
  exact nodes.locate_eq ⟨hbound, hleft.imp_right fun h => h.trans hts, hs⟩

theorem locate_near {t : ℝ} (h : ∀ k < nodes.size, t ≠ nodes.x k) :
    ∀ᶠ s in 𝓝 t, nodes.locate s = nodes.locate t := by
  obtain ⟨hbound, hleft, hright⟩ := nodes.locate_spec t
  have hafter : ∀ᶠ s in 𝓝 t, nodes.locate t = 0 ∨ nodes.x (nodes.locate t) ≤ s := by
    rcases hleft with hfirst | hle
    · exact .of_forall fun _ => .inl hfirst
    · have hlt : nodes.x (nodes.locate t) < t :=
        lt_of_le_of_ne hle (h _ (Nat.lt_of_succ_lt (nodes.locate_lt t))).symm
      filter_upwards [lt_mem_nhds hlt] with s hs using .inr hs.le
  have hbefore : ∀ᶠ s in 𝓝 t, nodes.locate t + 2 = nodes.size ∨ s < nodes.x (nodes.locate t + 1) := by
    rcases hright with hlast | hlt
    · exact .of_forall fun _ => .inl hlast
    · filter_upwards [gt_mem_nhds hlt] with s hs using .inr hs
  filter_upwards [hafter, hbefore] with s hs hs'
  exact nodes.locate_eq ⟨hbound, hs, hs'⟩

/-! ## Pieces -/

/-- The function that is `piece i` on interval `i`. -/
noncomputable def pieced (piece : Nat → ℝ → ℝ) (t : ℝ) : ℝ := piece (nodes.locate t) t

/-- Neighbouring pieces have the same value at the node between them. -/
def Meets (piece : Nat → ℝ → ℝ) : Prop :=
  ∀ i, i + 2 < nodes.size → piece i (nodes.x (i + 1)) = piece (i + 1) (nodes.x (i + 1))

/-- To the left of an abscissa there is one interval for a while, and pieces that meet have the same
value at the abscissa as the piece of that interval. -/
theorem locate_left (t : ℝ) : ∃ i, i + 1 < nodes.size ∧ (∀ᶠ s in 𝓝[<] t, nodes.locate s = i) ∧
    ∀ piece, nodes.Meets piece → piece i t = nodes.pieced piece t := by
  obtain ⟨hbound, hleft, hright⟩ := nodes.locate_spec t
  by_cases hnode : 0 < nodes.locate t ∧ t = nodes.x (nodes.locate t)
  · -- the interval begins at `t`, so to the left of `t` it is the one before
    obtain ⟨hpos, ht⟩ := hnode
    obtain ⟨i, hi⟩ : ∃ i, nodes.locate t = i + 1 := ⟨nodes.locate t - 1, by omega⟩
    rw [hi] at hbound ht
    have hlt : nodes.x i < t := by
      rw [ht]
      exact nodes.x_lt (Nat.lt_succ_self i) (by unfold size; omega)
    refine ⟨i, by unfold size; omega, ?_, fun piece hmeet => ?_⟩
    · filter_upwards [Ioo_mem_nhdsLT hlt] with s hs
      exact nodes.locate_eq ⟨by omega, .inr hs.1.le, .inr (hs.2.trans_eq ht)⟩
    · rw [pieced, hi, ht]
      exact hmeet i (by unfold size; omega)
  · refine ⟨nodes.locate t, hbound, ?_, fun _ _ => rfl⟩
    have hnear : ∀ᶠ s in 𝓝[<] t, nodes.locate t = 0 ∨ nodes.x (nodes.locate t) ≤ s := by
      rcases Nat.eq_zero_or_pos (nodes.locate t) with hzero | hpos
      · exact .of_forall fun _ => .inl hzero
      · have hne : nodes.x (nodes.locate t) ≠ t := fun h => hnode ⟨hpos, h.symm⟩
        have hlt : nodes.x (nodes.locate t) < t := lt_of_le_of_ne (hleft.resolve_left hpos.ne') hne
        filter_upwards [Ioo_mem_nhdsLT hlt] with s hs using .inr hs.1.le
    filter_upwards [hnear, self_mem_nhdsWithin] with s hs hst
    exact nodes.locate_eq ⟨hbound, hs, hright.imp_right fun h => lt_trans hst h⟩

theorem eq_of_nodeValue {i : Nat} {formula : ℝ → ℝ} (hleft : formula (nodes.x i) = nodes.y i)
    (hright : formula (nodes.x (i + 1)) = nodes.y (i + 1)) {t y : ℝ}
    (h : nodes.nodeValue? i t = some y) : formula t = y := by
  unfold nodeValue? at h
  split_ifs at h with hl hr
  · rw [eq_of_beq hl, hleft]
    exact Option.some.inj h
  · rw [eq_of_beq hr, hright]
    exact Option.some.inj h

variable {nodes} {piece slope : Nat → ℝ → ℝ} {t : ℝ}

theorem pieced_eq_right (piece : Nat → ℝ → ℝ) (t : ℝ) :
    nodes.pieced piece =ᶠ[𝓝[≥] t] piece (nodes.locate t) := by
  filter_upwards [nodes.locate_right t] with s hs
  rw [pieced, hs]

theorem pieced_eq_left (hmeet : nodes.Meets piece) (t : ℝ) :
    ∃ i, i + 1 < nodes.size ∧ nodes.pieced piece =ᶠ[𝓝[≤] t] piece i ∧
      ∀ other, nodes.Meets other → other i t = nodes.pieced other t := by
  obtain ⟨i, hi, hnear, hvalue⟩ := nodes.locate_left t
  refine ⟨i, hi, ?_, hvalue⟩
  have hat : nodes.pieced piece t = piece i t := (hvalue piece hmeet).symm
  rw [← Iio_insert, EventuallyEq, nhdsWithin_insert, eventually_sup, eventually_pure]
  refine ⟨hat, ?_⟩
  filter_upwards [hnear] with s hs
  rw [pieced, hs]

theorem pieced_near (piece : Nat → ℝ → ℝ) (h : ∀ k < nodes.size, t ≠ nodes.x k) :
    nodes.pieced piece =ᶠ[𝓝 t] piece (nodes.locate t) := by
  filter_upwards [nodes.locate_near h] with s hs
  rw [pieced, hs]

theorem pieced_right {d : ℝ} (h : HasDerivAt (piece (nodes.locate t)) d t) :
    HasDerivWithinAt (nodes.pieced piece) d (Ici t) t :=
  h.hasDerivWithinAt.congr_of_eventuallyEq (pieced_eq_right piece t) rfl

/-- Where pieces and their derivatives meet, a pieced function has the pieced derivative. -/
theorem pieced_hasDerivAt (h : ∀ i, i + 1 < nodes.size → ∀ t, HasDerivAt (piece i) (slope i t) t)
    (hpiece : nodes.Meets piece) (hslope : nodes.Meets slope) (t : ℝ) :
    HasDerivAt (nodes.pieced piece) (nodes.pieced slope t) t := by
  obtain ⟨i, hi, hnear, hvalue⟩ := pieced_eq_left hpiece t
  have hleft : HasDerivWithinAt (nodes.pieced piece) (nodes.pieced slope t) (Iic t) t := by
    rw [← hvalue slope hslope]
    exact (h i hi t).hasDerivWithinAt.congr_of_eventuallyEq hnear (hvalue piece hpiece).symm
  have hboth := hleft.union (pieced_right (h (nodes.locate t) (nodes.locate_lt t) t))
  rwa [Iic_union_Ici, hasDerivWithinAt_univ] at hboth

theorem pieced_continuous (h : ∀ i, i + 1 < nodes.size → Continuous (piece i))
    (hpiece : nodes.Meets piece) : Continuous (nodes.pieced piece) := by
  rw [continuous_iff_continuousAt]
  intro t
  obtain ⟨i, hi, hnear, hvalue⟩ := pieced_eq_left hpiece t
  rw [continuousAt_iff_continuous_left_right]
  constructor
  · exact (h i hi).continuousWithinAt.congr_of_eventuallyEq hnear (hvalue piece hpiece).symm
  · exact (h _ (nodes.locate_lt t)).continuousWithinAt.congr_of_eventuallyEq (pieced_eq_right piece t) rfl

end RateCurves.Nodes
