import RateCurves.Proofs.Interpolation.Locate

/-!
# Locality of the schemes

At a node every local scheme has the ordinate of that node as its value, and the sum of the areas before
it as its primitive; inside an interval it looks at the nodes up to the end of the interval only. That
is `Nodes.Local`, shown for each scheme. So up to node `k` the value and the primitive depend on the
nodes up to `k` alone (`Scheme.interpolate_agree`). The cubic scheme is global, but over two nodes it is
the line through them (`Scheme.interpolate_pair`).
-/

namespace RateCurves

open Scalar

/-! ## Nodes from lists -/

section lists

variable {α : Type} [Scalar α] {xs ys : List α} {nodes : Nodes α}

theorem Nodes.ofLists_ok (h : ofLists xs ys = .ok nodes) : nodes.axis.values = xs ∧ nodes.ys = ys := by
  unfold ofLists at h
  split at h
  · split at h
    · cases h
    · rename_i axis made
      cases h
      exact ⟨Axis.values_of_ofList made, rfl⟩
  · cases h

theorem Nodes.ofLists_size (h : ofLists xs ys = .ok nodes) : nodes.size = xs.length := by
  rw [size, (ofLists_ok h).1]

theorem Nodes.ofLists_x (h : ofLists xs ys = .ok nodes) {i : Nat} {t : α} (ht : xs[i]? = some t) :
    nodes.x i = t := by
  rw [x, Axis.value, (ofLists_ok h).1, List.getD_eq_getElem?_getD, ht, Option.getD_some]

theorem Nodes.ofLists_y (h : ofLists xs ys = .ok nodes) {i : Nat} {v : α} (hv : ys[i]? = some v) :
    nodes.y i = v := by
  rw [y, (ofLists_ok h).2, List.getD_eq_getElem?_getD, hv, Option.getD_some]

end lists

theorem Nodes.ofLists_exists {xs ys : List ℝ} (hsizes : xs.length = ys.length) (htwo : 2 ≤ xs.length)
    (hordered : disorder? xs = none) : ∃ nodes, ofLists xs ys = .ok nodes := by
  have hfinite : xs.all isFinite = true := List.all_eq_true.mpr fun x _ => isFinite_real x
  obtain ⟨axis, haxis⟩ := Axis.ofList_exists htwo hfinite hordered
  unfold ofLists
  rw [dif_pos hsizes]
  split
  · rename_i hrefused
    rw [haxis] at hrefused
    cases hrefused
  · exact ⟨_, rfl⟩

/-! ## Nodes as abscissae -/

namespace Nodes

section sizes

variable {α : Type} [Scalar α] (nodes : Nodes α)

theorem two_le_size : 2 ≤ nodes.size := nodes.axis.two_le

theorem first_lt : 0 < nodes.size := Nat.lt_of_succ_lt nodes.two_le_size

theorem final_succ : nodes.final + 1 = nodes.size := Nat.sub_add_cancel (Nat.le_of_lt nodes.two_le_size)

theorem final_lt : nodes.final < nodes.size := Nat.lt_of_succ_le nodes.final_succ.le

theorem final_pred : nodes.final - 1 + 1 = nodes.final := by
  have htwo := nodes.two_le_size
  have hsucc := nodes.final_succ
  omega

theorem final_pos : 0 < nodes.final := by
  have htwo := nodes.two_le_size
  have hsucc := nodes.final_succ
  omega

theorem final_pred_lt : nodes.final - 1 + 1 < nodes.size := nodes.final_pred.trans_lt nodes.final_lt

theorem final_pred_succ : nodes.final - 1 + 2 = nodes.size :=
  (congrArg (· + 1) nodes.final_pred).trans nodes.final_succ

end sizes

section ordered

variable {α : Type} [Scalar α] [OrderedScalar α] (nodes : Nodes α) {k : Nat}

theorem x_le_final (h : k < nodes.size) : nodes.x k ≤ nodes.x nodes.final :=
  nodes.axis.value_le (Nat.le_sub_one_of_lt h) (Nat.sub_one_lt_of_lt h)

theorem not_final_le {t : α} (h : k < nodes.size) (ht : t < nodes.x k) : ¬nodes.x nodes.final ≤ t :=
  OrderedScalar.not_le_of_lt (OrderedScalar.lt_of_lt_of_le ht (nodes.x_le_final h))

theorem eq_zero_of_le (h : k < nodes.size) (hle : nodes.x k ≤ nodes.x 0) : k = 0 := by
  by_contra hk
  exact OrderedScalar.not_le_of_lt (nodes.axis.value_lt (Nat.pos_of_ne_zero hk) h) hle

theorem eq_final_of_le (h : k < nodes.size) (hle : nodes.x nodes.final ≤ nodes.x k) : k = nodes.final := by
  by_contra hne
  have hlt : k < nodes.final := lt_of_le_of_ne (Nat.le_sub_one_of_lt h) hne
  exact OrderedScalar.not_le_of_lt (nodes.axis.value_lt hlt (Nat.sub_one_lt_of_lt h)) hle

theorem locate_x (h : k < nodes.size) :
    nodes.locate (nodes.x k) = if k = nodes.final then k - 1 else k := by
  have hlast : k + 1 = nodes.axis.values.length ↔ k = nodes.final := by
    unfold size at h
    unfold final size
    omega
  exact (nodes.axis.locate_value h).trans (by simp only [hlast])

theorem nodeValue_locate (h : k < nodes.size) :
    nodes.nodeValue? (nodes.locate (nodes.x k)) (nodes.x k) = some (nodes.y k) := by
  have htwo := nodes.two_le_size
  have hself : (nodes.x k == nodes.x k) = true := OrderedScalar.beq_self (nodes.axis.value_le_self h)
  unfold nodeValue?
  by_cases hlast : k = nodes.final
  · have hk : k - 1 + 1 = k := by
      unfold final at hlast
      omega
    have hne : (nodes.x k == nodes.x (k - 1)) = false :=
      OrderedScalar.beq_of_lt (nodes.axis.value_lt (by omega) h)
    rw [nodes.locate_x h, if_pos hlast, hne, hk, hself]
    rfl
  · rw [nodes.locate_x h, if_neg hlast, hself]
    rfl

end ordered

variable (nodes : Nodes ℝ)

theorem areaTo_congr {p q : Nat → ℝ} {i : Nat} (h : ∀ j < i, p j = q j) : areaTo p i = areaTo q i := by
  induction i with
  | zero => rfl
  | succ i ih =>
    rw [areaTo, areaTo, ih fun j hj => h j (by omega), h i (by omega)]

theorem areaTo_locate (integral : Nat → ℝ → ℝ) (hzero : ∀ j, integral j 0 = 0) {k : Nat}
    (h : k < nodes.size) :
    areaTo (fun j => integral j (nodes.width j)) (nodes.locate (nodes.x k)) +
        integral (nodes.locate (nodes.x k)) (nodes.x k - nodes.x (nodes.locate (nodes.x k))) =
      areaTo (fun j => integral j (nodes.width j)) k := by
  have htwo := nodes.two_le_size
  rw [nodes.locate_x h]
  split_ifs with hlast
  · obtain ⟨k, rfl⟩ : ∃ j, k = j + 1 := ⟨k - 1, by unfold final at hlast; omega⟩
    rw [Nat.add_sub_cancel, areaTo, width]
  · rw [sub_self, hzero, add_zero]

/-! ## Nodes that agree -/

/-- Two lists of nodes that both go up to node `k` and are the same up to there. -/
structure AgreeUpTo (k : Nat) (a b : Nodes ℝ) : Prop where
  left : k < a.size
  right : k < b.size
  x : ∀ i ≤ k, a.x i = b.x i
  y : ∀ i ≤ k, a.y i = b.y i

/-- Two lists of nodes that have the same interval for `t`, are the same up to its end, and have `t`
before it. -/
structure AgreeAround (i : Nat) (t : ℝ) (a b : Nodes ℝ) : Prop extends AgreeUpTo (i + 1) a b where
  locate_left : a.locate t = i
  locate_right : b.locate t = i
  before : t < a.x (i + 1)

variable {a b : Nodes ℝ} {i k : Nat} {t : ℝ}

theorem AgreeUpTo.mono (h : AgreeUpTo k a b) (hi : i ≤ k) : AgreeUpTo i a b :=
  ⟨hi.trans_lt h.left, hi.trans_lt h.right, fun j hj => h.x j (hj.trans hi),
    fun j hj => h.y j (hj.trans hi)⟩

theorem AgreeUpTo.around (h : AgreeUpTo k a b) (hk : 1 ≤ k) (ht : t < a.x k) :
    ∃ i < k, AgreeAround i t a b := by
  have belongs : a.axis.Belongs (a.locate t) t := a.axis.locate_spec t
  generalize hi : a.locate t = i at belongs
  obtain ⟨hbound, hleft, hright⟩ := belongs
  have hlt : i < k := by
    by_contra hge
    have hle : a.x k ≤ a.x i := a.axis.value_le (Nat.le_of_not_lt hge) (by omega)
    exact absurd ht (not_lt.mpr (hle.trans (hleft.resolve_left (by omega))))
  have hbefore : t < a.x (i + 1) := by
    rcases hright with hlast | hnext
    · have hk : i + 1 = k := by
        have : k < a.axis.values.length := h.left
        omega
      exact hk ▸ ht
    · exact hnext
  have hleft' : i = 0 ∨ b.x i ≤ t := by
    rw [← h.x i hlt.le]
    exact hleft
  have hright' : t < b.x (i + 1) := by
    rw [← h.x (i + 1) hlt]
    exact hbefore
  have hsize : k < b.axis.values.length := h.right
  have hi' : b.locate t = i := Axis.locate_eq ⟨by omega, hleft', .inr hright'⟩
  exact ⟨i, hlt, h.mono hlt, hi, hi', hbefore⟩

/-! ## Local functions of the nodes -/

/-- A value and a primitive that are those of the nodes at each node, `part` being the integral over an
interval, and that depend on the nodes up to the end of an interval inside it. -/
structure Local (value primitive : Nodes ℝ → ℝ → ℝ) (part : Nodes ℝ → Nat → ℝ) : Prop where
  value_x : ∀ nodes k, k < nodes.size → value nodes (nodes.x k) = nodes.y k
  primitive_x : ∀ nodes k, k < nodes.size → primitive nodes (nodes.x k) = areaTo (part nodes) k
  part_eq : ∀ a b j, AgreeUpTo (j + 1) a b → part a j = part b j
  value_eq : ∀ a b i t, AgreeAround i t a b → value a t = value b t
  primitive_eq : ∀ a b i t, AgreeAround i t a b → areaTo (part a) i = areaTo (part b) i →
    primitive a t = primitive b t

theorem Local.agree {value primitive : Nodes ℝ → ℝ → ℝ} {part : Nodes ℝ → Nat → ℝ}
    (hlocal : Local value primitive part) (h : AgreeUpTo k a b) (hk : 1 ≤ k) (ht : t ≤ a.x k) :
    value a t = value b t ∧ primitive a t = primitive b t := by
  have harea {i : Nat} (hi : i ≤ k) : areaTo (part a) i = areaTo (part b) i :=
    areaTo_congr fun j hj => hlocal.part_eq a b j (h.mono (by omega))
  rcases ht.eq_or_lt with rfl | ht
  · constructor
    · rw [hlocal.value_x a k h.left, h.x k le_rfl, hlocal.value_x b k h.right, h.y k le_rfl]
    · rw [hlocal.primitive_x a k h.left, h.x k le_rfl, hlocal.primitive_x b k h.right, harea le_rfl]
  · obtain ⟨i, hi, around⟩ := h.around hk ht
    exact ⟨hlocal.value_eq a b i t around, hlocal.primitive_eq a b i t around (harea hi.le)⟩

end Nodes

/-! ## The ordinates at the nodes -/

section ordered

variable {α : Type} [Scalar α] [OrderedScalar α] (nodes : Nodes α) {k : Nat}

theorem Linear.value_x (hk : k < nodes.size) : value nodes (nodes.x k) = nodes.y k := by
  simp only [value, nodes.nodeValue_locate hk]

theorem LogLinear.value_x (hk : k < nodes.size) : value nodes (nodes.x k) = nodes.y k := by
  simp only [value, nodes.nodeValue_locate hk]

theorem BackwardFlat.value_x (hk : k < nodes.size) : value nodes (nodes.x k) = nodes.y k := by
  unfold value
  split_ifs with hfirst
  · rw [nodes.eq_zero_of_le hk hfirst]
  · have hend := nodes.nodeValue_locate hk
    unfold Nodes.nodeValue? at hend
    simp only
    split_ifs at hend ⊢ <;> exact Option.some.inj hend

theorem ForwardFlat.value_x (hk : k < nodes.size) : value nodes (nodes.x k) = nodes.y k := by
  unfold value
  split_ifs with hlast
  · rw [nodes.eq_final_of_le hk hlast]
  · rw [nodes.locate_x hk, if_neg]
    rintro rfl
    exact hlast (nodes.x_le_final hk)

theorem Cubic.Spline.value_x (hk : k < nodes.size) : (ofNodes nodes).value (nodes.x k) = nodes.y k := by
  unfold value
  simp only [show (ofNodes nodes).nodes = nodes from rfl, nodes.nodeValue_locate hk]

/-- Every scheme passes through the nodes, without a rounding error. -/
theorem Scheme.interpolate_x {scheme : Scheme} {nodes : Nodes α} {f : Interpolation α}
    (hf : scheme.interpolate nodes = .ok f) (hk : k < nodes.size) : f.value (nodes.x k) = nodes.y k := by
  cases scheme with
  | linear =>
    cases hf
    exact Linear.value_x nodes hk
  | logLinear =>
    simp only [interpolate] at hf
    split at hf <;> cases hf
    exact LogLinear.value_x nodes hk
  | backwardFlat =>
    cases hf
    exact BackwardFlat.value_x nodes hk
  | forwardFlat =>
    cases hf
    exact ForwardFlat.value_x nodes hk
  | cubic =>
    cases hf
    exact Cubic.Spline.value_x nodes hk

end ordered

/-! ## The local schemes -/

open Nodes

theorem Linear.isLocal :
    Local value primitive fun nodes j => integral nodes j (nodes.width j) where
  value_x nodes k hk := value_x nodes hk
  primitive_x nodes k hk := nodes.areaTo_locate (integral nodes) (fun _ => zero_mul _) hk
  part_eq a b j h := by
    simp (disch := omega) only [integral, Nodes.slope, width, h.x, h.y]
  value_eq a b i t h := by
    simp (disch := omega) only [value, nodeValue?, Nodes.slope, width, h.locate_left, h.locate_right, h.x, h.y]
  primitive_eq a b i t h harea := by
    simp only [primitive, h.locate_left, h.locate_right, harea]
    simp (disch := omega) only [integral, Nodes.slope, width, h.x, h.y]

theorem LogLinear.growthIntegral_zero (start b : ℝ) : growthIntegral start b 0 = 0 := by
  unfold growthIntegral
  split
  · exact mul_zero start
  · have hone : (Scalar.exp (0 : ℝ) == 1) = true := beq_iff_eq.mpr Real.exp_zero
    simp [expMinusOne, abs_real, hone]

theorem LogLinear.isLocal :
    Local value primitive fun nodes j => integral nodes j (nodes.width j) where
  value_x nodes k hk := value_x nodes hk
  primitive_x nodes k hk := nodes.areaTo_locate (integral nodes) (fun _ => growthIntegral_zero _ _) hk
  part_eq a b j h := by
    simp (disch := omega) only [integral, rate, width, h.x, h.y]
  value_eq a b i t h := by
    simp (disch := omega) only [value, nodeValue?, rate, width, h.locate_left, h.locate_right, h.x, h.y]
  primitive_eq a b i t h harea := by
    simp only [primitive, h.locate_left, h.locate_right, harea]
    simp (disch := omega) only [integral, rate, width, h.x, h.y]

theorem BackwardFlat.isLocal :
    Local value primitive fun nodes j => nodes.width j * nodes.y (j + 1) where
  value_x nodes k hk := value_x nodes hk
  primitive_x nodes k hk := by
    unfold primitive
    split_ifs with hfirst
    · rw [nodes.eq_zero_of_le hk hfirst, sub_self, zero_mul, areaTo, lit_zero]
    · exact nodes.areaTo_locate (fun j dx => dx * nodes.y (j + 1)) (fun _ => zero_mul _) hk
  part_eq a b j h := by
    simp (disch := omega) only [width, h.x, h.y]
  value_eq a b i t h := by
    simp (disch := omega) only [value, h.locate_left, h.locate_right, h.x, h.y]
  primitive_eq a b i t h harea := by
    simp only [primitive, h.locate_left, h.locate_right, harea]
    simp (disch := omega) only [h.x, h.y]

theorem ForwardFlat.isLocal :
    Local value primitive fun nodes j => nodes.width j * nodes.y j where
  value_x nodes k hk := value_x nodes hk
  primitive_x nodes k hk := by
    unfold primitive
    simp only
    split_ifs with hlast
    · rw [nodes.eq_final_of_le hk hlast, sub_self, zero_mul, add_zero]
    · exact nodes.areaTo_locate (fun j dx => dx * nodes.y j) (fun _ => zero_mul _) hk
  part_eq a b j h := by
    simp (disch := omega) only [width, h.x, h.y]
  value_eq a b i t h := by
    rw [value, value, if_neg (a.not_final_le h.left h.before),
      if_neg (b.not_final_le h.right (h.x (i + 1) le_rfl ▸ h.before)), h.locate_left, h.locate_right,
      h.y i (by omega)]
  primitive_eq a b i t h harea := by
    simp only [primitive, if_neg (a.not_final_le h.left h.before), h.locate_left, h.locate_right, harea,
      if_neg (b.not_final_le h.right (h.x (i + 1) le_rfl ▸ h.before))]
    simp (disch := omega) only [h.x, h.y]

/-! ## The cubic scheme -/

namespace Cubic.Spline

variable {nodes : Nodes ℝ}

theorem moment_pair (h : nodes.size = 2) (i : Nat) : (ofNodes nodes).moment i = 0 := by
  have hmoments : (ofNodes nodes).moments = [0.0, 0.0] := by
    show Cubic.moments nodes = _
    rw [Cubic.moments, if_pos (by omega), h]
    rfl
  rw [moment, hmoments]
  match i with
  | 0 => exact lit_zero
  | 1 => exact lit_zero
  | _ + 2 => exact lit_zero

theorem a_pair (h : nodes.size = 2) (i : Nat) : (ofNodes nodes).a i = nodes.slope i := by
  simp only [a, moment_pair h, mul_zero, add_zero, zero_div, sub_zero]
  rfl

theorem b_pair (h : nodes.size = 2) (i : Nat) : (ofNodes nodes).b i = 0 := by
  simp [b, moment_pair h]

theorem c_pair (h : nodes.size = 2) (i : Nat) : (ofNodes nodes).c i = 0 := by
  simp [c, moment_pair h]

theorem value_pair (h : nodes.size = 2) : (ofNodes nodes).value = Linear.value nodes := by
  funext t
  simp only [value, a_pair h, b_pair h, c_pair h, Linear.value, mul_zero, add_zero]
  rw [mul_comm]
  rfl

theorem integral_pair (h : nodes.size = 2) (i : Nat) (dx : ℝ) :
    (ofNodes nodes).integral i dx = Linear.integral nodes i dx := by
  simp only [integral, a_pair h, b_pair h, c_pair h, Linear.integral, lit_two, lit_half, zero_div,
    mul_zero, add_zero]
  show dx * (nodes.y i + dx * (nodes.slope i / 2)) = _
  ring

theorem primitive_pair (h : nodes.size = 2) : (ofNodes nodes).primitive = Linear.primitive nodes := by
  funext t
  simp only [primitive, integral_pair h, Linear.primitive]
  rfl

theorem derivative_pair (h : nodes.size = 2) :
    (ofNodes nodes).derivative = Linear.derivative nodes := by
  funext t
  simp only [derivative, a_pair h, b_pair h, c_pair h, Linear.derivative, mul_zero, add_zero]
  rfl

end Cubic.Spline

/-! ## Schemes -/

theorem LogLinear.accepts_iff {ys : List ℝ} : accepts ys = true ↔ ∀ y ∈ ys, 0 < y := by
  simp only [accepts, lit_zero, List.all_eq_true, decide_eq_true_eq]

namespace Scheme

theorem interpolate_exists {α : Type} [Scalar α] {scheme : Scheme} {nodes : Nodes α}
    (haccepts : scheme = .logLinear → LogLinear.accepts nodes.ys = true) :
    ∃ f, scheme.interpolate nodes = .ok f := by
  cases scheme with
  | logLinear => exact ⟨_, if_pos (haccepts rfl)⟩
  | linear | backwardFlat | forwardFlat | cubic => exact ⟨_, rfl⟩

theorem interpolate_nodes {α : Type} [Scalar α] {scheme : Scheme} {nodes : Nodes α}
    {f : Interpolation α} (h : scheme.interpolate nodes = .ok f) : f.nodes = nodes := by
  cases scheme with
  | logLinear =>
    simp only [interpolate] at h
    split at h
    · cases h
      rfl
    · cases h
  | linear | backwardFlat | forwardFlat | cubic =>
    cases h
    rfl

theorem interpolate_high {α : Type} [Scalar α] [OrderedScalar α] {scheme : Scheme} {nodes : Nodes α}
    {f : Interpolation α} (hf : scheme.interpolate nodes = .ok f) : f.value f.high = f.lastValue := by
  obtain rfl := interpolate_nodes hf
  exact interpolate_x hf f.nodes.final_lt

theorem fit_exists {scheme : Scheme} {xs ys : List ℝ} (hsizes : xs.length = ys.length)
    (htwo : 2 ≤ xs.length) (hincreasing : xs.Pairwise (· < ·))
    (haccepts : scheme = .logLinear → LogLinear.accepts ys = true) :
    ∃ f, scheme.fit xs ys = .ok f ∧ f.nodes.axis.values = xs ∧ f.nodes.ys = ys := by
  obtain ⟨nodes, hnodes⟩ := Nodes.ofLists_exists hsizes htwo (disorder_of_pairwise hincreasing)
  obtain ⟨hx, hy⟩ := Nodes.ofLists_ok hnodes
  obtain ⟨f, hf⟩ := interpolate_exists fun h => hy.symm ▸ haccepts h
  obtain rfl := interpolate_nodes hf
  refine ⟨f, ?_, hx, hy⟩
  rw [fit, hnodes]
  exact hf

variable {a b : Nodes ℝ} {f g : Interpolation ℝ}

/-- Up to node `k` a local scheme depends on the nodes up to `k` alone. -/
theorem interpolate_agree {scheme : Scheme} (hlocal : scheme.isGlobal = false)
    (hf : scheme.interpolate a = .ok f) (hg : scheme.interpolate b = .ok g) {k : Nat} {t : ℝ}
    (h : AgreeUpTo k a b) (hk : 1 ≤ k) (ht : t ≤ a.x k) :
    f.value t = g.value t ∧ f.primitive t = g.primitive t := by
  cases scheme with
  | linear =>
    cases hf
    cases hg
    exact Linear.isLocal.agree h hk ht
  | logLinear =>
    simp only [interpolate] at hf hg
    split at hf <;> cases hf
    split at hg <;> cases hg
    exact LogLinear.isLocal.agree h hk ht
  | backwardFlat =>
    cases hf
    cases hg
    exact BackwardFlat.isLocal.agree h hk ht
  | forwardFlat =>
    cases hf
    cases hg
    exact ForwardFlat.isLocal.agree h hk ht
  | cubic => cases hlocal

/-- Over two nodes the cubic scheme is the line through them. -/
theorem interpolate_pair (h : a.size = 2) (hf : cubic.interpolate a = .ok f)
    (hg : linear.interpolate a = .ok g) :
    f.nodes = g.nodes ∧ f.value = g.value ∧ f.primitive = g.primitive ∧ f.derivative = g.derivative := by
  cases hf
  cases hg
  exact ⟨rfl, Cubic.Spline.value_pair h, Cubic.Spline.primitive_pair h, Cubic.Spline.derivative_pair h⟩

end Scheme

end RateCurves
