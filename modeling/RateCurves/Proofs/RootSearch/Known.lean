import RateCurves.Proofs.RootSearch.History

/-!
# Roots have been evaluated

Whatever the arithmetic, doubles included, a root that a solver returns is a point where the objective has
had a value (`Solver.root_known`). Each method only ever returns the point it has just looked at or one that
its state keeps from before, and the points a state keeps have all been looked at (`Method.Remembers`).
-/

namespace RateCurves

open Scalar Trial

variable {σ α : Type} {log : History α} {x y : α}

/-- The objective has had a value at `x`. -/
def Known (log : History α) (x : α) : Prop := ∃ y, Valued log x y

theorem Valued.known (h : Valued log x y) : Known log x := ⟨y, h⟩

theorem Known.tail (entry : α × Outcome α α) (h : Known log x) : Known (entry :: log) x :=
  h.imp fun _ hy => hy.tail entry

theorem Verdict.Meets.ite {S : Type} {Root : α → Prop} {Next : S → Prop} {c : Prop} [Decidable c]
    {v w : Verdict S α} (pos : v.Meets Root Next) (neg : w.Meets Root Next) :
    (if c then v else w).Meets Root Next := by
  split
  · exact pos
  · exact neg

variable [Scalar α]

/-- What one step of a method has to keep: the condition `J`, that the points in its state are known, holds at
the start and survives the value found at the next point, unless a known point is returned. -/
structure Method.Remembers (method : Method α) (J : History α → method.State → Prop) : Prop where
  start : ∀ log (b : Bracket α), Known log b.low → Known log b.high → J log (method.start b)
  tail : ∀ log state entry, J log state → J (entry :: log) state
  absorb : ∀ accuracy log state y, J log state → Known log (method.point state) →
    (method.absorb accuracy state y).Meets (Known log) (J log)

theorem Method.Remembers.search {method : Method α} {J : History α → method.State → Prop}
    (h : method.Remembers J) (f : Objective σ α) (accuracy : α) (budget left : Nat) (state : method.State) :
    Ensures (fun s : σ × History α => J s.2 state) (method.search f.logged accuracy budget left state)
      fun o s => ∀ r, o = .ok r → Known s.2 r := by
  refine Method.search_logged method accuracy budget J (fun o log => ∀ r, o = .ok r → Known log r)
    (fun _ _ _ => nofun) (fun _ _ _ _ => nofun) (fun _ _ _ _ _ => nofun) ?_ f left state
  intro log state y hJ _
  have next := h.absorb accuracy _ state y (h.tail log state _ hJ) (Valued.head log _ y).known
  revert next
  cases method.absorb accuracy state y with
  | root x =>
    rintro known _ ⟨⟩
    exact known
  | next state' => exact id

/-! ## The methods -/

theorem Bisection.remembers :
    (method : Method α).Remembers fun log (s : State α) => Known log s.root where
  start log b low high := by
    show Known log (start b).root
    unfold start
    split
    · exact low
    · exact high
  tail _ _ entry h := h.tail entry
  absorb accuracy log s y h hpoint := by
    have kept : Known log (if y ≤ 0.0 then s.root + s.width / 2.0 else s.root) := by
      split
      · exact hpoint
      · exact h
    exact .ite hpoint (.ite kept kept)

theorem FalsePosition.remembers : (method : Method α).Remembers fun _ _ => True where
  start _ _ _ _ := trivial
  tail _ _ _ _ := trivial
  absorb _ _ _ _ _ hpoint := .ite hpoint trivial

namespace Brent

/-- The points that Brent's method keeps besides the next one. -/
def Kept (log : History α) : State α → Prop
  | .opening b => Known log b.low ∧ Known log b.high
  | .running p => Known log p.previous ∧ Known log p.across

theorem opened_kept {b : Bracket α} (value : α) (low : Known log b.low) (high : Known log b.high) :
    (opened b value).root = b.guess ∧ Known log (opened b value).previous ∧
      Known log (opened b value).across := by
  by_cases h : value * b.atLow < 0.0
  · simp only [opened, if_pos h]
    exact ⟨trivial, low, low⟩
  · simp only [opened, if_neg h]
    exact ⟨trivial, high, high⟩

theorem turn_kept (accuracy : α) {p : Points α} (value : α) (root : Known log p.root)
    (previous : Known log p.previous) (across : Known log p.across) :
    (turn accuracy p value).Meets (Known log) (Kept log) := by
  have rebracketed : Known log (rebracket p value).root ∧ Known log (rebracket p value).across := by
    unfold rebracket
    split
    · exact ⟨root, previous⟩
    · exact ⟨root, across⟩
  have ordered : Known log (order (rebracket p value) value).1.root ∧
      Known log (order (rebracket p value) value).1.across := by
    unfold order
    split
    · exact rebracketed.symm
    · exact rebracketed
  exact .ite ordered.1 ordered

theorem remembers : (method : Method α).Remembers Kept where
  start _ _ low high := ⟨low, high⟩
  tail _ state entry h := by
    cases state with
    | opening b => exact ⟨h.1.tail entry, h.2.tail entry⟩
    | running p => exact ⟨h.1.tail entry, h.2.tail entry⟩
  absorb accuracy log state y h hpoint := by
    cases state with
    | opening b =>
      obtain ⟨root, previous, across⟩ := opened_kept y h.1 h.2
      exact turn_kept accuracy y (root ▸ hpoint) previous across
    | running p => exact turn_kept accuracy y hpoint h.1 h.2

end Brent

/-! ## Solvers -/

theorem Objective.evaluate_known (f : Objective σ α) {budget left : Nat} {x : α} {K : History α → Prop}
    (hK : ∀ log entry, K log → K (entry :: log)) {next : α → Trial (σ × History α) α α}
    (rest : ∀ y, Ensures (fun s => K s.2 ∧ Known s.2 x) (next y) fun o s => ∀ r, o = .ok r → Known s.2 r) :
    Ensures (fun s : σ × History α => K s.2) (f.logged.evaluate budget left x >>= next)
      fun o s => ∀ r, o = .ok r → Known s.2 r := by
  refine .bind (fun _ s => K s.2 ∧ Known s.2 x) ?_ rest
  rintro ⟨s, log⟩ hlog
  cases left with
  | zero => exact nofun
  | succ left =>
    rw [Objective.evaluate_succ, Objective.logged_apply]
    rcases f x s with ⟨e | y, s'⟩
    · exact nofun
    · cases hy : isNaN y with
      | true =>
        simp only [hy, if_true]
        exact nofun
      | false =>
        simp only [hy, Bool.false_eq_true, if_false]
        exact ⟨hK log _ hlog, (Valued.head log x y).known⟩

theorem Solver.solve_known (solver : Solver) {J : History α → (solver.algorithm.method (α := α)).State → Prop}
    (h : (solver.algorithm.method (α := α)).Remembers J) (f : Objective σ α) (accuracy guess low high : α) :
    Ensures (fun _ : σ × History α => True) (solver.solve f.logged accuracy guess low high)
      fun o s => ∀ r, o = .ok r → Known s.2 r := by
  unfold Solver.solve
  refine .guard (fun _ _ _ => nofun) fun _ => .guard (fun _ _ _ => nofun) fun _ => ?_
  refine f.evaluate_known (K := fun _ => True) (fun _ _ => id) fun atLow => ?_
  refine .ite (fun _ => .ofPure fun s hs r hr => Except.ok.inj hr ▸ hs.2) fun _ => ?_
  refine f.evaluate_known (K := fun log => True ∧ Known log low)
    (fun _ entry hK => ⟨trivial, hK.2.tail entry⟩) fun atHigh => ?_
  refine .ite (fun _ => .ofPure fun s hs r hr => Except.ok.inj hr ▸ hs.2) fun _ => ?_
  refine .ite (fun _ => .throw_bind fun _ _ => nofun) fun _ => ?_
  refine .guard (fun _ _ _ => nofun) fun _ => .guard (fun _ _ _ => nofun) fun _ => ?_
  exact fun s hs => h.search f _ _ _ _ s (h.start s.2 _ hs.1.2 hs.2)

/-- **A root has been evaluated.** Where a solver finds a root, the objective has had a value. -/
theorem Solver.root_known (solver : Solver) {f : Objective σ α} {accuracy guess low high r : α} {s : σ}
    (found : (solver.solve f accuracy guess low high s).1 = .ok r) :
    Known (solver.evaluations f accuracy guess low high s) r := by
  have run : ∀ r, (solver.solve f.logged accuracy guess low high (s, [])).1 = .ok r →
      Known (solver.evaluations f accuracy guess low high s) r := by
    obtain ⟨algorithm, budget⟩ := solver
    cases algorithm with
    | brent => exact Solver.solve_known ⟨.brent, budget⟩ Brent.remembers f _ _ _ _ (s, []) trivial
    | bisection => exact Solver.solve_known ⟨.bisection, budget⟩ Bisection.remembers f _ _ _ _ (s, []) trivial
    | falsePosition =>
      exact Solver.solve_known ⟨.falsePosition, budget⟩ FalsePosition.remembers f _ _ _ _ (s, []) trivial
  exact run r ((solver.solve_logged f accuracy guess low high s []).1.trans found)

end RateCurves
