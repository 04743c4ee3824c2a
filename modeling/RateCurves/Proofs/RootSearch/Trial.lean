import RateCurves.RootSearch.Solver

/-!
# Reasoning about trials

Two ways to follow a trial from its first state to its outcome. `Ensures P t Q` says that from every
state that satisfies `P`, the outcome and the last state of `t` satisfy `Q`. `Agrees counts R t u` says
that from states related by `R`, the trials `t` and `u` have the same outcome and end in states related
by `R`, wherever `t` does not fail with a cause that does not count: if no cause counts, `u` succeeds
wherever `t` does, and if all causes do, the trials simulate each other. Both are carried through the
steps of a trial, through an evaluation, and through a search by induction on the evaluations left;
`solve_agrees` carries the second one through a whole call of a solver.
-/

namespace RateCurves

open Scalar

variable {σ τ α β γ : Type}

namespace Trial

theorem bind_apply (t : Trial σ α β) (next : β → Trial σ α γ) (s : σ) :
    (t >>= next) s = match t s with
      | (.ok v, s) => next v s
      | (.error e, s) => (.error e, s) := by
  show (ExceptT.bindCont next (t s).1 : StateM σ (Outcome α γ)) (t s).2 = _
  rcases t s with ⟨_ | _, _⟩ <;> rfl

theorem bind_ok {t : Trial σ α β} {next : β → Trial σ α γ} {s : σ} {v : γ}
    (h : ((t >>= next) s).1 = .ok v) : ∃ u, (t s).1 = .ok u ∧ (next u (t s).2).1 = .ok v := by
  rw [bind_apply] at h
  rcases ht : t s with ⟨e | u, s'⟩
  · rw [ht] at h
    cases h
  · rw [ht] at h
    exact ⟨u, rfl, h⟩

theorem bind_answer {t : Trial σ α β} {next : β → Trial σ α γ} {o : Outcome α β} {next' : β → Outcome α γ}
    {s : σ} (first : (t s).1 = o) (rest : ∀ v s, (next v s).1 = next' v) :
    ((t >>= next) s).1 = o >>= next' := by
  rw [bind_apply, ← first]
  rcases t s with ⟨e | v, s'⟩
  · rfl
  · exact rest v s'

theorem ofOutcome_apply (o : Outcome α β) (s : σ) : (ofOutcome o : Trial σ α β) s = (o, s) := rfl

/-! ## Conditions on the states -/

/-- From every state that satisfies `P`, the outcome and the last state satisfy `Q`. -/
def Ensures (P : σ → Prop) (t : Trial σ α β) (Q : Outcome α β → σ → Prop) : Prop :=
  ∀ s, P s → Q (t s).1 (t s).2

namespace Ensures

variable {P : σ → Prop} {Q : Outcome α β → σ → Prop}

theorem ofPure {v : β} (h : ∀ s, P s → Q (.ok v) s) : Ensures P (pure v : Trial σ α β) Q := h

theorem ofThrow {e : Failure α} (h : ∀ s, P s → Q (.error e) s) :
    Ensures P (throw e : Trial σ α β) Q := h

theorem bind {t : Trial σ α γ} {next : γ → Trial σ α β} (middle : γ → σ → Prop)
    (first : Ensures P t fun o s => match o with
      | .ok v => middle v s
      | .error e => Q (.error e) s)
    (rest : ∀ v, Ensures (middle v) (next v) Q) : Ensures P (t >>= next) Q := by
  intro s hs
  have h := first s hs
  rw [bind_apply]
  revert h
  rcases t s with ⟨e | v, s'⟩
  · exact id
  · exact rest v s'

theorem throw_bind {e : Failure α} {next : γ → Trial σ α β} (h : ∀ s, P s → Q (.error e) s) :
    Ensures P ((throw e : Trial σ α γ) >>= next) Q := h

theorem guard {condition : Bool} {cause : Failure α} {next : Unit → Trial σ α β}
    (refused : condition = false → ∀ s, P s → Q (.error cause) s)
    (passed : condition = true → Ensures P (next ()) Q) :
    Ensures P (ofOutcome (Outcome.require condition cause) >>= next) Q := by
  intro s hs
  rw [bind_apply, ofOutcome_apply]
  cases condition with
  | false => exact refused rfl s hs
  | true => exact passed rfl s hs

theorem ite {c : Prop} [Decidable c] {t u : Trial σ α β} (pos : c → Ensures P t Q)
    (neg : ¬c → Ensures P u Q) : Ensures P (if c then t else u) Q := by
  split
  · exact pos ‹c›
  · exact neg ‹¬c›

end Ensures

/-! ## Pairs of trials -/

/-- From related states, the same outcome and related states, unless the first trial fails with a cause
that does not count. -/
def Agrees (counts : Failure α → Prop) (R : σ → τ → Prop) (t : Trial σ α β) (u : Trial τ α β) : Prop :=
  ∀ s s', R s s' → (∀ e, (t s).1 = .error e → counts e) → (t s).1 = (u s').1 ∧ R (t s).2 (u s').2

namespace Agrees

variable {counts : Failure α → Prop} {R : σ → τ → Prop}

theorem ofPure (v : β) : Agrees counts R (pure v : Trial σ α β) (pure v) := fun _ _ h _ => ⟨rfl, h⟩

theorem ofThrow (e : Failure α) : Agrees counts R (throw e : Trial σ α β) (throw e) :=
  fun _ _ h _ => ⟨rfl, h⟩

theorem ofOutcome (o : Outcome α β) :
    Agrees counts R (Trial.ofOutcome o : Trial σ α β) (Trial.ofOutcome o) :=
  fun _ _ h _ => ⟨rfl, h⟩

theorem bind {t : Trial σ α γ} {u : Trial τ α γ} {next : γ → Trial σ α β} {next' : γ → Trial τ α β}
    (first : Agrees counts R t u) (rest : ∀ v, Agrees counts R (next v) (next' v)) :
    Agrees counts R (t >>= next) (u >>= next') := by
  intro s s' hs
  have first := first s s' hs
  rw [bind_apply, bind_apply]
  revert first
  rcases t s with ⟨o, q⟩
  rcases u s' with ⟨o', q'⟩
  intro first hcounts
  cases o with
  | error e =>
    -- the whole trial fails with the same cause
    obtain ⟨same, related⟩ := first fun e' he' => hcounts e' (by cases he'; rfl)
    obtain rfl : .error e = o' := same
    exact ⟨rfl, related⟩
  | ok v =>
    obtain ⟨same, related⟩ := first nofun
    obtain rfl : .ok v = o' := same
    exact rest v q q' related hcounts

theorem ite {c : Prop} [Decidable c] {t t' : Trial σ α β} {u u' : Trial τ α β}
    (pos : Agrees counts R t u) (neg : Agrees counts R t' u') :
    Agrees counts R (if c then t else t') (if c then u else u') := by
  split
  · exact pos
  · exact neg

end Agrees

/-- From related states, the same outcome and related states. -/
def Simulates (R : σ → τ → Prop) (t : Trial σ α β) (u : Trial τ α β) : Prop :=
  ∀ s s', R s s' → (t s).1 = (u s').1 ∧ R (t s).2 (u s').2

theorem simulates_iff {R : σ → τ → Prop} {t : Trial σ α β} {u : Trial τ α β} :
    Simulates R t u ↔ Agrees (fun _ => True) R t u :=
  ⟨fun h s s' hs _ => h s s' hs, fun h s s' hs => h s s' hs fun _ _ => trivial⟩

end Trial

variable [Scalar α]

open Trial

/-! ## Evaluations -/

theorem Objective.evaluate_succ (f : Objective σ α) (budget left : Nat) (x : α) (s : σ) :
    f.evaluate budget (left + 1) x s = match f x s with
      | (.ok y, s) => if isNaN y then (.error (.notANumberAt x), s) else (.ok y, s)
      | (.error e, s) => (.error e, s) := by
  rw [Objective.evaluate, bind_apply]
  rcases f x s with ⟨_ | y, s'⟩
  · rfl
  · cases h : isNaN y <;> simp [h] <;> rfl

theorem Objective.evaluate_ok {f : Objective σ α} {budget left : Nat} {x y : α} {s : σ}
    (h : (f.evaluate budget left x s).1 = .ok y) : f.evaluate budget left x s = f x s := by
  cases left with
  | zero => cases h
  | succ left =>
    rw [evaluate_succ] at h ⊢
    revert h
    rcases f x s with ⟨e | v, s'⟩
    · exact fun _ => rfl
    · cases hv : isNaN v with
      | true =>
        simp only [hv, if_true]
        exact nofun
      | false =>
        intro _
        simp only [hv, Bool.false_eq_true, if_false]

theorem Objective.evaluate_agrees {counts : Failure α → Prop} {R : σ → τ → Prop} {f : Objective σ α}
    {g : Objective τ α} (h : ∀ x, Agrees counts R (f x) (g x)) (budget left : Nat) (x : α) :
    Agrees counts R (f.evaluate budget left x) (g.evaluate budget left x) := by
  cases left with
  | zero => exact .ofThrow _
  | succ left =>
    exact (h x).bind fun y => .ite (.bind (.ofThrow _) fun _ => .ofPure y) (.ofPure y)

/-! ## Searches -/

/-- Searches with agreeing objectives agree. -/
theorem Method.search_agrees {counts : Failure α → Prop} {R : σ → τ → Prop} {f : Objective σ α}
    {g : Objective τ α} (h : ∀ x, Agrees counts R (f x) (g x)) (method : Method α) (accuracy : α)
    (budget left : Nat) :
    ∀ state, Agrees counts R (method.search f accuracy budget left state)
      (method.search g accuracy budget left state) := by
  induction left with
  | zero => exact fun _ => .ofThrow _
  | succ left ih =>
    intro state
    refine (Objective.evaluate_agrees h budget (left + 1) _).bind fun y => ?_
    cases method.absorb accuracy state y with
    | root x => exact .ofPure x
    | next state => exact ih state

theorem Solver.solve_agrees {counts : Failure α → Prop} {R : σ → τ → Prop} {f : Objective σ α}
    {g : Objective τ α} (h : ∀ x, Agrees counts R (f x) (g x)) (solver : Solver)
    (accuracy guess low high : α) :
    Agrees counts R (solver.solve f accuracy guess low high) (solver.solve g accuracy guess low high) := by
  unfold Solver.solve
  refine .bind (.ofOutcome _) fun _ => .bind (.ofOutcome _) fun _ => ?_
  refine .bind (Objective.evaluate_agrees h _ _ _) fun atLow => .ite (.ofPure _) ?_
  refine .bind (Objective.evaluate_agrees h _ _ _) fun atHigh => .ite (.ofPure _) ?_
  have search (b : Bracket α) := Method.search_agrees h (solver.algorithm.method (α := α))
    (max accuracy epsilon) solver.budget (solver.budget - 2) (solver.algorithm.method.start b)
  refine .ite (.bind (.ofThrow _) fun _ => ?_) ?_
  all_goals exact .bind (.ofOutcome _) fun _ => .bind (.ofOutcome _) fun _ => search _

/-- Solvers whose objectives simulate each other have the same outcome. -/
theorem Solver.solve_simulates {R : σ → τ → Prop} {f : Objective σ α} {g : Objective τ α}
    (h : ∀ x, Simulates R (f x) (g x)) (solver : Solver) (accuracy guess low high : α) :
    Simulates R (solver.solve f accuracy guess low high) (solver.solve g accuracy guess low high) :=
  simulates_iff.mpr (solve_agrees (fun x => simulates_iff.mp (h x)) solver accuracy guess low high)

end RateCurves
