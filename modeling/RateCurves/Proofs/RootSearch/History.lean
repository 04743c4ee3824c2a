import RateCurves.Proofs.Scalar.Real
import RateCurves.Proofs.RootSearch.Trial

/-!
# What a search has looked at

`Objective.logged` keeps every point an objective was evaluated at together with the outcome there;
apart from that a run with it is the run without it (`solve_logged`). `Solver.evaluations` is the
history of one call of a solver. In exact arithmetic a method is judged by what its states know from
the history: `Method.Brackets` collects what has to be shown for one method, step by step, and
`solve_brackets` concludes for a whole call that every point lies in the bracket and that a root that
is returned has been evaluated and is what the method promises.
-/

namespace RateCurves

open Scalar Trial

variable {σ α : Type}

/-- Points with the outcomes there, the latest first. -/
abbrev History (α : Type) := List (α × Outcome α α)

/-- The objective has had the value `y` at `x`. -/
def Valued (log : History α) (x y : α) : Prop := (x, .ok y) ∈ log

theorem Valued.head (log : History α) (x y : α) : Valued ((x, .ok y) :: log) x y := List.mem_cons_self

theorem Valued.tail {log : History α} {x y : α} (entry : α × Outcome α α) (h : Valued log x y) :
    Valued (entry :: log) x y :=
  List.mem_cons_of_mem _ h

/-- The same objective, which also keeps its history. -/
def Objective.logged (f : Objective σ α) : Objective (σ × History α) α := fun x (s, log) =>
  let (outcome, s) := f x s
  (outcome, s, (x, outcome) :: log)

theorem Objective.logged_apply (f : Objective σ α) (x : α) (s : σ) (log : History α) :
    f.logged x (s, log) = ((f x s).1, (f x s).2, (x, (f x s).1) :: log) := rfl

variable [Scalar α]

/-- The history of a call of a solver. -/
def Solver.evaluations (solver : Solver) (f : Objective σ α) (accuracy guess low high : α) (s : σ) :
    History α :=
  (solver.solve f.logged accuracy guess low high (s, [])).2.2

/-- Keeping the history changes neither the outcome nor the state of the objective. -/
theorem Solver.solve_logged (solver : Solver) (f : Objective σ α) (accuracy guess low high : α)
    (s : σ) (log : History α) :
    (solver.solve f.logged accuracy guess low high (s, log)).1 =
        (solver.solve f accuracy guess low high s).1 ∧
      (solver.solve f.logged accuracy guess low high (s, log)).2.1 =
        (solver.solve f accuracy guess low high s).2 := by
  have h : ∀ x, Simulates (fun (a : σ × History α) b => a.1 = b) (f.logged x) (f x) := by
    rintro x ⟨a, log⟩ _ rfl
    exact ⟨rfl, rfl⟩
  exact Solver.solve_simulates h solver accuracy guess low high (s, log) s rfl

theorem Solver.solve_keeps {I : σ → Prop} {f : Objective σ α} (h : ∀ x s, I s → I (f x s).2)
    (solver : Solver) (accuracy guess low high : α) {s : σ} (hs : I s) :
    I (solver.solve f accuracy guess low high s).2 := by
  have hf : ∀ x, Simulates (fun a b => a = b ∧ I a) (f x) (f x) := by
    rintro x a _ ⟨rfl, ha⟩
    exact ⟨rfl, rfl, h x a ha⟩
  exact (Solver.solve_simulates hf solver accuracy guess low high s s ⟨rfl, hs⟩).2.2

/-- Of an objective that keeps `I` and then answers as `G` says, every answer in the history is as
`G` says. -/
theorem Solver.evaluations_of_keeps {I : σ → Prop} {G : α → Outcome α α → Prop} {f : Objective σ α}
    (h : ∀ x s, I s → I (f x s).2 ∧ G x (f x s).1) (solver : Solver) (accuracy guess low high : α)
    {s : σ} (hs : I s) :
    ∀ entry ∈ solver.evaluations f accuracy guess low high s, G entry.1 entry.2 := by
  have step : ∀ x (s : σ × History α), (I s.1 ∧ ∀ entry ∈ s.2, G entry.1 entry.2) →
      (I (f.logged x s).2.1 ∧ ∀ entry ∈ (f.logged x s).2.2, G entry.1 entry.2) := by
    rintro x ⟨s, log⟩ ⟨hs, hlog⟩
    rw [Objective.logged_apply]
    refine ⟨(h x s hs).1, fun entry member => ?_⟩
    rcases List.mem_cons.mp member with rfl | member
    · exact (h x s hs).2
    · exact hlog entry member
  exact (Solver.solve_keeps step solver accuracy guess low high (s := (s, []))
    ⟨hs, fun _ member => absurd member List.not_mem_nil⟩).2

/-! ## Searches with a history -/

/-- What is asked of a verdict: `Root` of a root, and `Next` of a state that goes on. -/
def Verdict.Meets {S : Type} (Root : α → Prop) (Next : S → Prop) : Verdict S α → Prop
  | .root x => Root x
  | .next state => Next state

/-- A search ends as `Q` says if a condition `J` on state and history survives every evaluation that
lets the search go on, and gives `Q` where the search ends. -/
theorem Method.search_logged (method : Method α) (accuracy : α) (budget : Nat)
    (J : History α → method.State → Prop) (Q : Outcome α α → History α → Prop)
    (spent : ∀ log state, J log state → Q (.error (.budgetExhausted budget)) log)
    (failed : ∀ log state e, J log state → Q (.error e) ((method.point state, .error e) :: log))
    (nan : ∀ log state y, J log state → isNaN y = true →
      Q (.error (.notANumberAt (method.point state))) ((method.point state, .ok y) :: log))
    (turn : ∀ log state y, J log state → isNaN y = false →
      (method.absorb accuracy state y).Meets
        (fun x => Q (.ok x) ((method.point state, .ok y) :: log))
        (J ((method.point state, .ok y) :: log)))
    (f : Objective σ α) (left : Nat) :
    ∀ state, Ensures (fun s : σ × History α => J s.2 state)
      (method.search f.logged accuracy budget left state) fun o s => Q o s.2 := by
  induction left with
  | zero => exact fun state => .ofThrow fun s hs => spent s.2 state hs
  | succ left ih =>
    rintro state ⟨s, log⟩ hs
    rw [Method.search, bind_apply, Objective.evaluate_succ, Objective.logged_apply]
    rcases f (method.point state) s with ⟨e | y, s'⟩
    · exact failed log state e hs
    · cases hy : isNaN y with
      | true =>
        simp only [hy, if_true]
        exact nan log state y hs hy
      | false =>
        have next := turn log state y hs hy
        simp only [hy, Bool.false_eq_true, if_false]
        revert next
        cases method.absorb accuracy state y with
        | root x => exact id
        | next state' => exact ih state' (s', _)

/-! ## Methods in exact arithmetic -/

section exact

/-- All points of the history lie between `low` and `high`. -/
def Inside (low high : ℝ) (log : History ℝ) : Prop := ∀ entry ∈ log, low ≤ entry.1 ∧ entry.1 ≤ high

theorem Inside.nil (low high : ℝ) : Inside low high [] := fun _ member => absurd member List.not_mem_nil

theorem Inside.cons {low high x : ℝ} {o : Outcome ℝ ℝ} {log : History ℝ} (hx : low ≤ x ∧ x ≤ high)
    (h : Inside low high log) : Inside low high ((x, o) :: log) := by
  intro entry member
  rcases List.mem_cons.mp member with rfl | member
  · exact hx
  · exact h entry member

theorem Inside.of_valued {low high x y : ℝ} {log : History ℝ} (h : Inside low high log)
    (hx : Valued log x y) : low ≤ x ∧ x ≤ high := h _ hx

/-- The bracket a method starts from: its ends have been evaluated, the values there have opposite
signs, and the guess lies inside. -/
structure Bracket.Proper (log : History ℝ) (low high : ℝ) (b : Bracket ℝ) : Prop where
  low_eq : b.low = low
  high_eq : b.high = high
  atLow : Valued log low b.atLow
  atHigh : Valued log high b.atHigh
  opposite : b.atLow * b.atHigh < 0
  low_lt : low < b.guess
  lt_high : b.guess < high

theorem Bracket.Proper.tail {log : History ℝ} {low high : ℝ} {b : Bracket ℝ}
    (entry : ℝ × Outcome ℝ ℝ) (h : b.Proper log low high) : b.Proper (entry :: log) low high :=
  { h with atLow := h.atLow.tail entry, atHigh := h.atHigh.tail entry }

/-- A root that has been evaluated and is either close to a zero or as `Found` says. -/
def Accepted (Found : History ℝ → ℝ → ℝ → Prop) (log : History ℝ) (x : ℝ) : Prop :=
  ∃ v, Valued log x v ∧ (close v 0 = true ∨ Found log x v)

/-- How far from a root at `x` a sign change may lie. -/
noncomputable def reach (accuracy x : ℝ) : ℝ := accuracy + 4 * epsilon * |x|

/-- What one step of a method has to keep: the condition `J` on its states holds at the start, makes
the next point lie in the bracket, and survives the value found there unless a root is accepted. -/
structure Method.Brackets (method : Method ℝ) (accuracy low high : ℝ)
    (J : History ℝ → method.State → Prop) (Found : History ℝ → ℝ → ℝ → Prop) : Prop where
  start : ∀ log b, b.Proper log low high → J log (method.start b)
  tail : ∀ log state entry, J log state → J (entry :: log) state
  point : ∀ log state, Inside low high log → J log state →
    low ≤ method.point state ∧ method.point state ≤ high
  absorb : ∀ log state y, Inside low high log → J log state → Valued log (method.point state) y →
    (method.absorb accuracy state y).Meets (Accepted Found log) (J log)

/-- How a call of a solver ends: all points lie in the bracket, and a root has been accepted. -/
def Solver.Ends (Found : History ℝ → ℝ → ℝ → Prop) (low high : ℝ) (o : Outcome ℝ ℝ)
    (log : History ℝ) : Prop :=
  Inside low high log ∧ ∀ x, o = .ok x → Accepted Found log x

variable {accuracy low high : ℝ} {Found : History ℝ → ℝ → ℝ → Prop}

theorem Solver.Ends.error {log : History ℝ} (h : Inside low high log) (e : Failure ℝ) :
    Solver.Ends Found low high (.error e) log := ⟨h, nofun⟩

theorem Solver.Ends.root {log : History ℝ} {x : ℝ} (h : Inside low high log)
    (hx : Accepted Found log x) : Solver.Ends Found low high (.ok x) log := by
  refine ⟨h, ?_⟩
  rintro _ ⟨⟩
  exact hx

theorem Method.Brackets.search {method : Method ℝ} {J : History ℝ → method.State → Prop}
    (h : method.Brackets accuracy low high J Found) (f : Objective σ ℝ) (budget left : Nat)
    (b : Bracket ℝ) :
    Ensures (fun s : σ × History ℝ => Inside low high s.2 ∧ b.Proper s.2 low high)
      (method.search f.logged accuracy budget left (method.start b))
      fun o s => Solver.Ends Found low high o s.2 := by
  have run := Method.search_logged method accuracy budget
    (fun log state => Inside low high log ∧ J log state) (Solver.Ends Found low high)
    (fun log _ hJ => .error hJ.1 _)
    (fun log state e hJ => .error (.cons (h.point log state hJ.1 hJ.2) hJ.1) e)
    (fun log state y hJ _ => .error (.cons (h.point log state hJ.1 hJ.2) hJ.1) _)
    ?_ f left (method.start b)
  · exact fun s hs => run s ⟨hs.1, h.start s.2 b hs.2⟩
  · rintro log state y ⟨inside, hJ⟩ -
    have inside' : Inside low high ((method.point state, .ok y) :: log) :=
      .cons (h.point log state inside hJ) inside
    have next := h.absorb _ state y inside' (h.tail log state _ hJ) (.head log _ y)
    revert next
    cases method.absorb accuracy state y with
    | root x => exact fun accepted => .root inside' accepted
    | next state' => exact fun hJ' => ⟨inside', hJ'⟩

theorem Objective.evaluate_inside {f : Objective σ ℝ} {budget left : Nat} {x : ℝ}
    (hx : low ≤ x ∧ x ≤ high) (K : History ℝ → Prop) (hK : ∀ log entry, K log → K (entry :: log))
    {next : ℝ → Trial (σ × History ℝ) ℝ ℝ}
    (rest : ∀ y, Ensures (fun s => Inside low high s.2 ∧ K s.2 ∧ Valued s.2 x y) (next y)
      fun o s => Solver.Ends Found low high o s.2) :
    Ensures (fun s : σ × History ℝ => Inside low high s.2 ∧ K s.2)
      (f.logged.evaluate budget left x >>= next) fun o s => Solver.Ends Found low high o s.2 := by
  refine .bind (fun y s => Inside low high s.2 ∧ K s.2 ∧ Valued s.2 x y) ?_ rest
  rintro ⟨s, log⟩ ⟨inside, hlog⟩
  cases left with
  | zero => exact .error inside _
  | succ left =>
    rw [Objective.evaluate_succ, Objective.logged_apply]
    rcases f x s with ⟨e | y, s'⟩
    · exact .error (.cons hx inside) e
    · simp only [isNaN_real, Bool.false_eq_true, if_false]
      exact ⟨.cons hx inside, hK log _ hlog, .head log x y⟩

/-- A call of a solver whose method brackets stays in the bracket and returns accepted roots. -/
theorem Solver.solve_brackets (solver : Solver) (f : Objective σ ℝ) (accuracy guess : ℝ) (s : σ)
    {J : History ℝ → (solver.algorithm.method (α := ℝ)).State → Prop}
    (h : solver.algorithm.method.Brackets (Max.max accuracy epsilon) low high J Found) :
    Solver.Ends Found low high (solver.solve f accuracy guess low high s).1
      (solver.evaluations f accuracy guess low high s) := by
  have run : Ensures (fun s : σ × History ℝ => Inside low high s.2 ∧ True)
      (solver.solve f.logged accuracy guess low high)
      fun o s => Solver.Ends Found low high o s.2 := by
    unfold Solver.solve
    refine .guard (fun _ s hs => .error hs.1 _) fun _ => ?_
    refine .guard (fun _ s hs => .error hs.1 _) fun proper => ?_
    simp only [decide_eq_true_eq, lit_zero] at proper ⊢
    have start : low ≤ low ∧ low ≤ high := ⟨le_refl low, proper.le⟩
    have stop : low ≤ high ∧ high ≤ high := ⟨proper.le, le_refl high⟩
    refine Objective.evaluate_inside start (fun _ => True) (fun _ _ => id) fun atLow => ?_
    refine .ite (fun closed => .ofPure fun s hs => ?_) fun openLow => ?_
    · exact .root hs.1 ⟨atLow, hs.2.2, .inl closed⟩
    refine Objective.evaluate_inside stop (fun log => True ∧ Valued log low atLow)
      (fun _ _ hK => ⟨trivial, hK.2.tail _⟩) fun atHigh => ?_
    refine .ite (fun closed => .ofPure fun s hs => ?_) fun openHigh => ?_
    · exact .root hs.1 ⟨atHigh, hs.2.2, .inl closed⟩
    refine .ite (fun _ => .throw_bind fun s hs => .error hs.1 _) fun crossing => ?_
    refine .guard (fun _ s hs => .error hs.1 _) fun above => ?_
    refine .guard (fun _ s hs => .error hs.1 _) fun below => ?_
    simp only [decide_eq_true_eq] at above below
    simp only [Bool.not_eq_true] at openLow openHigh
    rw [not_lt] at crossing
    have nonzero : atLow * atHigh ≠ 0 :=
      mul_ne_zero (ne_zero_of_not_close openLow) (ne_zero_of_not_close openHigh)
    rw [max_real]
    rintro s ⟨inside, ⟨-, hLow⟩, hHigh⟩
    exact h.search f _ _ _ s
      ⟨inside, rfl, rfl, hLow, hHigh, lt_of_le_of_ne crossing nonzero, above, below⟩
  have ends := run (s, []) ⟨.nil low high, trivial⟩
  rwa [(Solver.solve_logged solver f accuracy guess low high s []).1] at ends

/-! ## Functions of the real numbers -/

/-- A function of the real numbers, as an objective that never fails and has no state. -/
noncomputable def Objective.ofReal (f : ℝ → ℝ) : Objective Unit ℝ :=
  Objective.ofFunction fun x => .ok (f x)

theorem Solver.evaluations_ofReal (solver : Solver) (f : ℝ → ℝ) (accuracy guess low high : ℝ) :
    ∀ entry ∈ solver.evaluations (Objective.ofReal f) accuracy guess low high (),
      entry.2 = .ok (f entry.1) :=
  Solver.evaluations_of_keeps (I := fun _ => True) (G := fun x o => o = .ok (f x))
    (fun _ _ _ => ⟨trivial, rfl⟩) solver accuracy guess low high trivial

theorem Solver.valued_ofReal {solver : Solver} {f : ℝ → ℝ} {accuracy guess low high x y : ℝ}
    (h : Valued (solver.evaluations (Objective.ofReal f) accuracy guess low high ()) x y) :
    y = f x := by
  have := solver.evaluations_ofReal f accuracy guess low high _ h
  exact Except.ok.inj this

theorem Objective.evaluate_ofReal (f : ℝ → ℝ) (budget left : Nat) (x : ℝ) :
    (Objective.ofReal f).evaluate budget (left + 1) x () = (.ok (f x), ()) := by
  rw [Objective.evaluate_succ]
  simp [Objective.ofReal, Objective.ofFunction, ofOutcome_apply]

theorem Method.search_ofReal (method : Method ℝ) (f : ℝ → ℝ) (accuracy : ℝ) (budget left : Nat)
    (state : method.State) :
    method.search (Objective.ofReal f) accuracy budget (left + 1) state () =
      match method.absorb accuracy state (f (method.point state)) with
      | .root x => (.ok x, ())
      | .next state => method.search (Objective.ofReal f) accuracy budget left state () := by
  rw [Method.search, bind_apply, Objective.evaluate_ofReal]
  simp only
  cases method.absorb accuracy state (f (method.point state)) <;> rfl

theorem Solver.solve_ofReal (algorithm : Algorithm) (budget : Nat) {f : ℝ → ℝ}
    {accuracy guess low high : ℝ} (positive : 0 < accuracy) (above : low < guess) (below : guess < high)
    (openLow : close (f low) 0 = false) (openHigh : close (f high) 0 = false)
    (crossing : f low * f high < 0) :
    (Solver.mk algorithm (budget + 2)).solve (Objective.ofReal f) accuracy guess low high () =
      algorithm.method.search (Objective.ofReal f) (Max.max accuracy epsilon) (budget + 2) budget
        (algorithm.method.start ⟨low, high, f low, f high, guess⟩) () := by
  have proper := above.trans below
  have one_left : budget + 2 - 1 = budget + 1 := rfl
  unfold Solver.solve
  simp only [bind_apply, one_left, Objective.evaluate_ofReal, ofOutcome_apply, Outcome.require, lit_zero,
    max_real, positive, proper, above, below, openLow, openHigh, crossing.le.not_gt, decide_true,
    Bool.false_eq_true, if_true, if_false, Nat.add_sub_cancel]

end exact

end RateCurves
