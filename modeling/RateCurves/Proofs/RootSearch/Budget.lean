import RateCurves.Proofs.RootSearch.History

/-!
# What a call of a solver may spend

A call of a solver is one loop (`Solver.solve_eq`): a `Stage` says where it looks next, and each turn of
the loop spends one evaluation, whether it looks at an end of the bracket or where the method looks. So
the budget bounds the evaluations, an answer that is no number is the last one and decides the outcome
(`Call.run_spends`), and a budget that another evaluation would exceed is reported (`Call.run_cut`).
Nothing here is about exact arithmetic: the scalars are arbitrary.
-/

namespace RateCurves

open Scalar Trial

variable {σ α : Type} [Scalar α]

/-! ## The loop -/

/-- A method with the arguments of a call that have passed their checks. -/
structure Call (α : Type) where
  method : Method α
  accuracy : α
  guess : α
  low : α
  high : α

/-- What a call of a solver looks at next: an end of the bracket, or the point its method has chosen. -/
inductive Stage (State α : Type) where
  | low
  | high (atLow : α)
  | method (state : State)

namespace Call

variable (call : Call α)

def point : Stage call.method.State α → α
  | .low => call.low
  | .high _ => call.high
  | .method state => call.method.point state

/-- The bracket for the method, unless there is no sign change or the guess is not inside. -/
def bracket (atLow atHigh : α) : Outcome α (Bracket α) := do
  if 0.0 < atLow * atHigh then throw (.notBracketed call.low call.high atLow atHigh)
  Outcome.require (call.low < call.guess) (.guessTooLow call.guess call.low)
  Outcome.require (call.guess < call.high) (.guessTooHigh call.guess call.high)
  return { low := call.low, high := call.high, atLow, atHigh, guess := call.guess }

/-- What a value means at a stage: the call ends with an outcome, or the next stage follows. -/
def next : Stage call.method.State α → α → Outcome α α ⊕ Stage call.method.State α
  | .low, y => if close y 0.0 then .inl (.ok call.low) else .inr (.high y)
  | .high atLow, y =>
    if close y 0.0 then .inl (.ok call.high)
    else match call.bracket atLow y with
      | .error e => .inl (.error e)
      | .ok bracket => .inr (.method (call.method.start bracket))
  | .method state, y => match call.method.absorb call.accuracy state y with
    | .root x => .inl (.ok x)
    | .next state => .inr (.method state)

/-- Looks where the stage says and goes on until the call ends, with `left` evaluations left of the
budget. -/
def run (f : Objective σ α) (budget : Nat) :
    (left : Nat) → (stage : Stage call.method.State α) → Trial σ α α
  | 0, _ => throw (.budgetExhausted budget)
  | left + 1, stage => do
    let y ← f.evaluate budget (left + 1) (call.point stage)
    match call.next stage y with
    | .inl outcome => Trial.ofOutcome outcome
    | .inr stage => run f budget left stage

theorem run_method (f : Objective σ α) (budget left : Nat) (state : call.method.State) :
    call.run f budget left (.method state) =
      call.method.search f call.accuracy budget left state := by
  induction left generalizing state with
  | zero => rfl
  | succ left ih =>
    rw [run, Method.search]
    congr 1
    funext y
    simp only [next]
    cases call.method.absorb call.accuracy state y with
    | root x => rfl
    | next state => exact ih state

end Call

/-- The call of a solver with arguments that have passed their checks. -/
def Solver.call (solver : Solver) (accuracy guess low high : α) : Call α :=
  { method := solver.algorithm.method, accuracy := max accuracy epsilon, guess, low, high }

theorem Solver.solve_eq (solver : Solver) (f : Objective σ α) (accuracy guess low high : α) :
    solver.solve f accuracy guess low high = (do
      Trial.ofOutcome (Outcome.require (0.0 < accuracy) (.accuracyNotPositive accuracy))
      Trial.ofOutcome (Outcome.require (low < high) (.bracketReversed low high))
      (solver.call accuracy guess low high).run f solver.budget solver.budget .low) := by
  unfold solve
  refine bind_congr fun _ => bind_congr fun _ => ?_
  rcases solver.budget with _ | _ | budget
  · rfl
  · refine bind_congr fun atLow => ?_
    simp only [Call.next]
    split
    · rfl
    · rfl
  · refine bind_congr fun atLow => ?_
    simp only [Call.next]
    split
    · rfl
    refine bind_congr fun atHigh => ?_
    simp only [Call.next]
    split
    · rfl
    simp only [Call.bracket, call, Outcome.require]
    by_cases crossing : 0.0 < atLow * atHigh
    · rw [if_pos crossing, if_pos crossing]
      rfl
    rw [if_neg crossing, if_neg crossing]
    by_cases above : low < guess
    · by_cases below : guess < high
      · simp only [above, below, decide_true, if_true]
        exact (Call.run_method (solver.call accuracy guess low high) f _ _ _).symm
      · simp only [above, below, decide_true, decide_false, if_true, Bool.false_eq_true, if_false]
        rfl
    · simp only [above, decide_false, Bool.false_eq_true, if_false]
      rfl

/-! ## What the loop spends -/

/-- The answer is a number, so that a call goes on with it. -/
def Numeric (answer : Outcome α α) : Prop := ∃ y, answer = .ok y ∧ isNaN y = false

/-- All answers but the latest are numbers; a latest one that is no number decides the outcome. -/
structure Settled (o : Outcome α α) (log : History α) : Prop where
  earlier : ∀ entry ∈ log.tail, Numeric entry.2
  failed : ∀ x e, log.head? = some (x, .error e) → o = .error e
  nan : ∀ x y, log.head? = some (x, .ok y) → isNaN y = true → o = .error (.notANumberAt x)

namespace Settled

variable {o : Outcome α α} {log : History α}

theorem of_numeric (h : ∀ entry ∈ log, Numeric entry.2) (o : Outcome α α) : Settled o log where
  earlier entry member := h entry (List.mem_of_mem_tail member)
  failed x e head := by
    obtain ⟨y, hy, -⟩ := h _ (List.mem_of_head? head)
    cases hy
  nan x y head hnan := by
    obtain ⟨z, hz, hnum⟩ := h _ (List.mem_of_head? head)
    cases hz
    rw [hnan] at hnum
    cases hnum

theorem later_eq_nil (h : Settled o log) {later earlier : History α} {x : α} {answer : Outcome α α}
    (split : log = later ++ (x, answer) :: earlier) (hanswer : ¬Numeric answer) : later = [] := by
  cases later with
  | nil => rfl
  | cons first later =>
    refine absurd (h.earlier (x, answer) ?_) hanswer
    rw [split]
    exact List.mem_append_right later List.mem_cons_self

end Settled

namespace Call

variable (call : Call α) (f : Objective σ α)

theorem run_succ (budget left : Nat) (stage : Stage call.method.State α) (s : σ) (log : History α) :
    call.run f.logged budget (left + 1) stage (s, log) =
      match f (call.point stage) s with
      | (.error e, s) => (.error e, s, (call.point stage, .error e) :: log)
      | (.ok y, s) =>
        if isNaN y then
          (.error (.notANumberAt (call.point stage)), s, (call.point stage, .ok y) :: log)
        else match call.next stage y with
          | .inl outcome => (outcome, s, (call.point stage, .ok y) :: log)
          | .inr stage' =>
            call.run f.logged budget left stage' (s, (call.point stage, .ok y) :: log) := by
  rw [run, bind_apply, Objective.evaluate_succ, Objective.logged_apply]
  rcases f (call.point stage) s with ⟨e | y, s'⟩
  · rfl
  · cases hy : isNaN y with
    | true => simp only [hy, if_true]
    | false =>
      simp only [hy, Bool.false_eq_true, if_false]
      cases call.next stage y with
      | inl outcome => rfl
      | inr stage' => rfl

/-- The loop makes at most as many evaluations as are left, and an answer that is no number ends it. -/
theorem run_spends (budget left : Nat) :
    ∀ (stage : Stage call.method.State α) (s : σ) (log : History α), (∀ entry ∈ log, Numeric entry.2) →
      (call.run f.logged budget left stage (s, log)).2.2.length ≤ log.length + left ∧
        Settled (call.run f.logged budget left stage (s, log)).1
          (call.run f.logged budget left stage (s, log)).2.2 := by
  induction left with
  | zero => exact fun stage s log numeric => ⟨le_refl _, .of_numeric numeric _⟩
  | succ left ih =>
    intro stage s log numeric
    have one_more : log.length + 1 ≤ log.length + (left + 1) := by omega
    rw [run_succ]
    rcases f (call.point stage) s with ⟨e | y, s'⟩
    · refine ⟨one_more, numeric, ?_, ?_⟩
      · rintro x e ⟨⟩
        rfl
      · rintro x y ⟨⟩
    by_cases hy : isNaN y = true
    · simp only [hy, if_true]
      refine ⟨one_more, numeric, ?_, ?_⟩
      · rintro x e ⟨⟩
      · rintro x y ⟨⟩ -
        rfl
    have numeric' : ∀ entry ∈ (call.point stage, .ok y) :: log, Numeric entry.2 := by
      intro entry member
      rcases List.mem_cons.mp member with rfl | member
      · exact ⟨y, rfl, Bool.eq_false_of_not_eq_true hy⟩
      · exact numeric entry member
    simp only [hy, Bool.false_eq_true, if_false]
    cases call.next stage y with
    | inl outcome => exact ⟨one_more, .of_numeric numeric' outcome⟩
    | inr stage' =>
      obtain ⟨within, settled⟩ := ih stage' s' _ numeric'
      rw [List.length_cons, Nat.add_right_comm] at within
      exact ⟨within, settled⟩

/-- If the loop makes more evaluations under a larger budget than are left, it exceeds this one. -/
theorem run_cut (budget more left : Nat) :
    ∀ (stage : Stage call.method.State α) (s : σ) (log : History α),
      log.length + left < (call.run f.logged (budget + more) (left + more) stage (s, log)).2.2.length →
      (call.run f.logged budget left stage (s, log)).1 = .error (.budgetExhausted budget) := by
  induction left with
  | zero => exact fun _ _ _ _ => rfl
  | succ left ih =>
    intro stage s log
    rw [show left + 1 + more = left + more + 1 by omega, run_succ, run_succ]
    rcases f (call.point stage) s with ⟨e | y, s'⟩
    · intro longer
      simp only [List.length_cons] at longer
      omega
    by_cases hy : isNaN y = true
    · intro longer
      simp only [hy, if_true, List.length_cons] at longer
      omega
    simp only [hy, Bool.false_eq_true, if_false]
    cases call.next stage y with
    | inl outcome =>
      intro longer
      simp only [List.length_cons] at longer
      omega
    | inr stage' =>
      intro longer
      refine ih stage' s' _ ?_
      rwa [List.length_cons, Nat.add_right_comm]

end Call

/-! ## Calls of a solver -/

namespace Solver

variable (solver : Solver) (f : Objective σ α) {accuracy low high : α} (s : σ)

theorem solve_refused (guess : α) (h : ¬0.0 < accuracy ∨ ¬low < high) :
    ∃ e, solver.solve f accuracy guess low high s = (.error e, s) ∧ e.kind = .configuration := by
  rw [solve_eq]
  by_cases positive : 0.0 < accuracy
  · have reversed : ¬low < high := h.resolve_left (not_not_intro positive)
    refine ⟨.bracketReversed low high, ?_, rfl⟩
    simp only [Outcome.require, positive, reversed, decide_true, decide_false, if_true,
      Bool.false_eq_true, if_false]
    rfl
  · refine ⟨.accuracyNotPositive accuracy, ?_, rfl⟩
    simp only [Outcome.require, positive, decide_false, Bool.false_eq_true, if_false]
    rfl

theorem solve_admitted (guess : α) (positive : 0.0 < accuracy) (proper : low < high) :
    solver.solve f accuracy guess low high s =
      (solver.call accuracy guess low high).run f solver.budget solver.budget .low s := by
  rw [solve_eq]
  simp only [Outcome.require, positive, proper, decide_true, if_true]
  rfl

theorem evaluations_settled (accuracy guess low high : α) :
    (solver.evaluations f accuracy guess low high s).length ≤ solver.budget ∧
      Settled (solver.solve f accuracy guess low high s).1
        (solver.evaluations f accuracy guess low high s) := by
  rw [← (solver.solve_logged f accuracy guess low high s []).1]
  unfold evaluations
  by_cases h : 0.0 < accuracy ∧ low < high
  · rw [solver.solve_admitted f.logged (s, []) guess h.1 h.2]
    have spends := (solver.call accuracy guess low high).run_spends f solver.budget solver.budget .low s []
      fun _ member => absurd member List.not_mem_nil
    rwa [List.length_nil, Nat.zero_add] at spends
  · obtain ⟨e, refused, -⟩ := solver.solve_refused f.logged (s, []) guess (not_and_or.mp h)
    rw [refused]
    exact ⟨Nat.zero_le _, .of_numeric (fun _ member => absurd member List.not_mem_nil) _⟩

/-- A call that makes more evaluations under a larger budget exceeds this one. -/
theorem solve_exhausted (accuracy guess low high : α) {more : Nat}
    (longer : solver.budget <
      (Solver.evaluations ⟨solver.algorithm, solver.budget + more⟩ f accuracy guess low high s).length) :
    (solver.solve f accuracy guess low high s).1 = .error (.budgetExhausted solver.budget) := by
  rw [← (solver.solve_logged f accuracy guess low high s []).1]
  unfold evaluations at longer
  by_cases h : 0.0 < accuracy ∧ low < high
  · rw [solve_admitted _ _ _ _ h.1 h.2] at longer ⊢
    refine (solver.call accuracy guess low high).run_cut f solver.budget more solver.budget .low s [] ?_
    rwa [List.length_nil, Nat.zero_add]
  · obtain ⟨e, refused, -⟩ := solve_refused ⟨solver.algorithm, solver.budget + more⟩ f.logged (s, [])
      guess (not_and_or.mp h)
    rw [refused] at longer
    exact absurd longer (Nat.not_lt_zero _)

/-- **A call of a solver spends its budget openly.** It evaluates the objective at most as often as the
budget allows. A failure of the objective is the outcome as it is, a value that is not a number makes a
failure of convergence, and neither is followed by another evaluation. A call that would go on with a
larger budget ends with a failure of convergence. Without a positive accuracy, which a value that is not
a number is not, or without ends in order, nothing is evaluated. -/
theorem solve_spends (accuracy guess low high : α) :
    (solver.evaluations f accuracy guess low high s).length ≤ solver.budget ∧
      (∀ later x e earlier,
        solver.evaluations f accuracy guess low high s = later ++ (x, .error e) :: earlier →
          later = [] ∧ (solver.solve f accuracy guess low high s).1 = .error e) ∧
      (∀ later x y earlier,
        solver.evaluations f accuracy guess low high s = later ++ (x, .ok y) :: earlier →
          isNaN y = true →
          later = [] ∧ ∃ e, (solver.solve f accuracy guess low high s).1 = .error e ∧
            e.kind = .convergence) ∧
      (∀ more, solver.budget <
          (Solver.evaluations ⟨solver.algorithm, solver.budget + more⟩ f accuracy guess low high s).length →
        ∃ e, (solver.solve f accuracy guess low high s).1 = .error e ∧ e.kind = .convergence) ∧
      (¬0.0 < accuracy ∨ ¬low < high →
        solver.evaluations f accuracy guess low high s = [] ∧
          ∃ e, (solver.solve f accuracy guess low high s).1 = .error e ∧ e.kind = .configuration) := by
  obtain ⟨within, settled⟩ := solver.evaluations_settled f s accuracy guess low high
  refine ⟨within, ?_, ?_, ?_, ?_⟩
  · intro later x e earlier split
    have last : later = [] := settled.later_eq_nil split (by rintro ⟨y, ⟨⟩, -⟩)
    subst last
    exact ⟨rfl, settled.failed x e (by rw [split]; rfl)⟩
  · intro later x y earlier split nan
    have last : later = [] := settled.later_eq_nil split (by
      rintro ⟨z, ⟨⟩, number⟩
      rw [nan] at number
      cases number)
    subst last
    exact ⟨rfl, .notANumberAt x, settled.nan x y (by rw [split]; rfl) nan, rfl⟩
  · intro more longer
    exact ⟨.budgetExhausted solver.budget, solver.solve_exhausted f s accuracy guess low high longer, rfl⟩
  · intro h
    obtain ⟨e, refused, kind⟩ := solver.solve_refused f s guess h
    obtain ⟨e', refused', -⟩ := solver.solve_refused f.logged (s, []) guess h
    exact ⟨by rw [evaluations, refused'], e, by rw [refused], kind⟩

/-- The line `x - 1 / 2` in doubles, except that evaluation `n` answers with `answer`. -/
def lineExcept (n : Nat) (answer : Outcome Float Float) : Objective Nat Float := fun x count =>
  (if count = n then answer else .ok (x - 0.5), count + 1)

/-- Brent's method on that line: the second evaluation fails, or is not a number, the third and last one
of the budget is not the last that is needed, or the accuracy is not a number. -/
theorem solve_spends_line :
    (Solver.evaluations ⟨.brent, 9⟩ (lineExcept 1 (.error .noInstruments)) 1e-3 0.25 0.0 1.0 0 =
        [] ++ (1.0, .error .noInstruments) :: [(0.0, .ok (-0.5))] ∧
      (Solver.solve ⟨.brent, 9⟩ (lineExcept 1 (.error .noInstruments)) 1e-3 0.25 0.0 1.0 0).1 =
        .error .noInstruments) ∧
    (Solver.evaluations ⟨.brent, 9⟩ (lineExcept 1 (.ok (0.0 / 0.0))) 1e-3 0.25 0.0 1.0 0 =
        [] ++ (1.0, .ok (0.0 / 0.0)) :: [(0.0, .ok (-0.5))] ∧ isNaN (0.0 / 0.0 : Float) = true ∧
      ∃ e, (Solver.solve ⟨.brent, 9⟩ (lineExcept 1 (.ok (0.0 / 0.0))) 1e-3 0.25 0.0 1.0 0).1 =
        .error e ∧ e.kind = .convergence) ∧
    (3 < (Solver.evaluations ⟨.brent, 3 + 1⟩ (lineExcept 9 (.ok 0.0)) 1e-3 0.25 0.0 1.0 0).length ∧
      ∃ e, (Solver.solve ⟨.brent, 3⟩ (lineExcept 9 (.ok 0.0)) 1e-3 0.25 0.0 1.0 0).1 =
        .error e ∧ e.kind = .convergence) ∧
    ¬(0.0 : Float) < 0.0 / 0.0 ∧
      Solver.evaluations ⟨.brent, 9⟩ (lineExcept 9 (.ok 0.0)) (0.0 / 0.0) 0.25 0.0 1.0 0 = [] := by
  have failing := (Solver.mk .brent 9).solve_spends (lineExcept 1 (.error .noInstruments)) 0
    1e-3 0.25 0.0 1.0
  have fading := (Solver.mk .brent 9).solve_spends (lineExcept 1 (.ok (0.0 / 0.0))) 0
    1e-3 0.25 0.0 1.0
  have short := (Solver.mk .brent 3).solve_spends (lineExcept 9 (.ok 0.0)) 0 1e-3 0.25 0.0 1.0
  have refused := (Solver.mk .brent 9).solve_spends (lineExcept 9 (.ok 0.0)) 0
    (0.0 / 0.0) 0.25 0.0 1.0
  have notPositive : ¬(0.0 : Float) < 0.0 / 0.0 := by decide
  have longer :
      3 < (Solver.evaluations ⟨.brent, 3 + 1⟩ (lineExcept 9 (.ok 0.0)) 1e-3 0.25 0.0 1.0 0).length := by
    decide +kernel
  refine ⟨⟨rfl, (failing.2.1 [] 1.0 .noInstruments _ rfl).2⟩, ⟨rfl, rfl, ?_⟩, ⟨longer, ?_⟩, ?_⟩
  · exact (fading.2.2.1 [] 1.0 (0.0 / 0.0) _ rfl rfl).2
  · exact short.2.2.2.1 1 longer
  · exact ⟨notPositive, (refused.2.2.2.2 (.inl notPositive)).1⟩

end Solver

end RateCurves
