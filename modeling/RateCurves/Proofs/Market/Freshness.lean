import RateCurves.Proofs.Bootstrap.Nodes
import RateCurves.Proofs.Market.Sound

/-!
# Freshness

Whatever happens to a market, a curve that is not frozen answers like one that has just been built from
the same arguments (`run_answers_fresh`): the market is sound after every run of commands (`run_sound`),
and in a sound market the cached solution makes no difference to an answer (`Sound.answers_fresh`).
-/

namespace RateCurves

variable {α : Type} [Scalar α]

/-- What can happen to a market. -/
inductive Command (α : Type) [Scalar α] : Type 1 where
  | newQuote (value : Option α)
  | newCurve (spec : CurveSpec QuoteId α)
  | setQuote (id : QuoteId) (value : Option α)
  | setDate (date : Option Date)
  | enterScope (date : Date)
  | leaveScope
  | leaveOldestScope
  | update (id : CurveId)
  | freeze (id : CurveId)
  | unfreeze (id : CurveId)
  | withSolver (id : CurveId) (solver : Solver)
  | solution (id : CurveId)
  | ask {β : Type} (curve : Curve α) (query : CurveView α → Outcome α β)

namespace Market

/-! ## Runs -/

/-- The market after a command. A curve can only be made from quotes that exist. -/
def step (m : Market α) : Command α → Market α
  | .newQuote value => (m.addQuote value).2
  | .newCurve spec => if spec.sources.all (· < m.quotes.size) then (m.addCurve spec).2 else m
  | .setQuote id value => m.setQuote id value
  | .setDate date => m.replaceDate date
  | .enterScope date => m.enterScope date
  | .leaveScope => m.leaveScope
  | .leaveOldestScope => m.leaveOldestScope
  | .update id => m.modifyCell id LazyCell.invalidate
  | .freeze id => m.modifyCell id LazyCell.freeze
  | .unfreeze id => m.modifyCell id LazyCell.unfreeze
  | .withSolver id solver => m.withSolver id solver
  | .solution id => (m.solution id).2
  | .ask curve query => (m.ask curve query).2

/-- The market after a run of commands. -/
def run (m : Market α) (commands : List (Command α)) : Market α := commands.foldl step m

theorem Sound.scopes {m : Market α} (h : m.Sound) (scopes : List (Option Date)) :
    Sound { m with evaluation := { m.evaluation with scopes } } := by
  intro id c hc
  obtain ⟨hlistens, hfresh⟩ := h id c hc
  exact ⟨⟨hlistens.quotes, hlistens.date⟩, hfresh⟩

theorem Sound.step {m : Market α} (h : m.Sound) (command : Command α) : (m.step command).Sound := by
  cases command with
  | newQuote value => exact h.addQuote value
  | newCurve spec =>
    unfold Market.step
    simp only
    split_ifs with hsources
    · exact h.addCurve fun q hq => of_decide_eq_true (List.all_eq_true.mp hsources q hq)
    · exact h
  | setQuote id value => exact h.setQuote id value
  | setDate date => exact h.replaceDate date
  | enterScope date => exact (h.replaceDate (some date)).scopes _
  | leaveScope =>
    unfold Market.step Market.leaveScope
    simp only
    split
    · exact h
    · exact (h.scopes _).replaceDate _
  | leaveOldestScope =>
    unfold Market.step Market.leaveOldestScope
    simp only
    split
    · exact h
    · exact (h.scopes _).replaceDate _
  | update id => exact h.modifyCurve id (fun _ => rfl) (fun _ => rfl) fun _ _ _ => .of_stale rfl _ _
  | freeze id => exact h.modifyCurve id (fun _ => rfl) (fun _ => rfl) fun _ _ hfresh => hfresh
  | unfreeze id => exact h.modifyCurve id (fun _ => rfl) (fun _ => rfl) fun _ _ hfresh => hfresh
  | withSolver id solver =>
    exact h.modifyCurve id (fun _ => rfl) (fun _ => rfl) fun _ _ _ => .of_stale rfl _ _
  | solution id => exact h.solution id
  | ask curve query => exact h.ask curve query

/-- Every market that can come about is sound. -/
theorem run_sound (commands : List (Command α)) : (run {} commands).Sound := by
  have hrun (m : Market α) (h : m.Sound) : (m.run commands).Sound := by
    unfold run
    induction commands generalizing m with
    | nil => exact h
    | cons command rest ih => exact ih (m.step command) (h.step command)
  exact hrun {} fun id c hc => by simp at hc

/-! ## What a step makes of a curve -/

/-- What a command can make of the curve `c` with the given identity: it may be told about a change or not,
be frozen, thawed or given another solver, or calculate. -/
inductive Turn (m : Market α) (id : CurveId) (c : LazyCurve α) : Command α → LazyCurve α → Prop where
  | told (command : Command α) (told : List Observer) : Turn m id c command (mark told id c)
  | frozen : Turn m id c (.freeze id) { c with cell := c.cell.freeze }
  | thawed : Turn m id c (.unfreeze id) { c with cell := c.cell.unfreeze }
  | solver (solver : Solver) : Turn m id c (.withSolver id solver)
      { c with spec := { c.spec with solver }, cell := c.cell.invalidate }
  | calculated (command : Command α) : Turn m id c command
      { c with
        cell := (c.cell.calculate (fun _ : Unit => (c.spec.bootstrap m.read m.evaluation.current, ())) ()).1.2 }

theorem Turn.unchanged (m : Market α) (id : CurveId) (c : LazyCurve α) (command : Command α) :
    Turn m id c command c := by
  have h : Turn m id c command (mark [] id c) := .told command []
  rwa [mark_nil] at h

theorem Marks.get {told : List Observer} {m m' : Market α} (h : Marks told m m') {id : CurveId}
    {c : LazyCurve α} (hc : m.curves[id]? = some c) : m'.curves[id]? = some (mark told id c) := by
  rw [h.curves, hc]
  rfl

section turns

variable {m : Market α} {id : CurveId} {c : LazyCurve α} (hc : m.curves[id]? = some c)
include hc

theorem modify_get (other : CurveId) (f : LazyCurve α → LazyCurve α) :
    (m.curves.modify other f)[id]? = some (if other = id then f c else c) := by
  rw [Array.getElem?_modify, hc]
  split_ifs <;> rfl

theorem replaceDate_get (date : Option Date) :
    ∃ told, (m.replaceDate date).curves[id]? = some (mark told id c) := by
  obtain ⟨told, hmarks, -⟩ := replaceDate_marks m date
  exact ⟨told, hmarks.get hc⟩

theorem calculate_turns (other : CurveId) (command : Command α) :
    ∃ c', (m.calculate other).2.curves[id]? = some c' ∧ Turn m id c command c' := by
  unfold calculate
  cases hother : m.curves[other]? with
  | none => exact ⟨c, hc, .unchanged m id c command⟩
  | some d =>
    refine ⟨_, modify_get hc other _, ?_⟩
    split_ifs with hid
    · subst hid
      obtain rfl := Option.some.inj (hc.symm.trans hother)
      exact .calculated command
    · exact .unchanged m id c command

/-- All that a command can do to a curve. -/
theorem step_turns (command : Command α) :
    ∃ c', (m.step command).curves[id]? = some c' ∧ Turn m id c command c' := by
  have told {m' : Market α} (h : ∃ told, m'.curves[id]? = some (mark told id c)) :
      ∃ c', m'.curves[id]? = some c' ∧ Turn m id c command c' := by
    obtain ⟨told, htold⟩ := h
    exact ⟨_, htold, .told command told⟩
  have untouched {m' : Market α} (h : m'.curves[id]? = some c) :
      ∃ c', m'.curves[id]? = some c' ∧ Turn m id c command c' := ⟨c, h, .unchanged m id c command⟩
  cases command with
  | newQuote value => exact untouched hc
  | newCurve spec =>
    unfold step
    simp only
    split_ifs
    · apply untouched
      rw [(addCurve_enlists m spec).curves, withCurve, Array.getElem?_push, if_neg, hc]
      exact Nat.ne_of_lt (Array.getElem?_eq_some_iff.mp hc).1
    · exact untouched hc
  | setQuote other value =>
    obtain ⟨list, hmarks, -⟩ := setQuote_marks m other value
    exact told ⟨list, hmarks.get hc⟩
  | setDate date => exact told (replaceDate_get hc date)
  | enterScope date => exact told (replaceDate_get hc (some date))
  | leaveScope =>
    unfold step leaveScope
    simp only
    split
    · exact untouched hc
    · next before scopes _ =>
      exact told (replaceDate_get (m := { m with evaluation := { m.evaluation with scopes } }) hc before)
  | leaveOldestScope =>
    unfold step leaveOldestScope
    simp only
    split
    · exact untouched hc
    · next before _ =>
      exact told (replaceDate_get (m := { m with evaluation := { m.evaluation with
        scopes := m.evaluation.scopes.dropLast } }) hc before)
  | update other =>
    exact told ⟨_, (alert_marks m (.curve other)).get hc⟩
  | freeze other =>
    refine ⟨_, modify_get hc other _, ?_⟩
    split_ifs with hid
    · exact hid ▸ .frozen
    · exact .unchanged m id c _
  | unfreeze other =>
    refine ⟨_, modify_get hc other _, ?_⟩
    split_ifs with hid
    · exact hid ▸ .thawed
    · exact .unchanged m id c _
  | withSolver other solver =>
    refine ⟨_, modify_get hc other _, ?_⟩
    split_ifs with hid
    · exact hid ▸ .solver solver
    · exact .unchanged m id c _
  | solution other =>
    have hturns := calculate_turns hc other (.solution other)
    rwa [← solution_snd] at hturns
  | ask curve query =>
    unfold step ask
    simp only
    split
    · next other _ _ =>
      have hturns := calculate_turns hc other (.ask curve query)
      rw [← solution_snd] at hturns
      revert hturns
      rcases m.solution other with ⟨_ | _, m'⟩ <;> exact fun hm' => hm'
    · exact untouched hc

end turns

/-! ## Answers -/

theorem modifyCell_get {m : Market α} {id : CurveId} {c : LazyCurve α} (h : m.curves[id]? = some c)
    (cell : LazyCell (NodeCurve α)) : (m.modifyCell id fun _ => cell).curves[id]? = some { c with cell } := by
  rw [modifyCell, Array.getElem?_modify, if_pos rfl, h]
  rfl

theorem calculate_snd {m : Market α} {id : CurveId} {c : LazyCurve α} (h : m.curves[id]? = some c) :
    ∃ cell, (m.calculate id).2 = m.modifyCell id fun _ => cell := by
  unfold calculate
  rw [h]
  exact ⟨_, rfl⟩

theorem solution_calculated {m : Market α} {id : CurveId} {c : LazyCurve α} (hc : m.curves[id]? = some c)
    (h : c.cell.isCalculated = true) : (m.solution id).1 = Outcome.ofOption .notBootstrapped c.cell.value := by
  unfold solution calculate
  rw [hc]
  simp only [LazyCell.calculate_valid h, modifyCell_get hc]
  rfl

/-- A curve that has to calculate answers with the outcome of a bootstrap, frozen or not. -/
theorem solution_uncalculated {m : Market α} {id : CurveId} {c : LazyCurve α} (hc : m.curves[id]? = some c)
    (h : c.cell.isCalculated = false) :
    (m.solution id).1 = c.spec.bootstrap m.read m.evaluation.current := by
  unfold solution calculate
  rw [hc]
  dsimp only
  cases c.spec.bootstrap m.read m.evaluation.current with
  | ok nodes =>
    rw [LazyCell.calculate_succeeds h rfl]
    simp only [modifyCell_get hc]
    rfl
  | error e => rw [LazyCell.calculate_fails h rfl]

theorem solution_new {m : Market α} {id : CurveId} {spec : CurveSpec QuoteId α} {nodes : NodeCurve α}
    (hc : m.curves[id]? = some { spec })
    (hnodes : spec.bootstrap m.read m.evaluation.current = .ok nodes) :
    (m.solution id).2 = m.modifyCell id fun _ => { value := some nodes, calculated := true } := by
  rw [solution_snd]
  unfold calculate
  rw [hc]
  simp only [LazyCell.calculate, LazyCell.settle, LazyCell.isFrozen, hnodes]
  rfl

/-- The solution of a curve that is not frozen is the one it holds if that counts, and otherwise the
outcome of a bootstrap. -/
theorem solution_eq {m : Market α} {id : CurveId} {c : LazyCurve α} (h : m.curves[id]? = some c)
    (hfree : c.cell.isFrozen = false) :
    (m.solution id).1 =
      if c.cell.calculated && !c.cell.stale then Outcome.ofOption .notBootstrapped c.cell.value
      else c.spec.bootstrap m.read m.evaluation.current := by
  have hvalid : c.cell.isCalculated = (c.cell.calculated && !c.cell.stale) := by
    rw [LazyCell.isCalculated, hfree, Bool.false_or]
  rw [← hvalid]
  cases hcalculated : c.cell.isCalculated with
  | true => exact solution_calculated h hcalculated
  | false => exact solution_uncalculated h hcalculated

/-- A query sees the arguments of a curve, the date, and its solution if it gets that far. -/
theorem ask_eq {m : Market α} {id : CurveId} {c : LazyCurve α} (h : m.curves[id]? = some c)
    (extrapolates : Bool) {β : Type} (query : CurveView α → Outcome α β) :
    (m.ask (.bootstrapped id extrapolates) query).1 =
      match query (c.view m.evaluation.current none extrapolates) with
      | .error .notBootstrapped => do
        let nodes ← (m.solution id).1
        query (c.view m.evaluation.current (some nodes) extrapolates)
      | answer => answer := by
  have hview (m' : Market α) (c' : LazyCurve α) (hc' : m'.curves[id]? = some c') (hspec : c'.spec = c.spec)
      (htoday : m'.evaluation = m.evaluation) (nodes : Option (NodeCurve α)) :
      (Curve.bootstrapped id extrapolates).view m' nodes =
        c.view m.evaluation.current nodes extrapolates := by
    unfold Curve.view LazyCurve.view
    rw [hc', htoday]
    simp only [hspec]
  have hafter (nodes : NodeCurve α) : (Curve.bootstrapped id extrapolates).view (m.solution id).2 (some nodes) =
      c.view m.evaluation.current (some nodes) extrapolates := by
    obtain ⟨cell, hcell⟩ := calculate_snd h
    rw [solution_snd, hcell]
    exact hview _ _ (modifyCell_get h cell) rfl rfl _
  unfold ask Curve.source?
  rw [hview m c h rfl rfl none]
  split
  · rename_i other hother hquery
    obtain rfl := Option.some.inj hother
    rw [hquery]
    revert hafter
    rcases m.solution id with ⟨e | nodes, m'⟩ <;> intro hafter
    · rfl
    · show query _ = query _
      rw [hafter]
  · rename_i hother
    split
    · rename_i hquery
      exact absurd hquery (hother id rfl)
    · rfl

/-- Two curves, each in its market, that give the same answers. -/
structure SameAnswers (m : Market α) (id : CurveId) (m' : Market α) (id' : CurveId) : Prop where
  solution : (m.solution id).1 = (m'.solution id').1
  ask : ∀ (extrapolates : Bool) {β : Type} (query : CurveView α → Outcome α β),
    (m.ask (.bootstrapped id extrapolates) query).1 = (m'.ask (.bootstrapped id' extrapolates) query).1

/-- The same market with other values for its quotes. -/
def requote (m : Market α) (values : QuoteId → Option α) : Market α :=
  { m with quotes := m.quotes.mapIdx fun id quote => { quote with value := values id } }

theorem requote_read (m : Market α) (values : QuoteId → Option α) {q : QuoteId} (h : q < m.quotes.size) :
    (m.requote values).read q = values q := by
  simp [requote, read, h]

theorem addCurve_get (m : Market α) (spec : CurveSpec QuoteId α) :
    (m.addCurve spec).2.curves[(m.addCurve spec).1]? = some { spec } := by
  rw [(addCurve_enlists m spec).curves, addCurve_eq, withCurve, Array.getElem?_push, if_pos rfl]

theorem addCurve_solution (m : Market α) (spec : CurveSpec QuoteId α) :
    ((m.addCurve spec).2.solution (m.addCurve spec).1).1 = spec.bootstrap m.read m.evaluation.current := by
  have henlists := addCurve_enlists m spec
  rw [solution_eq (addCurve_get m spec) rfl, if_neg (by simp), henlists.read, henlists.today]
  rfl

/-- In a sound market a curve that is not frozen answers like a new one with the same arguments, on quotes
that count as the present ones. -/
theorem Sound.answers_fresh {m : Market α} (h : m.Sound) {id : CurveId} {c : LazyCurve α}
    (hc : m.curves[id]? = some c) (hfree : c.cell.isFrozen = false) :
    ∃ values, (∀ q, Alike (values q) (m.read q)) ∧
      SameAnswers m id ((m.requote values).addCurve c.spec).2 ((m.requote values).addCurve c.spec).1 := by
  obtain ⟨hlistens, hfresh⟩ := h id c hc
  obtain ⟨values, halike, hsolution⟩ : ∃ values, (∀ q, Alike (values q) (m.read q)) ∧
      (m.solution id).1 = c.spec.bootstrap values m.evaluation.current := by
    by_cases hvalid : (c.cell.calculated && !c.cell.stale) = true
    · obtain ⟨hcalculated, hstale⟩ := Bool.and_eq_true_iff.mp hvalid
      obtain ⟨values, nodes, halike, hnodes, hvalue⟩ := hfresh hcalculated (by simpa using hstale)
      exact ⟨values, halike, by rw [solution_eq hc hfree, if_pos hvalid, hvalue, hnodes]; rfl⟩
    · exact ⟨m.read, fun _ => .refl, by rw [solution_eq hc hfree, if_neg hvalid]⟩
  have hread : ∀ q ∈ c.spec.sources, (m.requote values).read q = values q := by
    refine fun q hq => requote_read m values ?_
    rcases Nat.lt_or_ge q m.quotes.size with hexists | hmissing
    · exact hexists
    · have hlisted := hlistens.quotes q hq
      rw [quoteObservers, Array.getElem?_eq_none hmissing] at hlisted
      exact absurd hlisted List.not_mem_nil
  have hrebuilt : (((m.requote values).addCurve c.spec).2.solution
      ((m.requote values).addCurve c.spec).1).1 = (m.solution id).1 := by
    rw [addCurve_solution, hsolution]
    exact CurveSpec.bootstrap_congr hread m.evaluation.current
  refine ⟨values, halike, hrebuilt.symm, fun extrapolates β query => ?_⟩
  rw [ask_eq hc, ask_eq (addCurve_get _ _), hrebuilt, (addCurve_enlists _ _).today]
  rfl

/-- After every run a curve that is not frozen answers like a new one with the same arguments, on quotes
that count as the present ones. -/
theorem run_answers_fresh (commands : List (Command α)) {id : CurveId} {c : LazyCurve α}
    (hc : (run {} commands).curves[id]? = some c) (hfree : c.cell.isFrozen = false) :
    ∃ values, (∀ q, Alike (values q) ((run {} commands).read q)) ∧
      let rebuilt := ((run {} commands).requote values).addCurve c.spec
      SameAnswers (run {} commands) id rebuilt.2 rebuilt.1 :=
  (run_sound commands).answers_fresh hc hfree

/-- The quote of a deposit is taken away while the curve, which has calculated, is frozen. This counts once it
is thawed. -/
theorem thawed_answers_fresh :
    let commands : List (Command ℝ) := [.newQuote (some 0), .newQuote (some ((1 / Scalar.epsilon - 1) / (1 + 1))),
      .newCurve TwoDeposits.spec, .solution 0, .freeze 0, .setQuote 1 none, .unfreeze 0]
    ∃ c, (run {} commands).curves[0]? = some c ∧ c.cell.calculated = true ∧ c.cell.isFrozen = false ∧
      ∃ values, (∀ q, Alike (values q) ((run {} commands).read q)) ∧
        let rebuilt := ((run {} commands).requote values).addCurve c.spec
        SameAnswers (run {} commands) 0 rebuilt.2 rebuilt.1 := by
  intro commands
  let m : Market ℝ := run {} (commands.take 3)
  obtain ⟨nodes, hnodes, -⟩ := TwoDeposits.bootstrap_spec
  have hread : m.read = TwoDeposits.quote := by
    funext id
    match id with
    | 0 | 1 | _ + 2 => rfl
  have hnew : m.curves[0]? = some { spec := TwoDeposits.spec } := rfl
  let solved := (m.modifyCell 0 fun _ => { value := some nodes, calculated := true }).modifyCell 0 LazyCell.freeze
  have hsolved : solved.curves[0]? = some
      { spec := TwoDeposits.spec, cell := { value := some nodes, calculated := true, freezes := 1 } } :=
    modify_get (modifyCell_get hnew _) 0 _
  obtain ⟨told, hmarks, -⟩ := setQuote_marks solved 1 none
  have hrun : run {} commands = (solved.setQuote 1 none).modifyCell 0 LazyCell.unfreeze := by
    show (((m.solution 0).2.modifyCell 0 LazyCell.freeze).setQuote 1 none).modifyCell 0 LazyCell.unfreeze = _
    rw [solution_new hnew (hread ▸ hnodes)]
  have hcurve := modify_get (hmarks.get hsolved) 0 fun c => { c with cell := c.cell.unfreeze }
  have hthawed {cell : LazyCell (NodeCurve ℝ)} (h : cell.freezes = 1) : cell.unfreeze.isFrozen = false := by
    rw [← Bool.not_eq_true, LazyCell.isFrozen_iff, LazyCell.unfreeze_freezes, h]
    decide
  have hcell : ∀ c, c = mark told 0 { spec := TwoDeposits.spec, cell := ⟨some nodes, true, false, 1⟩ } →
      c.cell.unfreeze.calculated = true ∧ c.cell.unfreeze.isFrozen = false := by
    rintro _ rfl
    unfold mark
    split <;> exact ⟨rfl, hthawed rfl⟩
  obtain ⟨hcalculated, hfree⟩ := hcell _ rfl
  have hcurve' := (congrArg (fun m : Market ℝ => m.curves[0]?) hrun).trans hcurve
  exact ⟨_, hcurve', hcalculated, hfree, run_answers_fresh commands hcurve' hfree⟩

end Market

end RateCurves
