import RateCurves.Proofs.Market.Freshness

/-!
# Frozen curves

While a curve that has calculated is frozen, nothing that happens to the market touches its solution
(`Turn.kept`, `disturbed_kept`). But its reference date, if that floats, is read off the evaluation date by each
query, and the implied quote of a futures contract reads its convexity adjustment, so not every answer
stands still (`frozen_curve_moves`). What does is the content of `frozen_answers`: the solution itself,
every query as long as the reference date is the same, and as a function of time all that the curve says
once its checks are passed.
-/

namespace RateCurves

open Scalar

variable {α : Type} [Scalar α]

/-! ## Definitions -/

/-- What can happen to a market while a curve is frozen: a command, or a notification that no change has
caused. -/
inductive Disturbance (α : Type) [Scalar α] : Type 1 where
  | command (command : Command α)
  | notifyQuote (id : QuoteId)
  | notifyDate

/-- A query by time. -/
inductive TimeQuery (α : Type) where
  | discount (t : α)
  | zeroRate (t : α)
  | forwardRate (start stop : α)

def TimeQuery.answer (query : TimeQuery α) (extrapolate : Bool) (c : CurveView α) : Outcome α α :=
  match query with
  | .discount t => c.discount t extrapolate
  | .zeroRate t => c.zeroRate t extrapolate
  | .forwardRate start stop => c.forwardRate start stop extrapolate

namespace Market

def disturb (m : Market α) : Disturbance α → Market α
  | .command command => m.step command
  | .notifyQuote id => m.announceQuote id
  | .notifyDate => m.announceDate

def disturbed (m : Market α) (events : List (Disturbance α)) : Market α := events.foldl disturb m

def isFrozen (m : Market α) (id : CurveId) : Bool := m.curves[id]?.any (·.cell.isFrozen)

/-- The curve is frozen now and stays so through all of the events. -/
def FrozenThrough (id : CurveId) : Market α → List (Disturbance α) → Prop
  | m, [] => m.isFrozen id = true
  | m, event :: rest => m.isFrozen id = true ∧ FrozenThrough id (m.disturb event) rest

end Market

theorem LazyCell.isCalculated_frozen {β : Type} {cell : LazyCell β} (hcalculated : cell.calculated = true)
    (hfrozen : cell.isFrozen = true) : cell.isCalculated = true := by
  rw [isCalculated, hcalculated, hfrozen]
  rfl

/-! ## What a frozen curve keeps -/

/-- The second curve holds the same solution as the first one, and all its arguments but the solver. -/
structure LazyCurve.Kept (c c' : LazyCurve α) : Prop where
  value : c'.cell.value = c.cell.value
  calculated : c'.cell.calculated = c.cell.calculated
  spec : ∃ solver, c'.spec = { c.spec with solver }

namespace LazyCurve.Kept

theorem refl (c : LazyCurve α) : Kept c c := ⟨rfl, rfl, c.spec.solver, rfl⟩

theorem trans {a b c : LazyCurve α} (h : Kept a b) (h' : Kept b c) : Kept a c := by
  obtain ⟨solver, hb⟩ := h.spec
  obtain ⟨solver', hc⟩ := h'.spec
  exact ⟨h'.value.trans h.value, h'.calculated.trans h.calculated, solver', by rw [hc, hb]⟩

theorem view {c c' : LazyCurve α} (h : Kept c c') {today today' : Option Date}
    (hreference : (c.spec.reference.resolve today' : Outcome α Date) = c.spec.reference.resolve today)
    (solution : Option (NodeCurve α)) (extrapolates : Bool) :
    c'.view today' solution extrapolates = c.view today solution extrapolates := by
  obtain ⟨solver, hspec⟩ := h.spec
  unfold LazyCurve.view
  rw [hspec, hreference]
  rfl

end LazyCurve.Kept

namespace Market

open LazyCurve

theorem mark_kept (told : List Observer) (id : CurveId) (c : LazyCurve α) : Kept c (mark told id c) := by
  unfold mark
  split
  · exact ⟨rfl, rfl, c.spec.solver, rfl⟩
  · exact .refl c

/-- One command leaves a frozen curve its solution. -/
theorem Turn.kept {m : Market α} {id : CurveId} {c c' : LazyCurve α} {command : Command α}
    (h : Turn m id c command c') (hcalculated : c.cell.calculated = true) (hfrozen : c.cell.isFrozen = true) :
    Kept c c' := by
  cases h with
  | told _ told => exact mark_kept told id c
  | frozen | thawed => exact ⟨rfl, rfl, c.spec.solver, rfl⟩
  | solver solver => exact ⟨rfl, rfl, solver, rfl⟩
  | calculated =>
    rw [LazyCell.calculate_valid (LazyCell.isCalculated_frozen hcalculated hfrozen)]
    exact .refl c

theorem disturb_kept {m : Market α} {id : CurveId} {c : LazyCurve α} (hc : m.curves[id]? = some c)
    (hcalculated : c.cell.calculated = true) (hfrozen : c.cell.isFrozen = true) (event : Disturbance α) :
    ∃ c', (m.disturb event).curves[id]? = some c' ∧ Kept c c' := by
  cases event with
  | command command =>
    obtain ⟨c', hc', hturn⟩ := step_turns hc command
    exact ⟨c', hc', hturn.kept hcalculated hfrozen⟩
  | notifyQuote q => exact ⟨_, (announce_marks m _).get hc, mark_kept _ id c⟩
  | notifyDate => exact ⟨_, (announce_marks m _).get hc, mark_kept _ id c⟩

/-- Whatever happens while it is frozen, a curve keeps its solution. -/
theorem disturbed_kept {id : CurveId} (events : List (Disturbance α)) {m : Market α} {c : LazyCurve α}
    (hc : m.curves[id]? = some c) (hcalculated : c.cell.calculated = true)
    (hfrozen : FrozenThrough id m events) :
    c.cell.isFrozen = true ∧
      ∃ c', (m.disturbed events).curves[id]? = some c' ∧ c'.cell.isFrozen = true ∧ Kept c c' := by
  have frozen_get {m : Market α} {c : LazyCurve α} (hc : m.curves[id]? = some c)
      (h : m.isFrozen id = true) : c.cell.isFrozen = true := by
    rw [isFrozen, hc] at h
    exact h
  induction events generalizing m c with
  | nil => exact ⟨frozen_get hc hfrozen, c, hc, frozen_get hc hfrozen, .refl c⟩
  | cons event rest ih =>
    obtain ⟨hnow, hlater⟩ := hfrozen
    have hnow := frozen_get hc hnow
    obtain ⟨c', hc', hkept⟩ := disturb_kept hc hcalculated hnow event
    obtain ⟨-, c'', hc'', hend, hkept'⟩ := ih hc' (hkept.calculated.trans hcalculated) hlater
    exact ⟨hnow, c'', hc'', hend, hkept.trans hkept'⟩

theorem solution_frozen {m : Market α} {id : CurveId} {c : LazyCurve α} (hc : m.curves[id]? = some c)
    (hcalculated : c.cell.calculated = true) (hfrozen : c.cell.isFrozen = true) :
    (m.solution id).1 = Outcome.ofOption .notBootstrapped c.cell.value :=
  solution_calculated hc (LazyCell.isCalculated_frozen hcalculated hfrozen)

end Market

/-! ## Queries by time -/

/-- Two views with the same quantities as functions of time and the same permission to extrapolate. -/
structure CurveView.SameOverTime (c d : CurveView α) : Prop where
  extrapolates : c.extrapolates = d.extrapolates
  discountAt : c.discountAt = d.discountAt
  zeroAt : c.zeroAt = d.zeroAt
  forwardAt : c.forwardAt = d.forwardAt

theorem LazyCurve.view_sameOverTime (c c' : LazyCurve α) (today today' : Option Date)
    (solution : Option (NodeCurve α)) (extrapolates : Bool) :
    (c.view today solution extrapolates).SameOverTime (c'.view today' solution extrapolates) :=
  ⟨rfl, rfl, rfl, rfl⟩

namespace TimeQuery

open CurveView

variable {c d : CurveView α} {extrapolate : Bool}

theorem checkTime_free (h : (extrapolate || c.extrapolates) = true) (t : α) :
    c.checkTime t extrapolate = if t < 0.0 then .error (.timeBeforeReference t) else .ok () := by
  rw [CurveView.checkTime, h]
  by_cases hnegative : t < 0.0
  · rw [if_pos hnegative, if_pos hnegative]
    rfl
  · rw [if_neg hnegative, if_neg hnegative]
    rfl

/-- Where extrapolation is allowed the reference date makes no difference. -/
theorem answer_free (hsame : c.SameOverTime d) (h : (extrapolate || c.extrapolates) = true)
    (query : TimeQuery α) : query.answer extrapolate c = query.answer extrapolate d := by
  have h' : (extrapolate || d.extrapolates) = true := hsame.extrapolates ▸ h
  cases query with
  | discount t =>
    simp only [answer, CurveView.discount, checkTime_free h, checkTime_free h', hsame.discountAt]
  | zeroRate t =>
    simp only [answer, CurveView.zeroRate, checkTime_free h, checkTime_free h', hsame.zeroAt]
  | forwardRate start stop =>
    simp only [answer, CurveView.forwardRate, checkTime_free h, checkTime_free h', hsame.discountAt,
      hsame.forwardAt]

/-- The answer to a query whose checks are passed. -/
def unchecked (query : TimeQuery α) (c : CurveView α) : Outcome α α :=
  match query with
  | .discount t => c.discountAt t
  | .zeroRate t => c.zeroAt t
  | .forwardRate start stop =>
    if start == stop then c.forwardAt start
    else do
      let before ← c.discountAt start
      let after ← c.discountAt stop
      return (ln before - ln after) / (stop - start)

theorem unchecked_of_answer {query : TimeQuery α} {v : α} (h : query.answer extrapolate c = .ok v) :
    query.unchecked c = .ok v := by
  cases query with
  | discount t | zeroRate t =>
    obtain ⟨-, -, h⟩ := Outcome.bind_ok.mp h
    exact h
  | forwardRate start stop =>
    obtain ⟨-, -, h⟩ := Outcome.bind_ok.mp h
    obtain ⟨-, -, h⟩ := Outcome.bind_ok.mp h
    obtain ⟨-, -, h⟩ := Outcome.bind_ok.mp h
    exact h

/-- The reference date makes no difference to a value either. -/
theorem answer_value (hsame : c.SameOverTime d) {query : TimeQuery α} {v w : α}
    (hv : query.answer extrapolate c = .ok v) (hw : query.answer extrapolate d = .ok w) : v = w := by
  have hunchecked : query.unchecked c = query.unchecked d := by
    cases query <;> simp only [unchecked, hsame.discountAt, hsame.zeroAt, hsame.forwardAt]
  rw [unchecked_of_answer hv, unchecked_of_answer hw] at hunchecked
  exact Except.ok.inj hunchecked

theorem answer_unsolved (c : LazyCurve α) (today : Option Date) (extrapolates : Bool) (query : TimeQuery α)
    (v : α) : query.answer extrapolate (c.view today none extrapolates) ≠ .ok v := by
  intro h
  have hvalue := unchecked_of_answer h
  cases query with
  | discount t | zeroRate t => cases hvalue
  | forwardRate start stop =>
    simp only [unchecked] at hvalue
    split at hvalue <;> cases hvalue

end TimeQuery

namespace Market

theorem ask_value {m : Market α} {id : CurveId} {c : LazyCurve α} (hc : m.curves[id]? = some c)
    {extrapolates extrapolate : Bool} {query : TimeQuery α} {v : α}
    (h : (m.ask (.bootstrapped id extrapolates) (query.answer extrapolate)).1 = .ok v) :
    ∃ nodes, (m.solution id).1 = .ok nodes ∧
      query.answer extrapolate (c.view m.evaluation.current (some nodes) extrapolates) = .ok v := by
  rw [ask_eq hc] at h
  split at h
  · exact Outcome.bind_ok.mp h
  · exact absurd h (TimeQuery.answer_unsolved c _ _ query v)

/-! ## Answers -/

/-- **What stands still while a curve is frozen.** Through everything that happens while it stays frozen, a
curve that has calculated keeps its solution, so its nodes and their times. Unless its reference date floats
and the evaluation date has changed, it answers every query as before, and an instrument has the same
implied quote against it unless a convexity adjustment has changed. In any case it answers queries by
time as before where extrapolation is allowed, and elsewhere with the same values if with values at all. -/
theorem frozen_answers {m : Market α} {id : CurveId} {c : LazyCurve α} (hc : m.curves[id]? = some c)
    (hcalculated : c.cell.calculated = true) {events : List (Disturbance α)}
    (hfrozen : FrozenThrough id m events) :
    ((m.disturbed events).solution id).1 = (m.solution id).1 ∧
    ((∀ days, c.spec.reference = .floating days →
        (m.disturbed events).evaluation.current = m.evaluation.current) →
      (∀ (extrapolates : Bool) {β : Type} (query : CurveView α → Outcome α β),
        ((m.disturbed events).ask (.bootstrapped id extrapolates) query).1 =
          (m.ask (.bootstrapped id extrapolates) query).1) ∧
      ∀ (extrapolates : Bool) (instrument : Instrument QuoteId α),
        (∀ q ∈ instrument.adjustments, (m.disturbed events).read q = m.read q) →
        ((m.disturbed events).ask (.bootstrapped id extrapolates)
            (instrument.impliedQuote (m.disturbed events).read)).1 =
          (m.ask (.bootstrapped id extrapolates) (instrument.impliedQuote m.read)).1) ∧
    ∀ (extrapolates extrapolate : Bool) (query : TimeQuery α),
      ((extrapolate || extrapolates) = true →
        ((m.disturbed events).ask (.bootstrapped id extrapolates) (query.answer extrapolate)).1 =
          (m.ask (.bootstrapped id extrapolates) (query.answer extrapolate)).1) ∧
      ∀ v w, (m.ask (.bootstrapped id extrapolates) (query.answer extrapolate)).1 = .ok v →
        ((m.disturbed events).ask (.bootstrapped id extrapolates) (query.answer extrapolate)).1 = .ok w →
        v = w := by
  obtain ⟨hnow, c', hc', hend, hkept⟩ := disturbed_kept events hc hcalculated hfrozen
  generalize m.disturbed events = m' at hc' ⊢
  have hsolution : (m'.solution id).1 = (m.solution id).1 := by
    rw [solution_frozen hc' (hkept.calculated.trans hcalculated) hend, solution_frozen hc hcalculated hnow,
      hkept.value]
  refine ⟨hsolution, fun hdate => ?_, fun extrapolates extrapolate query => ⟨fun hallowed => ?_, ?_⟩⟩
  · -- with the same reference date the curve is seen alike
    have hreference : (c.spec.reference.resolve m'.evaluation.current : Outcome α Date) =
        c.spec.reference.resolve m.evaluation.current := by
      cases hspec : c.spec.reference with
      | fixed date => rfl
      | floating days => rw [hdate days hspec]
    have hask (extrapolates : Bool) {β : Type} (query : CurveView α → Outcome α β) :
        (m'.ask (.bootstrapped id extrapolates) query).1 = (m.ask (.bootstrapped id extrapolates) query).1 := by
      rw [ask_eq hc', ask_eq hc, hsolution]
      simp only [hkept.view hreference]
    refine ⟨hask, fun extrapolates instrument hadjustments => ?_⟩
    rw [hask, Instrument.impliedQuote_reads hadjustments]
  · -- the reference date may have moved, but no check looks at it
    rw [ask_eq hc', ask_eq hc, hsolution]
    have hsame (solution : Option (NodeCurve α)) := TimeQuery.answer_free
      (LazyCurve.view_sameOverTime c' c m'.evaluation.current m.evaluation.current solution extrapolates)
      hallowed query
    simp only [hsame]
  · intro v w hv hw
    obtain ⟨nodes, hnodes, hv⟩ := ask_value hc hv
    obtain ⟨nodes', hnodes', hw⟩ := ask_value hc' hw
    obtain rfl := Except.ok.inj (hnodes.symm.trans (hsolution.symm.trans hnodes'))
    exact TimeQuery.answer_value (LazyCurve.view_sameOverTime c c' _ _ _ _) hv hw

theorem frozenThrough_told {m : Market α} {id : CurveId} {c : LazyCurve α} {event : Disturbance α}
    (hc : m.curves[id]? = some c) (hfrozen : c.cell.isFrozen = true)
    (htold : ∃ told, (m.disturb event).curves[id]? = some (mark told id c)) : FrozenThrough id m [event] := by
  obtain ⟨told, htold⟩ := htold
  have hmark : (mark told id c).cell.isFrozen = true := by
    unfold mark
    split <;> exact hfrozen
  refine ⟨?_, ?_⟩
  · rw [isFrozen, hc]
    exact hfrozen
  · show (m.disturb event).isFrozen id = true
    rw [isFrozen, htold]
    exact hmark

end Market

/-! ## A frozen curve over one deposit -/

namespace OneDeposit

open Market OneYear

/-- The day after the start. -/
def next : Date := { start with day := 6, day_pos := by decide, day_le := by decide }

theorem yearFraction_next : (DayCount.actual365Fixed.yearFraction next stop : ℝ) = 364 / 365 := by
  have : DayCount.actual365Fixed.days next stop = 364 := by decide
  rw [DayCount.yearFraction, this]
  norm_num [ofInt_real, DayCount.yearLength]

/-- A curve over the deposit, calculated on the start date and then frozen. Quote 1 is a convexity
adjustment. -/
noncomputable def frozenMarket (reference : Reference) : Market ℝ :=
  run {} [.newQuote (some (1 / epsilon - 1)), .newQuote (some 0), .setDate (some start),
    .newCurve { spec with reference }, .solution 0, .freeze 0]

/-- What is in this market. -/
structure Frozen (m : Market ℝ) (reference : Reference) (nodes : NodeCurve ℝ) : Prop where
  solved : spec.bootstrap quote none = .ok nodes
  curve : m.curves[0]? = some
    { spec := { spec with reference }, cell := { value := some nodes, calculated := true, freezes := 1 } }
  today : m.evaluation.current = some start
  read : m.read 1 = some 0

theorem frozenMarket_frozen (reference : Reference)
    (h : reference.resolve (some start) = (.ok start : Outcome ℝ Date)) :
    ∃ nodes, Frozen (frozenMarket reference) reference nodes := by
  obtain ⟨nodes, hnodes⟩ := bootstrap_spec
  let m : Market ℝ := run {} [.newQuote (some (1 / epsilon - 1)), .newQuote (some 0), .setDate (some start)]
  have henlists := addCurve_enlists m { spec with reference }
  have hcurve := addCurve_get m { spec with reference }
  have hsources : ∀ q ∈ spec.sources, m.read q = quote q := by
    intro q hq
    obtain rfl : q = 0 := List.mem_singleton.mp hq
    rfl
  have hsolved : { spec with reference }.bootstrap (m.addCurve { spec with reference }).2.read
      (m.addCurve { spec with reference }).2.evaluation.current = .ok nodes := by
    rw [henlists.read, henlists.today, ← hnodes, ← CurveSpec.bootstrap_congr hsources]
    exact CurveSpec.bootstrap_resolved spec h
  have hrun : frozenMarket reference =
      ((m.addCurve { spec with reference }).2.solution 0).2.modifyCell 0 LazyCell.freeze := rfl
  have hid : (m.addCurve { spec with reference }).1 = 0 := by
    rw [addCurve_eq]
    rfl
  rw [hid] at hcurve
  rw [hrun, solution_new hcurve hsolved]
  refine ⟨nodes, hnodes, ?_, henlists.today, congrFun henlists.read 1⟩
  exact modify_get (modifyCell_get hcurve _) 0 _

section frozen

variable {m : Market ℝ} {reference : Reference} {nodes : NodeCurve ℝ} (h : Frozen m reference nodes)
include h

theorem Frozen.through (event : Disturbance ℝ)
    (htold : ∃ told, (m.disturb event).curves[0]? = some (mark told 0
      { spec := { spec with reference }, cell := { value := some nodes, calculated := true, freezes := 1 } })) :
    FrozenThrough 0 m [event] := frozenThrough_told h.curve rfl htold

theorem Frozen.setDate (date : Date) : FrozenThrough 0 m [.command (.setDate (some date))] :=
  h.through _ (replaceDate_get h.curve (some date))

theorem Frozen.setQuote (value : Option ℝ) : FrozenThrough 0 m [.command (.setQuote 1 value)] := by
  obtain ⟨told, hmarks, -⟩ := setQuote_marks m 1 value
  exact h.through _ ⟨told, hmarks.get h.curve⟩

theorem Frozen.setQuote_read (value : Option ℝ) :
    (m.disturbed [.command (.setQuote 1 value)]).read 1 = value := by
  obtain ⟨told, hmarks, -⟩ := setQuote_marks m 1 value
  have hread := h.read
  show (m.setQuote 1 value).read 1 = value
  rw [hmarks.read_eq, read_modify, if_pos rfl]
  cases hquote : m.quotes[1]? with
  | none =>
    rw [Market.read, hquote] at hread
    cases hread
  | some quote => rfl

end frozen

/-- A day later, the floating curve still has its solution and its discount factor in one year. -/
theorem frozen_answers_next_day :
    ∃ c, (frozenMarket (.floating 0)).curves[0]? = some c ∧ c.cell.calculated = true ∧
      FrozenThrough 0 (frozenMarket (.floating 0)) [.command (.setDate (some next))] ∧
      (((frozenMarket (.floating 0)).disturbed [.command (.setDate (some next))]).solution 0).1 =
        ((frozenMarket (.floating 0)).solution 0).1 ∧
      (((frozenMarket (.floating 0)).disturbed [.command (.setDate (some next))]).ask (.bootstrapped 0 false)
          ((TimeQuery.discount 1).answer true)).1 =
        ((frozenMarket (.floating 0)).ask (.bootstrapped 0 false) ((TimeQuery.discount 1).answer true)).1 := by
  obtain ⟨nodes, h⟩ := frozenMarket_frozen (.floating 0) rfl
  obtain ⟨hsolution, -, hqueries⟩ := frozen_answers h.curve rfl (h.setDate next)
  exact ⟨_, h.curve, rfl, h.setDate next, hsolution, (hqueries false true (.discount 1)).1 rfl⟩

/-- A futures contract over the term of the deposit, with a convexity adjustment. -/
noncomputable def contract : Instrument QuoteId ℝ := .futures (.of 0) (.of 1) loan

section views

variable {c : LazyCurve ℝ} {today : Option Date} {day : Date}
  (hday : c.spec.reference.resolve today = (.ok day : Outcome ℝ Date))
  (hdayCount : c.spec.dayCount = .actual365Fixed)
include hday hdayCount

theorem view_lastTime (solution : Option (NodeCurve ℝ)) (extrapolates : Bool) :
    (c.view today solution extrapolates).lastTime =
      .ok (DayCount.actual365Fixed.yearFraction day c.spec.lastDate) := by
  rw [← hdayCount]
  exact CurveView.timeOf_eq hday c.spec.lastDate

theorem view_discountOn (solution : Option (NodeCurve ℝ)) {date : Date} (hdate : day ≤ date) :
    (c.view today solution true).discountOn date =
      (c.view today solution true).discountAt (DayCount.actual365Fixed.yearFraction day date) := by
  rw [← hdayCount, CurveView.discountOn_eq hday (.inl rfl)]
  exact if_neg (not_lt.mpr (c.spec.dayCount.yearFraction_nonneg hdate))

end views

theorem ask_lastTime {m : Market ℝ} {c : LazyCurve ℝ} {day : Date} (hc : m.curves[0]? = some c)
    (hday : c.spec.reference.resolve m.evaluation.current = (.ok day : Outcome ℝ Date))
    (hdayCount : c.spec.dayCount = .actual365Fixed) (hend : c.spec.lastDate = stop) :
    (m.ask (.bootstrapped 0 true) CurveView.lastTime).1 =
      .ok (DayCount.actual365Fixed.yearFraction day stop) := by
  rw [ask_eq hc, view_lastTime hday hdayCount, hend]

/-- The forward that a solution implies over the term of the contract. -/
noncomputable def forwardOf (nodes : NodeCurve ℝ) : ℝ :=
  (nodes.kind.discountAt nodes.interpolation (DayCount.actual365Fixed.yearFraction start start) /
    nodes.kind.discountAt nodes.interpolation (DayCount.actual365Fixed.yearFraction start stop) - 1.0) / 1

theorem contract_impliedQuote {m : Market ℝ} {c : LazyCurve ℝ} {nodes : NodeCurve ℝ} {adjustment : ℝ}
    (hc : m.curves[0]? = some c)
    (hday : c.spec.reference.resolve m.evaluation.current = (.ok start : Outcome ℝ Date))
    (hdayCount : c.spec.dayCount = .actual365Fixed) (hsolution : (m.solution 0).1 = .ok nodes)
    (hread : m.read 1 = some adjustment) :
    (m.ask (.bootstrapped 0 true) (contract.impliedQuote m.read)).1 =
      .ok (100.0 * (1.0 - (forwardOf nodes + adjustment))) := by
  have hterm : start ≤ stop := by decide
  have hquery (view : CurveView ℝ) : contract.impliedQuote m.read view = (do
      let before ← view.discountOn start
      let after ← view.discountOn stop
      return 100.0 * (1.0 - ((before / after - 1.0) / 1 + adjustment)) : Outcome ℝ ℝ) := by
    have hadjustment : Instrument.convexityAdjustment m.read (.of 1) stop = .ok adjustment := by
      show Outcome.ofOption _ (m.read 1) = _
      rw [hread]
      rfl
    show (do
      let forward ← (do
        let before ← view.discountOn start
        let after ← view.discountOn stop
        return (before / after - 1.0) / 1 : Outcome ℝ ℝ)
      let adjustment ← Instrument.convexityAdjustment m.read (.of 1) stop
      return 100.0 * (1.0 - (forward + adjustment)) : Outcome ℝ ℝ) = _
    rw [hadjustment]
    rcases view.discountOn start with _ | before
    · rfl
    · rcases view.discountOn stop with _ | after <;> rfl
  have hunsolved : contract.impliedQuote m.read (c.view m.evaluation.current none true) =
      .error .notBootstrapped := by
    rw [hquery, view_discountOn hday hdayCount none le_rfl]
    rfl
  rw [ask_eq hc, hunsolved, hsolution]
  show contract.impliedQuote m.read (c.view m.evaluation.current (some nodes) true) = _
  rw [hquery, view_discountOn hday hdayCount _ le_rfl, view_discountOn hday hdayCount _ hterm]
  rfl

theorem Frozen.lastTime_moves {m : Market ℝ} {nodes : NodeCurve ℝ} (h : Frozen m (.floating 0) nodes) :
    ((m.disturbed [.command (.setDate (some next))]).ask (.bootstrapped 0 true) CurveView.lastTime).1 ≠
      (m.ask (.bootstrapped 0 true) CurveView.lastTime).1 := by
  obtain ⟨-, c', hc', -, hkept⟩ := disturbed_kept _ h.curve rfl (h.setDate next)
  obtain ⟨solver, hspec⟩ := hkept.spec
  have htoday : (m.disturbed [.command (.setDate (some next))]).evaluation.current = some next :=
    congrArg (·.current) (replaceDate_evaluation m (some next))
  have hstart : (Reference.floating 0).resolve m.evaluation.current = (.ok start : Outcome ℝ Date) := by
    rw [h.today]
    rfl
  have hnext : c'.spec.reference.resolve (m.disturbed [.command (.setDate (some next))]).evaluation.current =
      (.ok next : Outcome ℝ Date) := by
    rw [hspec, htoday]
    rfl
  have hend : ({ spec with reference := .floating 0 } : CurveSpec QuoteId ℝ).lastDate = stop := rfl
  have hend' : c'.spec.lastDate = stop := by rw [hspec, ← hend]; rfl
  rw [ask_lastTime h.curve hstart rfl hend, ask_lastTime hc' hnext (by rw [hspec]; rfl) hend',
    yearFraction_stop, yearFraction_next]
  intro hsame
  exact absurd (Except.ok.inj hsame) (by norm_num)

theorem Frozen.impliedQuote_moves {m : Market ℝ} {nodes : NodeCurve ℝ} (h : Frozen m (.fixed start) nodes) :
    ((m.disturbed [.command (.setQuote 1 (some 1))]).ask (.bootstrapped 0 true)
        (contract.impliedQuote (m.disturbed [.command (.setQuote 1 (some 1))]).read)).1 ≠
      (m.ask (.bootstrapped 0 true) (contract.impliedQuote m.read)).1 := by
  obtain ⟨-, c', hc', hend, hkept⟩ := disturbed_kept _ h.curve rfl (h.setQuote (some 1))
  obtain ⟨solver, hspec⟩ := hkept.spec
  have hbefore := solution_frozen h.curve rfl rfl
  have hafter := solution_frozen hc' hkept.calculated hend
  rw [hkept.value] at hafter
  rw [contract_impliedQuote h.curve rfl rfl hbefore h.read,
    contract_impliedQuote hc' (by rw [hspec]; rfl) (by rw [hspec]; rfl) hafter (h.setQuote_read (some 1))]
  intro hsame
  have := Except.ok.inj hsame
  rw [lit_one] at this
  linarith

/-- **What moves while a curve is frozen.** A day later the end of a floating curve is a day nearer, and on
a fixed curve the implied quote of a futures contract follows its convexity adjustment. -/
theorem frozen_curve_moves :
    (∃ c, (frozenMarket (.floating 0)).curves[0]? = some c ∧ c.cell.calculated = true) ∧
    FrozenThrough 0 (frozenMarket (.floating 0)) [.command (.setDate (some next))] ∧
    (((frozenMarket (.floating 0)).disturbed [.command (.setDate (some next))]).ask (.bootstrapped 0 true)
        CurveView.lastTime).1 ≠
      ((frozenMarket (.floating 0)).ask (.bootstrapped 0 true) CurveView.lastTime).1 ∧
    (∃ c, (frozenMarket (.fixed start)).curves[0]? = some c ∧ c.cell.calculated = true) ∧
    FrozenThrough 0 (frozenMarket (.fixed start)) [.command (.setQuote 1 (some 1))] ∧
    (((frozenMarket (.fixed start)).disturbed [.command (.setQuote 1 (some 1))]).ask (.bootstrapped 0 true)
        (contract.impliedQuote ((frozenMarket (.fixed start)).disturbed
          [.command (.setQuote 1 (some 1))]).read)).1 ≠
      ((frozenMarket (.fixed start)).ask (.bootstrapped 0 true)
        (contract.impliedQuote (frozenMarket (.fixed start)).read)).1 := by
  obtain ⟨nodes, h⟩ := frozenMarket_frozen (.floating 0) rfl
  obtain ⟨nodes', h'⟩ := frozenMarket_frozen (.fixed start) rfl
  exact ⟨⟨_, h.curve, rfl⟩, h.setDate next, h.lastTime_moves, ⟨_, h'.curve, rfl⟩, h'.setQuote (some 1),
    h'.impliedQuote_moves⟩

end OneDeposit

end RateCurves
