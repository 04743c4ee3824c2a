import RateCurves.Proofs.Bootstrap.Truncation
import RateCurves.Proofs.Market.Freshness

/-!
# The order of the instruments

A curve is made from a list of instruments, and the order of the list does not matter
(`order_irrelevant`). The maturities in order are the same for both lists (`maturities_perm`), and all
that is checked when a curve is made is read off them, so that both are refused or neither is. If no two
instruments mature on the same date, only one order of them is in order of maturity (`byMaturity_eq`); the
two curves are then made from the same arguments and part only by what each has calculated and when.
-/

namespace RateCurves

variable {κ α : Type} [Scalar α]

namespace CurveSpec

/-! ## Instruments in order of maturity -/

/-- The instruments in order of maturity; those that mature on the same date stay as they were given. -/
def byMaturity (instruments : List (Instrument κ α)) : List (Instrument κ α) :=
  instruments.mergeSort fun a b => decide (a.maturity ≤ b.maturity)

theorem byMaturity_perm (instruments : List (Instrument κ α)) : (byMaturity instruments).Perm instruments :=
  List.mergeSort_perm instruments _

theorem byMaturity_sorted (instruments : List (Instrument κ α)) :
    (byMaturity instruments).Pairwise fun a b => a.maturity ≤ b.maturity := by
  refine (List.pairwise_mergeSort (fun a b c hab hbc => ?_) (fun a b => ?_) instruments).imp of_decide_eq_true
  · exact decide_eq_true ((of_decide_eq_true hab).trans (of_decide_eq_true hbc))
  · simpa using le_total a.maturity b.maturity

/-- In either order the same dates follow each other. -/
theorem maturities_perm {first second : List (Instrument κ α)} (h : first.Perm second) :
    (byMaturity first).map (·.maturity) = (byMaturity second).map (·.maturity) := by
  have hperm := ((byMaturity_perm first).trans h).trans (byMaturity_perm second).symm
  exact (hperm.map (·.maturity)).eq_of_pairwise (fun a b _ _ => le_antisymm)
    (List.pairwise_map.mpr (byMaturity_sorted first)) (List.pairwise_map.mpr (byMaturity_sorted second))

/-! ## Shared maturities -/

theorem sharedMaturity_congr {first second : List (Instrument κ α)}
    (h : first.map (·.maturity) = second.map (·.maturity)) :
    sharedMaturity? first = sharedMaturity? second := by
  induction first generalizing second with
  | nil =>
    obtain rfl := List.map_eq_nil_iff.mp h.symm
    rfl
  | cons a rest ih =>
    obtain ⟨a', rest', rfl, ha, hrest⟩ := List.map_eq_cons_iff.mp h.symm
    have hlater := ih hrest.symm
    cases rest with
    | nil =>
      obtain rfl := List.map_eq_nil_iff.mp hrest
      rfl
    | cons b rest =>
      obtain ⟨b', rest', rfl, hb, -⟩ := List.map_eq_cons_iff.mp hrest
      unfold sharedMaturity?
      rw [ha, hb, hlater]

theorem sharedMaturity_none {instruments : List (Instrument κ α)}
    (hsorted : instruments.Pairwise fun a b => a.maturity ≤ b.maturity)
    (h : sharedMaturity? instruments = none) :
    instruments.Pairwise fun a b => a.maturity < b.maturity := by
  have hchain : instruments.IsChain fun a b => a.maturity < b.maturity := by
    fun_induction sharedMaturity? instruments with
    | case1 => cases h
    | case2 a b rest hdistinct ih =>
      obtain ⟨hfirst, hrest⟩ := List.pairwise_cons.mp hsorted
      exact .cons_cons ((hfirst b List.mem_cons_self).lt_of_ne hdistinct) (ih hrest h)
    | case3 short hshort =>
      rcases short with _ | ⟨a, _ | ⟨b, rest⟩⟩
      · exact .nil
      · exact .singleton a
      · exact absurd rfl (hshort a b rest)
  exact List.pairwise_map.mp (List.isChain_iff_pairwise.mp ((List.isChain_map Instrument.maturity).mpr hchain))

/-- If all maturities differ, there is one order of maturity. -/
theorem byMaturity_eq {first second : List (Instrument κ α)} (h : first.Perm second)
    (hdistinct : sharedMaturity? (byMaturity first) = none) : byMaturity first = byMaturity second := by
  have hperm := ((byMaturity_perm first).trans h).trans (byMaturity_perm second).symm
  have hdistinct' := (sharedMaturity_congr (maturities_perm h)).symm.trans hdistinct
  exact hperm.eq_of_pairwise (fun a b _ _ hab hba => absurd (hab.trans hba) (lt_irrefl _))
    (sharedMaturity_none (byMaturity_sorted first) hdistinct)
    (sharedMaturity_none (byMaturity_sorted second) hdistinct')

/-! ## Making a curve -/

section make

variable (kind : CurveKind) (reference : Reference) (dayCount : DayCount) (scheme : Scheme)
  (config : BootstrapConfig α) (solver : Solver)

theorem make_shared {instruments : List (Instrument κ α)} {maturity : Date}
    (h : sharedMaturity? (byMaturity instruments) = some maturity) :
    CurveSpec.make kind reference instruments dayCount scheme config solver =
      config.validate >>= fun _ => .error (.maturityTwice maturity) := by
  unfold byMaturity at h
  unfold make
  generalize instruments.mergeSort (fun a b => decide (a.maturity ≤ b.maturity)) = ordered at h ⊢
  cases ordered with
  | nil => cases h
  | cons first rest =>
    simp only [h]
    rfl

theorem make_perm {first second : List (Instrument κ α)} (h : first.Perm second) :
    CurveSpec.make kind reference first dayCount scheme config solver =
      CurveSpec.make kind reference second dayCount scheme config solver := by
  cases hshared : sharedMaturity? (byMaturity first) with
  | none =>
    have hordered : first.mergeSort _ = second.mergeSort _ := byMaturity_eq h hshared
    unfold make
    rw [hordered]
  | some maturity =>
    have hshared' := (sharedMaturity_congr (maturities_perm h)).symm.trans hshared
    rw [make_shared kind reference dayCount scheme config solver hshared,
      make_shared kind reference dayCount scheme config solver hshared']

end make

end CurveSpec

/-! ## Curves made from the same arguments -/

namespace Market

/-- No quote could have replaced another value without an announcement. -/
def Steady (m : Market α) : Prop := ∀ q value, sameValue value (m.read q) = true → value = m.read q

/-- If only equal values compare equal, a quote announces all of its changes. -/
theorem steady_of_lawful [LawfulBEq α] (m : Market α) : m.Steady := by
  intro q value h
  unfold sameValue at h
  split at h
  · next hread => exact hread.symm
  · next hread => rw [eq_of_beq h, hread]
  · cases h

theorem Steady.alike {m : Market α} (h : m.Steady) {q : QuoteId} {value : Option α}
    (halike : Alike value (m.read q)) : value = m.read q := by
  induction halike using Relation.ReflTransGen.head_induction_on with
  | refl => rfl
  | head hsame _ ih => exact h q _ (ih ▸ hsame)

variable {m : Market α} {id id' : CurveId} {c c' : LazyCurve α}

/-- As long as no change has gone unannounced, every curve that is not frozen answers with the outcome of a bootstrap. -/
theorem Sound.solution_steady (h : m.Sound) (hsteady : m.Steady) (hc : m.curves[id]? = some c)
    (hfree : c.cell.isFrozen = false) :
    (m.solution id).1 = c.spec.bootstrap m.read m.evaluation.current := by
  rw [solution_eq hc hfree]
  split_ifs with hvalid
  · obtain ⟨hcalculated, hstale⟩ := Bool.and_eq_true_iff.mp hvalid
    obtain ⟨values, nodes, halike, hnodes, hvalue⟩ := (h id c hc).2 hcalculated (by simpa using hstale)
    obtain rfl : values = m.read := funext fun q => hsteady.alike (halike q)
    rw [hvalue, hnodes]
    rfl
  · rfl

theorem sameAnswers_of_solution (hc : m.curves[id]? = some c) (hc' : m.curves[id']? = some c')
    (hspec : c.spec = c'.spec) (hsolution : (m.solution id).1 = (m.solution id').1) :
    SameAnswers m id m id' := by
  refine ⟨hsolution, fun extrapolates β query => ?_⟩
  have hview (solution : Option (NodeCurve α)) : c.view m.evaluation.current solution extrapolates =
      c'.view m.evaluation.current solution extrapolates := by
    unfold LazyCurve.view
    rw [hspec]
  rw [ask_eq hc, ask_eq hc', hsolution, hview]
  simp only [hview]

/-- **The order of the instruments does not matter.** The same instruments in another order make the same
curve or are refused for the same reason. If a curve is made, then what happens to a market is the same with
either of them in it; and in one market both answer every query alike if they have to calculate, or if
neither is frozen and no quote has changed unannounced. -/
theorem order_irrelevant (kind : CurveKind) (reference : Reference) (dayCount : DayCount) (scheme : Scheme)
    (config : BootstrapConfig α) (solver : Solver) {first second : List (Instrument QuoteId α)}
    (h : first.Perm second) :
    CurveSpec.make kind reference first dayCount scheme config solver =
      CurveSpec.make kind reference second dayCount scheme config solver ∧
    ∀ spec spec', CurveSpec.make kind reference first dayCount scheme config solver = .ok spec →
      CurveSpec.make kind reference second dayCount scheme config solver = .ok spec' →
      (∀ (m : Market α) (commands : List (Command α)),
        m.run (.newCurve spec :: commands) = m.run (.newCurve spec' :: commands)) ∧
      (∀ (m : Market α) id id' c c', m.curves[id]? = some c → m.curves[id']? = some c' →
        c.spec = spec → c'.spec = spec' → c.cell.isCalculated = false → c'.cell.isCalculated = false →
        SameAnswers m id m id') ∧
      ∀ (commands : List (Command α)) id id' c c', (run {} commands).curves[id]? = some c →
        (run {} commands).curves[id']? = some c' → c.spec = spec → c'.spec = spec' →
        (run {} commands).Steady → c.cell.isFrozen = false → c'.cell.isFrozen = false →
        SameAnswers (run {} commands) id (run {} commands) id' := by
  have hsame := CurveSpec.make_perm kind reference dayCount scheme config solver h
  refine ⟨hsame, fun spec spec' hspec hspec' => ?_⟩
  obtain rfl : spec = spec' := Except.ok.inj ((hspec.symm.trans hsame).trans hspec')
  refine ⟨fun m commands => rfl, ?_, ?_⟩
  · rintro m id id' c c' hc hc' rfl hspec hstale hstale'
    refine sameAnswers_of_solution hc hc' hspec.symm ?_
    rw [solution_uncalculated hc hstale, solution_uncalculated hc' hstale', hspec]
  · rintro commands id id' c c' hc hc' rfl hspec hsteady hfree hfree'
    refine sameAnswers_of_solution hc hc' hspec.symm ?_
    have hsound := run_sound commands
    rw [hsound.solution_steady hsteady hc hfree, hsound.solution_steady hsteady hc' hfree', hspec]

end Market

namespace TwoDeposits

open OneYear (start)
open OneDeposit (deposit)
open Market

/-- The longer deposit may come first. Two curves over both deposits answer alike, also when one of them is
frozen before it has calculated. -/
theorem order_irrelevant_swapped :
    let market : Market ℝ := run {} [.newQuote (some 0), .newQuote (some 1), .newCurve spec, .newCurve spec]
    let frozen := market.step (.freeze 0)
    CurveSpec.make .discount (.fixed start) [longer, deposit] .actual365Fixed .linear
        { negativeRates := false } { algorithm := .bisection } = .ok spec ∧
      SameAnswers market 0 market 1 ∧ SameAnswers frozen 0 frozen 1 := by
  intro market frozen
  obtain ⟨hsame, halike⟩ := order_irrelevant .discount (.fixed start) .actual365Fixed .linear
    { negativeRates := false } { algorithm := .bisection } (.swap longer deposit [])
  have hmake := hsame.symm.trans make_spec
  obtain ⟨-, hnew, hrun⟩ := halike spec spec make_spec hmake
  have hfirst : market.curves[0]? = some { spec := spec } := rfl
  have hsecond : market.curves[1]? = some { spec := spec } := rfl
  have hfrozen : frozen.curves[0]? = some { spec := spec, cell := { freezes := 1 } } := rfl
  have hfree : frozen.curves[1]? = some { spec := spec } := rfl
  exact ⟨hmake, hrun _ 0 1 _ _ hfirst hsecond rfl rfl (steady_of_lawful market) rfl rfl,
    hnew frozen 0 1 _ _ hfrozen hfree rfl rfl rfl rfl⟩

end TwoDeposits

end RateCurves
