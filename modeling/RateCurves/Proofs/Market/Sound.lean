import RateCurves.Proofs.Bootstrap.Sources
import RateCurves.Proofs.Market.Observers

/-!
# Sound markets

In a sound market every curve listens to all that its solution depends on, and a solution that is held
valid and has not been marked as stale is the one that a bootstrap would find now. Each operation keeps a
market sound: a change reaches the curves it concerns (`Sound.change`), and a calculation leaves either a
solution for the present quotes or none that counts (`Fresh.calculate`). Quotes whose values compare equal,
as zero and its negative do, replace each other without an announcement and count as the same.
-/

namespace RateCurves

variable {α : Type} [Scalar α]

namespace Market

/-! ## Quotes that count as the same -/

/-- One value may have replaced the other without an announcement. -/
def Alike : Option α → Option α → Prop := Relation.ReflTransGen fun a b => sameValue a b = true

/-! ## The invariant -/

/-- A solution that counts as valid is the one for quotes that are like the given ones. -/
def Fresh (c : LazyCurve α) (read : QuoteId → Option α) (today : Option Date) : Prop :=
  c.cell.calculated = true → c.cell.stale = false →
    ∃ values nodes, (∀ q, Alike (values q) (read q)) ∧ c.spec.bootstrap values today = .ok nodes ∧
      c.cell.value = some nodes

/-- A curve listens to all that its solution depends on. -/
structure Listens (m : Market α) (id : CurveId) (spec : CurveSpec QuoteId α) : Prop where
  quotes : ∀ q ∈ spec.sources, .curve id ∈ (m.quoteObservers q).entries
  date : ∀ days, spec.reference = .floating days → .curve id ∈ m.evaluation.observers.entries

/-- Every curve listens to what it depends on and holds no solution that has become wrong. -/
def Sound (m : Market α) : Prop :=
  ∀ id c, m.curves[id]? = some c → m.Listens id c.spec ∧ Fresh c m.read m.evaluation.current

/-- Only the quotes that a curve depends on matter, and the date only if its reference date floats. -/
theorem Fresh.change {c : LazyCurve α} {read read' : QuoteId → Option α} {today today' : Option Date}
    (h : Fresh c read today) (hread : ∀ q ∈ c.spec.sources, Alike (read q) (read' q))
    (htoday : ∀ days, c.spec.reference = .floating days → today = today') : Fresh c read' today' := by
  intro hcalculated hstale
  obtain ⟨values, nodes, halike, hnodes, hvalue⟩ := h hcalculated hstale
  refine ⟨fun q => if q ∈ c.spec.sources then values q else read' q, nodes, fun q => ?_, ?_, hvalue⟩
  · simp only
    split_ifs with hq
    · exact (halike q).trans (hread q hq)
    · exact .refl
  · have hsame : c.spec.bootstrap (fun q => if q ∈ c.spec.sources then values q else read' q) today' =
        c.spec.bootstrap values today' := CurveSpec.bootstrap_congr (fun q hq => if_pos hq) today'
    rw [hsame]
    cases hreference : c.spec.reference with
    | fixed date => rw [CurveSpec.bootstrap_fixed hreference today' today, hnodes]
    | floating days => rw [← htoday days hreference, hnodes]

theorem Fresh.of_stale {c : LazyCurve α} (h : c.cell.stale = true) (read : QuoteId → Option α)
    (today : Option Date) : Fresh c read today := by
  intro _ hstale
  rw [h] at hstale
  cases hstale

theorem Fresh.of_not_calculated {c : LazyCurve α} (h : c.cell.calculated = false)
    (read : QuoteId → Option α) (today : Option Date) : Fresh c read today := by
  intro hcalculated
  rw [h] at hcalculated
  cases hcalculated

/-! ## Changes of quotes and of the date -/

/-- A change keeps a market sound if all observers of what it changes are told. -/
theorem Sound.change {m m' : Market α} (h : m.Sound) {told : List Observer}
    (hquotes : ∀ q, (m'.quoteObservers q).entries = (m.quoteObservers q).entries)
    (hobservers : m'.evaluation.observers = m.evaluation.observers)
    (hcurves : ∀ id, m'.curves[id]? = m.curves[id]?.map (mark told id))
    (hread : ∀ q, Alike (m.read q) (m'.read q) ∨ ∀ o ∈ (m.quoteObservers q).entries, o ∈ told)
    (htoday : m.evaluation.current = m'.evaluation.current ∨
      ∀ o ∈ m.evaluation.observers.entries, o ∈ told) : m'.Sound := by
  intro id c' hc'
  rw [hcurves] at hc'
  obtain ⟨c, hc, rfl⟩ := Option.map_eq_some_iff.mp hc'
  obtain ⟨hlistens, hfresh⟩ := h id c hc
  refine ⟨?_, ?_⟩
  · rw [mark_spec]
    exact ⟨fun q hq => hquotes q ▸ hlistens.quotes q hq,
      fun days hdays => hobservers ▸ hlistens.date days hdays⟩
  · unfold mark
    split_ifs with htold
    · exact .of_stale rfl _ _
    · refine hfresh.change (fun q hq => ?_) fun days hdays => ?_
      · exact (hread q).resolve_right fun hall => htold (hall _ (hlistens.quotes q hq))
      · exact htoday.resolve_right fun hall => htold (hall _ (hlistens.date days hdays))

theorem Sound.setQuote {m : Market α} (h : m.Sound) (id : QuoteId) (value : Option α) :
    (m.setQuote id value).Sound := by
  obtain ⟨told, hmarks, htold⟩ := setQuote_marks m id value
  refine h.change (fun q => ?_) (congrArg (·.observers) hmarks.evaluation) hmarks.curves (fun q => ?_)
    (.inl (congrArg (·.current) hmarks.evaluation).symm)
  · rw [hmarks.quoteObservers_eq, quoteObservers_modify]
    split_ifs
    · unfold quoteObservers
      cases m.quotes[q]? <;> rfl
    · rfl
  · rw [hmarks.read_eq, read_modify]
    split_ifs with hq
    · subst hq
      rcases htold with hsame | rfl
      · left
        cases hquote : m.quotes[id]? with
        | none =>
          rw [read, hquote]
          exact .refl
        | some quote => exact .single hsame
      · exact .inr fun _ hmem => hmem
    · exact .inl .refl

theorem Sound.replaceDate {m : Market α} (h : m.Sound) (date : Option Date) : (m.replaceDate date).Sound := by
  obtain ⟨told, hmarks, htold⟩ := replaceDate_marks m date
  refine h.change (fun q => ?_) (congrArg (·.observers) hmarks.evaluation) hmarks.curves (fun q => .inl ?_) ?_
  · rw [hmarks.quoteObservers_eq]
    rfl
  · rw [hmarks.read_eq]
    exact .refl
  · rw [hmarks.evaluation]
    rcases htold with hsame | rfl
    · exact .inl hsame
    · exact .inr fun _ hmem => hmem

/-! ## New quotes and curves -/

theorem Sound.addQuote {m : Market α} (h : m.Sound) (value : Option α) : (m.addQuote value).2.Sound := by
  have hquote (q : QuoteId) : (m.quotes.push { value })[q]? =
      if q = m.quotes.size then some { value } else m.quotes[q]? := Array.getElem?_push
  have hnone : m.quotes[m.quotes.size]? = none := Array.getElem?_eq_none (Nat.le_refl _)
  refine h.change (fun q => ?_) rfl (Marks.nil m).curves (fun q => ?_) (.inl rfl)
  · simp only [Market.addQuote, quoteObservers, hquote]
    split_ifs with hq
    · rw [hq, hnone]
    · rfl
  · by_cases hq : q = m.quotes.size
    · right
      intro o ho
      rw [hq, quoteObservers, hnone] at ho
      exact ho
    · left
      simp only [Market.addQuote, read, hquote, if_neg hq]
      exact .refl

/-- Registers an observer with every quote that a curve depends on. -/
def watchInstruments (m : Market α) (instruments : List (Instrument QuoteId α)) (observer : Observer) :
    Market α :=
  instruments.foldl (fun m i => m.watchInstrument i observer) m

theorem watchInstruments_enlists (m : Market α) (instruments : List (Instrument QuoteId α))
    (observer : Observer) : Enlists m (m.watchInstruments instruments observer) :=
  foldl_enlists (fun m i => watchInstrument_enlists m i observer) instruments m

theorem watchInstruments_listens {m : Market α} {instruments : List (Instrument QuoteId α)} {q : QuoteId}
    (hq : q ∈ instruments.flatMap (·.sources)) (hsize : q < m.quotes.size) (observer : Observer) :
    observer ∈ ((m.watchInstruments instruments observer).quoteObservers q).entries := by
  obtain ⟨instrument, hinstrument, hsource⟩ := List.mem_flatMap.mp hq
  refine foldl_listens (fun m i => watchInstrument_enlists m i observer) hinstrument (fun m hm => ?_) hsize
  exact foldl_listens (fun m id => watchQuote_enlists m id observer) hsource
    (fun m hm => mem_watchQuote hm observer) hm

section addCurve

variable (m : Market α) (spec : CurveSpec QuoteId α)

/-- The market with a new curve that does not listen to anything yet. -/
def withCurve : Market α := { m with curves := m.curves.push { spec } }

theorem addCurve_eq : m.addCurve spec = (m.curves.size,
    match spec.reference with
    | .fixed _ => (m.withCurve spec).watchInstruments spec.instruments (.curve m.curves.size)
    | .floating _ => ((m.withCurve spec).watchInstruments spec.instruments
        (.curve m.curves.size)).watchDate (.curve m.curves.size)) := by
  unfold addCurve
  cases spec.reference <;> rfl

theorem addCurve_enlists : Enlists (m.withCurve spec) (m.addCurve spec).2 := by
  rw [addCurve_eq]
  have hinstruments := watchInstruments_enlists (m.withCurve spec) spec.instruments (.curve m.curves.size)
  cases spec.reference with
  | fixed date => exact hinstruments
  | floating days => exact hinstruments.trans (watchDate_enlists _ _)

variable {spec}

theorem addCurve_listens (h : ∀ q ∈ spec.sources, q < m.quotes.size) :
    (m.addCurve spec).2.Listens m.curves.size spec := by
  have hinstruments (q : QuoteId) (hq : q ∈ spec.sources) :=
    watchInstruments_listens (m := m.withCurve spec) hq (h q hq) (.curve m.curves.size)
  rw [addCurve_eq]
  cases hreference : spec.reference with
  | fixed date => exact ⟨hinstruments, fun days hdays => nomatch hreference.symm.trans hdays⟩
  | floating days =>
    exact ⟨fun q hq => (watchDate_enlists _ _).quotes q _ (hinstruments q hq),
      fun _ _ => mem_enlist.mpr (.inr rfl)⟩

variable {m}

theorem Listens.enlists {m' : Market α} (hm : Enlists m m') {id : CurveId} (h : m.Listens id spec) :
    m'.Listens id spec :=
  ⟨fun q hq => hm.quotes q _ (h.quotes q hq), fun days hdays => hm.date _ (h.date days hdays)⟩

theorem Sound.addCurve (h : m.Sound) (hsources : ∀ q ∈ spec.sources, q < m.quotes.size) :
    (m.addCurve spec).2.Sound := by
  have henlists := addCurve_enlists m spec
  intro id c hc
  rw [henlists.curves, withCurve, Array.getElem?_push] at hc
  split_ifs at hc with hid
  · obtain rfl := Option.some.inj hc
    rw [hid]
    exact ⟨addCurve_listens m hsources, .of_not_calculated rfl _ _⟩
  · obtain ⟨hlistens, hfresh⟩ := h id c hc
    refine ⟨Listens.enlists henlists ⟨hlistens.quotes, hlistens.date⟩, ?_⟩
    rw [henlists.read, henlists.today]
    exact hfresh

end addCurve

/-! ## Calculations -/

theorem calculate_uncalculated {m : Market α} {id : CurveId} {c : LazyCurve α} (hc : m.curves[id]? = some c)
    (h : c.cell.isCalculated = false) :
    (m.calculate id).1 = (c.spec.bootstrap m.read m.evaluation.current).map fun _ => () := by
  unfold calculate
  rw [hc]
  exact LazyCell.calculate_uncalculated h _ ()

theorem Sound.modifyCurve {m : Market α} (h : m.Sound) (id : CurveId) {f : LazyCurve α → LazyCurve α}
    (hsources : ∀ c, (f c).spec.sources = c.spec.sources)
    (hreference : ∀ c, (f c).spec.reference = c.spec.reference)
    (hfresh : ∀ c, m.curves[id]? = some c → Fresh c m.read m.evaluation.current →
      Fresh (f c) m.read m.evaluation.current) :
    Sound { m with curves := m.curves.modify id f } := by
  intro other c hc
  rw [Array.getElem?_modify] at hc
  split_ifs at hc with hid
  · subst hid
    obtain ⟨c, hc', rfl⟩ := Option.map_eq_some_iff.mp hc
    obtain ⟨hlistens, hold⟩ := h id c hc'
    refine ⟨⟨?_, ?_⟩, hfresh c hc' hold⟩
    · rw [hsources]
      exact hlistens.quotes
    · rw [hreference]
      exact hlistens.date
  · obtain ⟨hlistens, hold⟩ := h other c hc
    exact ⟨⟨hlistens.quotes, hlistens.date⟩, hold⟩

theorem Fresh.calculate {c : LazyCurve α} {read : QuoteId → Option α} {today : Option Date}
    (h : Fresh c read today) :
    Fresh { c with cell := (c.cell.calculate (fun _ : Unit => (c.spec.bootstrap read today, ())) ()).1.2 }
      read today := by
  cases hvalid : c.cell.isCalculated with
  | true =>
    rw [LazyCell.calculate_valid hvalid]
    exact h
  | false =>
    cases hnodes : c.spec.bootstrap read today with
    | ok nodes =>
      rw [LazyCell.calculate_succeeds hvalid rfl]
      exact fun _ _ => ⟨read, nodes, fun _ => .refl, hnodes, rfl⟩
    | error e =>
      rw [LazyCell.calculate_fails hvalid rfl]
      intro hcalculated
      cases hcalculated

theorem Sound.calculate {m : Market α} (h : m.Sound) (id : CurveId) : (m.calculate id).2.Sound := by
  unfold Market.calculate
  cases hc : m.curves[id]? with
  | none => exact h
  | some c =>
    refine h.modifyCurve id (fun _ => rfl) (fun _ => rfl) fun c' hc' hfresh => ?_
    obtain rfl := Option.some.inj (hc'.symm.trans hc)
    exact hfresh.calculate

theorem solution_snd (m : Market α) (id : CurveId) : (m.solution id).2 = (m.calculate id).2 := by
  unfold solution
  rcases m.calculate id with ⟨_ | ⟨⟩, _⟩ <;> rfl

theorem Sound.solution {m : Market α} (h : m.Sound) (id : CurveId) : (m.solution id).2.Sound :=
  solution_snd m id ▸ h.calculate id

theorem Sound.ask {m : Market α} (h : m.Sound) {β : Type} (curve : Curve α)
    (query : CurveView α → Outcome α β) : (m.ask curve query).2.Sound := by
  unfold Market.ask
  split
  · rename_i id _ _
    have hsolution := h.solution id
    revert hsolution
    rcases m.solution id with ⟨_ | _, m'⟩ <;> exact fun hm' => hm'
  · exact h

end Market

end RateCurves
