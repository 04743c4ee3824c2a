import Mathlib.Logic.Relation
import Mathlib.Tactic.SplitIfs
import RateCurves.Market.Curve

/-!
# Observers in a market

What the operations of a market do to quotes, to observers and to the validity of curves. A change of
a quote or of the date marks the curves that listen to it and leaves the rest alone (`Marks`); a new
curve adds observers and takes none away (`Enlists`).
-/

namespace RateCurves.Market

variable {α : Type} [Scalar α]

/-! ## Marking curves -/

/-- A curve, marked as stale if it is among the observers that were told. -/
def mark (told : List Observer) (id : CurveId) (c : LazyCurve α) : LazyCurve α :=
  if .curve id ∈ told then { c with cell := c.cell.invalidate } else c

theorem mark_nil (id : CurveId) (c : LazyCurve α) : mark [] id c = c := if_neg List.not_mem_nil

theorem mark_spec (told : List Observer) (id : CurveId) (c : LazyCurve α) : (mark told id c).spec = c.spec := by
  unfold mark
  split <;> rfl

theorem mark_mark (told more : List Observer) (id : CurveId) (c : LazyCurve α) :
    mark more id (mark told id c) = mark (told ++ more) id c := by
  unfold mark
  by_cases htold : Observer.curve id ∈ told <;> by_cases hmore : Observer.curve id ∈ more <;>
    simp [htold, hmore, LazyCell.invalidate]

/-- The second market is the first one after some observers were told about a change. -/
structure Marks (told : List Observer) (m m' : Market α) : Prop where
  quotes : m'.quotes = m.quotes
  evaluation : m'.evaluation = m.evaluation
  curves : ∀ id, m'.curves[id]? = m.curves[id]?.map (mark told id)

theorem Marks.nil (m : Market α) : Marks [] m m := by
  refine ⟨rfl, rfl, fun id => ?_⟩
  simp only [funext (mark_nil (α := α) id), Option.map_id']

theorem Marks.append {told more : List Observer} {m m' m'' : Market α} (h : Marks told m m')
    (h' : Marks more m' m'') : Marks (told ++ more) m m'' := by
  refine ⟨h'.quotes.trans h.quotes, h'.evaluation.trans h.evaluation, fun id => ?_⟩
  rw [h'.curves, h.curves, Option.map_map]
  exact congrArg (Option.map · _) (funext (mark_mark told more id))

theorem Marks.read_eq {told : List Observer} {m m' : Market α} (h : Marks told m m') : m'.read = m.read := by
  funext q
  unfold read
  rw [h.quotes]

theorem Marks.quoteObservers_eq {told : List Observer} {m m' : Market α} (h : Marks told m m') (q : QuoteId) :
    m'.quoteObservers q = m.quoteObservers q := by
  unfold quoteObservers
  rw [h.quotes]

theorem alert_marks (m : Market α) (observer : Observer) : Marks [observer] m (m.alert observer) := by
  cases observer with
  | flag flag =>
    refine ⟨rfl, rfl, fun id => ?_⟩
    have hmark (c : LazyCurve α) : mark [Observer.flag flag] id c = c := if_neg (by simp)
    show m.curves[id]? = _
    rw [funext hmark, Option.map_id']
  | curve told =>
    refine ⟨rfl, rfl, fun id => ?_⟩
    simp only [alert, Array.getElem?_modify]
    split_ifs with hid
    · have hmark (c : LazyCurve α) : mark [Observer.curve told] id c = { c with cell := c.cell.invalidate } :=
        if_pos (by simp [hid])
      rw [funext hmark]
    · have hmark (c : LazyCurve α) : mark [Observer.curve told] id c = c :=
        if_neg (by simpa using Ne.symm hid)
      rw [funext hmark, Option.map_id']

/-- An announcement marks the curves among the observers. -/
theorem announce_marks (m : Market α) (observers : Registry Observer) :
    Marks observers.entries m (m.announce observers) := by
  unfold announce
  induction observers.entries generalizing m with
  | nil => exact .nil m
  | cons observer rest ih => exact (alert_marks m observer).append (ih (m.alert observer))

theorem setQuote_marks (m : Market α) (id : QuoteId) (value : Option α) :
    ∃ told, Marks told { m with quotes := m.quotes.modify id fun quote => { quote with value } }
        (m.setQuote id value) ∧
      (sameValue (m.read id) value = true ∨ told = (m.quoteObservers id).entries) := by
  unfold setQuote
  simp only
  split_ifs with hsame
  · exact ⟨[], .nil _, .inl hsame⟩
  · have hobservers : quoteObservers { m with quotes := m.quotes.modify id fun quote => { quote with value } } id =
        m.quoteObservers id := by
      simp only [quoteObservers, Array.getElem?_modify, if_pos]
      cases m.quotes[id]? <;> rfl
    exact ⟨_, hobservers ▸ announce_marks _ _, .inr rfl⟩

theorem replaceDate_marks (m : Market α) (date : Option Date) :
    ∃ told, Marks told { m with evaluation := { m.evaluation with current := date } } (m.replaceDate date) ∧
      (m.evaluation.current = date ∨ told = m.evaluation.observers.entries) := by
  unfold replaceDate
  simp only
  split_ifs with hsame
  · exact ⟨[], .nil _, .inl (of_decide_eq_true hsame)⟩
  · exact ⟨_, announce_marks _ m.evaluation.observers, .inr rfl⟩

theorem replaceDate_evaluation (m : Market α) (date : Option Date) :
    (m.replaceDate date).evaluation = { m.evaluation with current := date } := by
  obtain ⟨told, hmarks, -⟩ := replaceDate_marks m date
  exact hmarks.evaluation

/-! ## Enlisting observers -/

/-- The second market is the first one with more observers. -/
structure Enlists (m m' : Market α) : Prop where
  read : m'.read = m.read
  size : m'.quotes.size = m.quotes.size
  today : m'.evaluation.current = m.evaluation.current
  curves : m'.curves = m.curves
  quotes : ∀ q, ∀ observer ∈ (m.quoteObservers q).entries, observer ∈ (m'.quoteObservers q).entries
  date : ∀ observer ∈ m.evaluation.observers.entries, observer ∈ m'.evaluation.observers.entries

theorem Enlists.refl (m : Market α) : Enlists m m := ⟨rfl, rfl, rfl, rfl, fun _ _ => id, fun _ => id⟩

theorem Enlists.trans {m m' m'' : Market α} (h : Enlists m m') (h' : Enlists m' m'') : Enlists m m'' :=
  ⟨h'.read.trans h.read, h'.size.trans h.size, h'.today.trans h.today, h'.curves.trans h.curves,
    fun q observer hmem => h'.quotes q observer (h.quotes q observer hmem),
    fun observer hmem => h'.date observer (h.date observer hmem)⟩

theorem mem_enlist {observer other : Observer} {observers : Registry Observer} :
    other ∈ (enlist observer observers).entries ↔ other ∈ observers.entries ∨ other = observer := by
  have hprune : observers.prune (fun _ => true) = observers := by
    unfold Registry.prune
    rw [List.filter_eq_self.mpr fun _ _ => rfl]
  unfold enlist Registry.register
  rw [hprune]
  simp only
  split_ifs with hmem
  · refine ⟨.inl, ?_⟩
    rintro (h | rfl)
    · exact h
    · exact hmem
  · rw [List.mem_append, List.mem_singleton]

theorem read_modify (m : Market α) (id q : QuoteId) (f : Quote α → Quote α) :
    { m with quotes := m.quotes.modify id f }.read q =
      if id = q then m.quotes[q]?.bind fun quote => (f quote).value else m.read q := by
  simp only [read, Array.getElem?_modify]
  split_ifs
  · cases m.quotes[q]? <;> rfl
  · rfl

theorem quoteObservers_modify (m : Market α) (id q : QuoteId) (f : Quote α → Quote α) :
    { m with quotes := m.quotes.modify id f }.quoteObservers q =
      if id = q then (m.quotes[q]?.map fun quote => (f quote).observers).getD {}
      else m.quoteObservers q := by
  simp only [quoteObservers, Array.getElem?_modify]
  split_ifs
  · cases m.quotes[q]? <;> rfl
  · rfl

theorem watchQuote_enlists (m : Market α) (id : QuoteId) (observer : Observer) :
    Enlists m (m.watchQuote id observer) := by
  refine ⟨?_, Array.size_modify, rfl, rfl, fun q other hmem => ?_, fun _ hmem => hmem⟩
  · funext q
    rw [watchQuote, read_modify]
    split_ifs
    · rfl
    · rfl
  · rw [watchQuote, quoteObservers_modify]
    split_ifs
    · unfold quoteObservers at hmem
      cases hquote : m.quotes[q]? with
      | none => rwa [hquote] at hmem
      | some quote =>
        rw [hquote] at hmem
        exact mem_enlist.mpr (.inl hmem)
    · exact hmem

theorem watchDate_enlists (m : Market α) (observer : Observer) : Enlists m (m.watchDate observer) :=
  { Enlists.refl m with date := fun _ hmem => mem_enlist.mpr (.inl hmem) }

theorem mem_watchQuote {m : Market α} {id : QuoteId} (h : id < m.quotes.size) (observer : Observer) :
    observer ∈ ((m.watchQuote id observer).quoteObservers id).entries := by
  rw [watchQuote, quoteObservers_modify, if_pos rfl, Array.getElem?_eq_getElem h]
  exact mem_enlist.mpr (.inr rfl)

/-! ## Folds -/

section folds

variable {β : Type} {f : Market α → β → Market α} (hf : ∀ m x, Enlists m (f m x))
include hf

theorem foldl_enlists (xs : List β) (m : Market α) : Enlists m (xs.foldl f m) := by
  induction xs generalizing m with
  | nil => exact .refl m
  | cons x xs ih => exact (hf m x).trans (ih (f m x))

theorem foldl_listens {observer : Observer} {q : QuoteId} {x : β} {xs : List β} (hx : x ∈ xs)
    (hlistens : ∀ m : Market α, q < m.quotes.size → observer ∈ ((f m x).quoteObservers q).entries)
    {m : Market α} (hq : q < m.quotes.size) : observer ∈ ((xs.foldl f m).quoteObservers q).entries := by
  induction xs generalizing m with
  | nil => exact absurd hx List.not_mem_nil
  | cons y xs ih =>
    rcases List.mem_cons.mp hx with rfl | hx
    · exact (foldl_enlists hf xs (f m x)).quotes q observer (hlistens m hq)
    · apply ih hx
      rw [(hf m y).size]
      exact hq

end folds

theorem watchInstrument_enlists (m : Market α) (instrument : Instrument QuoteId α) (observer : Observer) :
    Enlists m (m.watchInstrument instrument observer) :=
  foldl_enlists (fun m id => watchQuote_enlists m id observer) _ m

end RateCurves.Market
