import Mathlib.Data.List.Induction
import Mathlib.Tactic.SplitIfs
import RateCurves.Observation.Broadcast
import RateCurves.Observation.Lazy

/-!
# When a lazy value is computed

A calculation runs the computation exactly if the value cannot be used as it is, and leaves a value that can be
used exactly if it has succeeded (`LazyCell.calculate_valid`, `LazyCell.calculate_succeeds`,
`LazyCell.calculate_fails`). An announcement that comes while the value is frozen stays with it until it is thawed
(`LazyObject.frozen_stale`). From then on every calculation runs the computation until one of them has succeeded,
and none does after that (`LazyObject.quiet_runs`). A value is frozen only if some last part of what has happened
to it has more freezes in it than thaws (`LazyObject.excess_of_isFrozen`), and then it is, as long as the count has
room for the freezes in force (`LazyObject.isFrozen_of_excess`). The main result puts these together for all runs of
a value that has just been made (`LazyObject.calculate_when_needed`).
-/

namespace RateCurves

/-! ## Lazy values with their history -/

/-- What can happen to a lazy value: it is asked for or made stale by hand, something happens on the observer
list of its input, it is frozen or thawed, and what its computation depends on changes. -/
inductive LazyEvent (κ σ : Type) where
  | calculate
  | update
  | input (event : Event κ)
  | freeze
  | unfreeze
  | become (state : σ)

/-- A lazy value, the observer list of its input and its name on that list, what its computation depends on,
and the outcomes of all computations so far. -/
structure LazyObject (κ ε β σ : Type) where
  cell : LazyCell β := {}
  input : Broadcast κ
  name : κ
  state : σ
  runs : List (Except ε β) := []

namespace LazyObject

variable {κ ε β σ : Type}

/-- The computation, with a note of its outcome. -/
def recorded (compute : σ → Except ε β × σ) (s : σ × List (Except ε β)) :
    Except ε β × (σ × List (Except ε β)) :=
  let (outcome, state) := compute s.1
  (outcome, (state, s.2 ++ [outcome]))

variable (compute : σ → Except ε β × σ)

def calculate (o : LazyObject κ ε β σ) : Except ε Unit × LazyObject κ ε β σ :=
  let ((answer, cell), (state, runs)) := o.cell.calculate (recorded compute) (o.state, o.runs)
  (answer, { o with cell, state, runs })

section calculate

variable {compute} {o : LazyObject κ ε β σ}

theorem calculate_valid (h : o.cell.isCalculated = true) : o.calculate compute = (.ok (), o) := by
  unfold calculate
  rw [LazyCell.calculate_valid h]

theorem calculate_runs (compute : σ → Except ε β × σ) (h : o.cell.isCalculated = false) :
    (o.calculate compute).2.runs = o.runs ++ [(compute o.state).1] ∧
      (o.calculate compute).1 = (compute o.state).1.map fun _ => () := by
  rcases hrun : compute o.state with ⟨e | value, s'⟩
  · have hrecorded : recorded compute (o.state, o.runs) = (.error e, (s', o.runs ++ [.error e])) := by
      simp [recorded, hrun]
    unfold calculate
    rw [LazyCell.calculate_fails h hrecorded]
    exact ⟨rfl, rfl⟩
  · have hrecorded : recorded compute (o.state, o.runs) = (.ok value, (s', o.runs ++ [.ok value])) := by
      simp [recorded, hrun]
    unfold calculate
    rw [LazyCell.calculate_succeeds h hrecorded]
    exact ⟨rfl, rfl⟩

theorem calculate_isCalculated (compute : σ → Except ε β × σ) (o : LazyObject κ ε β σ) :
    (o.calculate compute).2.cell.isCalculated = true ↔ (o.calculate compute).1 = .ok () :=
  LazyCell.calculate_isCalculated o.cell (recorded compute) (o.state, o.runs)

theorem calculate_isFrozen : (o.calculate compute).2.cell.isFrozen = o.cell.isFrozen := by
  have hfreezes := LazyCell.calculate_freezes o.cell (recorded compute) (o.state, o.runs)
  exact congrArg (fun freezes : UInt32 => decide (0 < freezes)) hfreezes

end calculate

/-! ## Nested freezes -/

def freezings (events : List (LazyEvent κ σ)) : ℕ := events.countP fun | .freeze => true | _ => false

def thaws (events : List (LazyEvent κ σ)) : ℕ := events.countP fun | .unfreeze => true | _ => false

/-- The freezes among some events that no later thaw has taken back. -/
def standing (events : List (LazyEvent κ σ)) : ℕ :=
  events.foldl (fun n event => n + freezings [event] - thaws [event]) 0

theorem standing_concat (events : List (LazyEvent κ σ)) (event : LazyEvent κ σ) :
    standing (events ++ [event]) = standing events + freezings [event] - thaws [event] := by
  simp [standing]

theorem exists_suffix_concat {p : ℕ → ℕ → Prop} (hnone : ¬p 0 0) (events : List (LazyEvent κ σ))
    (event : LazyEvent κ σ) :
    (∃ late, late <:+ events ++ [event] ∧ p (freezings late) (thaws late)) ↔
      ∃ late, late <:+ events ∧ p (freezings late + freezings [event]) (thaws late + thaws [event]) := by
  constructor
  · rintro ⟨late, hsuffix, hlate⟩
    rcases List.suffix_concat_iff.mp hsuffix with rfl | ⟨early, rfl, hpart⟩
    · exact absurd hlate hnone
    · exact ⟨early, hpart, by simpa [freezings, thaws, List.countP_append] using hlate⟩
  · rintro ⟨late, hsuffix, hlate⟩
    refine ⟨late ++ [event], List.suffix_concat_iff.mpr (.inr ⟨late, rfl, hsuffix⟩), ?_⟩
    simpa [freezings, thaws, List.countP_append] using hlate

/-- The number of standing freezes is the greatest excess of freezes in a last part of the events. -/
theorem lt_standing_iff (events : List (LazyEvent κ σ)) (k : ℕ) :
    k < standing events ↔ ∃ late, late <:+ events ∧ thaws late + k < freezings late := by
  induction events using List.reverseRecOn generalizing k with
  | nil => simp [standing, freezings]
  | append_singleton events event ih =>
    have hlate := exists_suffix_concat (p := fun f t => t + k < f) (Nat.not_lt_zero _) events event
    rw [standing_concat, hlate]
    cases event with
    | freeze =>
      cases k with
      | zero => exact ⟨fun _ => ⟨[], List.nil_suffix, Nat.zero_lt_one⟩, fun _ => Nat.succ_pos _⟩
      | succ k =>
        calc k + 1 < standing events + 1 - 0 ↔ k < standing events := by omega
          _ ↔ ∃ late, late <:+ events ∧ thaws late + k < freezings late := ih k
          _ ↔ ∃ late, late <:+ events ∧ thaws late + 0 + (k + 1) < freezings late + 1 :=
            exists_congr fun _ => and_congr_right fun _ => by omega
    | unfreeze =>
      calc k < standing events + 0 - 1 ↔ k + 1 < standing events := by omega
        _ ↔ ∃ late, late <:+ events ∧ thaws late + (k + 1) < freezings late := ih (k + 1)
        _ ↔ ∃ late, late <:+ events ∧ thaws late + 1 + k < freezings late + 0 :=
          exists_congr fun _ => and_congr_right fun _ => by omega
    | calculate | update | input | become => exact ih k

/-! ## Events -/

variable [DecidableEq κ]

/-- The value is among those updated by something that happens on the observer list. -/
def isTold (o : LazyObject κ ε β σ) (event : Event κ) : Bool :=
  o.name ∈ (o.input.step event).updates.drop o.input.updates.length

def step (o : LazyObject κ ε β σ) : LazyEvent κ σ → LazyObject κ ε β σ
  | .calculate => (o.calculate compute).2
  | .update => { o with cell := o.cell.invalidate }
  | .input event =>
    { o with input := o.input.step event, cell := if o.isTold event then o.cell.invalidate else o.cell }
  | .freeze => { o with cell := o.cell.freeze }
  | .unfreeze => { o with cell := o.cell.unfreeze }
  | .become state => { o with state }

def run (o : LazyObject κ ε β σ) (events : List (LazyEvent κ σ)) : LazyObject κ ε β σ :=
  events.foldl (step compute) o

/-- What an event answers, if it is a calculation. -/
def answer? (o : LazyObject κ ε β σ) : LazyEvent κ σ → Option (Except ε Unit)
  | .calculate => some (o.calculate compute).1
  | _ => none

/-- What the calculations among some events answer. -/
def answers (o : LazyObject κ ε β σ) : List (LazyEvent κ σ) → List (Except ε Unit)
  | [] => []
  | event :: events => (o.answer? compute event).toList ++ (o.step compute event).answers events

/-- The event announces a change to the value. -/
def Announces (o : LazyObject κ ε β σ) : LazyEvent κ σ → Prop
  | .update => True
  | .input event => o.isTold event = true
  | _ => False

/-- The value is frozen now and stays so through all of the events. -/
def FrozenThrough (o : LazyObject κ ε β σ) : List (LazyEvent κ σ) → Prop
  | [] => o.cell.isFrozen = true
  | event :: events => o.cell.isFrozen = true ∧ (o.step compute event).FrozenThrough events

/-- None of the events announces a change or freezes the value. -/
def Quiet (o : LazyObject κ ε β σ) : List (LazyEvent κ σ) → Prop
  | [] => True
  | event :: events => ¬o.Announces event ∧ event ≠ .freeze ∧ (o.step compute event).Quiet events

variable {compute} {o : LazyObject κ ε β σ} {event : LazyEvent κ σ}

/-! ## Freezes in force -/

theorem step_unfreeze (hfree : o.cell.isFrozen = false) : o.step compute .unfreeze = o := by
  show { o with cell := o.cell.unfreeze } = o
  rw [LazyCell.unfreeze_free hfree]

theorem step_freezes (o : LazyObject κ ε β σ) (event : LazyEvent κ σ) : (o.step compute event).cell.freezes.toNat =
    (o.cell.freezes.toNat + freezings [event]) % UInt32.size - thaws [event] := by
  have hword : o.cell.freezes.toNat % UInt32.size = o.cell.freezes.toNat := Nat.mod_eq_of_lt o.cell.freezes.toNat_lt
  cases event with
  | freeze => exact o.cell.freeze_freezes
  | unfreeze =>
    show o.cell.unfreeze.freezes.toNat = o.cell.freezes.toNat % UInt32.size - 1
    rw [hword]
    exact o.cell.unfreeze_freezes
  | calculate =>
    refine .trans ?_ hword.symm
    exact congrArg _ (LazyCell.calculate_freezes o.cell (recorded compute) (o.state, o.runs))
  | input event =>
    refine .trans ?_ hword.symm
    show (if o.isTold event then o.cell.invalidate else o.cell).freezes.toNat = o.cell.freezes.toNat
    split_ifs <;> rfl
  | update | become => exact hword.symm

theorem run_concat (o : LazyObject κ ε β σ) (events : List (LazyEvent κ σ)) (event : LazyEvent κ σ) :
    o.run compute (events ++ [event]) = (o.run compute events).step compute event := by
  simp [run]

theorem freezes_le_standing (hnew : o.cell.freezes = 0) (events : List (LazyEvent κ σ)) :
    (o.run compute events).cell.freezes.toNat ≤ standing events := by
  induction events using List.reverseRecOn with
  | nil => simp [run, hnew]
  | append_singleton events event ih =>
    rw [run_concat, step_freezes, standing_concat]
    exact Nat.sub_le_sub_right (Nat.le_trans (Nat.mod_le _ _) (Nat.add_le_add_right ih _)) _

/-- As long as there is room for them, the count is that of the standing freezes. -/
theorem freezes_eq_standing (hnew : o.cell.freezes = 0) (events : List (LazyEvent κ σ))
    (hroom : ∀ early, early <+: events → standing early < UInt32.size) :
    (o.run compute events).cell.freezes.toNat = standing events := by
  induction events using List.reverseRecOn with
  | nil => simp [run, hnew, standing]
  | append_singleton events event ih =>
    have hbefore := hroom events (List.prefix_append events [event])
    have hafter := hroom (events ++ [event]) (List.prefix_refl _)
    have heq := ih fun early hearly => hroom early (hearly.trans (List.prefix_append events [event]))
    rw [standing_concat] at hafter
    rw [run_concat, step_freezes, standing_concat, heq]
    -- an event that takes a freeze back puts none in force
    have hone : freezings [event] = 0 ∨ thaws [event] = 0 := by
      cases event with
      | freeze => exact .inr rfl
      | calculate | update | input | unfreeze | become => exact .inl rfl
    have hfits : standing events + freezings [event] < UInt32.size := by omega
    rw [Nat.mod_eq_of_lt hfits]

theorem excess_of_isFrozen (hnew : o.cell.freezes = 0) (events : List (LazyEvent κ σ))
    (h : (o.run compute events).cell.isFrozen = true) : ∃ late, late <:+ events ∧ thaws late < freezings late :=
  (lt_standing_iff events 0).mp (Nat.lt_of_lt_of_le (LazyCell.isFrozen_iff.mp h) (freezes_le_standing hnew events))

/-- A value that has been frozen more often than thawed in some last part of the events is frozen, as long as there
have never been more freezes than the count can hold. -/
theorem isFrozen_of_excess (hnew : o.cell.freezes = 0) {events : List (LazyEvent κ σ)}
    (hroom : ∀ part, part <:+: events → freezings part < thaws part + UInt32.size)
    (h : ∃ late, late <:+ events ∧ thaws late < freezings late) :
    (o.run compute events).cell.isFrozen = true := by
  have hstanding : ∀ early, early <+: events → standing early < UInt32.size := by
    intro early hearly
    by_contra hfull
    have hlast : UInt32.size - 1 < standing early := Nat.lt_of_lt_of_le (by decide) (Nat.le_of_not_lt hfull)
    obtain ⟨part, hpart, hlt⟩ := (lt_standing_iff early (UInt32.size - 1)).mp hlast
    have hfit := hroom part (hpart.isInfix.trans hearly.isInfix)
    have hsize : UInt32.size - 1 + 1 = UInt32.size := rfl
    omega
  rw [LazyCell.isFrozen_iff, freezes_eq_standing hnew events hstanding]
  exact (lt_standing_iff events 0).mpr h

/-! ## From an announcement to the next success -/

theorem step_announced (h : o.Announces event) : (o.step compute event).cell.stale = true := by
  cases event with
  | update => rfl
  | input event =>
    have htold : o.isTold event = true := h
    simp [step, htold, LazyCell.invalidate]
  | calculate | freeze | unfreeze | become => exact h.elim

theorem step_stale (hfrozen : o.cell.isFrozen = true) (hstale : o.cell.stale = true) (event : LazyEvent κ σ) :
    (o.step compute event).cell.stale = true := by
  cases event with
  | calculate =>
    have h := LazyCell.calculate_stale o.cell (recorded compute) (o.state, o.runs)
    rw [hfrozen, hstale] at h
    exact h
  | update => rfl
  | input event =>
    show (if o.isTold event then o.cell.invalidate else o.cell).stale = true
    split_ifs
    · rfl
    · exact hstale
  | freeze | unfreeze | become => exact hstale

theorem frozen_stale (events : List (LazyEvent κ σ)) (hfrozen : o.FrozenThrough compute events)
    (hstale : o.cell.stale = true) : (o.run compute events).cell.stale = true := by
  induction events generalizing o with
  | nil => exact hstale
  | cons event events ih => exact ih hfrozen.2 (step_stale hfrozen.1 hstale event)

theorem FrozenThrough.isFrozen {events : List (LazyEvent κ σ)} (h : o.FrozenThrough compute events) :
    (o.run compute events).cell.isFrozen = true := by
  induction events generalizing o with
  | nil => exact h
  | cons event events ih => exact ih h.2

theorem step_quiet (compute : σ → Except ε β × σ) (hfree : o.cell.isFrozen = false) (hquiet : ¬o.Announces event)
    (hfreeze : event ≠ .freeze) :
    event = .calculate ∨
      (o.step compute event).cell = o.cell ∧ (o.step compute event).runs = o.runs ∧
        o.answer? compute event = none := by
  cases event with
  | calculate => exact .inl rfl
  | update => exact absurd trivial hquiet
  | input event =>
    refine .inr ⟨?_, rfl, rfl⟩
    exact if_neg hquiet
  | freeze => exact absurd rfl hfreeze
  | unfreeze =>
    exact .inr ⟨LazyCell.unfreeze_free hfree, rfl, rfl⟩
  | become state => exact .inr ⟨rfl, rfl, rfl⟩

/-- As long as no change is announced to a value that is not frozen, nothing is computed once it can be used, and
before that one computation succeeds if any calculation does. -/
theorem quiet_runs (events : List (LazyEvent κ σ)) (hfree : o.cell.isFrozen = false)
    (hquiet : o.Quiet compute events) :
    ∃ more, (o.run compute events).runs = o.runs ++ more ∧
      more.countP Except.isOk =
        if o.cell.isCalculated = false ∧ (o.answers compute events).any Except.isOk then 1 else 0 := by
  induction events generalizing o with
  | nil => exact ⟨[], by simp [run], by simp [answers]⟩
  | cons event events ih =>
    obtain ⟨hannounces, hfreeze, hrest⟩ := hquiet
    rcases step_quiet compute hfree hannounces hfreeze with rfl | ⟨hcell, hruns, hanswer⟩
    · obtain ⟨more, hmore, hcount⟩ := ih (o := (o.calculate compute).2) (calculate_isFrozen.trans hfree) hrest
      have hrun : o.run compute (.calculate :: events) = (o.calculate compute).2.run compute events := rfl
      have hanswers : o.answers compute (.calculate :: events) =
        (o.calculate compute).1 :: (o.calculate compute).2.answers compute events := rfl
      rw [hrun, hanswers]
      cases hvalid : o.cell.isCalculated with
      | true =>
        rw [calculate_valid hvalid] at hmore hcount ⊢
        exact ⟨more, hmore, by simpa [hvalid] using hcount⟩
      | false =>
        obtain ⟨hone, hanswer⟩ := calculate_runs compute hvalid
        have hafter := calculate_isCalculated compute o
        rw [hone] at hmore
        rw [hanswer] at hafter ⊢
        refine ⟨(compute o.state).1 :: more, by simp [hmore], ?_⟩
        rw [List.countP_cons, hcount]
        cases houtcome : (compute o.state).1 with
        | error e =>
          rw [houtcome] at hafter
          have hinvalid : (o.calculate compute).2.cell.isCalculated = false := by
            simpa [Except.map] using hafter
          simp [hinvalid, Except.isOk, Except.toBool, Except.map]
        | ok value =>
          rw [houtcome] at hafter
          simp [hafter.mpr rfl, Except.isOk, Except.toBool, Except.map]
    · obtain ⟨more, hmore, hcount⟩ := ih (hcell ▸ hfree) hrest
      refine ⟨more, hmore.trans (by rw [hruns]), ?_⟩
      rw [hcount, hcell, answers, hanswer]
      rfl

/-- **A lazy value is computed when it is needed.** After any events that have happened to a new lazy value, a
calculation runs the computation once if the value cannot be used, and answers what that gives; otherwise it
succeeds and changes nothing. After it the value can be used exactly if the calculation has succeeded. If a change
has been announced while the value was frozen, and it stays frozen until some event leaves no freeze in force, then
among the calculations that follow, up to the next announcement or freeze, one run of the computation succeeds, or
none if no calculation does. A value that is not frozen is not changed by a thaw. Only if some last part of the
events has more freezes than thaws is the value frozen, and then it is, unless `2 ^ 32` freezes have been in force
at once, which is one more than can be counted. -/
theorem calculate_when_needed (compute : σ → Except ε β × σ) (input : Broadcast κ) (name : κ) (state : σ)
    (events : List (LazyEvent κ σ)) :
    let o : LazyObject κ ε β σ := run compute { input, name, state } events
    (o.cell.isCalculated = false → (o.calculate compute).2.runs = o.runs ++ [(compute o.state).1] ∧
      (o.calculate compute).1 = (compute o.state).1.map fun _ => ()) ∧
    (o.cell.isCalculated = true → o.calculate compute = (.ok (), o)) ∧
    ((o.calculate compute).2.cell.isCalculated = true ↔ (o.calculate compute).1 = .ok ()) ∧
    (∀ announcement later last calm,
      let thawed := ((o.step compute announcement).run compute later).step compute last
      o.cell.isFrozen = true → o.Announces announcement →
      (o.step compute announcement).FrozenThrough compute later → thawed.cell.isFrozen = false →
      thawed.Quiet compute calm →
      ∃ more, (thawed.run compute calm).runs = thawed.runs ++ more ∧
        more.countP Except.isOk = if (thawed.answers compute calm).any Except.isOk then 1 else 0) ∧
    (o.cell.isFrozen = false → o.step compute .unfreeze = o) ∧
    (o.cell.isFrozen = true → ∃ late, late <:+ events ∧ thaws late < freezings late) ∧
    ((∀ part, part <:+: events → freezings part < thaws part + UInt32.size) →
      (∃ late, late <:+ events ∧ thaws late < freezings late) → o.cell.isFrozen = true) := by
  intro o
  refine ⟨calculate_runs compute, calculate_valid, calculate_isCalculated compute o, ?_, step_unfreeze,
    excess_of_isFrozen rfl events, isFrozen_of_excess rfl⟩
  intro announcement later last calm thawed hfrozen hannounces hthrough hfree hquiet
  -- the announcement is still pending when the last freeze is taken back
  have hlater := frozen_stale later hthrough (step_announced hannounces)
  have hstale : thawed.cell.stale = true := step_stale hthrough.isFrozen hlater last
  have hinvalid : thawed.cell.isCalculated = false := by
    simp [LazyCell.isCalculated, hstale, hfree]
  obtain ⟨more, hmore, hcount⟩ := quiet_runs calm hfree hquiet
  exact ⟨more, hmore, by simpa [hinvalid] using hcount⟩

/-- A computation that fails as long as it is told to. -/
def obeying (fails : Bool) : Except String Unit × Bool :=
  (if fails then .error "unavailable" else .ok (), fails)

/-- Computed once, then frozen. -/
def computedThenFrozen : LazyObject Nat String Unit Bool :=
  run obeying { input := {}, name := 0, state := false }
    [.input (.create 0), .input (.register 0), .calculate, .freeze]

/-- A notification reaches the frozen value. After the thaw a first calculation fails, a second one succeeds and a
third one finds the value. -/
theorem calculate_when_needed_thawed :
    let thawed := ((computedThenFrozen.step obeying (.input .notify)).run obeying
      [.calculate, .update, .become true]).step obeying .unfreeze
    thawed.runs = [.ok ()] ∧ (thawed.run obeying [.calculate, .become false, .calculate, .calculate]).runs =
        [.ok (), .error "unavailable", .ok ()] ∧
      ∃ more, (thawed.run obeying [.calculate, .become false, .calculate, .calculate]).runs = thawed.runs ++ more ∧
        more.countP Except.isOk = 1 := by
  refine ⟨rfl, rfl, ?_⟩
  have hneeded := calculate_when_needed obeying {} 0 false
    [.input (.create 0), .input (.register 0), .calculate, .freeze]
  obtain ⟨-, -, -, hthaw, -, -, -⟩ := hneeded
  exact hthaw (.input .notify) [.calculate, .update, .become true] .unfreeze
    [.calculate, .become false, .calculate, .calculate] rfl rfl ⟨rfl, rfl, rfl, rfl⟩ rfl
    ⟨id, nofun, id, nofun, id, nofun, id, nofun, trivial⟩

end LazyObject

end RateCurves
