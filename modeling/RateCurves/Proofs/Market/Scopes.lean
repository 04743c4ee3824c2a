import Mathlib.Data.List.Induction
import Mathlib.Data.List.Infix
import RateCurves.Proofs.Market.Observers

/-!
# Scopes of the evaluation date

A scope remembers the date at its beginning and brings it back at its end. Whatever is set or reset inside it, and
whatever scopes begin and end inside it, when the scope ends the date is the one at which it began
(`Market.scopes_restore`): inside, the scopes of the market are some newer ones on top of those at the beginning
(`Market.dateRun_scopes`). A date that was set before the scope began is kept, so the date at an earlier moment
does not come back (`OneFlag.moment_not_restored`). A flag that observes the date is raised by just those events
that change it (`Market.dateStep_raises`, `Market.dateRun_raises`).
-/

namespace RateCurves

/-- What can happen to the evaluation date and to the flags that observe it. -/
inductive DateEvent where
  | set (date : Date)
  | reset
  | enter (date : Date)
  | leave
  | take (flag : FlagId)

namespace DateEvent

def enters (events : List DateEvent) : ℕ := events.countP fun | .enter _ => true | _ => false

def leaves (events : List DateEvent) : ℕ := events.countP fun | .leave => true | _ => false

theorem enters_append (events more : List DateEvent) : enters (events ++ more) = enters events + enters more :=
  List.countP_append

theorem leaves_append (events more : List DateEvent) : leaves (events ++ more) = leaves events + leaves more :=
  List.countP_append

/-- Every scope that begins among the events ends among them, and no other scope does. -/
structure Balanced (events : List DateEvent) : Prop where
  early : ∀ early, early <+: events → leaves early ≤ enters early
  total : leaves events = enters events

instance (events : List DateEvent) : Decidable (Balanced events) :=
  decidable_of_iff ((∀ early ∈ events.inits, leaves early ≤ enters early) ∧ leaves events = enters events)
    ⟨fun h => ⟨fun early hearly => h.1 early ((List.mem_inits _ _).mpr hearly), h.2⟩,
      fun h => ⟨fun early hearly => h.early early ((List.mem_inits _ _).mp hearly), h.total⟩⟩

end DateEvent

open DateEvent

variable {α : Type} [Scalar α]

namespace Market

def dateStep (m : Market α) : DateEvent → Market α
  | .set date => m.replaceDate (some date)
  | .reset => m.replaceDate none
  | .enter date => m.enterScope date
  | .leave => m.leaveScope
  | .take flag => (m.takeFlag flag).2

def dateRun (m : Market α) (events : List DateEvent) : Market α := events.foldl dateStep m

/-! ## Runs -/

theorem dateRun_append (m : Market α) (events more : List DateEvent) :
    m.dateRun (events ++ more) = (m.dateRun events).dateRun more := by
  simp [dateRun]

theorem dateRun_concat (m : Market α) (events : List DateEvent) (event : DateEvent) :
    m.dateRun (events ++ [event]) = (m.dateRun events).dateStep event := by
  simp [dateRun]

theorem enterScope_evaluation (m : Market α) (date : Date) :
    (m.enterScope date).evaluation =
      { m.evaluation with current := some date, scopes := m.evaluation.current :: m.evaluation.scopes } := by
  show { (m.replaceDate (some date)).evaluation with scopes := m.evaluation.current :: m.evaluation.scopes } = _
  rw [replaceDate_evaluation]

theorem leaveScope_evaluation {m : Market α} {before : Option Date} {scopes : List (Option Date)}
    (h : m.evaluation.scopes = before :: scopes) :
    m.leaveScope.evaluation = { m.evaluation with current := before, scopes } := by
  unfold leaveScope
  rw [h]
  exact replaceDate_evaluation _ before

/-! ## Scopes -/

/-- Events that end no more scopes than they begin, at any time, leave the scopes of the market below those they
have begun. -/
theorem dateRun_scopes (m : Market α) (events : List DateEvent)
    (hearly : ∀ early, early <+: events → leaves early ≤ enters early) :
    ∃ newer, (m.dateRun events).evaluation.scopes = newer ++ m.evaluation.scopes ∧
      newer.length + leaves events = enters events := by
  induction events using List.reverseRecOn with
  | nil => exact ⟨[], rfl, rfl⟩
  | append_singleton events event ih =>
    obtain ⟨newer, hscopes, hlength⟩ := ih fun early h => hearly early (h.trans (List.prefix_append _ _))
    have hlast := hearly _ (List.prefix_refl _)
    rw [enters_append, leaves_append] at hlast ⊢
    rw [dateRun_concat]
    cases event with
    | set date => exact ⟨newer, by rw [dateStep, replaceDate_evaluation, hscopes], hlength⟩
    | reset => exact ⟨newer, by rw [dateStep, replaceDate_evaluation, hscopes], hlength⟩
    | enter date =>
      refine ⟨(m.dateRun events).evaluation.current :: newer, ?_, ?_⟩
      · rw [dateStep, enterScope_evaluation, hscopes]
        rfl
      · show newer.length + 1 + leaves events = enters events + 1
        omega
    | leave =>
      have hlast : leaves events + 1 ≤ enters events := hlast
      -- there is a newer scope to end, as the last event may not end more than have begun
      cases newer with
      | nil =>
        simp at hlength
        omega
      | cons before newer =>
        refine ⟨newer, ?_, ?_⟩
        · rw [dateStep, leaveScope_evaluation hscopes]
          rfl
        · show newer.length + (leaves events + 1) = enters events
          simp at hlength
          omega
    | take flag => exact ⟨newer, hscopes, hlength⟩

theorem scope_restores (m : Market α) (date : Date) {inside : List DateEvent} (h : Balanced inside) :
    (m.dateRun (.enter date :: inside ++ [.leave])).evaluation.current = m.evaluation.current ∧
      (m.dateRun (.enter date :: inside ++ [.leave])).evaluation.scopes = m.evaluation.scopes := by
  have hrun : m.dateRun (.enter date :: inside ++ [.leave]) =
      ((m.enterScope date).dateRun inside).leaveScope := by
    rw [dateRun_concat]
    rfl
  obtain ⟨newer, hscopes, hlength⟩ := dateRun_scopes (m.enterScope date) inside h.early
  have hnone : newer = [] := by
    have := h.total
    exact List.eq_nil_of_length_eq_zero (by omega)
  rw [hnone, enterScope_evaluation] at hscopes
  rw [hrun, leaveScope_evaluation hscopes]
  exact ⟨rfl, rfl⟩

/-! ## Flags -/

variable {m : Market α} {flag : FlagId}

/-- The flag is one of the market and observes its evaluation date. -/
structure Watches (m : Market α) (flag : FlagId) : Prop where
  lt : flag < m.flags.size
  mem : .flag flag ∈ m.evaluation.observers.entries

theorem alert_flag (hflag : flag < m.flags.size) (observer : Observer) :
    flag < (m.alert observer).flags.size ∧
      ((m.alert observer).flagIsRaised flag = true ↔ m.flagIsRaised flag = true ∨ observer = .flag flag) := by
  cases observer with
  | flag other =>
    refine ⟨by simpa [alert] using hflag, ?_⟩
    by_cases hother : other = flag
    · simp [alert, flagIsRaised, hother, hflag, Array.getElem_modify]
    · simp [alert, flagIsRaised, hother, Array.getElem?_modify]
  | curve id => exact ⟨hflag, by simp [alert, flagIsRaised]⟩

theorem announce_flag (hflag : flag < m.flags.size) (observers : Registry Observer) :
    flag < (m.announce observers).flags.size ∧
      ((m.announce observers).flagIsRaised flag = true ↔
        m.flagIsRaised flag = true ∨ .flag flag ∈ observers.entries) := by
  unfold announce
  induction observers.entries generalizing m with
  | nil => exact ⟨hflag, by simp⟩
  | cons observer rest ih =>
    obtain ⟨hsize, halert⟩ := alert_flag hflag observer
    obtain ⟨hsize', hrest⟩ := ih hsize
    refine ⟨hsize', ?_⟩
    rw [List.foldl_cons, hrest, halert, List.mem_cons, or_assoc, @eq_comm _ observer]

theorem replaceDate_raises (h : m.Watches flag) (date : Option Date) :
    (m.replaceDate date).Watches flag ∧ ((m.replaceDate date).flagIsRaised flag = true ↔
      m.flagIsRaised flag = true ∨ (m.replaceDate date).evaluation.current ≠ m.evaluation.current) := by
  have hmem : .flag flag ∈ (m.replaceDate date).evaluation.observers.entries := by
    rw [replaceDate_evaluation]
    exact h.mem
  suffices hflag : flag < (m.replaceDate date).flags.size ∧ ((m.replaceDate date).flagIsRaised flag = true ↔
      m.flagIsRaised flag = true ∨ date ≠ m.evaluation.current) by
    rw [replaceDate_evaluation] at hmem ⊢
    exact ⟨⟨hflag.1, by rw [replaceDate_evaluation]; exact hmem⟩, hflag.2⟩
  unfold replaceDate
  by_cases hsame : m.evaluation.current = date
  · simp [hsame, h.lt, flagIsRaised]
  · have hannounce := announce_flag (m := { m with evaluation := { m.evaluation with current := date } }) h.lt
      m.evaluation.observers
    simp only [decide_eq_false hsame, Bool.false_eq_true, if_false]
    refine ⟨hannounce.1, hannounce.2.trans ?_⟩
    simp [h.mem, Ne.symm hsame]

theorem takeFlag_other {other : FlagId} (hother : other ≠ flag) :
    (m.takeFlag other).2.flagIsRaised flag = m.flagIsRaised flag := by
  simp [takeFlag, flagIsRaised, Array.getElem?_modify, hother]

theorem takeFlag_lowered (hflag : flag < m.flags.size) : (m.takeFlag flag).2.flagIsRaised flag = false := by
  simp [takeFlag, flagIsRaised, hflag, Array.getElem_modify]

/-- Of all that can happen to the date, just what changes it raises a flag that observes it. -/
theorem dateStep_raises (h : m.Watches flag) {event : DateEvent} (hevent : event ≠ .take flag) :
    (m.dateStep event).Watches flag ∧ ((m.dateStep event).flagIsRaised flag = true ↔
      m.flagIsRaised flag = true ∨ (m.dateStep event).evaluation.current ≠ m.evaluation.current) := by
  cases event with
  | set date => exact replaceDate_raises h (some date)
  | reset => exact replaceDate_raises h none
  | enter date =>
    obtain ⟨hwatches, hraised⟩ := replaceDate_raises h (some date)
    exact ⟨⟨hwatches.lt, hwatches.mem⟩, hraised⟩
  | leave =>
    unfold dateStep leaveScope
    cases hscopes : m.evaluation.scopes with
    | nil => exact ⟨h, by simp⟩
    | cons before scopes =>
      have hwatches : ({ m with evaluation := { m.evaluation with scopes } } : Market α).Watches flag :=
        ⟨h.lt, h.mem⟩
      exact replaceDate_raises hwatches before
  | take other =>
    have hother : other ≠ flag := fun heq => hevent (heq ▸ rfl)
    refine ⟨⟨by simpa [dateStep, takeFlag] using h.lt, h.mem⟩, ?_⟩
    show (m.takeFlag other).2.flagIsRaised flag = true ↔ _
    rw [takeFlag_other hother]
    simp [dateStep, takeFlag]

theorem dateStep_watches (h : m.Watches flag) (event : DateEvent) : (m.dateStep event).Watches flag := by
  by_cases hevent : event = .take flag
  · subst hevent
    exact ⟨by simpa [dateStep, takeFlag] using h.lt, h.mem⟩
  · exact (dateStep_raises h hevent).1

theorem dateRun_watches (h : m.Watches flag) (events : List DateEvent) : (m.dateRun events).Watches flag := by
  induction events generalizing m with
  | nil => exact h
  | cons event events ih => exact ih (dateStep_watches h event)

theorem dateRun_raises (h : m.Watches flag) (hlowered : m.flagIsRaised flag = false) (events : List DateEvent)
    (hsince : .take flag ∉ events) :
    (m.dateRun events).flagIsRaised flag = true ↔ ∃ early event, early ++ [event] <+: events ∧
      (m.dateRun (early ++ [event])).evaluation.current ≠ (m.dateRun early).evaluation.current := by
  induction events using List.reverseRecOn with
  | nil => simp [dateRun, hlowered]
  | append_singleton events event ih =>
    have hevent : event ≠ .take flag := fun heq => hsince (by simp [heq])
    have ih := ih fun hmem => hsince (by simp [hmem])
    have hlast : (m.dateRun (events ++ [event])).flagIsRaised flag = true ↔
        (m.dateRun events).flagIsRaised flag = true ∨
          (m.dateRun (events ++ [event])).evaluation.current ≠ (m.dateRun events).evaluation.current := by
      rw [dateRun_concat]
      exact (dateStep_raises (dateRun_watches h events) hevent).2
    rw [hlast, ih]
    constructor
    · rintro (⟨early, other, hprefix, hchanged⟩ | hchanged)
      · exact ⟨early, other, hprefix.trans (List.prefix_append _ _), hchanged⟩
      · exact ⟨events, event, List.prefix_refl _, hchanged⟩
    · rintro ⟨early, other, hprefix, hchanged⟩
      rcases List.prefix_concat_iff.mp hprefix with heq | hprefix
      · obtain ⟨rfl, -⟩ := List.append_inj' heq rfl
        exact .inr (heq ▸ hchanged)
      · exact .inl ⟨early, other, hprefix, hchanged⟩

/-! ## Whole runs -/

/-- **Scopes restore the date, and flags are raised by changes.** After any events, let a scope begin, let others
begin and end inside it, and let it end: then the date is the one before it began, whatever was set or reset
meanwhile. And if a flag that observes the date is taken after some events since it was taken last, or since it was
lowered at the start, it is found raised exactly if one of these events has changed the date. -/
theorem scopes_restore (m : Market α) {flag : FlagId} (hwatches : m.Watches flag)
    (hlowered : m.flagIsRaised flag = false) (before : List DateEvent) :
    (∀ date inside, Balanced inside →
      (m.dateRun (before ++ .enter date :: inside ++ [.leave])).evaluation.current =
        (m.dateRun before).evaluation.current) ∧
    (∀ since, (before = [] ∨ ∃ earlier, before = earlier ++ [.take flag]) → .take flag ∉ since →
      (((m.dateRun (before ++ since)).takeFlag flag).1 = true ↔ ∃ early event, early ++ [event] <+: since ∧
        (m.dateRun (before ++ early ++ [event])).evaluation.current ≠
          (m.dateRun (before ++ early)).evaluation.current)) := by
  constructor
  · intro date inside hinside
    rw [List.append_assoc, dateRun_append]
    exact (scope_restores (m.dateRun before) date hinside).1
  · intro since hbefore hsince
    have hlowered' : (m.dateRun before).flagIsRaised flag = false := by
      rcases hbefore with rfl | ⟨earlier, rfl⟩
      · exact hlowered
      · rw [dateRun_concat]
        exact takeFlag_lowered (dateRun_watches hwatches earlier).lt
    have hraises := dateRun_raises (dateRun_watches hwatches before) hlowered' since hsince
    have htake (m : Market α) : (m.takeFlag flag).1 = m.flagIsRaised flag := rfl
    simpa only [htake, dateRun_append, List.append_assoc] using hraises

end Market

/-! ## A flag and three days -/

namespace OneFlag

open Market

/-- A market with a flag that observes the evaluation date. -/
def market : Market Float := ({} : Market Float).addFlag.2.watchDate (.flag 0)

def monday : Date := { year := 2019, month := 9, day := 16 }

def tuesday : Date := { year := 2019, month := 9, day := 17 }

def wednesday : Date := { year := 2019, month := 9, day := 18 }

/-- A scope with another one and a reset inside restores the date, and an empty one raises the flag although the
date is the same before and after it. -/
theorem scopes_restore_monday :
    (market.dateRun ([.set monday, .take 0] ++ .enter tuesday :: [.reset, .enter wednesday, .leave] ++
      [.leave])).evaluation.current = some monday ∧
    ((market.dateRun ([.set monday, .take 0] ++ [.enter tuesday, .leave])).takeFlag 0).1 = true := by
  have hwatches : market.Watches 0 := ⟨by decide, by decide⟩
  obtain ⟨hscope, hflag⟩ := scopes_restore market hwatches (by decide) [.set monday, .take 0]
  refine ⟨(hscope tuesday [.reset, .enter wednesday, .leave] (by decide)).trans rfl, ?_⟩
  refine (hflag [.enter tuesday, .leave] (.inr ⟨[.set monday], rfl⟩) (by simp)).mpr ?_
  exact ⟨[], .enter tuesday, ⟨[.leave], rfl⟩, by decide⟩

/-- The date at a moment does not come back if another one is set before the first scope begins: the end of the
scope restores the date at its own beginning. -/
theorem moment_not_restored : ∃ (m : Market Float) (outside : List DateEvent) (date : Date)
    (inside : List DateEvent), m.evaluation.current = some monday ∧ enters outside = 0 ∧ Balanced inside ∧
      (m.dateRun (outside ++ .enter date :: inside ++ [.leave])).evaluation.current = some tuesday ∧
      some tuesday ≠ m.evaluation.current :=
  ⟨market.dateRun [.set monday], [.set tuesday], wednesday, [], by decide, by decide, by decide, by decide,
    by decide⟩

end OneFlag

end RateCurves
