import Mathlib.Data.List.Nodup
import Mathlib.Tactic.SplitIfs
import RateCurves.Observation.Broadcast

/-!
# Exactly one update for each observer

Who is registered can be told from the calls alone, without looking at who is alive: `registered` appends an
observer at its first call and takes it out when it is unregistered. A broadcast removes observers that are
gone at times of its own, yet that makes no difference: among the observers alive, those on its list are the
registered ones, in the same order (`Lists`). Every call keeps this (`Lists.apply`), so every event does, a
notification with all calls from inside its updates included (`Lists.step`), and so does a run
(`Lists.run`). It follows that a notification updates the registered observers that are alive, each once
(`notify_delivers`). Since none of them is updated twice by one notification, calls fixed before it (`reaction`)
are as general as calls decided on during the update.
-/

namespace RateCurves.Broadcast

variable {κ : Type} [DecidableEq κ]

/-! ## Calls -/

/-- The registered observers after one more call. -/
def enter (r : List κ) : Change κ → List κ
  | .register k => if k ∈ r then r else r ++ [k]
  | .unregister k => r.filter (· ≠ k)

theorem enter_register (r : List κ) (k : κ) : enter r (.register k) = if k ∈ r then r else r ++ [k] := rfl

theorem enter_unregister (r : List κ) (k : κ) : enter r (.unregister k) = r.filter (· ≠ k) := rfl

/-- The observers that some calls leave registered, in the order of their registration. -/
def registered (calls : List (Change κ)) : List κ := calls.foldl enter []

/-- The calls made by an event: those of a notification come from inside the updates it has made. -/
def calls (b : Broadcast κ) : Event κ → List (Change κ)
  | .register k => [.register k]
  | .unregister k => [.unregister k]
  | .notify => (b.notify.updates.drop b.updates.length).flatMap b.reaction
  | .create _ | .drop _ | .react _ _ => []

/-- The calls made by some events in turn. -/
def history (b : Broadcast κ) : List (Event κ) → List (Change κ)
  | [] => []
  | event :: events => b.calls event ++ (b.step event).history events

/-- Observers are new when they are created: none of them is registered yet. -/
def Introduces (r : List κ) : Event κ → Prop
  | .create k => k ∉ r
  | _ => True

/-- Each of the events introduces new observers only. -/
def IntroducesAll (b : Broadcast κ) (past : List (Change κ)) : List (Event κ) → Prop
  | [] => True
  | event :: events =>
    Introduces (registered past) event ∧ (b.step event).IntroducesAll (past ++ b.calls event) events

/-! ## The states on the way -/

/-- The states on the way through some calls. -/
def making (b : Broadcast κ) : List (Change κ) → List (Broadcast κ)
  | [] => [b]
  | call :: calls => b :: (b.apply call).making calls

/-- The states on the way through the updates of some observers. -/
def updating (b : Broadcast κ) : List κ → List (Broadcast κ)
  | [] => [b]
  | k :: rest => making { b with updates := b.updates ++ [k] } (b.reaction k) ++ (b.update k).updating rest

/-- The states on the way through an event. -/
def passing (b : Broadcast κ) : Event κ → List (Broadcast κ)
  | .notify =>
    updating { b with registry := b.registry.prune b.alive } (b.registry.prune b.alive).entries
  | event => [b.step event]

/-- The states on the way through some events, those in the middle of a notification included. -/
def passed (b : Broadcast κ) : List (Event κ) → List (Broadcast κ)
  | [] => [b]
  | event :: events => b :: b.passing event ++ (b.step event).passed events

/-! Calls, updates and events end in one of the states on their way. -/

theorem foldl_mem_making (calls : List (Change κ)) (b : Broadcast κ) : calls.foldl apply b ∈ b.making calls := by
  induction calls generalizing b with
  | nil => exact List.mem_singleton_self b
  | cons call calls ih => exact List.mem_cons_of_mem b (ih (b.apply call))

theorem foldl_mem_updating (ks : List κ) (b : Broadcast κ) : ks.foldl update b ∈ b.updating ks := by
  induction ks generalizing b with
  | nil => exact List.mem_singleton_self b
  | cons k ks ih => exact List.mem_append_right _ (ih (b.update k))

theorem step_mem_passing (b : Broadcast κ) (event : Event κ) : b.step event ∈ b.passing event := by
  cases event with
  | create k | drop k | react k changes | register k | unregister k => exact List.mem_singleton_self _
  | notify => exact foldl_mem_updating _ _

theorem run_mem_passed (events : List (Event κ)) (b : Broadcast κ) : b.run events ∈ b.passed events := by
  induction events generalizing b with
  | nil => exact List.mem_singleton_self b
  | cons event events ih => exact List.mem_append_right _ (ih (b.step event))

/-! ## Repetitions -/

theorem enter_nodup {r : List κ} (h : r.Nodup) (call : Change κ) : (enter r call).Nodup := by
  cases call with
  | register k =>
    rw [enter_register]
    split_ifs with hk
    · exact h
    · exact List.nodup_append.mpr ⟨h, List.nodup_singleton k, by
        rintro a ha b hb rfl
        exact hk (List.mem_singleton.mp hb ▸ ha)⟩
  | unregister k => exact h.filter _

theorem register_entries (registry : Registry κ) (alive : κ → Bool) (k : κ) :
    (registry.register alive k).entries = enter (registry.entries.filter alive) (.register k) := by
  rw [enter_register]
  unfold Registry.register Registry.prune
  simp only
  split_ifs <;> rfl

theorem apply_nodup {b : Broadcast κ} (h : b.registry.entries.Nodup) (call : Change κ) :
    (b.apply call).registry.entries.Nodup := by
  cases call with
  | register k =>
    show (b.registry.register b.alive k).entries.Nodup
    rw [register_entries]
    exact enter_nodup (h.filter _) _
  | unregister k => exact enter_nodup h (.unregister k)

theorem making_nodup (calls : List (Change κ)) {b : Broadcast κ} (h : b.registry.entries.Nodup) :
    ∀ s ∈ b.making calls, s.registry.entries.Nodup := by
  induction calls generalizing b with
  | nil => exact fun s hs => List.mem_singleton.mp hs ▸ h
  | cons call calls ih =>
    intro s hs
    rcases List.mem_cons.mp hs with rfl | hs
    · exact h
    · exact ih (apply_nodup h call) s hs

theorem updating_nodup (ks : List κ) {b : Broadcast κ} (h : b.registry.entries.Nodup) :
    ∀ s ∈ b.updating ks, s.registry.entries.Nodup := by
  induction ks generalizing b with
  | nil => exact fun s hs => List.mem_singleton.mp hs ▸ h
  | cons k ks ih =>
    intro s hs
    have noted : ({ b with updates := b.updates ++ [k] } : Broadcast κ).registry.entries.Nodup := h
    have made := making_nodup (b.reaction k) noted
    rcases List.mem_append.mp hs with hs | hs
    · exact made s hs
    · exact ih (made _ (foldl_mem_making _ _)) s hs

theorem passing_nodup {b : Broadcast κ} (h : b.registry.entries.Nodup) (event : Event κ) :
    ∀ s ∈ b.passing event, s.registry.entries.Nodup := by
  cases event with
  | create k | drop k | react k changes => exact fun s hs => List.mem_singleton.mp hs ▸ h
  | register k | unregister k => exact fun s hs => List.mem_singleton.mp hs ▸ apply_nodup h _
  | notify =>
    have pruned : ({ b with registry := b.registry.prune b.alive } : Broadcast κ).registry.entries.Nodup :=
      h.filter _
    exact updating_nodup _ pruned

theorem passed_nodup (events : List (Event κ)) {b : Broadcast κ} (h : b.registry.entries.Nodup) :
    ∀ s ∈ b.passed events, s.registry.entries.Nodup := by
  induction events generalizing b with
  | nil => exact fun s hs => List.mem_singleton.mp hs ▸ h
  | cons event events ih =>
    intro s hs
    have next := passing_nodup h event
    rcases List.mem_append.mp hs with hs | hs
    · rcases List.mem_cons.mp hs with rfl | hs
      · exact h
      · exact next s hs
    · exact ih (next _ (step_mem_passing b event)) s hs

/-! ## What calls and updates leave alone -/

theorem foldl_apply_eq (calls : List (Change κ)) (b : Broadcast κ) :
    ∃ registry, calls.foldl apply b = { b with registry } := by
  induction calls generalizing b with
  | nil => exact ⟨b.registry, rfl⟩
  | cons call calls ih =>
    obtain ⟨registry, h⟩ := ih (b.apply call)
    refine ⟨registry, h.trans ?_⟩
    cases call <;> rfl

theorem foldl_update_eq (ks : List κ) (b : Broadcast κ) :
    ∃ registry, ks.foldl update b = { b with registry, updates := b.updates ++ ks } := by
  induction ks generalizing b with
  | nil => exact ⟨b.registry, by rw [List.append_nil]; rfl⟩
  | cons k ks ih =>
    obtain ⟨registry, h⟩ := ih (b.update k)
    obtain ⟨made, hmade⟩ := foldl_apply_eq (b.reaction k) { b with updates := b.updates ++ [k] }
    have hupdate : b.update k = { b with registry := made, updates := b.updates ++ [k] } := hmade
    refine ⟨registry, h.trans ?_⟩
    rw [hupdate, List.append_assoc]
    rfl

theorem update_reaction (b : Broadcast κ) (k : κ) : (b.update k).reaction = b.reaction := by
  obtain ⟨registry, h⟩ := foldl_update_eq [k] b
  have hupdate : b.update k = { b with registry, updates := b.updates ++ [k] } := h
  rw [hupdate]

theorem notify_eq (b : Broadcast κ) :
    ∃ registry, b.notify = { b with registry, updates := b.updates ++ b.registry.entries.filter b.alive } :=
  foldl_update_eq (b.registry.entries.filter b.alive) { b with registry := b.registry.prune b.alive }

/-- The calls from inside a notification are those of the observers on the pruned list. -/
theorem calls_notify (b : Broadcast κ) :
    b.calls .notify = (b.registry.entries.filter b.alive).flatMap b.reaction := by
  obtain ⟨registry, h⟩ := notify_eq b
  show (b.notify.updates.drop b.updates.length).flatMap b.reaction = _
  rw [h, List.drop_left]

/-! ## Agreement with the calls -/

/-- Only members of `r` are in `l`, and among those alive it has them all, in their order. -/
structure Agrees (alive : κ → Bool) (l r : List κ) : Prop where
  mem : ∀ k ∈ l, k ∈ r
  filter_eq : l.filter alive = r.filter alive

namespace Agrees

variable {alive alive' : κ → Bool} {l r : List κ}

omit [DecidableEq κ] in
theorem prune (h : Agrees alive l r) : Agrees alive (l.filter alive) r where
  mem k hk := h.mem k (List.mem_filter.mp hk).1
  filter_eq := by
    rw [List.filter_filter, ← h.filter_eq]
    simp only [Bool.and_self]

omit [DecidableEq κ] in
theorem mem_iff (h : Agrees alive l r) {k : κ} (hk : alive k = true) : k ∈ l ↔ k ∈ r := by
  have hfilter : k ∈ l.filter alive ↔ k ∈ r.filter alive := by rw [h.filter_eq]
  simpa only [List.mem_filter, hk, and_true] using hfilter

omit [DecidableEq κ] in
/-- Agreement does not depend on observers outside of `r`, and survives the end of those in it. -/
theorem restrict (h : Agrees alive l r) (p : κ → Bool) (hp : ∀ k ∈ r, alive' k = (p k && alive k)) :
    Agrees alive' l r where
  mem := h.mem
  filter_eq := by
    rw [List.filter_congr hp, List.filter_congr fun k hk => hp k (h.mem k hk), ← List.filter_filter,
      ← List.filter_filter, h.filter_eq]

theorem register (h : Agrees alive l r) (k : κ) :
    Agrees alive (enter l (.register k)) (enter r (.register k)) := by
  rw [enter_register, enter_register]
  constructor
  · intro j hj
    have hmem : j ∈ r ∨ j = k := by
      split_ifs at hj
      · exact .inl (h.mem j hj)
      · exact (List.mem_append.mp hj).imp (h.mem j) List.mem_singleton.mp
    split_ifs with hk
    · exact hmem.elim id fun hjk => hjk ▸ hk
    · exact List.mem_append.mpr (hmem.imp id List.mem_singleton.mpr)
  · cases hk : alive k with
    | true =>
      -- an observer that is alive is in both lists or in neither
      have hmem := h.mem_iff hk
      by_cases hr : k ∈ r
      · rw [if_pos (hmem.mpr hr), if_pos hr, h.filter_eq]
      · rw [if_neg (mt hmem.mp hr), if_neg hr, List.filter_append, List.filter_append, h.filter_eq]
    | false =>
      have gone : [k].filter alive = [] := List.filter_cons_of_neg (by rw [hk]; decide)
      split_ifs <;> simp only [List.filter_append, gone, List.append_nil, h.filter_eq]

theorem unregister (h : Agrees alive l r) (k : κ) :
    Agrees alive (enter l (.unregister k)) (enter r (.unregister k)) where
  mem j hj := by
    obtain ⟨hmem, hne⟩ := List.mem_filter.mp hj
    exact List.mem_filter.mpr ⟨h.mem j hmem, hne⟩
  filter_eq := by
    rw [enter_unregister, enter_unregister, List.filter_comm, h.filter_eq, List.filter_comm]

end Agrees

/-- The list of a broadcast agrees with the observers that are registered. -/
def Lists (b : Broadcast κ) (r : List κ) : Prop := Agrees b.alive b.registry.entries r

namespace Lists

variable {b : Broadcast κ} {r : List κ}

theorem apply (h : b.Lists r) (call : Change κ) : (b.apply call).Lists (enter r call) := by
  cases call with
  | register k =>
    show Agrees b.alive (b.registry.register b.alive k).entries _
    rw [register_entries]
    exact h.prune.register k
  | unregister k => exact h.unregister k

theorem foldl_apply (calls : List (Change κ)) {b : Broadcast κ} {r : List κ} (h : b.Lists r) :
    (calls.foldl Broadcast.apply b).Lists (calls.foldl enter r) := by
  induction calls generalizing b r with
  | nil => exact h
  | cons call calls ih => exact ih (h.apply call)

theorem update (h : b.Lists r) (k : κ) : (b.update k).Lists ((b.reaction k).foldl enter r) := by
  have noted : ({ b with updates := b.updates ++ [k] } : Broadcast κ).Lists r := h
  exact foldl_apply (b.reaction k) noted

theorem foldl_update (ks : List κ) {b : Broadcast κ} {r : List κ} (h : b.Lists r) :
    (ks.foldl Broadcast.update b).Lists ((ks.flatMap b.reaction).foldl enter r) := by
  induction ks generalizing b r with
  | nil => exact h
  | cons k ks ih =>
    have next := ih (h.update k)
    rwa [update_reaction, ← List.foldl_append, ← List.flatMap_cons] at next

theorem notify (h : b.Lists r) : b.notify.Lists ((b.calls .notify).foldl enter r) := by
  have pruned : ({ b with registry := b.registry.prune b.alive } : Broadcast κ).Lists r := h.prune
  rw [calls_notify]
  exact foldl_update _ pruned

theorem step (h : b.Lists r) {event : Event κ} (hnew : Introduces r event) :
    (b.step event).Lists ((b.calls event).foldl enter r) := by
  cases event with
  | create k =>
    refine h.restrict (fun _ => true) fun j hj => ?_
    have hne : j ≠ k := fun hjk => hnew (hjk ▸ hj)
    show decide (j ∈ b.living ++ [k]) = (true && decide (j ∈ b.living))
    simp [hne]
  | drop k =>
    refine h.restrict (· ≠ k) fun j _ => ?_
    show decide (j ∈ b.living.filter (· ≠ k)) = (decide (j ≠ k) && decide (j ∈ b.living))
    simp [and_comm]
  | react k changes => exact h
  | register k => exact h.apply (.register k)
  | unregister k => exact h.apply (.unregister k)
  | notify => exact h.notify

end Lists

theorem registered_append (past more : List (Change κ)) :
    registered (past ++ more) = more.foldl enter (registered past) := List.foldl_append

theorem Lists.run (events : List (Event κ)) {b : Broadcast κ} {past : List (Change κ)}
    (h : b.Lists (registered past)) (hnew : b.IntroducesAll past events) :
    (b.run events).Lists (registered (past ++ b.history events)) := by
  induction events generalizing b past with
  | nil =>
    rw [history, List.append_nil]
    exact h
  | cons event events ih =>
    have next := h.step hnew.1
    rw [← registered_append] at next
    have rest := ih next hnew.2
    rwa [List.append_assoc] at rest

/-! ## Notifications -/

/-- The observers that are registered and alive after some events, in the order of their registration. -/
def due (b : Broadcast κ) (events : List (Event κ)) : List κ :=
  (registered (b.history events)).filter (b.run events).alive

/-- **A notification delivers once to each.** Take any run of a broadcast from an empty list. In all states on
the way, in the middle of a notification too, nobody is on the list twice and pruning keeps who is alive. After
the run, the observers on the list that are alive are those due: registered by the calls made so far and alive.
A notification then updates them, each once and in the order of their registration. The calls from inside
their updates add to the calls made, so that the next notification follows them. -/
theorem notify_delivers (b : Broadcast κ) (hempty : b.registry.entries = []) (events : List (Event κ))
    (hnew : b.IntroducesAll [] events) :
    b.run events ∈ b.passed events ∧
      (∀ s ∈ b.passed events, s.registry.entries.Nodup ∧
        ∀ k ∈ s.registry.entries, s.alive k = true → k ∈ (s.registry.prune s.alive).entries) ∧
      (b.run events).registry.entries.filter (b.run events).alive = b.due events ∧
      (b.due events).Nodup ∧
      (b.run events).notify.updates = (b.run events).updates ++ b.due events ∧
      (b.run events).calls .notify = (b.due events).flatMap (b.run events).reaction ∧
      (b.run events).notify.notify.updates = (b.run events).notify.updates ++
        (registered (b.history events ++ (b.due events).flatMap (b.run events).reaction)).filter
          (b.run events).alive := by
  have start : b.Lists (registered []) :=
    ⟨fun k hk => absurd (hempty ▸ hk) List.not_mem_nil, by rw [hempty]; rfl⟩
  have start_nodup : b.registry.entries.Nodup := by
    rw [hempty]
    exact List.nodup_nil
  have nodup := passed_nodup events start_nodup
  have lists := Lists.run events start hnew
  rw [List.nil_append] at lists
  have listed : (b.run events).registry.entries.filter (b.run events).alive = b.due events := lists.filter_eq
  have inside : (b.run events).calls .notify = (b.due events).flatMap (b.run events).reaction := by
    rw [calls_notify, listed]
  have lists' := lists.notify
  rw [← registered_append, inside] at lists'
  obtain ⟨registry, first⟩ := notify_eq (b.run events)
  obtain ⟨registry', second⟩ := notify_eq (b.run events).notify
  have alive_eq : (b.run events).notify.alive = (b.run events).alive := by rw [first]; rfl
  refine ⟨run_mem_passed events b, fun s hs => ⟨nodup s hs, fun k hk halive => ?_⟩, listed, ?_, ?_, inside, ?_⟩
  · exact List.mem_filter.mpr ⟨hk, halive⟩
  · rw [← listed]
    exact (nodup _ (run_mem_passed events b)).filter _
  · rw [first, listed]
  · rw [second, lists'.filter_eq, alive_eq]

/-- Observer `3` is gone before the first notification; observer `0`, registered twice, puts `2` in the place
of `1` when it is updated. -/
def replacing : List (Event Nat) :=
  [.create 0, .create 1, .create 2, .create 3, .register 0, .register 3, .register 1, .register 0, .drop 3,
    .react 0 [.unregister 1, .register 2]]

/-- The first notification reaches `0` and `1`, the next one `0` and `2`. -/
theorem notify_delivers_replacing :
    ({} : Broadcast Nat).registry.entries = [] ∧ IntroducesAll ({} : Broadcast Nat) [] replacing ∧
      (run {} replacing).notify.updates = [0, 1] ∧ (run {} replacing).notify.notify.updates = [0, 1, 0, 2] := by
  -- all four observers are created before any of them is registered
  have hnew : IntroducesAll ({} : Broadcast Nat) [] replacing :=
    ⟨List.not_mem_nil, List.not_mem_nil, List.not_mem_nil, List.not_mem_nil, trivial, trivial, trivial, trivial,
      trivial, trivial, trivial⟩
  obtain ⟨-, -, -, -, first, -, second⟩ := notify_delivers {} rfl replacing hnew
  have both : (run {} replacing).notify.updates = [0, 1] := first
  refine ⟨rfl, hnew, both, ?_⟩
  rw [second, both]
  rfl

end RateCurves.Broadcast
