import RateCurves.Failure.Basic

/-!
# Outcomes that are values

An operation gives a value if each of its steps does, a guard if its condition holds, and an option or a date if it
is there.
-/

namespace RateCurves.Outcome

variable {α β γ : Type}

theorem bind_ok {o : Outcome α β} {next : β → Outcome α γ} {v : γ} :
    (o >>= next) = .ok v ↔ ∃ u, o = .ok u ∧ next u = .ok v := by
  cases o with
  | error e => exact ⟨nofun, fun ⟨_, h, _⟩ => nomatch h⟩
  | ok u =>
    refine ⟨fun h => ⟨u, rfl, h⟩, ?_⟩
    rintro ⟨_, ⟨⟩, h⟩
    exact h

theorem require_ok {condition : Bool} {cause : Failure α} :
    require condition cause = .ok () ↔ condition = true := by
  cases condition with
  | true => exact ⟨fun _ => rfl, fun _ => rfl⟩
  | false => exact ⟨nofun, nofun⟩

theorem ofOption_ok {cause : Failure α} {o : Option β} {v : β} : ofOption cause o = .ok v ↔ o = some v := by
  cases o with
  | none => exact ⟨nofun, nofun⟩
  | some u => simp only [ofOption, Except.ok.injEq, Option.some.injEq]

theorem ofDate_ok {result : Except DateError β} {v : β} :
    (ofDate result : Outcome α β) = .ok v ↔ result = .ok v := by
  cases result with
  | error e => exact ⟨nofun, nofun⟩
  | ok u => simp only [ofDate, Except.ok.injEq]

end RateCurves.Outcome
