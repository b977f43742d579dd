/-!
# Except — where a result came from

A computation that may fail and is made of two parts gives a result only if both parts do (`bind_eq_ok_iff`,
`map_eq_ok_iff`); it fails with the fault of the first part that fails (`bind_eq_error_iff`).
-/
namespace ChatClient

variable {ε β γ : Type}

theorem map_eq_ok_iff {f : β → γ} {x : Except ε β} {y : γ} : f <$> x = .ok y ↔ ∃ a, x = .ok a ∧ f a = y := by
  cases x with
  | error e => exact ⟨nofun, fun ⟨_, h, _⟩ => nomatch h⟩
  | ok a =>
    refine ⟨fun h => ⟨a, rfl, Except.ok.inj h⟩, ?_⟩
    rintro ⟨_, h, rfl⟩
    cases h
    rfl

theorem bind_eq_ok_iff {x : Except ε β} {k : β → Except ε γ} {y : γ} :
    x >>= k = .ok y ↔ ∃ a, x = .ok a ∧ k a = .ok y := by
  cases x with
  | error e => exact ⟨nofun, fun ⟨_, h, _⟩ => nomatch h⟩
  | ok a =>
    refine ⟨fun h => ⟨a, rfl, h⟩, ?_⟩
    rintro ⟨_, h, hk⟩
    cases h
    exact hk

theorem bind_eq_error_iff {x : Except ε β} {k : β → Except ε γ} {e : ε} :
    x >>= k = .error e ↔ x = .error e ∨ ∃ a, x = .ok a ∧ k a = .error e := by
  cases x with
  | error e' =>
    refine ⟨fun h => .inl (congrArg _ (Except.error.inj h)), ?_⟩
    rintro (h | ⟨_, h, _⟩)
    · cases h
      rfl
    · cases h
  | ok a =>
    refine ⟨fun h => .inr ⟨a, rfl, h⟩, ?_⟩
    rintro (h | ⟨_, h, hk⟩)
    · cases h
    · cases h
      exact hk

end ChatClient
