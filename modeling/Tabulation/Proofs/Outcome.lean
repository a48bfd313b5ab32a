/-!
# Computations that succeed or fail

Everything that can be refused answers in `Except`, and nearly every proof
about it begins by taking a successful run apart: a sequence of two steps
succeeds exactly if the first one does and the second one does on its answer.
The reasons for a failure are taken apart in the same way.
-/

namespace Except

variable {ε β γ : Type}

theorem bind_eq_ok {x : Except ε β} {f : β → Except ε γ} {c : γ} :
    (x >>= f) = .ok c ↔ ∃ b, x = .ok b ∧ f b = .ok c := by
  cases x with
  | error e =>
      constructor
      · intro h; cases h
      · intro h'
        obtain ⟨b, h, _⟩ := h'
        cases h
  | ok b =>
      constructor
      · intro h; exact ⟨b, rfl, h⟩
      · intro h'
        obtain ⟨b', h, hf⟩ := h'
        cases h
        exact hf

theorem map_eq_ok {x : Except ε β} {f : β → γ} {c : γ} :
    x.map f = .ok c ↔ ∃ b, x = .ok b ∧ f b = c := by
  cases x with
  | error e =>
      constructor
      · intro h; cases h
      · intro h'
        obtain ⟨b, h, _⟩ := h'
        cases h
  | ok b =>
      constructor
      · intro h; cases h; exact ⟨b, rfl, rfl⟩
      · intro h'
        obtain ⟨b', h, hf⟩ := h'
        cases h
        rw [← hf]
        rfl

theorem mapError_eq_ok {δ : Type} {x : Except ε β} {f : ε → δ} {b : β} :
    x.mapError f = .ok b ↔ x = .ok b := by
  cases x with
  | error e => exact iff_of_false nofun nofun
  | ok b' =>
      constructor
      · intro h; cases h; rfl
      · intro h; cases h; rfl

theorem pure_eq_ok {b c : β} : (pure b : Except ε β) = .ok c ↔ b = c := by
  constructor
  · intro h; cases h; rfl
  · intro heq
    subst heq
    rfl

/-- What a computation fails with. Whether it is a given error can be decided
where the answers cannot be compared. -/
def error? : Except ε β → Option ε
  | .error e => some e
  | .ok _ => none

theorem error?_eq_some {x : Except ε β} {e : ε} :
    x.error? = some e ↔ x = .error e := by
  cases x with
  | error e' => exact ⟨fun h => by cases h; rfl, fun h => by cases h; rfl⟩
  | ok b => exact iff_of_false nofun nofun

end Except
