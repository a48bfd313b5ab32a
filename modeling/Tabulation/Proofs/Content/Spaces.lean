import Mathlib.Data.List.Chain
import Tabulation.Content.Inline

/-!
# Spaces between pieces

Content is tidy if its spaces stand between other pieces, one at a time.
Normalizing makes content tidy, keeps every piece that is no space, and leaves
alone what is tidy. A space is kept only behind another piece and only if
something follows that is no space, so the induction is along the content for
the two states of `squeeze` at once: what it makes behind a piece may begin
with a space, and what it makes at the start or behind a space may not.
-/

namespace Tabulation.Inline

/-- No space at the end or next to another space. -/
structure Separated (xs : List Inline) : Prop where
  last : ∀ x, xs.getLast? = some x → x.isSpace = false
  apart : xs.IsChain fun x y => x.isSpace = false ∨ y.isSpace = false

/-- Nor at the start. -/
structure Tidy (xs : List Inline) : Prop extends Separated xs where
  first : ∀ x, xs.head? = some x → x.isSpace = false

theorem Separated.nil : Separated [] := ⟨nofun, .nil⟩

theorem Tidy.nil : Tidy [] := ⟨.nil, nofun⟩

theorem Separated.cons {x : Inline} {xs : List Inline}
    (h : Separated xs) (hx : x.isSpace = false) : Separated (x :: xs) := by
  refine ⟨fun y hy => ?_, List.isChain_cons.mpr ⟨fun _ _ => .inl hx, h.apart⟩⟩
  cases xs with
  | nil =>
      cases hy
      exact hx
  | cons z zs => exact h.last y hy

theorem Tidy.cons {x : Inline} {xs : List Inline} (h : Separated xs)
    (hx : x.isSpace = false) : Tidy (x :: xs) := by
  refine ⟨h.cons hx, fun y hy => ?_⟩
  cases hy
  exact hx

theorem Tidy.space {xs : List Inline} (h : Tidy xs) (hne : xs ≠ []) :
    Separated (.space :: xs) := by
  obtain ⟨x, xs, rfl⟩ := List.exists_cons_of_ne_nil hne
  exact ⟨h.last, List.isChain_cons_cons.mpr ⟨.inr (h.first x rfl), h.apart⟩⟩

theorem Separated.tail {x : Inline} {xs : List Inline}
    (h : Separated (x :: xs)) : Separated xs := by
  refine ⟨fun y hy => h.last y ?_, h.apart.tail⟩
  rw [List.getLast?_cons, hy]
  rfl

theorem Separated.behind_space {xs : List Inline}
    (h : Separated (.space :: xs)) : Tidy xs ∧ xs ≠ [] := by
  refine ⟨⟨h.tail, fun x hx => ?_⟩, ?_⟩
  · exact ((List.isChain_cons.mp h.apart).1 x hx).resolve_left nofun
  · rintro rfl
    cases h.last .space rfl

/-! ## What normalizing does -/

theorem squeeze_cons {x : Inline} (h : x.isSpace = false) (atStart : Bool)
    (xs : List Inline) : squeeze atStart (x :: xs) = x :: squeeze false xs := by
  cases x with
  | space => cases h
  | _ => rfl

theorem squeeze_atStart (xs : List Inline) :
    squeeze true (.space :: xs) = squeeze true xs :=
  rfl

theorem squeeze_behind (xs : List Inline) :
    squeeze false (.space :: xs) =
      if squeeze true xs = [] then [] else .space :: squeeze true xs := by
  rw [squeeze, if_neg Bool.false_ne_true]
  split
  · next hnil => rw [if_pos hnil]
  · next hne => rw [if_neg hne]

theorem eq_space {x : Inline} (h : x.isSpace = true) : x = .space := by
  cases x with
  | space => rfl
  | _ => cases h

theorem squeeze_tidy (xs : List Inline) :
    Separated (squeeze false xs) ∧ Tidy (squeeze true xs) := by
  induction xs with
  | nil => exact ⟨.nil, .nil⟩
  | cons x xs ih =>
      obtain ⟨behind, atStart⟩ := ih
      cases hx : x.isSpace with
      | false =>
          rw [squeeze_cons hx, squeeze_cons hx]
          exact ⟨behind.cons hx, .cons behind hx⟩
      | true =>
          rw [eq_space hx, squeeze_atStart, squeeze_behind]
          refine ⟨?_, atStart⟩
          split
          · exact .nil
          · next hne => exact atStart.space hne

theorem squeeze_eq_self (xs : List Inline) :
    (Separated xs → squeeze false xs = xs) ∧
      (Tidy xs → squeeze true xs = xs) := by
  induction xs with
  | nil => exact ⟨fun _ => rfl, fun _ => rfl⟩
  | cons x xs ih =>
      cases hx : x.isSpace with
      | false =>
          rw [squeeze_cons hx, squeeze_cons hx]
          exact ⟨fun h => by rw [ih.1 h.tail], fun h => by rw [ih.1 h.tail]⟩
      | true =>
          rw [eq_space hx]
          refine ⟨fun h => ?_, fun h => nomatch h.first .space rfl⟩
          obtain ⟨htidy, hne⟩ := h.behind_space
          rw [squeeze_behind, ih.2 htidy, if_neg hne]

/-- Only spaces are dropped. -/
theorem filter_squeeze (atStart : Bool) (xs : List Inline) :
    (squeeze atStart xs).filter (!·.isSpace) = xs.filter (!·.isSpace) := by
  induction xs generalizing atStart with
  | nil => rfl
  | cons x xs ih =>
      cases hx : x.isSpace with
      | false =>
          simp only [squeeze_cons hx, List.filter_cons, hx, Bool.not_false,
            if_true, ih]
      | true =>
          rw [eq_space hx]
          show _ = xs.filter _
          cases atStart with
          | true => rw [squeeze_atStart, ih]
          | false =>
              rw [squeeze_behind, ← ih true]
              split
              · next hnil => rw [hnil]
              · rfl

/-- Spaces at the start make no difference. -/
theorem squeeze_spaces {spaces : List Inline}
    (h : ∀ x ∈ spaces, x.isSpace = true) (xs : List Inline) :
    squeeze true (spaces ++ xs) = squeeze true xs := by
  induction spaces with
  | nil => rfl
  | cons x spaces ih =>
      rw [List.cons_append, eq_space (h x List.mem_cons_self), squeeze_atStart]
      exact ih fun y hy => h y (List.mem_cons_of_mem x hy)

theorem squeeze_sublist (atStart : Bool) (xs : List Inline) :
    (squeeze atStart xs).Sublist xs := by
  induction xs generalizing atStart with
  | nil => exact .slnil
  | cons x xs ih =>
      cases hx : x.isSpace with
      | false =>
          rw [squeeze_cons hx]
          exact (ih false).cons_cons x
      | true =>
          rw [eq_space hx]
          cases atStart with
          | true => exact (ih true).cons _
          | false =>
              rw [squeeze_behind]
              split
              · exact List.nil_sublist _
              · exact (ih true).cons_cons _

theorem normalize_tidy (xs : List Inline) : Tidy (normalize xs) :=
  (squeeze_tidy xs).2

theorem Tidy.normalize_eq {xs : List Inline} (h : Tidy xs) :
    normalize xs = xs :=
  (squeeze_eq_self xs).2 h

theorem filter_normalize (xs : List Inline) :
    (normalize xs).filter (!·.isSpace) = xs.filter (!·.isSpace) :=
  filter_squeeze true xs

theorem normalize_sublist (xs : List Inline) : (normalize xs).Sublist xs :=
  squeeze_sublist true xs

end Tabulation.Inline
