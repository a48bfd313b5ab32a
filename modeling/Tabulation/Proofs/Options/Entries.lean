import Mathlib.Data.List.Induction
import Mathlib.Data.List.Nodup
import Tabulation.Entries

/-!
# The order of names

An entry stands where its name was first given, whatever was given for it
later. So the names of a map that entries were put into are its own, and behind
them the new ones in the order of their first occurrence. Among entries with
distinct names, taking out one is the same as keeping all of other names, and
the order does not matter for what is looked up.
-/

namespace Tabulation.Entries

variable {β : Type} {es more : Entries β} {key : String}

theorem keys_cons (e : String × β) (es : Entries β) :
    keys (e :: es) = e.1 :: es.keys :=
  rfl

theorem isSome_get?_iff : (es.get? key).isSome = true ↔ key ∈ es.keys := by
  induction es with
  | nil => exact ⟨nofun, nofun⟩
  | cons e es ih =>
      rw [get?, keys_cons, List.mem_cons]
      split
      · next h => exact ⟨fun _ => .inl h.symm, fun _ => rfl⟩
      · next h => rw [ih, or_iff_right (Ne.symm h)]

theorem get?_eq_none_iff : es.get? key = none ↔ key ∉ es.keys := by
  rw [← isSome_get?_iff, Option.not_isSome_iff_eq_none]

/-! ## Names of a map that is filled -/

theorem keys_insert_of_mem (h : key ∈ es.keys) (v : β) :
    (es.insert key v).keys = es.keys := by
  induction es with
  | nil => cases h
  | cons e es ih =>
      rw [insert]
      split
      · next heq => rw [keys_cons, keys_cons, heq]
      · next hne =>
          rw [keys_cons, List.mem_cons, or_iff_right (Ne.symm hne)] at h
          rw [keys_cons, keys_cons, ih h]

theorem keys_insert_of_not_mem (h : key ∉ es.keys) (v : β) :
    (es.insert key v).keys = es.keys ++ [key] := by
  rw [insert_of_not_mem h, keys_append]
  rfl

theorem nodup_nil : (keys ([] : Entries β)).Nodup :=
  List.nodup_nil

theorem nodup_insert (h : es.keys.Nodup) (key : String) (v : β) :
    (es.insert key v).keys.Nodup := by
  by_cases hkey : key ∈ es.keys
  · rw [keys_insert_of_mem hkey]
    exact h
  · rw [keys_insert_of_not_mem hkey]
    refine List.nodup_append.mpr ⟨h, List.nodup_singleton key, ?_⟩
    intro k hk k' hk' heq
    rw [heq, List.mem_singleton.mp hk'] at hk
    exact hkey hk

theorem nodup_insertAll (h : es.keys.Nodup) (more : Entries β) :
    (es.insertAll more).keys.Nodup := by
  induction more generalizing es with
  | nil => exact h
  | cons e more ih => exact ih (nodup_insert h e.1 e.2)

theorem eraseDups_concat (names : List String) (name : String) :
    (names ++ [name]).eraseDups =
      if name ∈ names then names.eraseDups else names.eraseDups ++ [name] := by
  rw [List.eraseDups_append]
  by_cases h : name ∈ names
  · simp [List.removeAll, h]
  · simp [List.removeAll, h, List.eraseDups_cons]

theorem keys_insertAll (es more : Entries β) :
    (es.insertAll more).keys =
      es.keys ++ more.keys.eraseDups.filter (· ∉ es.keys) := by
  induction more using List.reverseRecOn with
  | nil => exact (List.append_nil _).symm
  | append_singleton more e ih =>
      have hlast : es.insertAll (more ++ [e]) =
          (es.insertAll more).insert e.1 e.2 :=
        List.foldl_append
      have hmem : e.1 ∈ (es.insertAll more).keys ↔
          e.1 ∈ es.keys ∨ e.1 ∈ keys more := by
        rw [ih, List.mem_append, List.mem_filter, List.mem_eraseDups,
          decide_eq_true_eq]
        tauto
      rw [hlast, keys_append, show keys [e] = [e.1] from rfl, eraseDups_concat]
      by_cases hmore : e.1 ∈ keys more
      · rw [keys_insert_of_mem (hmem.mpr (.inr hmore)), if_pos hmore, ih]
      · rw [if_neg hmore, List.filter_append]
        by_cases hes : e.1 ∈ es.keys
        · rw [keys_insert_of_mem (hmem.mpr (.inl hes)), ih,
            List.filter_cons_of_neg (by simpa using hes), List.filter_nil,
            List.append_nil]
        · rw [keys_insert_of_not_mem (mt hmem.mp (not_or.mpr ⟨hes, hmore⟩)), ih,
            List.filter_cons_of_pos (by simpa using hes), List.filter_nil,
            List.append_assoc]

theorem eraseDups_eq_self {names : List String} (h : names.Nodup) :
    names.eraseDups = names := by
  induction names with
  | nil => rfl
  | cons name names ih =>
      obtain ⟨hname, hnames⟩ := List.nodup_cons.mp h
      rw [List.eraseDups_cons, List.filter_eq_self.mpr, ih hnames]
      intro other hother
      rw [Bool.not_eq_true', beq_eq_false_iff_ne]
      rintro rfl
      exact hname hother

/-! ## Entries with distinct names -/

theorem get?_filter (keep : String → Bool) (es : Entries β) (key : String) :
    get? key (es.filter fun e => keep e.1) =
      if keep key then es.get? key else none := by
  induction es with
  | nil => rw [List.filter_nil, get?, ite_self]
  | cons e es ih =>
      by_cases heq : e.1 = key
      · cases hkeep : keep key with
        | true => simp [get?, heq, hkeep]
        | false => simpa [List.filter_cons, heq, hkeep] using ih
      · cases hkeep : keep e.1 with
        | true => simpa [List.filter_cons, get?, heq, hkeep] using ih
        | false => simpa [List.filter_cons, get?, heq, hkeep] using ih

theorem keys_filter (keep : String → Bool) (es : Entries β) :
    keys (es.filter fun e => keep e.1) = es.keys.filter keep :=
  (List.filter_map (f := fun e : String × β => e.1)).symm

theorem erase_eq_filter (h : es.keys.Nodup) (key : String) :
    es.erase key = es.filter fun e => e.1 ≠ key := by
  induction es with
  | nil => rfl
  | cons e es ih =>
      obtain ⟨hname, hnames⟩ := List.nodup_cons.mp h
      rw [erase]
      split
      · next heq =>
          rw [List.filter_cons_of_neg (by simpa using heq)]
          refine (List.filter_eq_self.mpr fun e' he' => ?_).symm
          rw [decide_eq_true_eq]
          intro hsame
          refine hname (List.mem_map.mpr ⟨e', he', hsame.trans heq.symm⟩)
      · next hne =>
          rw [List.filter_cons_of_pos (by simpa using hne), ih hnames]

theorem get?_reverse (h : es.keys.Nodup) (key : String) :
    get? key es.reverse = es.get? key := by
  induction es with
  | nil => rfl
  | cons e es ih =>
      obtain ⟨hname, hnames⟩ := List.nodup_cons.mp h
      rw [List.reverse_cons, get?_append, ih hnames, get?, get?, get?]
      by_cases heq : e.1 = key
      · rw [if_pos heq, if_pos heq, get?_eq_none (heq ▸ hname)]
        rfl
      · rw [if_neg heq, if_neg heq, Option.or_none]

/-! ## What holds of all values -/

section Values

variable {p : β → Prop}

theorem forall_insert (h : ∀ e ∈ es, p e.2) (key : String) {v : β} (hv : p v) :
    ∀ e ∈ es.insert key v, p e.2 := by
  intro e he
  rcases mem_insert he with heq | he
  · rw [heq]
    exact hv
  · exact h e he

theorem forall_insertAll (h : ∀ e ∈ es, p e.2) (hmore : ∀ e ∈ more, p e.2) :
    ∀ e ∈ es.insertAll more, p e.2 := by
  induction more generalizing es with
  | nil => exact h
  | cons e more ih =>
      rw [List.forall_mem_cons] at hmore
      exact ih (forall_insert h e.1 hmore.1) hmore.2

end Values

theorem erase_sublist (key : String) (es : Entries β) :
    (es.erase key).Sublist es := by
  induction es with
  | nil => exact .slnil
  | cons e es ih =>
      rw [erase]
      split
      · exact List.sublist_cons_self e es
      · exact ih.cons_cons e

end Tabulation.Entries
