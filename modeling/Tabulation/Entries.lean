/-!
# Named values in the order of their first naming

Options keep the order in which they were first given: giving one again replaces its value and
leaves it where it stands, and taking one out leaves the others in order.
-/

namespace Tabulation

/-- Names with their values. The operations below keep the names distinct. -/
abbrev Entries (β : Type) := List (String × β)

namespace Entries

variable {β : Type}

def keys (es : Entries β) : List String := es.map (·.1)

def get? (name : String) : Entries β → Option β
  | [] => none
  | (k, v) :: rest => if k = name then some v else get? name rest

def insert (name : String) (value : β) : Entries β → Entries β
  | [] => [(name, value)]
  | (k, v) :: rest => if k = name then (k, value) :: rest else (k, v) :: insert name value rest

def erase (name : String) : Entries β → Entries β
  | [] => []
  | (k, v) :: rest => if k = name then rest else (k, v) :: erase name rest

/-- Inserts every entry of the second map, in its order. -/
def insertAll (es more : Entries β) : Entries β :=
  more.foldl (fun acc e => acc.insert e.1 e.2) es

theorem get?_insert_self (name : String) (value : β) (es : Entries β) :
    get? name (insert name value es) = some value := by
  induction es with
  | nil => simp [insert, get?]
  | cons e rest ih =>
      obtain ⟨k, v⟩ := e
      rw [insert]
      split
      · next h => simp [get?, h]
      · next h => simp [get?, h, ih]

theorem get?_insert_of_ne {name other : String} (hne : other ≠ name) (value : β)
    (es : Entries β) : get? other (insert name value es) = get? other es := by
  induction es with
  | nil => simp [insert, get?, hne.symm]
  | cons e rest ih =>
      obtain ⟨k, v⟩ := e
      rw [insert]
      split
      · next h => subst h; simp [get?, hne.symm]
      · simp only [get?, ih]

theorem isSome_get?_insert {es : Entries β} {name : String}
    (h : (es.get? name).isSome = true) (other : String) (value : β) :
    ((es.insert other value).get? name).isSome = true := by
  by_cases heq : name = other
  · rw [heq, get?_insert_self]
    rfl
  · rw [get?_insert_of_ne heq]
    exact h

theorem get?_append (es fs : Entries β) (key : String) :
    get? key (es ++ fs) = (es.get? key).or (fs.get? key) := by
  induction es with
  | nil => rfl
  | cons e es ih =>
      rw [List.cons_append, get?, get?]
      split
      · rfl
      · exact ih

theorem get?_eq_none {es : Entries β} {key : String}
    (h : key ∉ es.keys) : es.get? key = none := by
  induction es with
  | nil => rfl
  | cons e es ih =>
      rw [keys, List.map_cons, List.mem_cons, not_or] at h
      rw [get?, if_neg (Ne.symm h.1)]
      exact ih h.2

theorem keys_append (es fs : Entries β) : keys (es ++ fs) = es.keys ++ fs.keys :=
  List.map_append

/-- What holds of the value of every entry holds of what is looked up. -/
theorem of_get? {es : Entries β} {p : β → Prop}
    (h : ∀ e ∈ es, p e.2) {key : String} {v : β}
    (hv : es.get? key = some v) : p v := by
  induction es with
  | nil => cases hv
  | cons e es ih =>
      rw [get?] at hv
      split at hv
      · cases hv
        exact h e List.mem_cons_self
      · exact ih (fun e he => h e (List.mem_cons_of_mem _ he)) hv

theorem mem_insert {key : String} {v : β} {es : Entries β}
    {e : String × β} (h : e ∈ es.insert key v) : e.2 = v ∨ e ∈ es := by
  induction es with
  | nil =>
      cases List.mem_singleton.mp h
      exact .inl rfl
  | cons e' es ih =>
      rw [insert] at h
      split at h
      · rcases List.mem_cons.mp h with rfl | hes
        · exact .inl rfl
        · exact .inr (List.mem_cons_of_mem _ hes)
      · rcases List.mem_cons.mp h with rfl | hes
        · exact .inr List.mem_cons_self
        · rcases ih hes with hv | hes
          · exact .inl hv
          · exact .inr (List.mem_cons_of_mem _ hes)

theorem insert_of_not_mem {key : String} {v : β} {es : Entries β}
    (h : key ∉ es.keys) : es.insert key v = es ++ [(key, v)] := by
  induction es with
  | nil => rfl
  | cons e es ih =>
      rw [keys, List.map_cons, List.mem_cons, not_or] at h
      rw [insert, if_neg (Ne.symm h.1), ih h.2]
      rfl

/-- Of several values for a key the last one stays. -/
theorem get?_insertAll (es more : Entries β) (key : String) :
    (es.insertAll more).get? key = (get? key more.reverse).or (es.get? key) := by
  induction more generalizing es with
  | nil => rfl
  | cons e more ih =>
      have hinsert : (es.insert e.1 e.2).get? key = (get? key [e]).or (es.get? key) := by
        by_cases h : e.1 = key
        · subst h
          rw [get?_insert_self, get?, if_pos rfl]
          rfl
        · rw [get?_insert_of_ne (Ne.symm h), get?, if_neg h]
          rfl
      show ((es.insert e.1 e.2).insertAll more).get? key = _
      rw [ih, hinsert, List.reverse_cons, get?_append, Option.or_assoc]

/-- A map in which the keys say what their values are. -/
theorem get?_keyed (value : String → β) (keys : List String) (key : String) :
    get? key (keys.map fun k => (k, value k)) = if key ∈ keys then some (value key) else none := by
  induction keys with
  | nil => rfl
  | cons k keys ih =>
      rw [List.map_cons, get?, ih]
      by_cases h : k = key
      · subst h
        rw [if_pos rfl, if_pos List.mem_cons_self]
      · rw [if_neg h]
        simp only [List.mem_cons, Ne.symm h, false_or]

end Entries

end Tabulation
