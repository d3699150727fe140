/-!
# Ordered mappings

A mapping whose entries keep the order in which their keys first arrived, held as a list of pairs.
Writing an existing key replaces its value where it stands (`keys_insert_of_mem`), writing a new
key puts it last (`keys_insert_of_not_mem`), and `get?` reads the first entry of a key. Every
mapping that the operations here produce has distinct keys (`nodup_keys_insert`,
`nodup_keys_ofList`).
-/

namespace Flowsheet.Assoc

variable {κ α : Type}

/-- The keys in order. -/
def keys (es : List (κ × α)) : List κ := es.map (·.1)

variable [DecidableEq κ]

/-- The value of the first entry with key `k`. -/
def get? (k : κ) : List (κ × α) → Option α
  | [] => none
  | (j, v) :: rest => if j = k then some v else get? k rest

/-- Whether some entry has key `k`. -/
def contains (k : κ) (es : List (κ × α)) : Bool := (get? k es).isSome

/-- Writes `v` at key `k`: in place if the key is there, at the end otherwise. -/
def insert (k : κ) (v : α) : List (κ × α) → List (κ × α)
  | [] => [(k, v)]
  | (j, w) :: rest => if j = k then (j, v) :: rest else (j, w) :: insert k v rest

/-- Drops the entry of `k`; the others keep their order. -/
def erase (k : κ) (es : List (κ × α)) : List (κ × α) := es.filter (fun e => e.1 ≠ k)

/-- Writes the entries of `more` one after the other. -/
def extend (es more : List (κ × α)) : List (κ × α) :=
  more.foldl (fun acc e => insert e.1 e.2 acc) es

/-- The mapping that a list of writes leaves behind. -/
def ofList (writes : List (κ × α)) : List (κ × α) := extend [] writes

/-- Equality of mappings, in which the order of entries does not count. -/
def same [BEq α] (as bs : List (κ × α)) : Bool :=
  as.length == bs.length && as.all fun e => get? e.1 bs == some e.2

/-! ### Reading after writing -/

@[simp] theorem get?_nil (k : κ) : get? k ([] : List (κ × α)) = none := rfl

theorem get?_cons (k j : κ) (v : α) (es : List (κ × α)) :
    get? k ((j, v) :: es) = if j = k then some v else get? k es := rfl

theorem get?_insert (k j : κ) (v : α) (es : List (κ × α)) :
    get? k (insert j v es) = if j = k then some v else get? k es := by
  induction es with
  | nil => rfl
  | cons e rest ih =>
    obtain ⟨i, w⟩ := e
    by_cases hij : i = j
    · subst hij
      by_cases hik : i = k <;> simp [insert, get?, hik]
    · by_cases hik : i = k
      · subst hik
        simp [insert, get?, hij, Ne.symm hij]
      · simp [insert, get?, hij, hik, ih]

theorem get?_erase (k j : κ) (es : List (κ × α)) :
    get? k (erase j es) = if j = k then none else get? k es := by
  induction es with
  | nil => simp [erase]
  | cons e rest ih =>
    obtain ⟨i, w⟩ := e
    have ih' : get? k (rest.filter fun e => e.1 ≠ j) = if j = k then none else get? k rest := ih
    by_cases hij : i = j
    · subst hij
      by_cases hik : i = k <;> simp_all [erase, get?]
    · by_cases hik : i = k
      · subst hik
        simp [erase, get?, hij, Ne.symm hij]
      · simp_all [erase, get?]

theorem get?_isSome_iff (k : κ) (es : List (κ × α)) : (get? k es).isSome ↔ k ∈ keys es := by
  induction es with
  | nil => simp [keys]
  | cons e rest ih =>
    obtain ⟨i, w⟩ := e
    by_cases hik : i = k
    · simp [get?, keys, hik]
    · simp only [get?, hik, if_false, ih, keys, List.map_cons, List.mem_cons]
      exact ⟨Or.inr, fun h => h.resolve_left (Ne.symm hik)⟩

/-! ### Keys -/

theorem keys_insert_of_mem {k : κ} {v : α} {es : List (κ × α)} (h : k ∈ keys es) :
    keys (insert k v es) = keys es := by
  induction es with
  | nil => simp [keys] at h
  | cons e rest ih =>
    obtain ⟨i, w⟩ := e
    by_cases hik : i = k
    · simp [insert, keys, hik]
    · have hk : k ∈ keys rest := by
        simp only [keys, List.map_cons, List.mem_cons] at h
        exact h.resolve_left (Ne.symm hik)
      have := ih hk
      simp only [keys] at this
      simp [insert, keys, hik, this]

theorem keys_insert_of_not_mem {k : κ} {v : α} {es : List (κ × α)} (h : k ∉ keys es) :
    keys (insert k v es) = keys es ++ [k] := by
  induction es with
  | nil => rfl
  | cons e rest ih =>
    obtain ⟨i, w⟩ := e
    simp only [keys, List.map_cons, List.mem_cons, not_or] at h
    have := ih h.2
    simp only [keys] at this
    simp [insert, keys, Ne.symm h.1, this]

theorem nodup_keys_insert {k : κ} {v : α} {es : List (κ × α)} (h : (keys es).Nodup) :
    (keys (insert k v es)).Nodup := by
  by_cases hk : k ∈ keys es
  · rw [keys_insert_of_mem hk]
    exact h
  · rw [keys_insert_of_not_mem hk, List.nodup_append]
    refine ⟨h, by simp, fun a ha b hb hab => hk ?_⟩
    rwa [← List.mem_singleton.1 hb, ← hab]

theorem nodup_keys_extend {es more : List (κ × α)} (h : (keys es).Nodup) :
    (keys (extend es more)).Nodup := by
  induction more generalizing es with
  | nil => exact h
  | cons e rest ih => exact ih (nodup_keys_insert h)

theorem nodup_keys_ofList (writes : List (κ × α)) : (keys (ofList writes)).Nodup :=
  nodup_keys_extend (by simp [keys])

end Flowsheet.Assoc
