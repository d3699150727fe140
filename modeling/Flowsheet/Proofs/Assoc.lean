import Flowsheet.Assoc
import Mathlib.Data.List.Induction

/-!
# Ordered mappings with distinct keys

What the operations of `Flowsheet.Assoc` come to when no key is repeated: writing distinct keys one
after the other only appends (`extend_of_nodup`), so a mapping that is rebuilt entry by entry is the
mapping itself (`ofList_of_nodup`), and `get?` finds exactly the entries (`get?_eq_some_iff`).

What a list of writes does to a mapping depends on two things only: the order in which the keys are
first written and the value that is written last at each of them (`extend_congr`).
-/

namespace Flowsheet.Assoc

variable {κ α β : Type}

/-- No entries have no keys. -/
@[simp] theorem keys_nil : keys ([] : List (κ × α)) = [] := rfl

/-- The key of the first entry comes first. -/
@[simp] theorem keys_cons (e : κ × α) (es : List (κ × α)) : keys (e :: es) = e.1 :: keys es := rfl

/-- The keys of entries in a row are in a row. -/
@[simp] theorem keys_append (es fs : List (κ × α)) : keys (es ++ fs) = keys es ++ keys fs := by
  simp [keys]

/-- The key of an entry is among the keys. -/
theorem mem_keys_of_mem {e : κ × α} {es : List (κ × α)} (h : e ∈ es) : e.1 ∈ keys es :=
  List.mem_map.mpr ⟨e, h, rfl⟩

/-- The keys do not depend on the direction. -/
theorem mem_keys_reverse {k : κ} {es : List (κ × α)} : k ∈ keys es.reverse ↔ k ∈ keys es := by
  rw [keys, List.map_reverse, List.mem_reverse]
  rfl

/-- Dropping entries keeps keys distinct. -/
theorem nodup_keys_filter {es : List (κ × α)} (p : κ × α → Bool) (h : (keys es).Nodup) :
    (keys (es.filter p)).Nodup :=
  List.Nodup.sublist (List.Sublist.map _ List.filter_sublist) h

/-- The keys of entries that are computed from items. -/
theorem keys_map {ι : Type*} (f : ι → κ × α) (xs : List ι) :
    keys (xs.map f) = xs.map fun x => (f x).1 := by
  unfold keys
  rw [List.map_map]
  rfl

/-- Changing values leaves the keys as they are. -/
theorem keys_map_value (f : α → β) (es : List (κ × α)) :
    keys (es.map fun e => (e.1, f e.2)) = keys es :=
  keys_map _ es

variable [DecidableEq κ]

/-! ### Reading -/

/-- A lookup finds nothing just if the key is not there. -/
theorem get?_eq_none_iff {k : κ} {es : List (κ × α)} : get? k es = none ↔ k ∉ keys es := by
  rw [← get?_isSome_iff, Option.not_isSome_iff_eq_none]

/-- What a lookup finds is one of the entries. -/
theorem mem_of_get?_eq_some {k : κ} {v : α} {es : List (κ × α)} (h : get? k es = some v) :
    (k, v) ∈ es := by
  induction es with
  | nil => cases h
  | cons e rest ih =>
      obtain ⟨j, w⟩ := e
      rw [get?_cons] at h
      by_cases hjk : j = k
      · subst hjk
        simp only [if_true, Option.some.injEq] at h
        subst h
        exact List.mem_cons_self
      · rw [if_neg hjk] at h
        exact List.mem_cons_of_mem _ (ih h)

/-- With distinct keys reading a key finds its one entry. -/
theorem get?_eq_some_iff {k : κ} {v : α} {es : List (κ × α)} (h : (keys es).Nodup) :
    get? k es = some v ↔ (k, v) ∈ es := by
  refine ⟨mem_of_get?_eq_some, fun hm => ?_⟩
  induction es with
  | nil => cases hm
  | cons e rest ih =>
      rw [keys_cons, List.nodup_cons] at h
      rw [get?_cons]
      rcases List.mem_cons.mp hm with rfl | hr
      · simp
      · have hne : e.1 ≠ k := fun heq => h.1 (heq ▸ mem_keys_of_mem hr)
        rw [if_neg hne]
        exact ih h.2 hr

/-- A lookup in entries in a row looks into the first ones before it looks into the others. -/
theorem get?_append (k : κ) (es fs : List (κ × α)) :
    get? k (es ++ fs) = (get? k es).or (get? k fs) := by
  induction es with
  | nil => rfl
  | cons e rest ih =>
      rw [List.cons_append, get?_cons, get?_cons, ih]
      split <;> rfl

/-- Another key's entry makes no difference. -/
theorem get?_middle_of_ne {j k : κ} (h : j ≠ k) (v : α) (pre post : List (κ × α)) :
    get? k (pre ++ (j, v) :: post) = get? k (pre ++ post) := by
  rw [get?_append, get?_append, get?_cons, if_neg h]

/-- The first entry of a key counts. -/
theorem get?_middle {k : κ} {pre : List (κ × α)} (h : k ∉ keys pre) (v : α)
    (post : List (κ × α)) : get? k (pre ++ (k, v) :: post) = some v := by
  rw [get?_append, get?_eq_none_iff.mpr h, get?_cons, if_pos rfl]
  rfl

/-- Where keys are distinct, the order of entries makes no difference. -/
theorem get?_perm (k : κ) {es fs : List (κ × α)} (h : es.Perm fs) (hkeys : (keys es).Nodup) :
    get? k es = get? k fs := by
  have hperm : (keys es).Perm (keys fs) := h.map Prod.fst
  have hkeys' : (keys fs).Nodup := hperm.nodup_iff.mp hkeys
  ext v
  rw [get?_eq_some_iff hkeys, get?_eq_some_iff hkeys', h.mem_iff]

/-- Reading a key after changing all values. -/
theorem get?_map_value (k : κ) (f : α → β) (es : List (κ × α)) :
    get? k (es.map fun e => (e.1, f e.2)) = (get? k es).map f := by
  induction es with
  | nil => rfl
  | cons e rest ih =>
      rw [List.map_cons, get?_cons, get?_cons, ih]
      split <;> rfl

/-- Reading a key after dropping entries by a test on values, where keys are distinct. -/
theorem get?_filter {k : κ} {es : List (κ × α)} (p : α → Bool) (h : (keys es).Nodup) :
    get? k (es.filter fun e => p e.2) = (get? k es).filter p := by
  induction es with
  | nil => rfl
  | cons e rest ih =>
      obtain ⟨j, w⟩ := e
      rw [keys_cons, List.nodup_cons] at h
      rw [get?_cons, List.filter_cons]
      by_cases hk : j = k
      · subst hk
        by_cases hp : p w
        · simp [hp, get?_cons, Option.filter]
        · simp [hp, ih h.2, get?_eq_none_iff.mpr h.1, Option.filter]
      · by_cases hp : p w
        · simp [hp, get?_cons, hk, ih h.2]
        · simp [hp, hk, ih h.2]

/-- Reading a key after dropping entries by a test on keys. -/
theorem get?_filter_keys (k : κ) (p : κ → Bool) (es : List (κ × α)) :
    get? k (es.filter fun e => p e.1) = if p k then get? k es else none := by
  induction es with
  | nil => simp
  | cons e rest ih =>
      obtain ⟨j, v⟩ := e
      rw [List.filter_cons, get?_cons]
      by_cases hjk : j = k
      · subst hjk
        by_cases hp : p j
        · simp [hp, get?_cons]
        · simp [hp, ih]
      · by_cases hp : p j
        · simp [hp, hjk, get?_cons, ih]
        · simp [hp, hjk, ih]

/-- A lookup finds the first of the entries with the key. -/
theorem get?_eq_head? (k : κ) (es : List (κ × α)) :
    get? k es = ((es.filter fun e => e.1 = k).head?).map (·.2) := by
  induction es with
  | nil => rfl
  | cons e rest ih =>
      obtain ⟨j, v⟩ := e
      rw [get?_cons, List.filter_cons]
      by_cases hjk : j = k
      · simp [hjk]
      · simp [hjk, ih]

/-- From behind the last entry of a key is found. -/
theorem get?_reverse (k : κ) (es : List (κ × α)) :
    get? k es.reverse = ((es.filter fun e => e.1 = k).getLast?).map (·.2) := by
  rw [get?_eq_head?, List.filter_reverse, List.head?_reverse]

/-! ### Writing -/

/-- A new key goes to the end. -/
theorem insert_of_not_mem {k : κ} {v : α} {es : List (κ × α)} (h : k ∉ keys es) :
    insert k v es = es ++ [(k, v)] := by
  induction es with
  | nil => rfl
  | cons e rest ih =>
      simp only [keys_cons, List.mem_cons, not_or] at h
      simp [insert, Ne.symm h.1, ih h.2]

/-- Writing new and distinct keys appends their entries. -/
theorem extend_of_nodup {es more : List (κ × α)} (h : (keys (es ++ more)).Nodup) :
    extend es more = es ++ more := by
  induction more generalizing es with
  | nil => simp [extend]
  | cons e rest ih =>
      have hnew : e.1 ∉ keys es := by
        rw [keys_append, List.nodup_append] at h
        exact fun hmem => h.2.2 e.1 hmem e.1 List.mem_cons_self rfl
      calc extend es (e :: rest) = extend (insert e.1 e.2 es) rest := rfl
        _ = extend (es ++ [e]) rest := by rw [insert_of_not_mem hnew]
        _ = es ++ [e] ++ rest := ih (by simpa using h)
        _ = es ++ e :: rest := by simp

/-- After a write there are the entry that was written and those from before. -/
theorem mem_of_mem_insert {k : κ} {v : α} {es : List (κ × α)} {e : κ × α}
    (h : e ∈ insert k v es) : e = (k, v) ∨ e ∈ es := by
  induction es with
  | nil => exact Or.inl (List.mem_singleton.mp h)
  | cons f rest ih =>
      obtain ⟨j, w⟩ := f
      by_cases hjk : j = k
      · subst hjk
        simp only [insert, if_true, List.mem_cons] at h ⊢
        exact h.imp_right Or.inr
      · simp only [insert, if_neg hjk, List.mem_cons] at h ⊢
        rcases h with rfl | h
        · exact Or.inr (Or.inl rfl)
        · exact (ih h).imp_right Or.inr

/-- Every entry of an extended mapping was there before or was written. -/
theorem mem_of_mem_extend {es more : List (κ × α)} {e : κ × α} (h : e ∈ extend es more) :
    e ∈ es ∨ e ∈ more := by
  induction more generalizing es with
  | nil => exact Or.inl h
  | cons f rest ih =>
      rcases ih h with hes | hrest
      · rcases mem_of_mem_insert hes with rfl | hes
        · exact Or.inr List.mem_cons_self
        · exact Or.inl hes
      · exact Or.inr (List.mem_cons_of_mem _ hrest)

/-- Writing another key leaves an entry where it is. -/
theorem getElem?_insert_of_ne {j k : κ} (hne : j ≠ k) {es : List (κ × α)} {i : Nat} {w : α}
    (h : es[i]? = some (k, w)) (v : α) : (insert j v es)[i]? = some (k, w) := by
  induction es generalizing i with
  | nil => cases h
  | cons e rest ih =>
      unfold insert
      split
      · rename_i heq
        cases i with
        | zero =>
            obtain rfl := Option.some.inj h
            exact absurd heq.symm hne
        | succ i => exact h
      · cases i with
        | zero => exact h
        | succ i => exact ih h

/-- Writes to other keys leave an entry where it is. -/
theorem getElem?_extend_of_not_mem {k : κ} {es more : List (κ × α)} (hk : k ∉ keys more) {i : Nat}
    {w : α} (h : es[i]? = some (k, w)) : (extend es more)[i]? = some (k, w) := by
  induction more generalizing es with
  | nil => exact h
  | cons e rest ih =>
      rw [keys_cons, List.mem_cons, not_or] at hk
      exact ih hk.2 (getElem?_insert_of_ne (Ne.symm hk.1) h e.2)

/-- No entry comes from anything but the writes. -/
theorem mem_of_mem_ofList {writes : List (κ × α)} {e : κ × α} (h : e ∈ ofList writes) :
    e ∈ writes :=
  (mem_of_mem_extend h).resolve_left List.not_mem_nil

/-- Writes to different keys are the entries themselves. -/
theorem ofList_of_nodup {es : List (κ × α)} (h : (keys es).Nodup) : ofList es = es :=
  extend_of_nodup h

/-! ### Lists of writes -/

/-- Entries with different keys are determined by the order of the keys and the lookups. -/
theorem ext_of_nodup {es fs : List (κ × α)} (hkeys : keys es = keys fs) (hnodup : (keys es).Nodup)
    (hget : ∀ k, get? k es = get? k fs) : es = fs := by
  induction es generalizing fs with
  | nil => exact (List.map_eq_nil_iff.mp hkeys.symm).symm
  | cons e rest ih =>
      obtain ⟨k, v⟩ := e
      cases fs with
      | nil => cases hkeys
      | cons f others =>
          obtain ⟨j, w⟩ := f
          rw [keys_cons, keys_cons] at hkeys
          obtain ⟨hkj, hrest⟩ := List.cons.inj hkeys
          replace hkj : k = j := hkj
          subst hkj
          rw [keys_cons, List.nodup_cons] at hnodup
          have hvalue : v = w := by simpa [get?_cons] using hget k
          have hothers : ∀ i, get? i rest = get? i others := by
            intro i
            by_cases hi : k = i
            · subst hi
              rw [get?_eq_none_iff.mpr hnodup.1, get?_eq_none_iff.mpr (hrest ▸ hnodup.1)]
            · simpa [get?_cons, hi] using hget i
          rw [hvalue, ih hrest hnodup.2 hothers]

/-- Of two writes to one key in a row, the second counts. -/
theorem insert_insert (k : κ) (v w : α) (es : List (κ × α)) :
    insert k v (insert k w es) = insert k v es := by
  induction es with
  | nil => simp [insert]
  | cons e rest ih =>
      obtain ⟨i, u⟩ := e
      by_cases hik : i = k
      · simp [insert, hik]
      · simp [insert, hik, ih]

/-- Writes at different keys commute if one of the keys is there already. -/
theorem insert_comm {k j : κ} (hne : k ≠ j) (v w : α) {es : List (κ × α)} (hk : k ∈ keys es) :
    insert k v (insert j w es) = insert j w (insert k v es) := by
  induction es with
  | nil => cases hk
  | cons e rest ih =>
      obtain ⟨i, u⟩ := e
      by_cases hik : i = k
      · subst hik
        simp [insert, hne]
      · have hrest : k ∈ keys rest := (List.mem_cons.mp hk).resolve_left (Ne.symm hik)
        by_cases hij : i = j
        · subst hij
          simp [insert, hik]
        · simp [insert, hik, hij, ih hrest]

/-- A write takes no key away. -/
theorem mem_keys_insert {k j : κ} (v : α) {es : List (κ × α)} (h : k ∈ keys es) :
    k ∈ keys (insert j v es) := by
  rw [← get?_isSome_iff, get?_insert]
  split
  · rfl
  · exact (get?_isSome_iff k es).mpr h

/-- The key that is written to is there. -/
theorem mem_keys_insert_self (k : κ) (v : α) (es : List (κ × α)) : k ∈ keys (insert k v es) := by
  rw [← get?_isSome_iff, get?_insert, if_pos rfl]
  rfl

/-- Writes can be made in two portions. -/
theorem extend_append (es ws us : List (κ × α)) :
    extend es (ws ++ us) = extend (extend es ws) us :=
  List.foldl_append

/-- The last write is made last. -/
theorem extend_concat (es ws : List (κ × α)) (e : κ × α) :
    extend es (ws ++ [e]) = insert e.1 e.2 (extend es ws) := extend_append es ws [e]

/-- The first write is made first. -/
theorem extend_cons (es : List (κ × α)) (e : κ × α) (ws : List (κ × α)) :
    extend es (e :: ws) = extend (insert e.1 e.2 es) ws := rfl

/-- A key that is there is written before or after writes at other keys. -/
theorem insert_extend_of_not_mem {k : κ} (v : α) {es ws : List (κ × α)} (hes : k ∈ keys es)
    (hws : k ∉ keys ws) : insert k v (extend es ws) = extend (insert k v es) ws := by
  induction ws generalizing es with
  | nil => rfl
  | cons e rest ih =>
      simp only [keys_cons, List.mem_cons, not_or] at hws
      rw [extend_cons, extend_cons, ih (mem_keys_insert e.2 hes) hws.2, insert_comm hws.1 v e.2 hes]

/-- One more write after those of a mapping is a write into that mapping. -/
theorem insert_extend (k : κ) (v : α) {es ws : List (κ × α)} (h : (keys ws).Nodup) :
    insert k v (extend es ws) = extend es (insert k v ws) := by
  induction ws generalizing es with
  | nil => rfl
  | cons e rest ih =>
      obtain ⟨j, w⟩ := e
      rw [keys_cons, List.nodup_cons] at h
      by_cases hjk : j = k
      · subst hjk
        calc insert j v (extend (insert j w es) rest)
            = extend (insert j v (insert j w es)) rest :=
              insert_extend_of_not_mem v (mem_keys_insert_self j w es) h.1
          _ = extend (insert j v es) rest := by rw [insert_insert]
          _ = extend es (insert j v ((j, w) :: rest)) := by simp [insert, extend_cons]
      · rw [extend_cons, ih h.2]
        simp [insert, hjk, extend_cons]

/-- Writes have the effect of the mapping that they leave behind. -/
theorem extend_ofList (es ws : List (κ × α)) : extend es (ofList ws) = extend es ws := by
  induction ws using List.reverseRecOn with
  | nil => rfl
  | append_singleton ws e ih =>
      calc extend es (ofList (ws ++ [e]))
          = extend es (insert e.1 e.2 (ofList ws)) := by rw [ofList, extend_concat, ofList]
        _ = insert e.1 e.2 (extend es (ofList ws)) :=
            (insert_extend e.1 e.2 (nodup_keys_ofList ws)).symm
        _ = insert e.1 e.2 (extend es ws) := by rw [ih]
        _ = extend es (ws ++ [e]) := (extend_concat es ws e).symm

/-- The last write at a key counts, and without one the entry that was there. -/
theorem get?_extend (k : κ) (es ws : List (κ × α)) :
    get? k (extend es ws) = (get? k ws.reverse).or (get? k es) := by
  induction ws using List.reverseRecOn with
  | nil => rfl
  | append_singleton ws e ih =>
      rw [extend_concat, get?_insert, ih, List.reverse_append, List.reverse_singleton,
        List.singleton_append, get?_cons]
      split <;> rfl

/-- The last write to a key is the one that is found. -/
theorem get?_ofList (k : κ) (ws : List (κ × α)) : get? k (ofList ws) = get? k ws.reverse := by
  rw [ofList, get?_extend, get?_nil, Option.or_none]

/-- The keys after some writes are those from before and those written to. -/
theorem mem_keys_extend {k : κ} {es ws : List (κ × α)} :
    k ∈ keys (extend es ws) ↔ k ∈ keys es ∨ k ∈ keys ws := by
  rw [← get?_isSome_iff, get?_extend, Option.isSome_or, Bool.or_eq_true, get?_isSome_iff,
    get?_isSome_iff, mem_keys_reverse, or_comm]

/-- Keys that were there stay where they are, and new ones stand behind them in the order in which
they are first written. -/
theorem keys_extend (es ws : List (κ × α)) :
    keys (extend es ws) = keys es ++ (keys ws).eraseDups.filter (· ∉ keys es) := by
  induction ws using List.reverseRecOn with
  | nil => simp [extend]
  | append_singleton ws e ih =>
      rw [extend_concat, keys_append, List.eraseDups_append, List.filter_append,
        ← List.append_assoc, ← ih]
      by_cases hk : e.1 ∈ keys (extend es ws)
      · rw [keys_insert_of_mem hk]
        by_cases hws : e.1 ∈ keys ws
        · simp [hws, List.removeAll]
        · have hes := (mem_keys_extend.mp hk).resolve_right hws
          simp [hws, hes, List.removeAll, List.eraseDups_cons]
      · rw [keys_insert_of_not_mem hk]
        rw [mem_keys_extend, not_or] at hk
        simp [hk.1, hk.2, List.removeAll, List.eraseDups_cons]

/-- The keys are in the order of their first writes. -/
theorem keys_ofList (ws : List (κ × α)) : keys (ofList ws) = (keys ws).eraseDups := by
  rw [ofList, keys_extend, keys_nil, List.nil_append, List.filter_eq_self]
  exact fun k _ => decide_eq_true List.not_mem_nil

/-- Only the order of first writes and the last write at each key count. -/
theorem extend_congr {ws us : List (κ × α)} (hkeys : (keys ws).eraseDups = (keys us).eraseDups)
    (hlast : ∀ k, get? k ws.reverse = get? k us.reverse) (es : List (κ × α)) :
    extend es ws = extend es us := by
  have hsame : ofList ws = ofList us := by
    apply ext_of_nodup
    · rw [keys_ofList, keys_ofList, hkeys]
    · exact nodup_keys_ofList ws
    · intro k
      rw [get?_ofList, get?_ofList, hlast]
  rw [← extend_ofList es ws, hsame, extend_ofList]

/-! ### Erasing -/

/-- To take out a key that is not there changes nothing. -/
theorem erase_of_not_mem {k : κ} {es : List (κ × α)} (h : k ∉ keys es) : erase k es = es := by
  unfold erase
  rw [List.filter_eq_self]
  intro e he
  have hne : e.1 ≠ k := fun heq => h (heq ▸ mem_keys_of_mem he)
  simpa using hne

/-- With distinct keys an entry can be taken out and put in front. -/
theorem perm_cons_erase {k : κ} {v : α} {es : List (κ × α)} (h : (keys es).Nodup)
    (hget : get? k es = some v) : es.Perm ((k, v) :: erase k es) := by
  induction es with
  | nil => cases hget
  | cons e rest ih =>
      obtain ⟨j, w⟩ := e
      rw [keys_cons, List.nodup_cons] at h
      rw [get?_cons] at hget
      by_cases hjk : j = k
      · subst hjk
        rw [if_pos rfl] at hget
        have herase : erase j ((j, w) :: rest) = rest := by
          calc erase j ((j, w) :: rest) = erase j rest := List.filter_cons_of_neg (by simp)
            _ = rest := erase_of_not_mem h.1
        rw [herase, Option.some.inj hget]
      · rw [if_neg hjk] at hget
        have herase : erase k ((j, w) :: rest) = (j, w) :: erase k rest :=
          List.filter_cons_of_pos (by simpa using hjk)
        rw [herase]
        exact ((ih h.2 hget).cons (j, w)).trans (List.Perm.swap _ _ _)

/-- What is erased may as well have been written before. -/
theorem erase_insert (k : κ) (v : α) (es : List (κ × α)) :
    erase k (insert k v es) = erase k es := by
  induction es with
  | nil => simp [erase, insert]
  | cons e rest ih =>
      obtain ⟨j, w⟩ := e
      by_cases hjk : j = k
      · simp [erase, insert, hjk]
      · have hcons : ∀ es : List (κ × α), erase k ((j, w) :: es) = (j, w) :: erase k es :=
          fun es => List.filter_cons_of_pos (by simpa using hjk)
        rw [insert, if_neg hjk, hcons, hcons, ih]

/-- To take a key out twice is to take it out once. -/
theorem erase_erase (k : κ) (es : List (κ × α)) : erase k (erase k es) = erase k es := by
  simp [erase]

end Flowsheet.Assoc
