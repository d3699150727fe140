import Flowsheet.Fault.Key
import Mathlib.Data.List.Basic

/-!
# Paths that are written alike

The written form of a path names its fields, sets positions in brackets and keys of maps in brackets
and quotes. Field names consist of letters and underscores, so fields and positions end where the
text goes on with something else, and a text can be read back up to the first key. A key may hold
anything, even the quote and bracket that should close it, and nothing is escaped. So two paths are
written alike just if they are the same, or part at keys of maps of which one goes on behind what
closes the other (`text_eq_iff`).

Nor are line breaks escaped, so a path is one line just if all keys of maps on it are
(`hasBreak_text`).
-/

namespace Flowsheet

/-- Names of fields are made of letters and underscores. -/
def IsFieldName (name : String) : Prop :=
  name.toList ≠ [] ∧ ∀ c ∈ name.toList, (c.isAlpha || c == '_') = true

instance (name : String) : Decidable (IsFieldName name) :=
  decidable_of_iff (name.toList ≠ [] ∧ name.toList.all (fun c => c.isAlpha || c == '_') = true)
    (and_congr_right' List.all_eq_true)

/-- A field is told from all else that a text can start with by its first character. -/
theorem IsFieldName.toList_eq_cons {name : String} (h : IsFieldName name) :
    ∃ c cs, name.toList = c :: cs ∧ c ≠ '(' ∧ c ≠ '[' ∧ c ≠ '<' := by
  obtain ⟨c, cs, hc⟩ := List.exists_cons_of_ne_nil h.1
  have hletter := h.2 c (by simp [hc])
  exact ⟨c, cs, hc, by rintro rfl; exact absurd hletter (by decide),
    by rintro rfl; exact absurd hletter (by decide),
    by rintro rfl; exact absurd hletter (by decide)⟩

/-! ### Texts with an end -/

/-- Words that end before the same kind of character are the same where the texts are. -/
theorem append_inj_of_all {p : Char → Bool} {a b x y : List Char} (ha : ∀ c ∈ a, p c = true)
    (hb : ∀ c ∈ b, p c = true) (hx : ∀ c, x.head? = some c → p c = false)
    (hy : ∀ c, y.head? = some c → p c = false) (h : a ++ x = b ++ y) : a = b ∧ x = y := by
  have hword : ∀ {a x : List Char}, (∀ c ∈ a, p c = true) →
      (∀ c, x.head? = some c → p c = false) → (a ++ x).takeWhile p = a := by
    intro a x ha hx
    rw [List.takeWhile_append_of_pos ha]
    cases x with
    | nil => simp
    | cons c rest => simp [hx c rfl]
  have hab : a = b := by rw [← hword ha hx, h, hword hb hy]
  subst hab
  exact ⟨rfl, List.append_cancel_left h⟩

/-- Different numbers have different digits. -/
theorem toDigits_inj {i j : Nat} (h : Nat.toDigits 10 i = Nat.toDigits 10 j) : i = j := by
  calc i = Nat.ofDigitChars 10 (Nat.toDigits 10 i) 0 := Nat.ofDigitChars_ten_toDigits.symm
    _ = Nat.ofDigitChars 10 (Nat.toDigits 10 j) 0 := by rw [h]
    _ = j := Nat.ofDigitChars_ten_toDigits

/-- What closes a key, in front of two texts that become the same: either nothing more stands
before it in the second, or the second goes on behind it. -/
theorem closing_cases {as x y : List Char}
    (h : '\'' :: ']' :: x = as ++ '\'' :: ']' :: y) :
    (as = [] ∧ x = y) ∨ ∃ rest, as = '\'' :: ']' :: rest ∧ x = rest ++ '\'' :: ']' :: y := by
  rcases as with _ | ⟨a, _ | ⟨b, rest⟩⟩
  · exact Or.inl ⟨rfl, by simpa using h⟩
  · simp at h
  · simp only [List.cons_append, List.cons.injEq] at h
    obtain ⟨rfl, rfl, hx⟩ := h
    exact Or.inr ⟨rest, rfl, hx⟩

namespace FaultKey

/-! ### One key -/

/-- The characters of a key that stands after another key. -/
def chars : FaultKey → List Char
  | field name => '.' :: name.toList
  | index position => '[' :: (Nat.toDigits 10 position ++ [']'])
  | key text => '[' :: '\'' :: (text.toList ++ ['\'', ']'])
  | prior => ['.', '(', 'p', 'r', 'i', 'o', 'r', ')']

/-- The kinds of keys. -/
inductive Kind where
  | field | index | key | prior
  deriving DecidableEq

/-- The kind of a key. -/
def kind : FaultKey → Kind
  | field _ => .field
  | index _ => .index
  | key _ => .key
  | prior => .prior

/-- The kind of the key that a text starts with. -/
def kindOf : List Char → Kind
  | '.' :: '(' :: _ => .prior
  | '.' :: _ => .field
  | '[' :: '\'' :: _ => .key
  | _ => .index

/-- A key that is a field has the name of one. -/
def Named (k : FaultKey) : Prop := ∀ name, k = field name → IsFieldName name

/-- The kind of a key can be told from its first characters. -/
theorem kindOf_chars {k : FaultKey} (hk : k.Named) (x : List Char) :
    kindOf (k.chars ++ x) = k.kind := by
  cases k with
  | key text => rfl
  | prior => rfl
  | field name =>
    obtain ⟨c, cs, hc, hparen, -, -⟩ := (hk name rfl).toList_eq_cons
    simp [chars, hc, kindOf, kind, hparen]
  | index position =>
    obtain ⟨c, cs, hc⟩ := List.exists_cons_of_ne_nil (Nat.toDigits_ne_nil (b := 10) (n := position))
    have hdigit : c.isDigit = true :=
      Nat.isDigit_of_mem_toDigits (by decide) (by decide) (hc ▸ List.mem_cons_self)
    have hquote : c ≠ '\'' := by rintro rfl; revert hdigit; decide
    simp [chars, hc, kindOf, kind, hquote]

/-- A text that goes on with another key or ends. -/
def Stops (x : List Char) : Prop := x = [] ∨ ∃ rest, x = '.' :: rest ∨ x = '[' :: rest

/-- Every key begins as a new key. -/
theorem stops_chars (k : FaultKey) (x : List Char) : Stops (k.chars ++ x) := by
  cases k <;> simp [Stops, chars]

/-- The character that comes next has no property that dots and brackets lack. -/
theorem Stops.head {x : List Char} (hx : Stops x) {p : Char → Bool} (hdot : p '.' = false)
    (hbracket : p '[' = false) : ∀ c, x.head? = some c → p c = false := by
  intro c hc
  rcases hx with rfl | ⟨rest, rfl | rfl⟩
  · simp at hc
  · rwa [← Option.some.inj hc]
  · rwa [← Option.some.inj hc]

/-- A key that closes inside another: of two texts with a key each, the second key goes on behind
the quote and bracket that close the first, up to its own. -/
def Closes (k k' : FaultKey) (x x' : List Char) : Prop :=
  ∃ text rest : String, k = key text ∧ k' = key (text ++ "']" ++ rest) ∧
    x = rest.toList ++ '\'' :: ']' :: x'

/-- Two keys of maps and what follows them. -/
theorem closed_append_eq {text text' : String} {x x' : List Char}
    (h : text.toList ++ '\'' :: ']' :: x = text'.toList ++ '\'' :: ']' :: x') :
    (text = text' ∧ x = x') ∨ (key text).Closes (key text') x x' ∨
      (key text').Closes (key text) x' x := by
  rcases List.append_eq_append_iff.mp h with ⟨as, htext, hx⟩ | ⟨as, htext, hx⟩
  · rcases closing_cases hx with ⟨rfl, rfl⟩ | ⟨rest, rfl, rfl⟩
    · exact Or.inl ⟨String.toList_injective (by simpa using htext.symm), rfl⟩
    · refine Or.inr (Or.inl ⟨text, String.ofList rest, rfl, ?_, by simp⟩)
      exact congrArg key (String.toList_injective (by simp [htext]))
  · rcases closing_cases hx with ⟨rfl, rfl⟩ | ⟨rest, rfl, rfl⟩
    · exact Or.inl ⟨String.toList_injective (by simpa using htext), rfl⟩
    · refine Or.inr (Or.inr ⟨text', String.ofList rest, rfl, ?_, by simp⟩)
      exact congrArg key (String.toList_injective (by simp [htext]))

/-- Texts that start with a key each are the same only if their keys are and so is what follows, or
if one of the keys closes inside the other. -/
theorem chars_append_eq {k k' : FaultKey} {x x' : List Char} (hk : k.Named) (hk' : k'.Named)
    (hx : Stops x) (hx' : Stops x') (h : k.chars ++ x = k'.chars ++ x') :
    (k = k' ∧ x = x') ∨ k.Closes k' x x' ∨ k'.Closes k x' x := by
  have hkind : k.kind = k'.kind := by rw [← kindOf_chars hk x, h, kindOf_chars hk' x']
  cases k <;> cases k' <;> cases hkind
  case field.field name name' =>
    have hword := append_inj_of_all (hk name rfl).2 (hk' name' rfl).2
      (hx.head (by decide) (by decide)) (hx'.head (by decide) (by decide)) (List.cons.inj h).2
    exact Or.inl ⟨congrArg field (String.toList_injective hword.1), hword.2⟩
  case index.index i i' =>
    have hdigits : Nat.toDigits 10 i ++ ']' :: x = Nat.toDigits 10 i' ++ ']' :: x' := by
      simpa [chars] using h
    have hall : ∀ n, ∀ c ∈ Nat.toDigits 10 n, c.isDigit = true := fun n c =>
      Nat.isDigit_of_mem_toDigits (by decide) (by decide)
    have hword := append_inj_of_all (hall i) (hall i') (by simp) (by simp) hdigits
    exact Or.inl ⟨congrArg index (toDigits_inj hword.1), (List.cons.inj hword.2).2⟩
  case key.key text text' =>
    have hclosed : text.toList ++ '\'' :: ']' :: x = text'.toList ++ '\'' :: ']' :: x' := by
      simpa [chars] using h
    exact (closed_append_eq hclosed).imp_left (And.imp_left (congrArg key))
  case prior.prior => exact Or.inl ⟨rfl, List.append_cancel_left h⟩

end FaultKey

namespace FaultPath

open FaultKey (Stops)

/-! ### Paths -/

/-- All fields of the path have names as fields have them. -/
def Named (p : FaultPath) : Prop := ∀ key ∈ p, key.Named

/-- The first key of a named path is named. -/
theorem Named.head {key : FaultKey} {p : FaultPath} (h : Named (key :: p)) : key.Named :=
  h key List.mem_cons_self

/-- The rest of a named path is named. -/
theorem Named.tail {key : FaultKey} {p : FaultPath} (h : Named (key :: p)) : Named p :=
  fun k hk => h k (List.mem_cons_of_mem _ hk)

/-- A path is written key by key. -/
theorem toList_continued_cons (key : FaultKey) (rest : FaultPath) :
    (continued (key :: rest)).toList = key.chars ++ (continued rest).toList := by
  cases key <;>
    simp [continued, FaultKey.isDotted, FaultKey.text, FaultKey.chars]

/-- What is left of a path ends or goes on with another key. -/
theorem stops_continued (p : FaultPath) : Stops (continued p).toList := by
  cases p with
  | nil => exact Or.inl rfl
  | cons key rest => exact toList_continued_cons key rest ▸ key.stops_chars _

/-- A path goes over another: they are the same up to keys of maps, and there its key goes on behind
the quote and bracket that close the other's, with all that the other path still says. -/
def Overruns (q p : FaultPath) : Prop :=
  ∃ (front : FaultPath) (text rest : String) (p' q' : FaultPath),
    p = front ++ .key text :: p' ∧ q = front ++ .key (text ++ "']" ++ rest) :: q' ∧
      continued p' = rest ++ "']" ++ continued q'

/-- If one path goes over another, it still does behind the same key. -/
theorem Overruns.cons {p q : FaultPath} (h : q.Overruns p) (key : FaultKey) :
    Overruns (key :: q) (key :: p) := by
  obtain ⟨front, text, rest, p', q', rfl, rfl, htext⟩ := h
  exact ⟨key :: front, text, rest, p', q', rfl, rfl, htext⟩

/-- The text of a path continues that of its front. -/
theorem continued_append (front p : FaultPath) :
    continued (front ++ p) = continued front ++ continued p := by
  induction front with
  | nil => simp [continued]
  | cons key front ih => simp only [List.cons_append, continued, ih, String.append_assoc]

/-- A path that goes over another is written like it. -/
theorem Overruns.text_eq {p q : FaultPath} (h : q.Overruns p) : p.text = q.text := by
  obtain ⟨front, text, rest, p', q', rfl, rfl, htext⟩ := h
  cases front with
  | nil => simp only [List.nil_append, FaultPath.text, FaultKey.text, htext, String.append_assoc]
  | cons key front =>
    simp only [List.cons_append, FaultPath.text, continued_append, continued, FaultKey.text,
      FaultKey.isDotted, Bool.false_eq_true, if_false, htext, String.append_assoc,
      String.empty_append]

/-- Paths that are written alike are the same, or one goes over the other. Where the first keys
differ, both are keys of maps, and the closing bracket of the one lies within the other. -/
theorem eq_or_overruns_of_continued_eq {p q : FaultPath} (hp : Named p) (hq : Named q)
    (h : continued p = continued q) : p = q ∨ p.Overruns q ∨ q.Overruns p := by
  have hne : ∀ (key : FaultKey) (rest : FaultPath), continued (key :: rest) ≠ "" := by
    intro key rest hempty
    have hchars := toList_continued_cons key rest
    rw [hempty] at hchars
    cases key <;> simp [FaultKey.chars] at hchars
  induction p generalizing q with
  | nil =>
    cases q with
    | nil => exact Or.inl rfl
    | cons key rest => exact absurd h.symm (hne key rest)
  | cons key p ih =>
    cases q with
    | nil => exact absurd h (hne key p)
    | cons key' q =>
      have hchars := congrArg String.toList h
      rw [toList_continued_cons, toList_continued_cons] at hchars
      rcases FaultKey.chars_append_eq hp.head hq.head (stops_continued p) (stops_continued q) hchars
        with ⟨rfl, hrest⟩ | ⟨text, rest, rfl, rfl, hrest⟩ | ⟨text, rest, rfl, rfl, hrest⟩
      · rcases ih hp.tail hq.tail (String.toList_injective hrest) with rfl | hover | hover
        · exact Or.inl rfl
        · exact Or.inr (Or.inl (hover.cons key))
        · exact Or.inr (Or.inr (hover.cons key))
      · refine Or.inr (Or.inr ⟨[], text, rest, p, q, rfl, rfl, ?_⟩)
        exact String.toList_injective (by simp [hrest])
      · refine Or.inr (Or.inl ⟨[], text, rest, q, p, rfl, rfl, ?_⟩)
        exact String.toList_injective (by simp [hrest])

/-! #### The first key

It has no dot in front of it, so it is told by its first character. -/

/-- A text with the dot that the first key leaves out. -/
def redot : List Char → List Char
  | '[' :: x => '[' :: x
  | x => '.' :: x

/-- With its dot, a path is written as it would be behind other keys. -/
theorem redot_text {key : FaultKey} (hkey : key.Named) (rest : FaultPath) :
    redot (text (key :: rest)).toList = (continued (key :: rest)).toList := by
  rw [toList_continued_cons]
  cases key with
  | field name =>
    obtain ⟨c, cs, hc, -, hbracket, -⟩ := (hkey name rfl).toList_eq_cons
    simp [text, FaultKey.text, FaultKey.chars, hc, redot, hbracket]
  | index i => simp [text, FaultKey.text, FaultKey.chars, redot]
  | key text => simp [FaultPath.text, FaultKey.text, FaultKey.chars, redot]
  | prior => simp [text, FaultKey.text, FaultKey.chars, redot]

/-- No path is written like the empty one. -/
theorem text_ne_root {key : FaultKey} {rest : FaultPath} (hkey : key.Named) :
    text (key :: rest) ≠ text [] := by
  intro h
  have hchars := redot_text hkey rest
  rw [h, toList_continued_cons] at hchars
  cases key with
  | field name =>
    obtain ⟨c, cs, hc, -, -, hroot⟩ := (hkey name rfl).toList_eq_cons
    simp [text, redot, FaultKey.chars, hc, hroot.symm] at hchars
  | index i => simp [text, redot, FaultKey.chars] at hchars
  | key text => simp [FaultPath.text, redot, FaultKey.chars] at hchars
  | prior => simp [text, redot, FaultKey.chars] at hchars

/-- Paths that are written alike from the root are written alike behind other keys. -/
theorem continued_eq_of_text_eq {p q : FaultPath} (hp : Named p) (hq : Named q)
    (h : p.text = q.text) : continued p = continued q := by
  cases p with
  | nil =>
    cases q with
    | nil => rfl
    | cons key rest => exact absurd h.symm (text_ne_root hq.head)
  | cons key rest =>
    cases q with
    | nil => exact absurd h (text_ne_root hp.head)
    | cons key' rest' =>
      apply String.toList_injective
      rw [← redot_text hp.head, ← redot_text hq.head, h]

/-- Two paths are written alike just if they are the same or one goes over the other. -/
theorem text_eq_iff {p q : FaultPath} (hp : Named p) (hq : Named q) :
    p.text = q.text ↔ p = q ∨ p.Overruns q ∨ q.Overruns p := by
  constructor
  · intro h
    exact eq_or_overruns_of_continued_eq hp hq (continued_eq_of_text_eq hp hq h)
  · rintro (rfl | hover | hover)
    · rfl
    · exact hover.text_eq.symm
    · exact hover.text_eq

/-- No key of the path holds the quote and bracket that close a key. -/
def Closed (p : FaultPath) : Prop :=
  ∀ text, .key text ∈ p → ¬ ['\'', ']'] <:+: text.toList

/-- A key of a path that goes over another holds a quote and a bracket. -/
theorem Overruns.not_closed {p q : FaultPath} (h : q.Overruns p) : ¬ q.Closed := by
  obtain ⟨front, text, rest, p', q', -, rfl, -⟩ := h
  intro hclosed
  exact hclosed (text ++ "']" ++ rest) (by simp) ⟨text.toList, rest.toList, by simp⟩

/-- Paths without such keys are written each in its own way. -/
theorem text_injOn_closed {p q : FaultPath} (hp : Named p) (hq : Named q) (hpc : p.Closed)
    (hqc : q.Closed) (h : p.text = q.text) : p = q := by
  rcases (text_eq_iff hp hq).mp h with heq | hover | hover
  · exact heq
  · exact absurd hpc hover.not_closed
  · exact absurd hqc hover.not_closed

end FaultPath

/-! ### Line breaks -/

/-- Characters that end a line. -/
def lineBreaks : List Char := ['\n', '\x0b', '\x0c', '\r', '\u0085', '\u2028', '\u2029']

/-- A text of more than one line. -/
def HasBreak (text : String) : Prop := ∃ c ∈ text.toList, c ∈ lineBreaks

instance (text : String) : Decidable (HasBreak text) :=
  decidable_of_iff (text.toList.any lineBreaks.contains = true) (by simp [HasBreak])

/-- Texts in a row have the line breaks of each. -/
@[simp]
theorem hasBreak_append (s t : String) : HasBreak (s ++ t) ↔ HasBreak s ∨ HasBreak t := by
  simp only [HasBreak, String.toList_append, List.mem_append, or_and_right, exists_or]

/-- A text of characters that share what no line break has is one line. -/
theorem not_hasBreak_of_all {p : Char → Bool} {text : String}
    (htext : ∀ c ∈ text.toList, p c = true) (hp : lineBreaks.all (fun c => !p c) = true) :
    ¬ HasBreak text := by
  rintro ⟨c, hc, hbreak⟩
  have hbreak := List.all_eq_true.mp hp c hbreak
  simp [htext c hc] at hbreak

/-- Whether fixed texts are one line is seen from their characters. -/
theorem not_hasBreak_ofList {cs : List Char}
    (h : cs.all (fun c => !lineBreaks.contains c) = true) : ¬ HasBreak (String.ofList cs) := by
  rintro ⟨c, hc, hbreak⟩
  have hplain := List.all_eq_true.mp h c (by simpa using hc)
  simp [hbreak] at hplain

/-- Names of fields are of one line. -/
theorem IsFieldName.not_hasBreak {name : String} (h : IsFieldName name) : ¬ HasBreak name :=
  not_hasBreak_of_all h.2 (by decide)

/-- Numbers are written on one line. -/
@[simp]
theorem not_hasBreak_repr (n : Nat) : ¬ HasBreak n.repr := by
  refine not_hasBreak_of_all (p := Char.isDigit) (fun c hc => ?_) (by decide)
  have hdigit : c ∈ Nat.toDigits 10 n := by simpa using hc
  exact Nat.isDigit_of_mem_toDigits (by decide) (by decide) hdigit

/-- Of the keys, only those of maps can break a line. -/
theorem FaultKey.hasBreak_text {key : FaultKey} (hkey : key.Named) :
    HasBreak key.text ↔ ∃ k, .key k = key ∧ HasBreak k := by
  cases key with
  | field name => simpa [text] using (hkey name rfl).not_hasBreak
  | index i =>
    have hleft : ¬ HasBreak "[" := not_hasBreak_ofList (by decide)
    have hright : ¬ HasBreak "]" := not_hasBreak_ofList (by decide)
    simp [text, hleft, hright]
  | key k =>
    have hleft : ¬ HasBreak "['" := not_hasBreak_ofList (by decide)
    have hright : ¬ HasBreak "']" := not_hasBreak_ofList (by decide)
    simp [text, hleft, hright]
  | prior =>
    have hprior : ¬ HasBreak "(prior)" := not_hasBreak_ofList (by decide)
    simpa [text] using hprior

namespace FaultPath

/-- Behind other keys, too, lines are broken by the keys of maps alone. -/
theorem hasBreak_continued {p : FaultPath} (hp : Named p) :
    HasBreak (continued p) ↔ ∃ k, .key k ∈ p ∧ HasBreak k := by
  induction p with
  | nil =>
    have hnone : ¬ HasBreak "" := not_hasBreak_ofList (by decide)
    simpa [continued] using hnone
  | cons key rest ih =>
    have hdot : ¬ HasBreak (if key.isDotted then "." else "") := by
      split <;> decide
    simp only [continued, hasBreak_append, hdot, false_or, FaultKey.hasBreak_text hp.head,
      ih hp.tail, List.mem_cons, or_and_right, exists_or]

/-- Lines are broken by the keys of maps alone. -/
theorem hasBreak_text {p : FaultPath} (hp : Named p) :
    HasBreak p.text ↔ ∃ k, .key k ∈ p ∧ HasBreak k := by
  cases p with
  | nil =>
    have hroot : ¬ HasBreak "<root>" := not_hasBreak_ofList (by decide)
    simpa [text] using hroot
  | cons key rest =>
    simp only [text, hasBreak_append, FaultKey.hasBreak_text hp.head, hasBreak_continued hp.tail,
      List.mem_cons, or_and_right, exists_or]

end FaultPath

end Flowsheet
