import Flowsheet.Model.PortType

/-!
# Which texts are port type ids

A text is a port type id just if it consists of segments with dots between them, where a segment is
a word of letters, digits, underscores and dollar signs that does not begin with a digit and is not
reserved (`IsId`). Any other text is refused, with a reason: that it is empty, or what is wrong with
its first bad segment (`Refused`). `check_decides` says that checking decides just this.

Every text splits at its dots in one way (`splitsInto_iff`), and two texts with a dot between them
split into the segments of both (`parts_append`). So an id can be put together from ids and taken
apart into ids, and its last segment is one.
-/

namespace Flowsheet.PortType

/-! ### Segments -/

/-- A capital or small letter from A to Z. -/
def IsLetter (c : Char) : Prop := ('A' ≤ c ∧ c ≤ 'Z') ∨ ('a' ≤ c ∧ c ≤ 'z')

/-- A digit from 0 to 9. -/
def IsDigit (c : Char) : Prop := '0' ≤ c ∧ c ≤ '9'

/-- A word of letters, digits, underscores and dollar signs that does not begin with a digit. -/
def IsWord (segment : String) : Prop :=
  ∃ c rest, segment.toList = c :: rest ∧ (IsLetter c ∨ c = '_' ∨ c = '$') ∧
    ∀ d ∈ rest, IsLetter d ∨ IsDigit d ∨ d = '_' ∨ d = '$'

/-- A word that is not reserved. -/
structure IsSegment (segment : String) : Prop where
  /-- It is a word. -/
  isWord : IsWord segment
  /-- It is not reserved. -/
  not_reserved : segment ∉ reservedWords

/-- What is wrong with a text between dots, in words. -/
inductive Flaw : String → String → Prop where
  /-- There is nothing between the dots. -/
  | empty : Flaw "" "identifier must not contain empty segments"
  /-- It is no word. -/
  | characters {segment : String} (hne : segment ≠ "") (h : ¬ IsWord segment) :
    Flaw segment ("every segment must match the pattern ^[A-Za-z_$][A-Za-z0-9_$]*$ "
      ++ "(ASCII letters, digits, underscores and dollar signs; must not start with a digit)")
  /-- It is a reserved word. -/
  | reserved {segment : String} (hword : IsWord segment) (h : segment ∈ reservedWords) :
    Flaw segment ("segment '" ++ segment ++ "' is a Java reserved word")

/-- A character counts as a letter just if it is a letter of the alphabet. -/
theorem isAlpha_iff (c : Char) : c.isAlpha = true ↔ IsLetter c := by
  delta Char.isAlpha Char.isUpper Char.isLower
  simp only [Bool.or_eq_true, Bool.and_eq_true, decide_eq_true_eq, IsLetter, Char.le_def,
    ge_iff_le]

/-- A character counts as a digit just if it is a decimal one. -/
theorem isDigit_iff (c : Char) : c.isDigit = true ↔ IsDigit c := by
  delta Char.isDigit
  simp only [Bool.and_eq_true, decide_eq_true_eq, IsDigit, Char.le_def, ge_iff_le]

/-- A segment may begin with a letter, an underscore or a dollar sign. -/
theorem isStart_iff (c : Char) : isStart c = true ↔ IsLetter c ∨ c = '_' ∨ c = '$' := by
  simp only [isStart, Bool.or_eq_true, beq_iff_eq, isAlpha_iff, or_assoc]

/-- A segment may go on with these and with digits. -/
theorem isPart_iff (c : Char) : isPart c = true ↔ IsLetter c ∨ IsDigit c ∨ c = '_' ∨ c = '$' := by
  simp only [isPart, Char.isAlphanum, Bool.or_eq_true, beq_iff_eq, isAlpha_iff, isDigit_iff,
    or_assoc]

/-- The pattern of segments is met by words and by nothing else. -/
theorem matchesPattern_iff (segment : String) :
    matchesPattern segment.toList = true ↔ IsWord segment := by
  unfold IsWord
  cases hchars : segment.toList with
  | nil => simp [matchesPattern]
  | cons c rest =>
      rw [matchesPattern, Bool.and_eq_true, isStart_iff, List.all_eq_true]
      simp only [isPart_iff]
      constructor
      · rintro ⟨hc, hrest⟩
        exact ⟨c, rest, rfl, hc, hrest⟩
      · rintro ⟨d, more, heq, hd, hmore⟩
        obtain ⟨rfl, rfl⟩ := List.cons.inj heq
        exact ⟨hd, hmore⟩

/-- A segment has a problem just if it has a flaw, and the problem is what is said of the flaw. -/
theorem segmentProblem?_eq_some_iff (segment reason : String) :
    segmentProblem? segment.toList = some reason ↔ Flaw segment reason := by
  by_cases hempty : segment = ""
  · subst hempty
    constructor
    · intro h
      obtain rfl := Option.some.inj h
      exact .empty
    · intro h
      cases h with
      | empty => rfl
      | characters hne => exact absurd rfl hne
      | reserved hword => obtain ⟨c, rest, hnil, -⟩ := hword; cases hnil
  · have hne : segment.toList.isEmpty = false := by simpa using hempty
    unfold segmentProblem?
    rw [hne, if_neg Bool.false_ne_true, String.ofList_toList]
    by_cases hword : IsWord segment
    · rw [(matchesPattern_iff segment).mpr hword, Bool.not_true, if_neg Bool.false_ne_true]
      by_cases hreserved : segment ∈ reservedWords
      · rw [if_pos (List.contains_iff_mem.mpr hreserved)]
        constructor
        · intro h
          obtain rfl := Option.some.inj h
          exact .reserved hword hreserved
        · intro h
          cases h with
          | empty => exact absurd rfl hempty
          | characters _ h => exact absurd hword h
          | reserved => rfl
      · rw [if_neg (fun h => hreserved (List.contains_iff_mem.mp h))]
        constructor
        · intro h
          cases h
        · intro h
          cases h with
          | empty => exact absurd rfl hempty
          | characters _ h => exact absurd hword h
          | reserved _ h => exact absurd h hreserved
    · have hpattern : matchesPattern segment.toList = false :=
        Bool.eq_false_iff.mpr fun h => hword ((matchesPattern_iff segment).mp h)
      rw [hpattern, Bool.not_false, if_pos rfl]
      constructor
      · intro h
        obtain rfl := Option.some.inj h
        exact .characters hempty hword
      · intro h
        cases h with
        | empty => exact absurd rfl hempty
        | characters => rfl
        | reserved h => exact absurd h hword

/-- A segment is one just if it has no flaw. -/
theorem isSegment_iff_not_flaw (segment : String) :
    IsSegment segment ↔ ∀ reason, ¬ Flaw segment reason := by
  constructor
  · intro h reason hflaw
    cases hflaw with
    | empty => obtain ⟨c, rest, hnil, -⟩ := h.isWord; cases hnil
    | characters _ hword => exact hword h.isWord
    | reserved _ hreserved => exact h.not_reserved hreserved
  · intro h
    have hne : segment ≠ "" := by
      rintro rfl
      exact h _ .empty
    have hword : IsWord segment :=
      Classical.not_not.mp fun hword => h _ (.characters hne hword)
    exact ⟨hword, fun hreserved => h _ (.reserved hword hreserved)⟩

/-- No problem is found in a segment just if it is one. -/
theorem segmentProblem?_toList_eq_none_iff (segment : String) :
    segmentProblem? segment.toList = none ↔ IsSegment segment := by
  rw [isSegment_iff_not_flaw, Option.eq_none_iff_forall_ne_some]
  exact forall_congr' fun reason => not_congr (segmentProblem?_eq_some_iff segment reason)

/-- Segments hold no dots, so dots between them can be told from them. -/
theorem IsSegment.dot_not_mem {segment : String} (h : IsSegment segment) :
    '.' ∉ segment.toList := by
  obtain ⟨c, rest, hchars, hc, hrest⟩ := h.isWord
  rw [hchars, List.mem_cons, not_or]
  constructor
  · rintro rfl
    have hstart : isStart '.' = true := (isStart_iff '.').mpr hc
    cases hstart
  · intro hdot
    have hpart : isPart '.' = true := (isPart_iff '.').mpr (hrest '.' hdot)
    cases hpart

/-! ### Texts and their parts -/

/-- What stands before, between and after the dots of a text, at least one part. -/
def parts (text : String) : List String := (segments text).map String.ofList

/-- A text that consists of parts without dots, with a dot between each two. -/
structure SplitsInto (text : String) (texts : List String) : Prop where
  /-- There is a part. -/
  ne_nil : texts ≠ []
  /-- No part holds a dot. -/
  dot_not_mem : ∀ part ∈ texts, '.' ∉ part.toList
  /-- The text is the parts with dots between them. -/
  eq_intercalate : text = ".".intercalate texts

/-- A dot begins a new part. -/
theorem split_cons_dot (rest : List Char) :
    split ('.' :: rest) = ([], (split rest).1 :: (split rest).2) := rfl

/-- Any other character belongs to the first part. -/
theorem split_cons_of_ne {c : Char} (h : c ≠ '.') (rest : List Char) :
    split (c :: rest) = (c :: (split rest).1, (split rest).2) :=
  if_neg h

/-- The parts between dots are those that the list is split into at dots. -/
theorem split_eq_splitOn (chars : List Char) :
    (split chars).1 :: (split chars).2 = chars.splitOn '.' := by
  induction chars with
  | nil => rfl
  | cons c rest ih =>
      rw [List.splitOn_cons_eq_if_modifyHead, ← ih]
      by_cases hdot : c = '.'
      · rw [hdot, split_cons_dot, if_pos (beq_self_eq_true _)]
      · rw [split_cons_of_ne hdot, if_neg (fun h => hdot (beq_iff_eq.mp h))]
        rfl

/-- The segments of a text are what its characters are split into at dots. -/
theorem segments_eq_splitOn (text : String) : segments text = text.toList.splitOn '.' :=
  split_eq_splitOn text.toList

/-- No part has a dot. -/
theorem dot_not_mem_split (chars : List Char) :
    ∀ part ∈ (split chars).1 :: (split chars).2, '.' ∉ part := by
  induction chars with
  | nil => simp [split]
  | cons c rest ih =>
      by_cases hdot : c = '.'
      · rw [hdot, split_cons_dot]
        intro part hpart
        rcases List.mem_cons.mp hpart with rfl | hpart
        · exact List.not_mem_nil
        · exact ih part hpart
      · rw [split_cons_of_ne hdot]
        intro part hpart
        rcases List.mem_cons.mp hpart with rfl | hpart
        · rw [List.mem_cons, not_or]
          exact ⟨fun h => hdot h.symm, ih _ List.mem_cons_self⟩
        · exact ih part (List.mem_cons_of_mem _ hpart)

/-- The segments are the parts, character by character. -/
theorem segments_eq_map_toList (text : String) :
    segments text = (parts text).map String.toList := by
  rw [parts, List.map_map]
  exact ((List.map_congr_left fun _ _ => String.toList_ofList).trans (List.map_id _)).symm

/-- A text splits into its parts. -/
theorem splitsInto_parts (text : String) : SplitsInto text (parts text) where
  ne_nil := by
    rw [parts, Ne, List.map_eq_nil_iff, segments_eq_splitOn]
    exact List.splitOn_ne_nil _ _
  dot_not_mem part hpart := by
    obtain ⟨chars, hchars, rfl⟩ := List.mem_map.mp hpart
    rw [String.toList_ofList]
    exact dot_not_mem_split text.toList chars hchars
  eq_intercalate := by
    apply String.toList_injective
    rw [String.toList_intercalate, ← segments_eq_map_toList, segments_eq_splitOn]
    exact (List.intercalate_splitOn '.').symm

/-- A text splits at its dots in one way. -/
theorem splitsInto_iff (text : String) (texts : List String) :
    SplitsInto text texts ↔ texts = parts text := by
  constructor
  · intro h
    apply (List.map_inj_right fun _ _ => String.toList_inj.mp).mp
    rw [← segments_eq_map_toList, segments_eq_splitOn, h.eq_intercalate, String.toList_intercalate]
    refine (List.splitOn_intercalate '.' ?_ ?_).symm
    · intro chars hchars
      obtain ⟨part, hpart, rfl⟩ := List.mem_map.mp hchars
      exact h.dot_not_mem part hpart
    · rw [Ne, List.map_eq_nil_iff]
      exact h.ne_nil
  · rintro rfl
    exact splitsInto_parts text

/-- Two texts with a dot between them have the parts of both. -/
theorem parts_append (text more : String) :
    parts (text ++ "." ++ more) = parts text ++ parts more := by
  refine ((splitsInto_iff _ _).mp ⟨?_, ?_, ?_⟩).symm
  · exact List.append_ne_nil_of_left_ne_nil (splitsInto_parts text).ne_nil _
  · intro part hpart
    rcases List.mem_append.mp hpart with hpart | hpart
    · exact (splitsInto_parts text).dot_not_mem part hpart
    · exact (splitsInto_parts more).dot_not_mem part hpart
  · rw [String.intercalate_append_of_ne_nil (splitsInto_parts text).ne_nil
      (splitsInto_parts more).ne_nil, ← (splitsInto_parts text).eq_intercalate,
      ← (splitsInto_parts more).eq_intercalate]

/-! ### Ids -/

/-- A text that consists of segments with dots between them. -/
def IsId (text : String) : Prop :=
  ∃ texts ≠ [], (∀ segment ∈ texts, IsSegment segment) ∧ text = ".".intercalate texts

/-- Why a text is no id: it is empty, or the first part of it that is no segment has a flaw. -/
inductive Refused : String → String → Prop where
  /-- There is no text. -/
  | empty : Refused "" "identifier must not be empty"
  /-- The parts before a bad one are segments, and the bad one has a flaw. -/
  | part {text bad reason : String} {before after : List String} (hne : text ≠ "")
    (hsplits : SplitsInto text (before ++ bad :: after))
    (hbefore : ∀ segment ∈ before, IsSegment segment) (hflaw : Flaw bad reason) :
    Refused text reason

/-- A text is an id just if each of its parts is a segment, as there is only one way to split it. -/
theorem isId_iff (text : String) : IsId text ↔ ∀ part ∈ parts text, IsSegment part := by
  constructor
  · rintro ⟨texts, hne, hsegments, rfl⟩
    have hsplits : SplitsInto (".".intercalate texts) texts :=
      ⟨hne, fun segment hsegment => (hsegments segment hsegment).dot_not_mem, rfl⟩
    rw [← (splitsInto_iff _ _).mp hsplits]
    exact hsegments
  · intro h
    exact ⟨parts text, (splitsInto_parts text).ne_nil, h, (splitsInto_parts text).eq_intercalate⟩

/-- Two texts make an id with a dot between them just if both are ids. -/
theorem isId_append (text more : String) :
    IsId (text ++ "." ++ more) ↔ IsId text ∧ IsId more := by
  simp only [isId_iff, parts_append, List.forall_mem_append]

/-- The empty text is no id. -/
theorem not_isId_empty : ¬ IsId "" := by
  rw [isId_iff]
  intro h
  obtain ⟨c, rest, hnil, -⟩ := (h "" List.mem_cons_self).isWord
  cases hnil

/-- A problem is reported just if it is the one for which the text is refused. -/
theorem problem?_eq_some_iff (text reason : String) :
    problem? text = some reason ↔ Refused text reason := by
  by_cases hempty : text = ""
  · subst hempty
    constructor
    · intro h
      obtain rfl := Option.some.inj h
      exact .empty
    · intro h
      cases h with
      | empty => rfl
      | part hne => exact absurd rfl hne
  · unfold problem?
    rw [if_neg (by simpa using hempty), segments_eq_map_toList, List.findSome?_map,
      List.findSome?_eq_some_iff]
    constructor
    · rintro ⟨before, bad, after, hparts, hbad, hbefore⟩
      refine .part hempty ((splitsInto_iff _ _).mpr hparts.symm) ?_
        ((segmentProblem?_eq_some_iff _ _).mp hbad)
      intro segment hsegment
      exact (segmentProblem?_toList_eq_none_iff segment).mp (hbefore segment hsegment)
    · intro h
      cases h with
      | empty => exact absurd rfl hempty
      | part _ hsplits hbefore hflaw =>
          refine ⟨_, _, _, ((splitsInto_iff _ _).mp hsplits).symm,
            (segmentProblem?_eq_some_iff _ _).mpr hflaw, ?_⟩
          intro segment hsegment
          exact (segmentProblem?_toList_eq_none_iff segment).mpr (hbefore segment hsegment)

/-- No problem is found in a text just if it is an id. -/
theorem problem?_eq_none_iff_isId (text : String) : problem? text = none ↔ IsId text := by
  by_cases hempty : text = ""
  · subst hempty
    exact iff_of_false (fun h => nomatch h) not_isId_empty
  · unfold problem?
    rw [if_neg (by simpa using hempty), segments_eq_map_toList, List.findSome?_map,
      List.findSome?_eq_none_iff, isId_iff]
    exact forall₂_congr fun part _ => segmentProblem?_toList_eq_none_iff part

/-- The check lets ids pass and nothing else. -/
theorem check_eq_ok_iff (text : String) : check text = .ok () ↔ IsId text := by
  rw [← problem?_eq_none_iff_isId]
  unfold check
  cases problem? text with
  | none => simp
  | some reason => simp

/-- The check refuses a text with the whole text and the flaw of its first bad segment. -/
theorem check_eq_error_iff (text : String) (e : FieldError) :
    check text = .error e ↔ ∃ reason, e = .invalidIdentifier text reason ∧ Refused text reason := by
  simp only [← problem?_eq_some_iff]
  unfold check
  cases problem? text with
  | none => simp
  | some reason => simp [eq_comm]

/-- A port type is made of its own text and of no other. -/
theorem ofText_eq_ok_iff (text : String) (p : PortType) : ofText text = .ok p ↔ p.text = text := by
  unfold ofText
  split
  · rename_i reason hreason
    refine iff_of_false (fun h => nomatch h) ?_
    rintro rfl
    rw [p.valid] at hreason
    cases hreason
  · cases p
    simp [eq_comm]

/-! ### The last segment -/

/-- The simple name is the last part. -/
theorem parts_eq_append_simpleName (p : PortType) :
    ∃ before, parts p.text = before ++ [p.simpleName] := by
  have hne : segments p.text ≠ [] := by
    rw [segments_eq_splitOn]
    exact List.splitOn_ne_nil _ _
  refine ⟨(segments p.text).dropLast.map String.ofList, ?_⟩
  rw [simpleName, List.getLastD_eq_getLast?, List.getLast?_eq_some_getLast hne, Option.getD_some,
    ← List.map_singleton, ← List.map_append, List.dropLast_concat_getLast hne, parts]

/-- The simple name is a segment. -/
theorem isSegment_simpleName (p : PortType) : IsSegment p.simpleName := by
  obtain ⟨before, hparts⟩ := parts_eq_append_simpleName p
  apply (isId_iff p.text).mp ((problem?_eq_none_iff_isId p.text).mp p.valid)
  rw [hparts]
  exact List.mem_append_right before (List.mem_singleton_self _)

/-- The simple name is the whole text or stands behind the last dot. -/
theorem simpleName_ends_text (p : PortType) :
    p.simpleName = p.text ∨ ∃ front, p.text = front ++ "." ++ p.simpleName := by
  obtain ⟨before, hparts⟩ := parts_eq_append_simpleName p
  have htext := (splitsInto_parts p.text).eq_intercalate
  rw [hparts] at htext
  by_cases hbefore : before = []
  · rw [hbefore, List.nil_append, String.intercalate_singleton] at htext
    exact .inl htext.symm
  · rw [String.intercalate_append_of_ne_nil hbefore (List.cons_ne_nil _ _),
      String.intercalate_singleton] at htext
    exact .inr ⟨_, htext⟩

/-- Checking accepts the ids and no other text, and refuses another text with that text and with
what is wrong with the first part of it that is no segment. A text made of two texts with a dot
between them is accepted just if both are. A port type can be made of the accepted texts, and its
simple name is a segment, without a dot, that is all of the text or follows a dot in it. -/
theorem check_decides (text : String) :
    (check text = .ok () ↔ IsId text) ∧
      (∀ e, check text = .error e ↔
        ∃ reason, e = .invalidIdentifier text reason ∧ Refused text reason) ∧
      (∀ more, check (text ++ "." ++ more) = .ok () ↔ check text = .ok () ∧ check more = .ok ()) ∧
      ((∃ p, ofText text = .ok p) ↔ check text = .ok ()) ∧
      ∀ p, ofText text = .ok p → p.text = text ∧ IsSegment p.simpleName ∧
        '.' ∉ p.simpleName.toList ∧
        (p.simpleName = text ∨ ∃ front, text = front ++ "." ++ p.simpleName) := by
  refine ⟨check_eq_ok_iff text, check_eq_error_iff text, ?_, ?_, ?_⟩
  · intro more
    simp only [check_eq_ok_iff, isId_append]
  · rw [check_eq_ok_iff, ← problem?_eq_none_iff_isId]
    constructor
    · rintro ⟨p, hp⟩
      rw [← (ofText_eq_ok_iff text p).mp hp]
      exact p.valid
    · intro hvalid
      exact ⟨⟨text, hvalid⟩, (ofText_eq_ok_iff text _).mpr rfl⟩
  · intro p hp
    obtain rfl := (ofText_eq_ok_iff text p).mp hp
    exact ⟨rfl, isSegment_simpleName p, (isSegment_simpleName p).dot_not_mem,
      simpleName_ends_text p⟩

/-- An id whose simple name follows a dot, and a text that is refused: only a whole part counts as
reserved, and the first bad part is named. -/
theorem check_decides_classes :
    (∃ p, ofText "org.classes.Table" = .ok p ∧ IsSegment p.simpleName ∧
      (p.simpleName = "org.classes.Table" ∨
        ∃ front, "org.classes.Table" = front ++ "." ++ p.simpleName)) ∧
    Refused "org.class.T\u00e4ble" "segment 'class' is a Java reserved word" := by
  have hok : check "org.classes.Table" = .ok () := by
    have hnone : problem? "org.classes.Table" = none := by decide +kernel
    rw [check, hnone]
  have herror : check "org.class.T\u00e4ble" = .error
      (.invalidIdentifier "org.class.T\u00e4ble" "segment 'class' is a Java reserved word") := by
    have hsome : problem? "org.class.T\u00e4ble" =
        some "segment 'class' is a Java reserved word" := by decide +kernel
    rw [check, hsome]
  constructor
  · obtain ⟨-, -, -, hmade, hname⟩ := check_decides "org.classes.Table"
    obtain ⟨p, hp⟩ := hmade.mpr hok
    obtain ⟨-, hsegment, -, hends⟩ := hname p hp
    exact ⟨p, hp, hsegment, hends⟩
  · obtain ⟨reason, heq, hrefused⟩ := ((check_decides _).2.1 _).mp herror
    obtain ⟨-, rfl⟩ := FieldError.invalidIdentifier.inj heq
    exact hrefused

end Flowsheet.PortType
