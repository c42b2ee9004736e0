import AlarmQuery.Proofs.Text.Unescape

/-!
# Escaping further characters

`escapeWith` can be told to escape characters that mean nothing in a query.  Reading the escapes
gives the text back, but for two cases.  A backslash before a `u` begins a code, and an operator
word whose first character is escaped anyway gets two backslashes, which stand for one.
-/

namespace AlarmQuery

/-! ## What is written -/

/-- Whether `escapeWith` marks a character. -/
def isMarked (extras : List Char) (literal : Bool) (c : Char) : Bool :=
  needsEscape literal c || extras.contains c

/-- The letters that `escapeWith` writes for the characters of a text, one by one. -/
def markedLetters (extras : List Char) (literal : Bool) (text : Text) : List Letter :=
  text.map fun c => ⟨c, isMarked extras literal c⟩

@[simp]
theorem content_markedLetters (extras : List Char) (literal : Bool) (text : Text) :
    content (markedLetters extras literal text) = text := by
  rw [content, markedLetters, List.map_map]
  exact List.map_id text

theorem escapeWith_eq (extras : List Char) (literal : Bool) (text : Text) :
    escapeWith extras literal text =
      if operatorWords.contains text then '\\' :: written (markedLetters extras literal text)
      else written (markedLetters extras literal text) := by
  have body : text.flatMap (escapeChar (isMarked extras literal)) =
      written (markedLetters extras literal text) := by
    rw [written, markedLetters, List.flatMap_map]
    rfl
  rw [← body]
  rfl

section

variable {extras : List Char} {literal : Bool} {text : Text}

/-- A bare letter is no backslash. -/
theorem char_ne_of_mem_markedLetters {letter : Letter}
    (member : letter ∈ markedLetters extras literal text) (bare : letter.escaped = false) :
    letter.char ≠ '\\' := by
  rcases List.mem_map.1 member with ⟨c, _, rfl⟩
  rintro rfl
  simp [isMarked, needsEscape, specials] at bare

theorem mem_markedLetters_code_iff :
    ⟨'u', true⟩ ∈ markedLetters extras literal text ↔ 'u' ∈ extras ∧ 'u' ∈ text := by
  have plain : needsEscape literal 'u' = false := by cases literal <;> decide
  constructor
  · intro member
    rcases List.mem_map.1 member with ⟨c, inside, same⟩
    obtain ⟨rfl, marked⟩ := Letter.mk.inj same
    rw [isMarked, plain, Bool.false_or, List.contains_iff_mem] at marked
    exact ⟨marked, inside⟩
  · rintro ⟨extra, inside⟩
    refine List.mem_map.2 ⟨'u', inside, ?_⟩
    rw [isMarked, List.contains_iff_mem.2 extra, Bool.or_true]

theorem faithful_markedLetters (noCode : ¬('u' ∈ extras ∧ 'u' ∈ text)) :
    ∀ letter ∈ markedLetters extras literal text, letter.Faithful := by
  intro letter member
  cases escaped : letter.escaped with
  | true =>
    simp only [Letter.Faithful, escaped, if_true]
    intro code
    have same : letter = ⟨'u', true⟩ := by
      rw [← code, ← escaped]
    exact noCode (mem_markedLetters_code_iff.1 (same ▸ member))
  | false =>
    simpa [Letter.Faithful, escaped] using char_ne_of_mem_markedLetters member escaped

end

/-! ## Codes make a text shorter -/

theorem ne_backslash_of_hexDigit? {c : Char} {value : Nat} (digit : Text.hexDigit? c = some value) :
    c ≠ '\\' := by
  rintro rfl
  have noDigit : Text.hexDigit? '\\' = none := by decide
  rw [noDigit] at digit
  cases digit

/-- What is read behind the beginning of a code. -/
theorem exists_code_of_unescape {position : Nat} {text plain : Text}
    (read : unescape position ('\\' :: 'u' :: text) = .ok plain) :
    ∃ digits rest c inner, text = digits ++ rest ∧ digits.length = 4 ∧
      (∀ digit ∈ digits, digit ≠ '\\') ∧
      unescape (position + 6) rest = .ok inner ∧ plain = c :: inner := by
  match text, read with
  | first :: second :: third :: fourth :: rest, read =>
    rw [unescape] at read
    cases found : hexCode? first second third fourth with
    | none =>
      rw [found] at read
      cases read
    | some code =>
      rw [found] at read
      dsimp only at read
      cases isChar : charOfCode? code with
      | none =>
        rw [isChar] at read
        cases read
      | some c =>
        rw [isChar] at read
        rcases exists_of_map_eq_ok read with ⟨inner, readRest, rfl⟩
        refine ⟨[first, second, third, fourth], rest, c, inner, rfl, rfl, ?_, readRest, rfl⟩
        simp only [hexCode?, Option.bind_eq_bind, Option.bind_eq_some_iff] at found
        rcases found with ⟨_, one, _, two, _, three, _, four, _⟩
        simpa using ⟨ne_backslash_of_hexDigit? one, ne_backslash_of_hexDigit? two,
          ne_backslash_of_hexDigit? three, ne_backslash_of_hexDigit? four⟩
  | [], read => cases read
  | [_], read => cases read
  | [_, _], read => cases read
  | [_, _, _], read => cases read

/-- Characters that are no backslashes are letters of their own. -/
theorem exists_of_written_eq_append {digits rest : Text} (plain : ∀ c ∈ digits, c ≠ '\\')
    {letters : List Letter} (same : written letters = digits ++ rest) :
    ∃ front others, letters = front ++ others ∧ front.length = digits.length ∧
      written others = rest := by
  induction digits generalizing letters with
  | nil => exact ⟨[], letters, rfl, rfl, same⟩
  | cons c digits ih =>
    cases letters with
    | nil => cases same
    | cons letter others =>
      rw [written_cons] at same
      cases escaped : letter.escaped with
      | true =>
        rw [Letter.text, escaped, if_pos rfl] at same
        exact absurd (List.cons.inj same).1.symm (plain c List.mem_cons_self)
      | false =>
        rw [Letter.text, escaped] at same
        rcases ih (fun other member => plain other (List.mem_cons_of_mem _ member))
          (List.cons.inj same).2 with ⟨front, others, rfl, length, rfl⟩
        exact ⟨letter :: front, others, rfl, by simp [length], rfl⟩

/-- A letter that does not begin a code gives its character. -/
theorem unescape_letter {letter : Letter} (faithful : letter.Faithful) (position : Nat)
    (rest : Text) :
    ∃ behind, unescape position (letter.text ++ rest) =
      (unescape behind rest).map (letter.char :: ·) := by
  cases escaped : letter.escaped with
  | true =>
    rw [Letter.text, escaped, if_pos rfl, List.cons_append, List.singleton_append]
    exact ⟨position + 2, unescape_escaped (faithful.char_ne_code escaped) position rest⟩
  | false =>
    rw [Letter.text, escaped, if_neg Bool.false_ne_true, List.singleton_append]
    exact ⟨position + 1, unescape_bare (faithful.char_ne escaped) position rest⟩

/-- Every letter gives at most one character, and a code takes up five of them for one. -/
theorem length_of_unescape_written {letters : List Letter}
    (guarded : ∀ letter ∈ letters, letter.escaped = false → letter.char ≠ '\\')
    {position : Nat} {plain : Text} (read : unescape position (written letters) = .ok plain) :
    plain.length ≤ letters.length ∧
      (⟨'u', true⟩ ∈ letters → plain.length < letters.length) := by
  match letters with
  | [] =>
    cases read
    simp
  | letter :: others =>
    have guardedOthers : ∀ other ∈ others, other.escaped = false → other.char ≠ '\\' :=
      fun other member => guarded other (List.mem_cons_of_mem _ member)
    by_cases code : letter = ⟨'u', true⟩
    · subst code
      rcases exists_code_of_unescape read with
        ⟨digits, rest, c, inner, same, four, plainDigits, readRest, rfl⟩
      rcases exists_of_written_eq_append plainDigits same with ⟨front, more, rfl, taken, rfl⟩
      have ih := length_of_unescape_written
        (fun other member => guardedOthers other (List.mem_append_right _ member)) readRest
      simp only [List.length_cons, List.length_append]
      exact ⟨by omega, fun _ => by omega⟩
    · have faithful : letter.Faithful := by
        rw [Letter.Faithful]
        split
        · rename_i escaped
          exact fun same => code (by rw [← same, ← escaped])
        · rename_i bare
          exact guarded letter List.mem_cons_self (Bool.eq_false_iff.2 bare)
      rcases unescape_letter faithful position (written others) with ⟨behind, same⟩
      rw [written_cons, same] at read
      rcases exists_of_map_eq_ok read with ⟨inner, readOthers, rfl⟩
      have ih := length_of_unescape_written guardedOthers readOthers
      simp only [List.length_cons, List.mem_cons]
      refine ⟨by omega, ?_⟩
      rintro (here | inside)
      · exact absurd here.symm code
      · exact Nat.succ_lt_succ (ih.2 inside)
termination_by letters.length

/-! ## Reading what is written -/

section

variable {extras : List Char} {literal : Bool} {text : Text}

theorem unescape_markedLetters_iff {position : Nat} :
    unescape position (written (markedLetters extras literal text)) = .ok text ↔
      ¬('u' ∈ extras ∧ 'u' ∈ text) := by
  constructor
  · intro read code
    have shorter := (length_of_unescape_written
      (fun _ member bare => char_ne_of_mem_markedLetters member bare) read).2
      (mem_markedLetters_code_iff.2 code)
    simp [markedLetters] at shorter
  · intro noCode
    rw [unescape_written (faithful_markedLetters noCode), content_markedLetters]

/-- An operator word begins with a character that needs no escape, and none of its characters
begins a code. -/
theorem exists_of_mem_operatorWords (literal : Bool) (operator : text ∈ operatorWords) :
    ∃ first others, text = first :: others ∧ needsEscape literal first = false ∧
      first ≠ '\\' ∧ 'u' ∉ text := by
  have words : text = ['A', 'N', 'D'] ∨ text = ['O', 'R'] ∨ text = ['N', 'O', 'T'] := by
    simpa [operatorWords] using operator
  rcases words with rfl | rfl | rfl
  all_goals exact ⟨_, _, rfl, by cases literal <;> decide, by decide, by decide⟩

/-- The backslash in front of an operator word belongs to its first character, unless that has one
of its own. -/
theorem unescape_operator {position : Nat} (operator : text ∈ operatorWords) :
    ((∃ c ∈ text.head?, c ∈ extras) →
      unescape position ('\\' :: written (markedLetters extras literal text)) =
        .ok ('\\' :: text)) ∧
    ((¬∃ c ∈ text.head?, c ∈ extras) →
      unescape position ('\\' :: written (markedLetters extras literal text)) = .ok text) := by
  rcases exists_of_mem_operatorWords literal operator with
    ⟨first, others, rfl, plain, noBackslash, noCode⟩
  have faithful : ∀ letter ∈ markedLetters extras literal others, letter.Faithful :=
    faithful_markedLetters fun code => noCode (List.mem_cons_of_mem _ code.2)
  have letters : markedLetters extras literal (first :: others) =
      ⟨first, extras.contains first⟩ :: markedLetters extras literal others := by
    rw [markedLetters, List.map_cons, isMarked, plain, Bool.false_or]
    rfl
  have notCode : first ≠ 'u' := fun code => noCode (code ▸ List.mem_cons_self)
  rw [letters]
  constructor
  · rintro ⟨c, here, extra⟩
    cases here
    have twice : '\\' :: written (⟨first, extras.contains first⟩ ::
        markedLetters extras literal others) =
        written (⟨'\\', true⟩ :: ⟨first, false⟩ :: markedLetters extras literal others) := by
      rw [List.contains_iff_mem.2 extra]
      rfl
    rw [twice, unescape_written]
    · simp
    · simpa [Letter.Faithful, noBackslash] using faithful
  · intro plainFirst
    have extra : first ∉ extras := fun inside => plainFirst ⟨first, rfl, inside⟩
    have once : '\\' :: written (⟨first, extras.contains first⟩ ::
        markedLetters extras literal others) =
        written (⟨first, true⟩ :: markedLetters extras literal others) := by
      rw [Bool.eq_false_iff.2 (mt List.contains_iff_mem.1 extra)]
      rfl
    rw [once, unescape_written]
    · simp
    · simpa [Letter.Faithful, notCode] using faithful

end

/-- Reading the escapes of `escapeWith` gives the text back unless a `u` of it is escaped, or it is
an operator word and its first character is escaped on request. -/
theorem unescape_escapeWith_iff (extras : List Char) (literal : Bool) (text : Text)
    (position : Nat) :
    unescape position (escapeWith extras literal text) = .ok text ↔
      ¬('u' ∈ extras ∧ 'u' ∈ text) ∧
        ¬(text ∈ operatorWords ∧ ∃ c ∈ text.head?, c ∈ extras) := by
  rw [escapeWith_eq]
  by_cases operator : text ∈ operatorWords
  · rcases exists_of_mem_operatorWords literal operator with
      ⟨_, _, _, _, _, noCode⟩
    rw [if_pos (List.contains_iff_mem.2 operator)]
    have noCode : ¬('u' ∈ extras ∧ 'u' ∈ text) := fun code => noCode code.2
    by_cases extra : ∃ c ∈ text.head?, c ∈ extras
    · rw [(unescape_operator operator).1 extra]
      exact iff_of_false (by simp) fun kept => kept.2 ⟨operator, extra⟩
    · rw [(unescape_operator operator).2 extra]
      exact iff_of_true rfl ⟨noCode, fun both => extra both.2⟩
  · rw [if_neg (mt List.contains_iff_mem.1 operator), unescape_markedLetters_iff]
    simp [operator]

/-- A letter escaped on request may change an operator word, and may begin a code. -/
theorem changed_of_extras :
    unescape 0 (escapeWith ['O'] false ['O', 'R']) ≠ .ok ['O', 'R'] ∧
      unescape 0 (escapeWith ['u'] false ['u', '0', '0', '4', '1']) ≠
        .ok ['u', '0', '0', '4', '1'] := by
  rw [Ne, Ne, unescape_escapeWith_iff, unescape_escapeWith_iff]
  constructor
  · exact fun kept => kept.2 ⟨by decide, 'O', rfl, by decide⟩
  · exact fun kept => kept.1 ⟨by decide, by decide⟩

end AlarmQuery
