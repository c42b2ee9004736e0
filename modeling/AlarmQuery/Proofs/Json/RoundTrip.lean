import AlarmQuery.Json.Read
import Mathlib.Tactic.SplitIfs

/-!
# Reading what was written

A value without numbers is read back from its text, whatever follows it: a string ends at its own
closing quote, however many quotes and backslashes it holds, and the spaces of the layout stand
only where a reader skips them.
-/

namespace AlarmQuery

namespace Json

/-! ## Strings -/

/-- What a backslash and the short escape of a character are read as. -/
theorem ofShortEscape?_of_shortEscape? {c short : Char} (escape : shortEscape? c = some short) :
    ofShortEscape? short = some c ∧ short ≠ 'u' := by
  unfold shortEscape? at escape
  split_ifs at escape
  all_goals
    cases escape
    subst c
    decide

/-- The four hexadecimal digits of the code of a control character. -/
theorem hexCode?_control : ∀ code < 32,
    Text.padStart 4 '0' (Nat.toDigits 16 code) =
      ['0', '0', (code / 16).digitChar, (code % 16).digitChar] ∧
    hexCode? '0' '0' (code / 16).digitChar (code % 16).digitChar = some code := by
  decide

theorem charOfCode?_toNat (c : Char) : charOfCode? c.toNat = some c := by
  rw [charOfCode?, Char.ofNat_toNat]
  exact if_pos c.valid

theorem takeCode?_control {c : Char} (control : c.toNat < 32) (rest : Text) :
    takeCode? (Text.padStart 4 '0' (Nat.toDigits 16 c.toNat) ++ rest) = some (some c, rest) := by
  rcases hexCode?_control c.toNat control with ⟨digits, code⟩
  rw [digits]
  simp only [List.cons_append, List.nil_append, takeCode?, code, charOfCode?_toNat]

theorem takeString?_quote (rest : Text) : takeString? ('"' :: rest) = some (some [], rest) := by
  rw [takeString?.eq_def]
  rfl

theorem takeString?_short {c short : Char} (meaning : ofShortEscape? short = some c)
    (noCode : short ≠ 'u') (rest : Text) :
    takeString? ('\\' :: short :: rest) = (takeString? rest).map (extendString (some c)) := by
  rw [takeString?.eq_def]
  simp [meaning, noCode]

theorem takeString?_code {c : Char} {text rest : Text}
    (taken : takeCode? text = some (some c, rest)) :
    takeString? ('\\' :: 'u' :: text) = (takeString? rest).map (extendString (some c)) := by
  rw [takeString?.eq_def]
  simp only [if_neg (show ('\\' : Char) ≠ '"' by decide), if_true]
  split
  · rename_i failed
    rw [taken] at failed
    cases failed
  · rename_i found
    rw [taken] at found
    cases found
    rfl

theorem takeString?_bare {c : Char} (noQuote : c ≠ '"') (noBackslash : c ≠ '\\')
    (noControl : ¬ c.toNat < 32) (rest : Text) :
    takeString? (c :: rest) = (takeString? rest).map (extendString (some c)) := by
  rw [takeString?.eq_def]
  simp only [if_neg noQuote, if_neg noBackslash, if_neg noControl]

/-- What is written for a character is read as the character. -/
theorem takeString?_charText (c : Char) (rest : Text) :
    takeString? (charText c ++ rest) = (takeString? rest).map (extendString (some c)) := by
  rw [charText]
  cases escape : shortEscape? c with
  | some short =>
    rcases ofShortEscape?_of_shortEscape? escape with ⟨meaning, noCode⟩
    exact takeString?_short meaning noCode rest
  | none =>
    by_cases control : c.toNat < 32
    · simp only [if_pos control, List.cons_append]
      exact takeString?_code (takeCode?_control control rest)
    · -- a quote and a backslash have short escapes, so the character is none of them
      have noQuote : c ≠ '"' := by
        rintro rfl
        cases escape
      have noBackslash : c ≠ '\\' := by
        rintro rfl
        cases escape
      simp only [if_neg control, List.cons_append, List.nil_append]
      exact takeString?_bare noQuote noBackslash control rest

/-- The rest of a string behind its opening quote is read as its text. -/
theorem takeString?_flatMap_charText (text rest : Text) :
    takeString? (text.flatMap charText ++ '"' :: rest) = some (some text, rest) := by
  induction text with
  | nil => exact takeString?_quote rest
  | cons c text ih =>
    rw [List.flatMap_cons, List.append_assoc, takeString?_charText, ih]
    rfl

theorem stringText_append (text rest : Text) :
    stringText text ++ rest = '"' :: (text.flatMap charText ++ '"' :: rest) := by
  simp [stringText]

theorem readValue_stringText (text rest : Text) :
    readValue (stringText text ++ rest) = (.string text, some rest) := by
  rw [stringText_append, readValue]
  simp [readScalar, takeString?_flatMap_charText]

theorem takeName?_stringText (name behind : Text) :
    takeName? (stringText name ++ ':' :: behind) = some (name, some behind) := by
  rw [stringText_append, takeName?, takeString?_flatMap_charText]
  rfl

/-! ## Layout -/

theorem skipSpaces_cons_of_isSpace {c : Char} (space : isSpace c = true) (rest : Text) :
    skipSpaces (c :: rest) = skipSpaces rest :=
  List.dropWhile_cons_of_pos space

theorem skipSpaces_cons_of_not_isSpace {c : Char} (other : isSpace c = false) (rest : Text) :
    skipSpaces (c :: rest) = c :: rest :=
  List.dropWhile_cons_of_neg (by rw [other]; decide)

/-- The beginning of a line is skipped. -/
@[simp]
theorem skipSpaces_newLine (level : Nat) (rest : Text) :
    skipSpaces (newLine level ++ rest) = skipSpaces rest := by
  rw [newLine, List.cons_append, skipSpaces_cons_of_isSpace (by decide)]
  induction 2 * level with
  | zero => rfl
  | succ count ih =>
    rw [List.replicate_succ, List.cons_append, skipSpaces_cons_of_isSpace (by decide), ih]

/-! ## Values -/

/-- The value holds no numbers, and all its arrays and objects are closed. -/
inductive Plain : Json → Prop
  | null : Plain .null
  | bool (value : Bool) : Plain (.bool value)
  | string (text : Text) : Plain (.string text)
  | array {items : List Json} (each : ∀ item ∈ items, Plain item) : Plain (.array items true)
  | object {members : List (Text × Json)} (each : ∀ member ∈ members, Plain member.2) :
      Plain (.object members true)

/-- The value is read back from its text, whatever its level and whatever follows it. -/
def ReadBack (value : Json) : Prop :=
  ∀ (level : Nat) (rest : Text), readValue (value.prettyAt level ++ rest) = (value, some rest)

/-- No value begins with a space, so a reader that skips spaces finds the value there. -/
theorem Plain.skipSpaces_prettyAt {value : Json} (plain : value.Plain) (level : Nat)
    (rest : Text) : skipSpaces (value.prettyAt level ++ rest) = value.prettyAt level ++ rest := by
  cases plain with
  | null => rfl
  | bool value => cases value <;> rfl
  | string text => rfl
  | @array items each => cases items <;> rfl
  | @object members each => cases members <;> rfl

/-! ## Arrays -/

theorem itemsText_cons (level : Nat) (item : Json) (others : List Json) :
    itemsText level (item :: others) = newLine level ++ (item.prettyAt level ++
      if others = [] then [] else ',' :: itemsText level others) := by
  cases others with
  | nil => simp [itemsText]
  | cons other others => simp [itemsText]

/-- No value begins with a closing bracket. -/
theorem readValue_bracket (rest : Text) : readValue (']' :: rest) = (.malformed, none) := by
  rw [readValue]
  rfl

/-- An item is the last one if the array is closed behind it. -/
theorem readItems_last {text behind rest : Text} {item : Json}
    (read : readValue (skipSpaces text) = (item, some behind))
    (ends : skipSpaces behind = ']' :: rest) (first : Bool) :
    readItems first text = ([item], some rest) := by
  rw [readItems]
  · simp only [read, ends]
  · intro others _ closing
    rw [closing, readValue_bracket] at read
    cases read

/-- Behind an item and a comma stand the other items. -/
theorem readItems_cons {text behind rest : Text} {item : Json}
    (read : readValue (skipSpaces text) = (item, some behind))
    (comma : skipSpaces behind = ',' :: rest) (less : rest.length < text.length) (first : Bool) :
    readItems first text = (item :: (readItems false rest).1, (readItems false rest).2) := by
  rw [readItems]
  · simp only [read, comma, if_pos less]
  · intro others _ closing
    rw [closing, readValue_bracket] at read
    cases read

/-- The items of an array are read back up to its closing bracket. -/
theorem readItems_itemsText {items : List Json} (nonempty : items ≠ [])
    (plain : ∀ item ∈ items, item.Plain) (readBack : ∀ item ∈ items, item.ReadBack)
    (level outer : Nat) (first : Bool) (rest : Text) :
    readItems first (itemsText level items ++ (newLine outer ++ ']' :: rest)) =
      (items, some rest) := by
  -- only the first item may be missing, so the induction is over either kind of beginning
  induction items generalizing first with
  | nil => exact absurd rfl nonempty
  | cons item others ih =>
    have here (behind : Text) :
        readValue (skipSpaces (newLine level ++ (item.prettyAt level ++ behind))) =
          (item, some behind) := by
      rw [skipSpaces_newLine, (plain item List.mem_cons_self).skipSpaces_prettyAt]
      exact readBack item List.mem_cons_self level behind
    rw [itemsText_cons, List.append_assoc, List.append_assoc]
    split
    · rename_i single
      subst single
      rw [List.nil_append]
      exact readItems_last (here _) (skipSpaces_newLine outer _) first
    · rename_i more
      have inside := ih more (fun other member => plain other (List.mem_cons_of_mem _ member))
        (fun other member => readBack other (List.mem_cons_of_mem _ member)) false
      rw [List.cons_append]
      rw [readItems_cons (here _) (skipSpaces_cons_of_not_isSpace (by decide) _) _ first, inside]
      simp only [List.length_append, List.length_cons]
      omega

/-! ## Objects -/

theorem membersText_cons (level : Nat) (name : Text) (value : Json)
    (others : List (Text × Json)) :
    membersText level ((name, value) :: others) = newLine level ++ (stringText name ++
      ':' :: ' ' :: (value.prettyAt level ++
        if others = [] then [] else ',' :: membersText level others)) := by
  cases others with
  | nil => simp [membersText]
  | cons other others => simp [membersText]

theorem readMembers_last {text name behindColon behind rest : Text} {value : Json}
    (named : takeName? (skipSpaces text) = some (name, some behindColon))
    (less : (skipSpaces behindColon).length < text.length)
    (read : readValue (skipSpaces behindColon) = (value, some behind))
    (ends : skipSpaces behind = '}' :: rest) (first : Bool) :
    readMembers first text = ([(name, value)], some rest) := by
  rw [readMembers]
  · simp only [named, if_pos less, read, ends]
  · intro others _ closing
    rw [closing] at named
    cases named

theorem readMembers_cons {text name behindColon behind rest : Text} {value : Json}
    (named : takeName? (skipSpaces text) = some (name, some behindColon))
    (less : (skipSpaces behindColon).length < text.length)
    (read : readValue (skipSpaces behindColon) = (value, some behind))
    (comma : skipSpaces behind = ',' :: rest) (shorter : rest.length < text.length)
    (first : Bool) :
    readMembers first text =
      ((name, value) :: (readMembers false rest).1, (readMembers false rest).2) := by
  rw [readMembers]
  · simp only [named, if_pos less, read, comma, if_pos shorter]
  · intro others _ closing
    rw [closing] at named
    cases named

/-- The members of an object are read back up to its closing brace. -/
theorem readMembers_membersText {members : List (Text × Json)} (nonempty : members ≠ [])
    (plain : ∀ member ∈ members, member.2.Plain)
    (readBack : ∀ member ∈ members, member.2.ReadBack)
    (level outer : Nat) (first : Bool) (rest : Text) :
    readMembers first (membersText level members ++ (newLine outer ++ '}' :: rest)) =
      (members, some rest) := by
  induction members generalizing first with
  | nil => exact absurd rfl nonempty
  | cons member others ih =>
    rcases member with ⟨name, value⟩
    have named (behind : Text) :
        takeName? (skipSpaces (newLine level ++ (stringText name ++ ':' :: behind))) =
          some (name, some behind) := by
      rw [skipSpaces_newLine, stringText_append, skipSpaces_cons_of_not_isSpace (by decide),
        ← stringText_append, takeName?_stringText]
    have skipped (behind : Text) : skipSpaces (' ' :: (value.prettyAt level ++ behind)) =
        value.prettyAt level ++ behind := by
      rw [skipSpaces_cons_of_isSpace (by decide)]
      exact (plain _ List.mem_cons_self).skipSpaces_prettyAt level behind
    have here (behind : Text) :
        readValue (skipSpaces (' ' :: (value.prettyAt level ++ behind))) =
          (value, some behind) := by
      rw [skipped]
      exact readBack _ List.mem_cons_self level behind
    rw [membersText_cons]
    simp only [List.append_assoc, List.cons_append]
    split
    · rename_i single
      subst single
      rw [List.nil_append]
      refine readMembers_last (named _) ?_ (here _) (skipSpaces_newLine outer _) first
      rw [skipped]
      simp only [List.length_append, List.length_cons]
      omega
    · rename_i more
      have inside := ih more (fun other member => plain other (List.mem_cons_of_mem _ member))
        (fun other member => readBack other (List.mem_cons_of_mem _ member)) false
      rw [List.cons_append]
      rw [readMembers_cons (named _) _ (here _)
        (skipSpaces_cons_of_not_isSpace (by decide) _) _ first, inside]
      · rw [skipped]
        simp only [List.length_append, List.length_cons]
        omega
      · simp only [List.length_append, List.length_cons]
        omega

/-! ## The round trip -/

/-- A plain value is read back from its text.  By induction on the value: its items and members
are read back at the next level. -/
theorem Plain.readBack {value : Json} (plain : value.Plain) : value.ReadBack := by
  induction plain with
  | null =>
    intro level rest
    rw [prettyAt]
    simp [readValue, readScalar, Text.dropBeginning?]
  | bool value =>
    intro level rest
    cases value with
    | true => simp [prettyAt, readValue, readScalar, Text.dropBeginning?]
    | false => simp [prettyAt, readValue, readScalar, Text.dropBeginning?]
  | string text =>
    intro level rest
    rw [prettyAt]
    exact readValue_stringText text rest
  | @array items each readBack =>
    intro level rest
    cases items with
    | nil =>
      rw [prettyAt]
      simp [readValue, readItems, skipSpaces, isSpace]
    | cons item others =>
      rw [prettyAt]
      · simp only [List.cons_append, List.append_assoc, List.nil_append]
        rw [readValue, if_pos rfl,
          readItems_itemsText (List.cons_ne_nil _ _) each readBack (level + 1) level true rest]
        rfl
      · simp
  | @object members each readBack =>
    intro level rest
    cases members with
    | nil =>
      rw [prettyAt]
      simp [readValue, readMembers, skipSpaces, isSpace]
    | cons member others =>
      rw [prettyAt]
      · simp only [List.cons_append, List.append_assoc, List.nil_append]
        rw [readValue, if_neg (by decide), if_pos rfl,
          readMembers_membersText (List.cons_ne_nil _ _) each readBack (level + 1) level true rest]
        rfl
      · simp

/-- A text that is a plain value and spaces is read as the value, with nothing behind it. -/
theorem Plain.read_pretty {value : Json} (plain : value.Plain) {spaces : Text}
    (blank : skipSpaces spaces = []) : read (value.pretty ++ spaces) = (value, true) := by
  have whole : readValue (skipSpaces (value.pretty ++ spaces)) = (value, some spaces) := by
    rw [pretty, plain.skipSpaces_prettyAt]
    exact plain.readBack 0 spaces
  simp [read, whole, blank]

end Json

end AlarmQuery
