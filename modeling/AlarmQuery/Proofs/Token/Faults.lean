import AlarmQuery.Proofs.Text.Unescape
import AlarmQuery.Proofs.Token.Source

/-!
# Where scanning fails

A text that cannot be scanned is turned down at a place inside it, and for the escape at its end
that place is the backslash.  Scanning never blames a token.  The other escapes are read later, and
a wrong one is blamed on its backslash as well.
-/

namespace AlarmQuery

/-! ## Faults inside a text -/

/-- The fault is about no escape and no token. -/
def Fault.IsPlain : Fault → Prop
  | .escape _ => False
  | .unexpectedToken .. => False
  | _ => True

/-- A fault is placed inside the text, and at a backslash if it is about an escape. -/
structure IsInside (whole : Text) (fault : Placed Fault) : Prop where
  position_le : fault.position ≤ whole.length
  backslash : ∀ escape, fault.value = .escape escape → whole[fault.position]? = some '\\'

/-- A fault that scanning finds: it is inside the text and about no token. -/
structure IsLexical (whole : Text) (fault : Placed Fault) : Prop extends IsInside whole fault where
  noToken : ∀ found expected, fault.value ≠ .unexpectedToken found expected

section

variable {whole : Text}

theorem IsLexical.of_plain {value : Fault} {position : Nat} (plain : value.IsPlain)
    (inside : position ≤ whole.length) : IsLexical whole ⟨value, position⟩ where
  position_le := inside
  backslash := by
    rintro escape rfl
    exact absurd plain not_false
  noToken := by
    rintro found expected rfl
    exact absurd plain not_false

/-- A fault of an escape that is placed at a backslash of the text. -/
theorem IsInside.of_backslash {escape : EscapeFault} {position : Nat} {behind : Text}
    (stands : StandsAt whole position ('\\' :: behind)) :
    IsInside whole ⟨.escape escape, position⟩ where
  position_le := Nat.le_trans (Nat.le_add_right position _) stands.length_le
  backslash := fun _ _ => stands.getElem?_eq

theorem Cursor.In.position_le {place : Cursor} (inside : place.In whole) :
    place.position ≤ whole.length := by
  have total := inside.total_length
  omega

theorem Cursor.In.skipWhile {place : Cursor} (inside : place.In whole) (property : Char → Bool) :
    (place.skipWhile property).In whole :=
  inside.reads (place.reads_skipWhile property)

theorem Cursor.In.behindBound {place : Cursor} {opening : Nat} {result : Bound × Cursor}
    (inside : place.In whole) (read : readBound opening place = .ok result) :
    result.2.In whole :=
  inside.reads (reads_of_readBound read).1

/-! ## Escapes -/

/-- A wrong escape is blamed on its backslash. -/
theorem stands_of_unescape {position : Nat} {text : Text} {fault : Placed EscapeFault}
    (stands : StandsAt whole position text) (refused : unescape position text = .error fault) :
    ∃ behind, StandsAt whole fault.position ('\\' :: behind) := by
  fun_induction unescape position text with
  | case1 => cases refused
  | case2 | case3 | case4 | case6 =>
    rw [← Except.error.inj refused]
    exact ⟨_, stands⟩
  | case5 _ _ _ _ _ _ _ _ _ _ ih =>
    exact ih stands.tail.tail.tail.tail.tail.tail (eq_error_of_map_eq_error refused)
  | case7 _ _ _ _ _ ih => exact ih stands.tail.tail (eq_error_of_map_eq_error refused)
  | case8 _ _ _ _ _ _ _ ih => exact ih stands.tail (eq_error_of_map_eq_error refused)

theorem inside_of_unescapeAt {position : Nat} {piece : Text} {fault : Placed Fault}
    (stands : StandsAt whole position piece)
    (refused : unescapeAt position piece = .error fault) : IsInside whole fault := by
  rcases fault_of_unescapeAt refused with ⟨inner, failed, rfl⟩
  rcases stands_of_unescape stands failed with ⟨behind, there⟩
  exact .of_backslash there

/-! ## Faults of one token -/

/-- The characters of a word can only be turned down for a backslash that ends the text. -/
theorem lexical_of_readLetters {position : Nat} {text : Text} {fault : Placed Fault}
    (stands : StandsAt whole position text)
    (refused : readLetters position text = .error fault) : IsLexical whole fault := by
  fun_induction readLetters position text with
  | case1 => cases refused
  | case2 =>
    rw [← Except.error.inj refused]
    exact ⟨.of_backslash stands, fun _ _ => Fault.noConfusion⟩
  | case3 _ _ _ ih => exact ih stands.tail.tail (eq_error_of_map_eq_error refused)
  | case4 _ _ _ _ _ ih => exact ih stands.tail (eq_error_of_map_eq_error refused)
  | case5 => cases refused

theorem fault_of_readEnclosed {what : Enclosed} {delimiter : Char} {opening : Nat} {rest : Text}
    {fault : Placed Fault} (refused : readEnclosed what delimiter opening rest = .error fault) :
    fault = ⟨.unterminated what, opening⟩ := by
  rw [readEnclosed] at refused
  split at refused
  · exact (Except.error.inj refused).symm
  · cases refused

theorem lexical_of_readWord {position : Nat} {c : Char} {rest : Text} {fault : Placed Fault}
    (inside : Cursor.In whole ⟨position, c :: rest⟩)
    (refused : readWord position c rest = .error fault) : IsLexical whole fault := by
  rw [readWord] at refused
  split at refused
  · rename_i found
    have stands : StandsAt whole position (c :: rest) := ⟨[], by rwa [List.append_nil]⟩
    exact Except.error.inj refused ▸ lexical_of_readLetters stands found
  · split at refused
    · rw [← Except.error.inj refused]
      exact .of_plain trivial inside.position_le
    · cases refused

theorem lexical_of_readBound {opening : Nat} {start : Cursor} {fault : Placed Fault}
    (opened : opening ≤ whole.length) (inside : start.In whole)
    (refused : readBound opening start = .error fault) : IsLexical whole fault := by
  rw [readBound] at refused
  split at refused
  · rw [← Except.error.inj refused]
    exact .of_plain trivial opened
  · split at refused
    · rw [fault_of_readEnclosed (eq_error_of_map_eq_error refused)]
      exact .of_plain trivial inside.position_le
    · dsimp only at refused
      split at refused
      · rw [← Except.error.inj refused]
        exact .of_plain trivial inside.position_le
      · cases refused

theorem lexical_of_readRange {lowerInclusive : Bool} {opening : Nat} {rest : Text}
    {fault : Placed Fault} (opened : opening ≤ whole.length)
    (inside : Cursor.In whole ⟨opening + 1, rest⟩)
    (refused : readRange lowerInclusive opening rest = .error fault) : IsLexical whole fault := by
  have before := inside.skipWhile isSpace
  rw [readRange] at refused
  cases lowerRead : readBound opening (Cursor.skipWhile isSpace ⟨opening + 1, rest⟩) with
  | error =>
    simp only [lowerRead, bind, Except.bind] at refused
    exact Except.error.inj refused ▸ lexical_of_readBound opened before lowerRead
  | ok lower =>
    have beforeSeparator := (before.behindBound lowerRead).skipWhile isSpace
    simp only [lowerRead, bind, Except.bind] at refused
    cases separatorRead : readBound opening (lower.2.skipWhile isSpace) with
    | error =>
      simp only [separatorRead] at refused
      exact Except.error.inj refused ▸ lexical_of_readBound opened beforeSeparator separatorRead
    | ok separator =>
      have beforeUpper := (beforeSeparator.behindBound separatorRead).skipWhile isSpace
      simp only [separatorRead] at refused
      split at refused
      · rw [← Except.error.inj refused, (reads_of_readBound separatorRead).2]
        exact .of_plain trivial beforeSeparator.position_le
      · cases upperRead : readBound opening (separator.2.skipWhile isSpace) with
        | error =>
          simp only [upperRead] at refused
          exact Except.error.inj refused ▸ lexical_of_readBound opened beforeUpper upperRead
        | ok upper =>
          have beforeClosing := (beforeUpper.behindBound upperRead).skipWhile isSpace
          simp only [upperRead] at refused
          split at refused
          · cases refused
          · cases refused
          · rw [← Except.error.inj refused]
            exact .of_plain trivial beforeClosing.position_le

theorem lexical_of_readToken {position : Nat} {c : Char} {rest : Text} {fault : Placed Fault}
    (inside : Cursor.In whole ⟨position, c :: rest⟩)
    (refused : readToken position c rest = .error fault) : IsLexical whole fault := by
  have first : Cursor.Reads ⟨position, c :: rest⟩ [c] ⟨position + 1, rest⟩ := ⟨rfl, rfl⟩
  have behind := inside.reads first
  have enclosed {what : Enclosed} {delimiter : Char} {build : Text → Token}
      (failed : ((readEnclosed what delimiter position rest).map
        fun result => (build result.1, result.2)) = .error fault) : IsLexical whole fault := by
    rw [fault_of_readEnclosed (eq_error_of_map_eq_error failed)]
    exact .of_plain trivial inside.position_le
  unfold readToken at refused
  dsimp only at refused
  split at refused
  · cases refused
  · cases refused
  · cases refused
  · cases refused
  · cases refused
  · cases refused
  · split at refused
    · rw [← Except.error.inj refused]
      have number := behind.reads (reads_readDecimal ⟨position + 1, rest⟩)
      exact .of_plain trivial number.position_le
    · cases refused
  · cases refused
  · exact enclosed refused
  · exact enclosed refused
  · exact lexical_of_readRange inside.position_le behind refused
  · exact lexical_of_readRange inside.position_le behind refused
  · rw [← Except.error.inj refused]
    exact .of_plain trivial inside.position_le
  · rw [← Except.error.inj refused]
    exact .of_plain trivial inside.position_le
  · exact lexical_of_readWord inside refused

/-! ## Whole texts -/

/-- Wherever scanning starts, by induction on what is left of the text. -/
theorem lexical_of_scanFrom {start : Cursor} {fault : Placed Fault} (inside : start.In whole)
    (refused : scanFrom start = .error fault) : IsLexical whole fault := by
  fun_induction scanFrom start with
  | case1 => cases refused
  | case2 start first c rest ahead found read =>
    have there : Cursor.In whole ⟨first.position, c :: rest⟩ :=
      ahead ▸ inside.skipWhile isSpace
    exact Except.error.inj refused ▸ lexical_of_readToken there read
  | case3 start first c rest ahead token behind read found failed later =>
    have there : first.In whole := inside.skipWhile isSpace
    rcases source_of_readToken read with ⟨_, _, reads⟩
    rw [← ahead] at reads
    exact later (there.reads reads) (failed.trans refused)
  | case4 => cases refused

theorem lexical_of_scan {fault : Placed Fault} (refused : scan whole = .error fault) :
    IsLexical whole fault :=
  lexical_of_scanFrom (Cursor.in_ofText whole) refused

end

end AlarmQuery
