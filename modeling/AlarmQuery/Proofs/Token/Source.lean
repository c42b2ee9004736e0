import AlarmQuery.Proofs.Token.Scans
import Mathlib.Data.List.TakeWhile

/-!
# Tokens and the texts they are read from

Every token stands in the text that it was read from, at the position that it has been given.
`Token.HasSource` says how each kind of token is written, `source_of_scan` that this is what stands
there, and `stop_of_scan` that the text is scanned to its end.
-/

namespace AlarmQuery

/-! ## Places in a text -/

/-- A cursor is a place in the text. -/
def Cursor.In (whole : Text) (place : Cursor) : Prop :=
  ∃ before, (Cursor.ofText whole).Reads before place

/-- The piece stands in the text at this position. -/
def StandsAt (whole : Text) (position : Nat) (piece : Text) : Prop :=
  ∃ behind, Cursor.In whole ⟨position, piece ++ behind⟩

section

variable {whole : Text} {start stop : Cursor}

theorem Cursor.in_ofText (whole : Text) : (Cursor.ofText whole).In whole := ⟨[], .refl _⟩

theorem Cursor.In.reads {text : Text} (inside : start.In whole) (reads : start.Reads text stop) :
    stop.In whole := by
  rcases inside with ⟨before, reached⟩
  exact ⟨before ++ text, reached.trans reads⟩

theorem Cursor.In.total_length (inside : start.In whole) :
    start.position + start.rest.length = whole.length := by
  rcases inside with ⟨before, reached⟩
  have length : whole.length = before.length + start.rest.length := reached.length_rest
  have position : start.position = 0 + before.length := reached.position
  omega

theorem Cursor.In.standsAt {text : Text} (inside : start.In whole)
    (reads : start.Reads text stop) : StandsAt whole start.position text := by
  rcases start with ⟨position, rest⟩
  obtain rfl : rest = text ++ stop.rest := reads.rest
  exact ⟨stop.rest, inside⟩

end

namespace StandsAt

variable {whole : Text} {position : Nat} {first second : Text}

theorem length_le (stands : StandsAt whole position first) :
    position + first.length ≤ whole.length := by
  rcases stands with ⟨behind, inside⟩
  have total : position + (first ++ behind).length = whole.length := inside.total_length
  rw [List.length_append] at total
  omega

theorem left (stands : StandsAt whole position (first ++ second)) :
    StandsAt whole position first := by
  rcases stands with ⟨behind, inside⟩
  rw [List.append_assoc] at inside
  exact ⟨second ++ behind, inside⟩

theorem right (stands : StandsAt whole position (first ++ second)) :
    StandsAt whole (position + first.length) second := by
  rcases stands with ⟨behind, inside⟩
  rw [List.append_assoc] at inside
  exact ⟨behind, inside.reads ⟨rfl, rfl⟩⟩

theorem tail {c : Char} (stands : StandsAt whole position (c :: first)) :
    StandsAt whole (position + 1) first := by
  rcases stands with ⟨behind, inside⟩
  have reads : Cursor.Reads ⟨position, c :: (first ++ behind)⟩ [c]
    ⟨position + 1, first ++ behind⟩ := ⟨rfl, rfl⟩
  exact ⟨behind, inside.reads reads⟩

theorem getElem?_eq {c : Char} (stands : StandsAt whole position (c :: first)) :
    whole[position]? = some c := by
  rcases stands with ⟨behind, before, rest, place⟩
  obtain rfl : whole = before ++ c :: (first ++ behind) := rest
  obtain rfl : position = 0 + before.length := place
  simp

end StandsAt

/-! ## How tokens are written -/

/-- The tokens that are written as a single character. -/
def punctuationTokens : List (Char × Token) :=
  [('+', .plus), ('-', .minus), ('!', .not), ('(', .openParen), (')', .closeParen), (':', .colon)]

/-- A token at a position is written so. -/
inductive Token.HasSource (position : Nat) : Token → Text → Prop
  | word {word} (nonempty : word ≠ []) : HasSource position (.ofWord word) word
  | sign {c token} (means : (c, token) ∈ punctuationTokens) : HasSource position token [c]
  | bareOperator {operator space} (isOperator : operator ∈ ['+', '-', '!'])
      (separates : isSpace space = true) :
      HasSource position (.bareOperator operator) [operator, space]
  | boost {number} : HasSource position (.boost number) ('^' :: number)
  | slop {number} : HasSource position (.slop number) ('~' :: number)
  | quoted {contents} : HasSource position (.quoted contents) ('"' :: contents ++ ['"'])
  | regexp {expression} : HasSource position (.regexp expression) ('/' :: expression ++ ['/'])
  /-- Spaces may stand on either side of each bound. -/
  | range {lower upper lowerInclusive upperInclusive first second third fourth}
      (spaces : ∀ c ∈ first ++ second ++ third ++ fourth, isSpace c = true)
      (lowerPlace : lower.position = position + 1 + first.length)
      (upperPlace : upper.position =
        lower.position + lower.source.length + second.length + 2 + third.length) :
      HasSource position (.range lower upper lowerInclusive upperInclusive)
        ((if lowerInclusive then '[' else '{') :: first ++ lower.source ++ second ++ ['T', 'O'] ++
          third ++ upper.source ++ fourth ++ [if upperInclusive then ']' else '}'])

/-- What a word is depends on how it is written alone. -/
theorem Token.HasSource.ofWord_eq {token : Token} {position : Nat} {source word : Text}
    (written : token.HasSource position source) (isWord : token.word? = some word) :
    token = .ofWord word ∧ source = word := by
  cases written with
  | word =>
    obtain rfl := Token.eq_of_word?_ofWord isWord
    exact ⟨rfl, rfl⟩
  | sign means =>
    have silent : ∀ pair ∈ punctuationTokens, pair.2.word? = none := by decide
    rw [silent _ means] at isWord
    cases isWord
  | bareOperator | boost | slop | quoted | regexp | range => cases isWord

/-! ## What is read is how the token is written -/

theorem isSpace_of_mem_takeWhile (text : Text) : ∀ c ∈ text.takeWhile isSpace, isSpace c = true :=
  fun _ member => List.mem_takeWhile_imp member

/-- A range is two bounds with `TO` between them, before a bracket. -/
theorem exists_of_readRange {lowerInclusive : Bool} {opening : Nat} {rest : Text} {token : Token}
    {stop : Cursor} (read : readRange lowerInclusive opening rest = .ok (token, stop)) :
    ∃ lower separator upper upperInclusive,
      readBound opening (Cursor.skipWhile isSpace ⟨opening + 1, rest⟩) = .ok lower ∧
      readBound opening (lower.2.skipWhile isSpace) = .ok separator ∧
      separator.1.source = ['T', 'O'] ∧
      readBound opening (separator.2.skipWhile isSpace) = .ok upper ∧
      (upper.2.skipWhile isSpace).Reads [if upperInclusive then ']' else '}'] stop ∧
      token = .range lower.1 upper.1 lowerInclusive upperInclusive := by
  rw [readRange] at read
  cases lowerRead : readBound opening (Cursor.skipWhile isSpace ⟨opening + 1, rest⟩) with
  | error => simp [lowerRead, bind, Except.bind] at read
  | ok lower =>
    simp only [lowerRead, bind, Except.bind] at read
    cases separatorRead : readBound opening (lower.2.skipWhile isSpace) with
    | error => simp [separatorRead] at read
    | ok separator =>
      simp only [separatorRead] at read
      split at read
      · cases read
      · rename_i isTo
        rw [not_or, not_not, Bool.not_eq_true] at isTo
        have source : separator.1.source = ['T', 'O'] := by
          rw [Bound.source, isTo.1, isTo.2]
          rfl
        cases upperRead : readBound opening (separator.2.skipWhile isSpace) with
        | error => simp [upperRead] at read
        | ok upper =>
          simp only [upperRead] at read
          split at read
          · rename_i ahead
            cases read
            exact ⟨lower, separator, upper, true, rfl, separatorRead, source, upperRead,
              ⟨ahead, rfl⟩, rfl⟩
          · rename_i ahead
            cases read
            exact ⟨lower, separator, upper, false, rfl, separatorRead, source, upperRead,
              ⟨ahead, rfl⟩, rfl⟩
          · cases read

/-- Two bounds with `TO` between them are read as a range if a bracket follows. -/
theorem readRange_of_bounds {lowerInclusive upperInclusive : Bool} {opening : Nat} {rest : Text}
    {lower separator upper : Bound × Cursor} {stop : Cursor}
    (lowerRead : readBound opening (Cursor.skipWhile isSpace ⟨opening + 1, rest⟩) = .ok lower)
    (separatorRead : readBound opening (lower.2.skipWhile isSpace) = .ok separator)
    (isTo : separator.1.source = ['T', 'O'])
    (upperRead : readBound opening (separator.2.skipWhile isSpace) = .ok upper)
    (closes : (upper.2.skipWhile isSpace).Reads [if upperInclusive then ']' else '}'] stop) :
    readRange lowerInclusive opening rest =
      .ok (.range lower.1 upper.1 lowerInclusive upperInclusive, stop) := by
  have bare : ¬(separator.1.quoted = true ∨ separator.1.text ≠ ['T', 'O']) := by
    rw [Bound.source] at isTo
    split at isTo
    · cases isTo
    · rename_i noQuotes
      simp [noQuotes, isTo]
  have place : stop = ⟨(upper.2.skipWhile isSpace).position + 1, stop.rest⟩ := by
    rcases stop with ⟨position, rest⟩
    exact congrArg (Cursor.mk · rest) closes.position
  rw [readRange, lowerRead]
  simp only [bind, Except.bind, separatorRead, if_neg bare, upperRead]
  rw [closes.rest, place]
  cases upperInclusive <;> rfl

theorem source_of_readRange {lowerInclusive : Bool} {opening : Nat} {rest : Text} {token : Token}
    {stop : Cursor} (read : readRange lowerInclusive opening rest = .ok (token, stop)) :
    ∃ source, token.HasSource opening source ∧
      Cursor.Reads ⟨opening, (if lowerInclusive then '[' else '{') :: rest⟩ source stop := by
  rcases exists_of_readRange read with
    ⟨lower, separator, upper, upperInclusive, lowerRead, separatorRead, isTo, upperRead, closes,
      rfl⟩
  rcases reads_of_readBound lowerRead with ⟨lowerReads, lowerPlace⟩
  rcases reads_of_readBound separatorRead with ⟨separatorReads, _⟩
  rcases reads_of_readBound upperRead with ⟨upperReads, upperPlace⟩
  -- `TO` is read as a bound, and spaces may stand on both sides of each of the three
  rw [isTo] at separatorReads
  have first := Cursor.reads_skipWhile isSpace ⟨opening + 1, rest⟩
  have second := lower.2.reads_skipWhile isSpace
  have third := separator.2.reads_skipWhile isSpace
  have fourth := upper.2.reads_skipWhile isSpace
  have bracket : Cursor.Reads ⟨opening, (if lowerInclusive then '[' else '{') :: rest⟩
      [if lowerInclusive then '[' else '{'] ⟨opening + 1, rest⟩ := ⟨rfl, rfl⟩
  have whole := (((((((bracket.trans first).trans lowerReads).trans second).trans
    separatorReads).trans third).trans upperReads).trans fourth).trans closes
  refine ⟨_, .range ?_ ?_ ?_, whole⟩
  · simp only [List.forall_mem_append]
    exact ⟨⟨⟨isSpace_of_mem_takeWhile _, isSpace_of_mem_takeWhile _⟩,
      isSpace_of_mem_takeWhile _⟩, isSpace_of_mem_takeWhile _⟩
  · exact lowerPlace.trans first.position
  · rw [upperPlace, third.position, separatorReads.position, second.position, lowerReads.position,
      lowerPlace]
    rfl

theorem source_of_readOperator {c : Char} {kind token : Token} {position : Nat} {rest : Text}
    {stop : Cursor} (means : (c, kind) ∈ punctuationTokens) (isOperator : c ∈ ['+', '-', '!'])
    (read : readOperator c kind ⟨position + 1, rest⟩ = (token, stop)) :
    ∃ source, token.HasSource position source ∧
      Cursor.Reads ⟨position, c :: rest⟩ source stop := by
  rw [readOperator] at read
  split at read
  · cases read
    exact ⟨[c], .sign means, rfl, rfl⟩
  · rename_i space behind ahead
    obtain rfl : rest = space :: behind := ahead
    split at read
    · rename_i separates
      cases read
      exact ⟨[c, space], .bareOperator isOperator separates, rfl, rfl⟩
    · cases read
      exact ⟨[c], .sign means, rfl, rfl⟩

/-- What is read off the front of a text is how the token is written. -/
theorem source_of_readToken {position : Nat} {c : Char} {rest : Text} {token : Token}
    {stop : Cursor} (read : readToken position c rest = .ok (token, stop)) :
    ∃ source, token.HasSource position source ∧
      Cursor.Reads ⟨position, c :: rest⟩ source stop := by
  have sign {mark : Char} {kind : Token} (means : (mark, kind) ∈ punctuationTokens)
      (found : (.ok (kind, ⟨position + 1, rest⟩) : Except (Placed Fault) (Token × Cursor)) =
        .ok (token, stop)) :
      ∃ source, token.HasSource position source ∧
        Cursor.Reads ⟨position, mark :: rest⟩ source stop := by
    cases found
    exact ⟨[mark], .sign means, rfl, rfl⟩
  have enclosed {what : Enclosed} {delimiter : Char} {build : Text → Token}
      (written : ∀ contents,
        (build contents).HasSource position (delimiter :: contents ++ [delimiter]))
      (found : ((readEnclosed what delimiter position rest).map
        fun result => (build result.1, result.2)) = .ok (token, stop)) :
      ∃ source, token.HasSource position source ∧
        Cursor.Reads ⟨position, delimiter :: rest⟩ source stop := by
    cases inner : readEnclosed what delimiter position rest with
    | error =>
      rw [inner] at found
      cases found
    | ok result =>
      rw [inner] at found
      cases found
      exact ⟨_, written _, reads_of_readEnclosed inner⟩
  have decimal (mark : Char) : Cursor.Reads ⟨position, mark :: rest⟩
      (mark :: (readDecimal ⟨position + 1, rest⟩).1) (readDecimal ⟨position + 1, rest⟩).2 := by
    have first : Cursor.Reads ⟨position, mark :: rest⟩ [mark] ⟨position + 1, rest⟩ := ⟨rfl, rfl⟩
    exact first.trans (reads_readDecimal ⟨position + 1, rest⟩)
  unfold readToken at read
  dsimp only at read
  split at read
  · exact source_of_readOperator (by decide) (by decide) (Except.ok.inj read)
  · exact source_of_readOperator (by decide) (by decide) (Except.ok.inj read)
  · exact source_of_readOperator (by decide) (by decide) (Except.ok.inj read)
  · exact sign (by decide) read
  · exact sign (by decide) read
  · exact sign (by decide) read
  · split at read
    · cases read
    · cases read
      exact ⟨_, .boost, decimal '^'⟩
  · cases read
    exact ⟨_, .slop, decimal '~'⟩
  · exact enclosed (fun _ => .quoted) read
  · exact enclosed (fun _ => .regexp) read
  · exact source_of_readRange read
  · exact source_of_readRange read
  · cases read
  · cases read
  · rcases reads_of_readWord read with ⟨word, nonempty, rfl, reads⟩
    exact ⟨word, .word nonempty, reads⟩

/-! ## Whole texts -/

/-- The token stands in the text as it is written. -/
def Sourced (whole : Text) (token : Placed Token) : Prop :=
  ∃ source, token.value.HasSource token.position source ∧ StandsAt whole token.position source

/-- From any place in a text, what is scanned stands in the text and the text is scanned to its
end, by induction on what is left of it. -/
theorem sourced_of_scanFrom {whole : Text} {start : Cursor} {scanned : Scanned}
    (inside : start.In whole) (scans : scanFrom start = .ok scanned) :
    (∀ token ∈ scanned.tokens, Sourced whole token) ∧ scanned.stop = whole.length := by
  fun_induction scanFrom start generalizing scanned with
  | case1 start first =>
    rename_i ended
    have there : first.In whole := inside.reads (start.reads_skipWhile isSpace)
    have total := there.total_length
    rw [ended] at total
    rw [← Except.ok.inj scans]
    exact ⟨fun _ absent => absurd absent List.not_mem_nil, total⟩
  | case2 => cases scans
  | case3 => cases scans
  | case4 start first c rest ahead token behind read _ found =>
    rename_i later
    have there : first.In whole := inside.reads (start.reads_skipWhile isSpace)
    rcases source_of_readToken read with ⟨source, written, reads⟩
    rw [← ahead] at reads
    rcases later (there.reads reads) found with ⟨others, stop⟩
    rw [← Except.ok.inj scans]
    exact ⟨List.forall_mem_cons.2 ⟨⟨source, written, there.standsAt reads⟩, others⟩, stop⟩

theorem sourced_of_scan {whole : Text} {scanned : Scanned} (scans : scan whole = .ok scanned) :
    ∀ token ∈ scanned.tokens, Sourced whole token :=
  (sourced_of_scanFrom (Cursor.in_ofText whole) scans).1

theorem stop_of_scan {whole : Text} {scanned : Scanned} (scans : scan whole = .ok scanned) :
    scanned.stop = whole.length :=
  (sourced_of_scanFrom (Cursor.in_ofText whole) scans).2

/-- A text is scanned as words whose wildcards make them what they are. -/
theorem ofWord_of_scan {text : Text} {scanned : Scanned} (scans : scan text = .ok scanned) :
    ∀ token ∈ scanned.tokens, ∀ word, token.value.word? = some word →
      token.value = .ofWord word := by
  intro token member word isWord
  rcases sourced_of_scan scans token member with ⟨_, written, _⟩
  exact (written.ofWord_eq isWord).1

end AlarmQuery
