import AlarmQuery.Proofs.Token.Locality
import AlarmQuery.Proofs.Token.Tiling

/-!
# Texts with a space between them

A space keeps apart what stands on either side of it: the tokens of two texts with a space between
them are those of the first text and, further behind, those of the second, and a fault of the
second stays the fault that it is.  An operator character at the end of the first text is the only
exception.  The space makes a term of it and belongs to this term.
-/

namespace AlarmQuery

/-! ## Operator characters -/

/-- The operator characters, and the tokens that they are unless a space follows. -/
def operatorTokens : List (Char × Token) := [('+', .plus), ('-', .minus), ('!', .not)]

/-- The token is an operator character of the text.  The word `NOT` is none. -/
def IsOperatorIn (text : Text) (token : Placed Token) : Prop :=
  ∃ operator ∈ operatorTokens,
    operator.2 = token.value ∧ text[token.position]? = some operator.1

instance (text : Text) (token : Placed Token) : Decidable (IsOperatorIn text token) :=
  inferInstanceAs (Decidable (∃ operator ∈ operatorTokens, _))

/-- No other way to write the token of an operator character is as short. -/
theorem Token.HasSource.eq_operator {token : Token} {position : Nat} {source : Text}
    {operator : Char} (has : token.HasSource position source)
    (isOperator : (operator, token) ∈ operatorTokens) (short : source.length ≤ 1) :
    source = [operator] := by
  have written := has.isWritten
  simp only [operatorTokens, List.mem_cons, Prod.mk.injEq, List.not_mem_nil, or_false]
    at isOperator
  rcases isOperator with ⟨rfl, rfl⟩ | ⟨rfl, rfl⟩ | ⟨rfl, rfl⟩
  · exact written
  · exact written
  · rcases written with rfl | rfl
    · exact absurd short (by decide)
    · rfl

theorem isOperatorIn_of_endsInSign {text : Text} {scanned : Scanned}
    (scans : scan text = .ok scanned) (endsInSign : scanned.EndsInSign) :
    ∃ last ∈ scanned.tokens.getLast?, IsOperatorIn text last := by
  rcases endsInSign with ⟨last, isLast, sign, place⟩
  rcases sourced_of_scan scans last (List.mem_of_getLast? isLast) with ⟨source, has, stands⟩
  have short : source.length ≤ 1 := by
    have within := stands.length_le
    rw [stop_of_scan scans] at place
    omega
  have named : ∀ token ∈ [Token.plus, .minus, .not],
      ∃ operator, (operator, token) ∈ operatorTokens := by
    simp [operatorTokens]
  rcases named last.value sign with ⟨operator, isOperator⟩
  obtain rfl := has.eq_operator isOperator short
  exact ⟨last, isLast, _, isOperator, rfl, stands.getElem?_eq⟩

theorem readToken_operator {operator : Char} {token : Token}
    (isOperator : (operator, token) ∈ operatorTokens) (position : Nat) (rest : Text) :
    readToken position operator rest = .ok (readOperator operator token ⟨position + 1, rest⟩) := by
  simp only [operatorTokens, List.mem_cons, Prod.mk.injEq, List.not_mem_nil, or_false]
    at isOperator
  rcases isOperator with ⟨rfl, rfl⟩ | ⟨rfl, rfl⟩ | ⟨rfl, rfl⟩ <;> rfl

/-- Without a token nothing is left. -/
theorem Tiles.eq_of_nil {stop : Nat} {start : Cursor} (tiles : Tiles stop start []) :
    start = ⟨stop, []⟩ := by
  cases tiles
  rfl

/-- An operator character with no token behind it ends the text, since a space would have made a
term of it. -/
theorem rest_eq_nil_of_operator {operator : Char} {token : Token} {position : Nat} {rest : Text}
    {behind : Cursor} {stop : Nat} (isOperator : (operator, token) ∈ operatorTokens)
    (read : readToken position operator rest = .ok (token, behind))
    (found : scanFrom behind = .ok ⟨[], stop⟩) : rest = [] ∧ stop = position + 1 := by
  rw [readToken_operator isOperator, Except.ok.injEq] at read
  cases rest with
  | nil =>
    cases read
    rw [scanFrom_nil] at found
    cases found
    exact ⟨rfl, rfl⟩
  | cons next rest =>
    simp only [readOperator] at read
    cases separates : isSpace next with
    | true =>
      rw [separates, if_pos rfl, Prod.mk.injEq] at read
      rcases read with ⟨rfl, -⟩
      simp [operatorTokens] at isOperator
    | false =>
      rw [separates, if_neg Bool.false_ne_true] at read
      cases read
      have tiles := tiles_of_scanFrom found
      rw [Cursor.skipWhile_cons separates] at tiles
      cases tiles.eq_of_nil

/-! ## In front of a space -/

/-- An operator character that ends a text is a term in front of a space, by induction on what is
left of the text. -/
theorem scans_extend_operator {whole : Text} {start : Cursor} {before : List (Placed Token)}
    {last : Placed Token} {stop : Nat} {operator space : Char} (inside : start.In whole)
    (scans : scanFrom start = .ok ⟨before ++ [last], stop⟩)
    (isOperator : (operator, last.value) ∈ operatorTokens)
    (there : whole[last.position]? = some operator) (separates : isSpace space = true)
    (more : Text) :
    Scans (start.extend (space :: more))
      (before ++ [⟨.bareOperator operator, last.position⟩]) ⟨stop + 1, more⟩ := by
  have ends : EndsWord (space :: more) := endsWord_cons space (Or.inl separates) more
  fun_induction scanFrom start generalizing before with
  | case1 => simp at scans
  | case2 => cases scans
  | case3 => cases scans
  | case4 start first c rest ahead token behind read others found =>
    rename_i ih
    have here : first.In whole := inside.reads (start.reads_skipWhile isSpace)
    rw [Except.ok.injEq, Scanned.mk.injEq] at scans
    rcases scans with ⟨tokens, rfl⟩
    cases before with
    | nil =>
      rw [List.nil_append, List.cons.injEq] at tokens
      rcases tokens with ⟨rfl, noOthers⟩
      have reads : first.Reads [c] ⟨first.position + 1, rest⟩ := ⟨ahead, rfl⟩
      have stands := here.standsAt reads
      obtain rfl : c = operator := Option.some.inj (stands.getElem?_eq.symm.trans there)
      have ended : scanFrom behind = .ok ⟨[], others.stop⟩ := by rw [found, ← noOthers]
      rcases rest_eq_nil_of_operator isOperator read ended with ⟨rfl, stop⟩
      have taken : readToken first.position c ([] ++ space :: more) =
          .ok (.bareOperator c, ⟨first.position + 2, more⟩) := by
        simp only [readToken_operator isOperator, readOperator, List.nil_append, separates, if_true]
      exact (scans_ahead ahead taken).recount (by omega)
    | cons head before =>
      rw [List.cons_append, List.cons.injEq] at tokens
      rcases tokens with ⟨rfl, later⟩
      -- a token follows, so this one does not end the text
      have taken : readToken first.position c (rest ++ space :: more) =
          .ok (token, behind.extend (space :: more)) := by
        apply readToken_extend read ends
        rintro - rfl
        rw [scanFrom_nil] at found
        cases found
        simp at later
      rcases source_of_readToken read with ⟨source, _, reads⟩
      rw [← ahead] at reads
      exact (scans_ahead ahead taken).trans (ih (here.reads reads) (by rw [found, ← later]))

/-! ## Two texts -/

section

variable {first second : Text} {space : Char}

/-- Behind other tokens a text is scanned as it is alone, but for the positions. -/
theorem scan_eq_of_scans {text : Text} {tokens : List (Placed Token)} {offset : Nat}
    (scans : Scans ⟨0, text⟩ tokens ⟨offset, second⟩) :
    scan text =
      (shifted offset (Scanned.shift offset) (scan second)).map (Scanned.behind tokens) := by
  have moved := scanFrom_shift offset (Cursor.ofText second)
  rw [Cursor.shift, Cursor.ofText, Nat.zero_add] at moved
  unfold Scans at scans
  rw [scan, Cursor.ofText, scans, moved, scan, Cursor.ofText]

/-- Two texts with a space between them are scanned one after the other, if the first does not end
in an operator character.  The tokens of the second, or its fault, stand as much further behind as
the first text and the space are long. -/
theorem scan_append_space {scanned : Scanned} (scans : scan first = .ok scanned)
    (apart : ∀ last ∈ scanned.tokens.getLast?, ¬IsOperatorIn first last)
    (separates : isSpace space = true) :
    (∀ others, scan second = .ok others →
      scan (first ++ space :: second) =
        .ok ⟨scanned.tokens ++ others.tokens.map (Placed.shift (first.length + 1)),
          others.stop + (first.length + 1)⟩) ∧
    ∀ fault, scan second = .error fault →
      scan (first ++ space :: second) =
        .error ⟨fault.value, fault.position + (first.length + 1)⟩ := by
  have ends : EndsWord (space :: second) := endsWord_cons space (Or.inl separates) second
  have noSign : ¬scanned.EndsInSign := by
    intro endsInSign
    rcases isOperatorIn_of_endsInSign scans endsInSign with ⟨last, isLast, isOperator⟩
    exact apart last isLast isOperator
  have front : Scans ⟨0, first ++ space :: second⟩ scanned.tokens ⟨scanned.stop, space :: second⟩ :=
    scans_extend scans ends fun endsInSign => absurd endsInSign noSign
  have joined := front.trans (scans_space separates scanned.stop second)
  rw [stop_of_scan scans, List.append_nil] at joined
  have whole := scan_eq_of_scans joined
  constructor
  · intro others found
    rw [whole, found]
    rfl
  · intro fault refused
    rw [whole, refused]
    rfl

/-- Behind the word `NOT`, which is no operator character, a range keeps its distances and a quote
that is not closed is blamed where it stands. -/
theorem scan_append_space_of_word :
    scan "a:[b TO *] NOT\u3000\x7bc TO \"d\"]^1.5".toList =
        .ok ⟨[⟨.term ['a'], 0⟩, ⟨.colon, 1⟩,
          ⟨.range ⟨['b'], false, 3⟩ ⟨['*'], false, 8⟩ true true, 2⟩, ⟨.not, 11⟩,
          ⟨.range ⟨['c'], false, 16⟩ ⟨['d'], true, 21⟩ false true, 15⟩,
          ⟨.boost "1.5".toList, 25⟩], 29⟩ ∧
      scan "a:[b TO *] NOT\u3000c \"d".toList = .error ⟨.unterminated .string, 17⟩ := by
  have scans : scan "a:[b TO *] NOT".toList = .ok ⟨[⟨.term ['a'], 0⟩, ⟨.colon, 1⟩,
      ⟨.range ⟨['b'], false, 3⟩ ⟨['*'], false, 8⟩ true true, 2⟩, ⟨.not, 11⟩], 14⟩ := by
    decide +kernel
  have range : scan "\x7bc TO \"d\"]^1.5".toList = .ok ⟨
      [⟨.range ⟨['c'], false, 1⟩ ⟨['d'], true, 6⟩ false true, 0⟩, ⟨.boost "1.5".toList, 10⟩],
      14⟩ := by
    decide +kernel
  have unclosed : scan "c \"d".toList = .error ⟨.unterminated .string, 2⟩ := by
    decide +kernel
  have separates : isSpace '\u3000' = true := by decide
  constructor
  · exact (scan_append_space scans (by decide) separates).1 _ range
  · exact (scan_append_space scans (by decide) separates).2 _ unclosed

/-- Behind an operator character at the end of the first text the space makes a term of it. -/
theorem scan_append_space_of_operator {before : List (Placed Token)} {last : Placed Token}
    {stop : Nat} {operator : Char} (scans : scan first = .ok ⟨before ++ [last], stop⟩)
    (isOperator : (operator, last.value) ∈ operatorTokens)
    (there : first[last.position]? = some operator) (separates : isSpace space = true) :
    scan (first ++ space :: second) =
      (shifted (first.length + 1) (Scanned.shift (first.length + 1)) (scan second)).map
        (Scanned.behind (before ++ [⟨.bareOperator operator, last.position⟩])) := by
  have front := scans_extend_operator (Cursor.in_ofText first) scans isOperator there separates
    second
  obtain rfl : stop = first.length := stop_of_scan scans
  exact scan_eq_of_scans front

end

end AlarmQuery
