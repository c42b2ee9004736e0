import AlarmQuery.Proofs.Text.Unescape
import AlarmQuery.Proofs.Token.Source
import Mathlib.Data.List.Chain

/-!
# A text is its tokens

The tokens of a text leave nothing of it out.  `Token.IsWritten` tells token by token how it is
written, and `Tiles` says that a text consists of such pieces, each with spaces behind it, one for
each of its tokens and in their order.  The places of the tokens and what stands between them are
read off from there.
-/

namespace AlarmQuery

/-! ## How each token is written -/

/-- The spaces around the bounds of a range at a position, and where these leave the bounds. -/
structure IsSpaced (position : Nat) (lower upper : Bound) (first second third fourth : Text) :
    Prop where
  spaces : ∀ c ∈ first ++ second ++ third ++ fourth, isSpace c = true
  lower_position : lower.position = position + 1 + first.length
  upper_position : upper.position =
    lower.position + lower.source.length + second.length + 2 + third.length

/-- The token is written so when it stands at a position. -/
def Token.IsWritten (position : Nat) (source : Text) : Token → Prop
  | .and => source = ['A', 'N', 'D'] ∨ source = ['&', '&']
  | .or => source = ['O', 'R'] ∨ source = ['|', '|']
  | .not => source = ['N', 'O', 'T'] ∨ source = ['!']
  | .plus => source = ['+']
  | .minus => source = ['-']
  | .openParen => source = ['(']
  | .closeParen => source = [')']
  | .colon => source = [':']
  | .star => source = ['*']
  | .bareOperator operator =>
    operator ∈ ['+', '-', '!'] ∧ ∃ space, isSpace space = true ∧ source = [operator, space]
  | .boost number => source = '^' :: number
  | .slop number => source = '~' :: number
  | .quoted contents => source = '"' :: contents ++ ['"']
  | .term word => source = word
  | .starred word => source = word
  | .pattern word => source = word
  | .regexp expression => source = '/' :: expression ++ ['/']
  | .range lower upper lowerInclusive upperInclusive =>
    ∃ first second third fourth, IsSpaced position lower upper first second third fourth ∧
      source = (if lowerInclusive then '[' else '{') :: first ++ lower.source ++ second ++
        ['T', 'O'] ++ third ++ upper.source ++ fourth ++
        [if upperInclusive then ']' else '}']

theorem Token.isWritten_ofWord (position : Nat) (word : Text) :
    (Token.ofWord word).IsWritten position word := by
  rw [Token.ofWord]
  split
  · assumption
  split
  · assumption
  split
  · exact Or.inl ‹_›
  split
  · assumption
  split <;> rfl

theorem Token.HasSource.isWritten {token : Token} {position : Nat} {source : Text}
    (has : token.HasSource position source) : token.IsWritten position source := by
  cases has with
  | word => exact Token.isWritten_ofWord position source
  | sign means =>
    have all : ∀ pair ∈ punctuationTokens, pair.2.IsWritten position [pair.1] := by
      simp [punctuationTokens, Token.IsWritten]
    exact all _ means
  | bareOperator isOperator separates => exact ⟨isOperator, _, separates, rfl⟩
  | boost | slop | quoted | regexp => rfl
  | range spaces lowerPlace upperPlace =>
    exact ⟨_, _, _, _, ⟨spaces, lowerPlace, upperPlace⟩, rfl⟩

/-- No token is written as nothing. -/
theorem Token.HasSource.ne_nil {token : Token} {position : Nat} {source : Text}
    (has : token.HasSource position source) : source ≠ [] := by
  cases has with
  | word nonempty => exact nonempty
  | sign | bareOperator | boost | slop | quoted | regexp => exact List.cons_ne_nil _ _
  | range => simp

/-! ## Texts that consist of tokens -/

/-- From a place on, the text is its tokens with spaces behind each of them, up to its end at
`stop`. -/
inductive Tiles (stop : Nat) : Cursor → List (Placed Token) → Prop
  | done : Tiles stop ⟨stop, []⟩ []
  | token {token position source gap rest tokens} (written : token.IsWritten position source)
      (nonempty : source ≠ []) (spaces : ∀ c ∈ gap, isSpace c = true)
      (later : Tiles stop ⟨position + source.length + gap.length, rest⟩ tokens) :
      Tiles stop ⟨position, source ++ (gap ++ rest)⟩ (⟨token, position⟩ :: tokens)

/-- Wherever scanning starts, by induction on what is left of the text.  The spaces in front of a
token belong to the token before it. -/
theorem tiles_of_scanFrom {start : Cursor} {scanned : Scanned}
    (scans : scanFrom start = .ok scanned) :
    Tiles scanned.stop (start.skipWhile isSpace) scanned.tokens := by
  fun_induction scanFrom start generalizing scanned with
  | case1 start first =>
    rename_i ended
    rw [← Except.ok.inj scans]
    rcases place : start.skipWhile isSpace with ⟨position, rest⟩
    obtain rfl : rest = [] := by simpa [first, place] using ended
    simp only [first, place]
    exact .done
  | case2 => cases scans
  | case3 => cases scans
  | case4 start first c rest ahead token behind read others found =>
    rename_i ih
    rw [← Except.ok.inj scans]
    rcases source_of_readToken read with ⟨source, has, reads⟩
    have gap := behind.reads_skipWhile isSpace
    have split : first = ⟨first.position, source ++
        (behind.rest.takeWhile isSpace ++ (behind.skipWhile isSpace).rest)⟩ := by
      rw [← gap.rest, ← reads.rest, ← ahead]
    have place : behind.skipWhile isSpace =
        ⟨first.position + source.length + (behind.rest.takeWhile isSpace).length,
          (behind.skipWhile isSpace).rest⟩ := by
      rw [← reads.position, ← gap.position]
    show Tiles others.stop first (⟨token, first.position⟩ :: others.tokens)
    rw [split]
    refine .token has.isWritten has.ne_nil (isSpace_of_mem_takeWhile _) ?_
    rw [← place]
    exact ih found

/-! ## Places -/

/-- What is read between two places stands between their positions. -/
theorem Cursor.In.drop_take {whole piece : Text} {start stop : Cursor} (inside : start.In whole)
    (reads : start.Reads piece stop) : (whole.take stop.position).drop start.position = piece := by
  rcases inside with ⟨before, reached⟩
  have split : whole = before ++ piece ++ stop.rest := (reached.trans reads).rest
  have behind : (before ++ piece).length = stop.position := by
    rw [(reached.trans reads).position]
    exact (Nat.zero_add _).symm
  have ahead : before.length = start.position := by
    rw [reached.position]
    exact (Nat.zero_add _).symm
  rw [split, List.take_left' behind, List.drop_left' ahead]

/-- Where the tokens stand and where the text ends. -/
def Scanned.places (scanned : Scanned) : List Nat :=
  scanned.tokens.map Placed.position ++ [scanned.stop]

namespace Tiles

variable {start : Cursor} {tokens : List (Placed Token)} {stop : Nat}

/-- The first token stands where the tokens start. -/
theorem exists_places_eq_cons (tiles : Tiles stop start tokens) :
    ∃ places, Scanned.places ⟨tokens, stop⟩ = start.position :: places := by
  cases tiles with
  | done => exact ⟨[], rfl⟩
  | token => exact ⟨_, rfl⟩

theorem isChain_places (tiles : Tiles stop start tokens) :
    (Scanned.places ⟨tokens, stop⟩).IsChain (· < ·) := by
  induction tiles with
  | done => exact List.isChain_singleton stop
  | @token token position source gap rest tokens _ nonempty _ later ih =>
    have positive : 0 < source.length := List.length_pos_iff.2 nonempty
    rcases later.exists_places_eq_cons with ⟨places, same⟩
    rw [same] at ih
    show (position :: Scanned.places ⟨tokens, stop⟩).IsChain (· < ·)
    rw [same]
    refine List.isChain_cons_cons.2 ⟨?_, ih⟩
    show position < position + source.length + gap.length
    omega

/-- Between the places of two neighbours the text is the first of them, with spaces behind it. -/
theorem exists_source (tiles : Tiles stop start tokens) {whole : Text} (inside : start.In whole)
    {token : Placed Token} {next : Nat}
    (neighbours : (token, next) ∈ tokens.zip (Scanned.places ⟨tokens, stop⟩).tail) :
    ∃ source gap, token.value.IsWritten token.position source ∧
      (∀ c ∈ gap, isSpace c = true) ∧
      (whole.take next).drop token.position = source ++ gap := by
  induction tiles with
  | done => exact absurd neighbours List.not_mem_nil
  | @token _ position source gap rest tokens written _ spaces later ih =>
    rcases later.exists_places_eq_cons with ⟨places, same⟩
    have following : (Scanned.places ⟨tokens, stop⟩).tail = places := by rw [same]; rfl
    have zipped : (token, next) ∈ (⟨_, position⟩ :: tokens).zip (Scanned.places ⟨tokens, stop⟩) :=
      neighbours
    rw [same, List.zip_cons_cons, List.mem_cons] at zipped
    have reads : Cursor.Reads ⟨position, source ++ (gap ++ rest)⟩ (source ++ gap)
        ⟨position + source.length + gap.length, rest⟩ :=
      ⟨(List.append_assoc source gap rest).symm, by rw [List.length_append, Nat.add_assoc]⟩
    rcases zipped with first | others
    · rcases Prod.mk.inj first with ⟨rfl, rfl⟩
      exact ⟨source, gap, written, spaces, inside.drop_take reads⟩
    · rw [← following] at others
      exact ih (inside.reads reads) others

end Tiles

/-- The tokens of a text account for all of it.  Their places and the end of the text go up, only
spaces stand in front of the first one, and from each of them to the next one stands what it is
written as, with nothing but spaces behind it. -/
theorem scan_tiles {text : Text} {scanned : Scanned} (scans : scan text = .ok scanned) :
    scanned.stop = text.length ∧ scanned.places.Pairwise (· < ·) ∧
      (∀ first ∈ scanned.places.head?, ∀ c ∈ text.take first, isSpace c = true) ∧
      ∀ token next, (token, next) ∈ scanned.tokens.zip scanned.places.tail →
        ∃ source gap, token.value.IsWritten token.position source ∧
          (∀ c ∈ gap, isSpace c = true) ∧
          (text.take next).drop token.position = source ++ gap := by
  have tiles := tiles_of_scanFrom scans
  have inside := Cursor.in_ofText text
  have before := (Cursor.ofText text).reads_skipWhile isSpace
  refine ⟨stop_of_scan scans, List.isChain_iff_pairwise.1 tiles.isChain_places, ?_, ?_⟩
  · intro first head
    rcases tiles.exists_places_eq_cons with ⟨places, same⟩
    have place : scanned.places.head? = some _ := congrArg List.head? same
    rw [place, Option.mem_some] at head
    have taken : text.take first = text.takeWhile isSpace := head ▸ inside.drop_take before
    rw [taken]
    exact isSpace_of_mem_takeWhile text
  · intro token next neighbours
    exact tiles.exists_source (inside.reads before) neighbours

/-- A range with a quoted bound, in front of an operator that takes the space behind it. -/
theorem scan_tiles_of_range :
    ∃ source gap,
      (Token.range ⟨['m'], false, 5⟩ ⟨['c', ' ', 'd'], true, 10⟩ false true).IsWritten 4 source ∧
        (∀ c ∈ gap, isSpace c = true) ∧
        ("\t a:\x7bm TO \"c d\"  ] - x".toList.take 19).drop 4 = source ++ gap := by
  have scans : scan "\t a:\x7bm TO \"c d\"  ] - x".toList = .ok ⟨[⟨.term ['a'], 2⟩, ⟨.colon, 3⟩,
      ⟨.range ⟨['m'], false, 5⟩ ⟨['c', ' ', 'd'], true, 10⟩ false true, 4⟩,
      ⟨.bareOperator '-', 19⟩, ⟨.term ['x'], 21⟩], 22⟩ := by
    apply eq_ok_of_toOption
    decide +kernel
  exact (scan_tiles scans).2.2.2
    ⟨.range ⟨['m'], false, 5⟩ ⟨['c', ' ', 'd'], true, 10⟩ false true, 4⟩ 19 (by decide)

end AlarmQuery
