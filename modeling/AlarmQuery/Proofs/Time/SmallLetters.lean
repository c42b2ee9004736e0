import AlarmQuery.Proofs.Time.Items

/-!
# Amounts of time in small letters

The reader of amounts lowers capital letters and drops a final `ago`.  It knows the small letters of
the first characters of Unicode and of the sign for kelvin only.  `TimeAmount.ofBody?_cutAgo` shows
that no other one matters: what the rest of Unicode becomes in small letters can stand in no amount,
so that a text with such a character is none, however it is lowered.
-/

namespace AlarmQuery

namespace TimeAmount

/-! ## Small letters -/

/-- Only letters become other characters, and these are letters again. -/
theorem lowerChar_cases (c : Char) :
    lowerChar c = c ∨ (isBlank c = false ∧ c.isDigit = false ∧
      isBlank (lowerChar c) = false ∧ (lowerChar c).isDigit = false) := by
  by_cases kelvin : c = '\u212A'
  · subst kelvin
    exact Or.inr (by decide)
  · by_cases capital : 65 ≤ c.toNat ∧ c.toNat ≤ 90
    · right
      have capitals : ∀ code < 91, 65 ≤ code → isBlank (Char.ofNat code) = false ∧
          (Char.ofNat code).isDigit = false ∧ isBlank (lowerChar (Char.ofNat code)) = false ∧
          (lowerChar (Char.ofNat code)).isDigit = false := by decide
      have here := capitals c.toNat (Nat.lt_succ_of_le capital.2) capital.1
      rwa [Char.ofNat_toNat] at here
    · left
      rw [lowerChar, if_neg kelvin]
      apply dif_neg
      rwa [ge_iff_le, UInt32.le_iff_toNat_le, UInt32.le_iff_toNat_le]

@[simp]
theorem isBlank_lowerChar (c : Char) : isBlank (lowerChar c) = isBlank c := by
  rcases lowerChar_cases c with same | ⟨letter, _, lower, _⟩
  · rw [same]
  · rw [letter, lower]

@[simp]
theorem isDigit_lowerChar (c : Char) : (lowerChar c).isDigit = c.isDigit := by
  rcases lowerChar_cases c with same | ⟨_, letter, _, lower⟩
  · rw [same]
  · rw [letter, lower]

/-! ## A final `ago` -/

/-- The words of a text without a final `ago` are those in front of it. -/
theorem words_cutAgo (lower : Text) :
    (∃ front, lower = front ++ "ago".toList ∧ Text.words (cutAgo lower) = Text.words front) ∨
      (¬"ago".toList <:+ lower ∧ Text.words (cutAgo lower) = Text.words lower) := by
  rw [cutAgo, Text.words_trim]
  split
  · rename_i ends
    left
    refine ⟨_, ?_, rfl⟩
    rw [← ends, List.take_append_drop]
  · rename_i ends
    right
    refine ⟨?_, rfl⟩
    rintro ⟨front, rfl⟩
    apply ends
    simp

/-- What is neither blank nor part of `ago` is kept. -/
theorem exists_word_of_cutAgo {lower : Text} {c : Char} (member : c ∈ lower)
    (letter : isBlank c = false) (notAgo : c ∉ "ago".toList) :
    ∃ word ∈ Text.words (cutAgo lower), c ∈ word := by
  rcases words_cutAgo lower with ⟨front, whole, words⟩ | ⟨_, words⟩
  · rw [whole, List.mem_append, or_iff_left notAgo] at member
    rw [words]
    exact Text.exists_word_of_mem member letter
  · rw [words]
    exact Text.exists_word_of_mem member letter

theorem mem_of_word_of_cutAgo {lower word : Text} (ofText : word ∈ Text.words (cutAgo lower))
    {c : Char} (inside : c ∈ word) : c ∈ lower := by
  rcases words_cutAgo lower with ⟨front, whole, words⟩ | ⟨_, words⟩
  · rw [words] at ofText
    rw [whole]
    exact List.mem_append_left _ (Text.mem_of_mem_words ofText inside)
  · rw [words] at ofText
    exact Text.mem_of_mem_words ofText inside

theorem IsAmount.not_mem {lower : Text} (amount : IsAmount (cutAgo lower)) {c : Char}
    (letter : isBlank c = false) (notAgo : c ∉ "ago".toList) (notOwn : isAmountChar c = false) :
    c ∉ lower := by
  intro member
  rcases exists_word_of_cutAgo member letter notAgo with ⟨word, ofText, ofWord⟩
  rw [amount.isAmountChar_of_mem ofText ofWord] at notOwn
  cases notOwn

/-! ## Other small letters -/

/-- A character beyond the first ones of Unicode, and not blank. -/
def IsForeign (c : Char) : Prop := 128 ≤ c.toNat ∧ isBlank c = false

/-- What Unicode makes of a character in small letters.  Of what it makes of a foreign one, the sign
for kelvin apart, it only matters that it has a foreign character again. -/
inductive LowersTo : Char → Text → Prop
  | known {c : Char} (known : ¬IsForeign c ∨ c = '\u212A') : LowersTo c [lowerChar c]
  | foreign {c : Char} {lower : Text} {d : Char} (foreign : IsForeign c) (notKelvin : c ≠ '\u212A')
      (member : d ∈ lower) (stays : IsForeign d) : LowersTo c lower

theorem lowerChar_of_isForeign {c : Char} (foreign : IsForeign c) (notKelvin : c ≠ '\u212A') :
    lowerChar c = c := by
  rw [lowerChar, if_neg notKelvin]
  apply dif_neg
  rw [ge_iff_le, UInt32.le_iff_toNat_le, UInt32.le_iff_toNat_le]
  intro capital
  have := foreign.1
  have : c.toNat ≤ 90 := capital.2
  omega

/-- A text with a foreign character is no amount. -/
theorem ofBody?_eq_none_of_isForeign {lower : Text} {c : Char} (member : c ∈ lower)
    (foreign : IsForeign c) : ofBody? (cutAgo lower) = none := by
  have notAgo : c ∉ "ago".toList := by
    have small : "ago".toList.all fun c => c.toNat < 128 := by decide
    intro inside
    have := of_decide_eq_true (List.all_eq_true.1 small c inside)
    have := foreign.1
    omega
  have notOwn : isAmountChar c = false := by
    rw [← Bool.not_eq_true]
    intro own
    have := toNat_lt_of_isAmountChar own
    have := foreign.1
    omega
  rw [Option.eq_none_iff_forall_ne_some]
  intro amount read
  exact (ofBody?_eq_some_iff.1 read).isAmount.not_mem foreign.2 notAgo notOwn member

/-- Either a text is lowered as the reader does it, or a foreign character is left either way. -/
theorem flatten_eq_or_exists_isForeign {text : Text} {pieces : List Text}
    (lowers : List.Forall₂ LowersTo text pieces) :
    pieces.flatten = text.map lowerChar ∨
      ((∃ c ∈ pieces.flatten, IsForeign c) ∧ ∃ c ∈ text.map lowerChar, IsForeign c) := by
  induction lowers with
  | nil => exact Or.inl rfl
  | @cons c piece text pieces first others ih =>
    rw [List.flatten_cons, List.map_cons]
    cases first with
    | known =>
      rcases ih with same | ⟨⟨one, oneMember, oneForeign⟩, two, twoMember, twoForeign⟩
      · exact Or.inl (by rw [same]; rfl)
      · exact Or.inr ⟨⟨one, List.mem_append_right _ oneMember, oneForeign⟩,
          two, List.mem_cons_of_mem _ twoMember, twoForeign⟩
    | foreign foreign notKelvin member stays =>
      refine Or.inr ⟨⟨_, List.mem_append_left _ member, stays⟩, c, ?_, foreign⟩
      rw [lowerChar_of_isForeign foreign notKelvin]
      exact List.mem_cons_self

/-- However the rest of Unicode becomes small, a text is read as the same amount. -/
theorem ofBody?_cutAgo {text : Text} {pieces : List Text}
    (lowers : List.Forall₂ LowersTo text pieces) :
    ofBody? (cutAgo pieces.flatten) = ofText? text := by
  rw [ofText?, withoutAgo]
  rcases flatten_eq_or_exists_isForeign lowers with same | ⟨⟨one, oneMember, oneForeign⟩,
    two, twoMember, twoForeign⟩
  · rw [same]
  · rw [ofBody?_eq_none_of_isForeign oneMember oneForeign,
      ofBody?_eq_none_of_isForeign twoMember twoForeign]

end TimeAmount

end AlarmQuery
