import AlarmQuery.Proofs.Time.Relative

/-!
# The order of relative times

A relative time never lies after the present, and a larger amount of time leads to no later time.
What is put behind a relative time behind a blank character can only make its amount larger.
-/

namespace AlarmQuery

namespace TimeAmount

/-! ## Larger amounts -/

/-- An amount is part of another one. -/
structure IsPart (less more : TimeAmount) : Prop where
  months : less.months ≤ more.months
  millis : less.millis ≤ more.millis

theorem isPart_zero (amount : TimeAmount) : IsPart {} amount :=
  ⟨Nat.zero_le _, Nat.zero_le _⟩

theorem isPart_add (first second : TimeAmount) : first.IsPart (first.add second) :=
  ⟨Nat.le_add_right _ _, Nat.le_add_right _ _⟩

/-- Adding words makes an amount no smaller. -/
theorem isPart_of_addWords? {amount sum : TimeAmount} (within : amount.IsWithin) {matched : Bool}
    {words : List Text} (nonempty : ∀ word ∈ words, word ≠ [])
    (read : amount.addWords? none matched words = some sum) : amount.IsPart sum := by
  rcases continue_of_addWords? nonempty read with ⟨items, rfl⟩
  have added := addWords?_items_append items within matched []
  rw [List.append_nil, read] at added
  split at added
  · rw [addWords?] at added
    split at added
    · cases added
    · rw [Option.some.inj added]
      exact isPart_add _ _
  · cases added

/-! ## Texts with more items -/

/-- A text that is put behind another one takes away none of its words. -/
theorem words_withoutAgo_append (text more : Text) {gap : Text} (blank : gap.IsBlank)
    (nonempty : gap ≠ []) :
    ∃ others, Text.words (withoutAgo (text ++ gap ++ more)) =
      Text.words (text.map lowerChar) ++ others := by
  have lowerBlank : Text.IsBlank (gap.map lowerChar) := by
    intro c member
    rcases List.mem_map.1 member with ⟨written, inside, rfl⟩
    rw [isBlank_lowerChar]
    exact blank written inside
  have lowerNonempty : gap.map lowerChar ≠ [] := mt List.map_eq_nil_iff.1 nonempty
  rw [withoutAgo]
  rcases words_cutAgo ((text ++ gap ++ more).map lowerChar) with ⟨front, whole, words⟩ | ⟨_, words⟩
  · rw [List.map_append, List.map_append] at whole
    rcases List.append_eq_append_iff.1 whole with ⟨behind, rfl, _⟩ | ⟨overlap, shape, ago⟩
    · rw [words, Text.words_append_isBlank lowerBlank lowerNonempty]
      exact ⟨_, rfl⟩
    · rcases List.eq_nil_or_concat overlap with rfl | ⟨initial, last, rfl⟩
      · rw [List.append_nil] at shape
        rw [words, ← shape, ← List.append_nil (_ ++ _),
          Text.words_append_isBlank lowerBlank lowerNonempty]
        exact ⟨_, rfl⟩
      · -- `ago` has no blank character, so it does not reach back into the gap
        rcases (List.eq_nil_or_concat (gap.map lowerChar)).resolve_left lowerNonempty with
          ⟨start, final, ends⟩
        simp only [List.concat_eq_append] at ends shape ago
        rw [ends, ← List.append_assoc, ← List.append_assoc] at shape
        have same : final = last := by
          simpa using (List.append_inj' shape rfl).2
        have letters : "ago".toList.all fun c => isBlank c = false := by decide
        have letter := List.all_iff_forall_prop.1 letters last (by rw [ago]; simp)
        rw [← same, lowerBlank final (by rw [ends]; simp)] at letter
        cases letter
  · rw [words, List.map_append, List.map_append, Text.words_append_isBlank lowerBlank lowerNonempty]
    exact ⟨_, rfl⟩

/-- A text that lists items in front of others has no final `ago`. -/
theorem words_withoutAgo_of_forall {text : Text}
    (letters : ∀ word ∈ Text.words (text.map lowerChar), 'g' ∉ word) :
    Text.words (withoutAgo text) = Text.words (text.map lowerChar) := by
  rw [withoutAgo]
  rcases words_cutAgo (text.map lowerChar) with ⟨front, whole, _⟩ | ⟨_, words⟩
  · have member : 'g' ∈ text.map lowerChar := by
      rw [whole]
      exact List.mem_append_right _ (by decide)
    rcases Text.exists_word_of_mem member (by decide) with ⟨word, ofText, inside⟩
    exact absurd inside (letters word ofText)
  · exact words

/-- What stands behind a relative time makes its amount no smaller. -/
theorem Expresses.isPart {text gap more : Text} {amount longer : TimeAmount}
    (expressed : Expresses (withoutAgo text) amount) (blank : gap.IsBlank) (nonempty : gap ≠ [])
    (appended : Expresses (withoutAgo (text ++ gap ++ more)) longer) : amount.IsPart longer := by
  rcases expressed with ⟨_, rfl⟩ | ⟨items, lists, fits, rfl⟩
  · exact isPart_zero _
  · rcases words_withoutAgo_append text more blank nonempty with ⟨others, words⟩
    have letters : ∀ word ∈ Text.words (text.map lowerChar), 'g' ∉ word := by
      intro word member inside
      have kept : word ∈ Text.words (withoutAgo (text ++ gap ++ more)) := by
        rw [words]
        exact List.mem_append_left _ member
      exact absurd (appended.isAmount.isAmountChar_of_mem kept inside) (by decide)
    have written : ∀ word ∈ others, word ≠ [] := by
      intro word member
      have ofText : word ∈ Text.words (withoutAgo (text ++ gap ++ more)) := by
        rw [words]
        exact List.mem_append_right _ member
      exact Text.ne_nil_of_mem_words ofText
    rw [← words_withoutAgo_of_forall letters, lists.words] at words
    rcases appended with ⟨now, _⟩ | ⟨further, furtherLists, furtherFit, total⟩
    · rw [now] at words
      exact absurd words (words_now_ne lists.nonempty others)
    · have read := addWords?_eq_some_iff.2 ⟨furtherLists.nonempty, furtherFit, total⟩
      rw [← furtherLists.words, words, addWords?_eq_append, if_pos fits] at read
      exact isPart_of_addWords? fits.total written read

end TimeAmount

/-! ## Inputs in order -/

namespace Instant

section

variable {now : Instant}

/-- A relative time that is read goes back by an amount. -/
theorem exists_amount_of_ofInput? {text : Text} (relative : absoluteTime? (Text.trim text) = none)
    {instant : Instant} (read : ofInput? text now = some instant) :
    ∃ amount, TimeAmount.Expresses (TimeAmount.withoutAgo (Text.trim text)) amount ∧
      amount.before? now = some instant := by
  rw [ofInput?_of_relative relative] at read
  rcases Option.bind_eq_some_iff.1 read with ⟨amount, written, before⟩
  exact ⟨amount, TimeAmount.ofText?_eq_some_iff.1 written, before⟩

variable (inCalendar : now.InCalendar)

include inCalendar

theorem notAfter_of_relative {text : Text} (relative : absoluteTime? (Text.trim text) = none)
    {instant : Instant} (read : ofInput? text now = some instant) : instant.NotAfter now := by
  rcases exists_amount_of_ofInput? relative read with ⟨amount, _, before⟩
  rcases TimeAmount.before?_of_le (le_refl _) (le_refl _) inCalendar before with
    ⟨later, found, _, most⟩
  rw [before] at found
  rw [Option.some.inj found]
  exact most

theorem notAfter_of_append {text more : Text} {c : Char}
    (relative : absoluteTime? (Text.trim text) = none) (blank : isBlank c = true)
    {first second : Instant} (read : ofInput? text now = some first)
    (appended : ofInput? (text ++ c :: more) now = some second) : second.NotAfter first := by
  rcases exists_amount_of_ofInput? relative read with ⟨amount, expressed, before⟩
  have isRelative : TimeAmount.IsRelative (Text.trim text) := expressed.isAmount
  have nonempty : Text.trim text ≠ [] := by
    rcases isRelative.exists_not_isDigit with ⟨c, member, _⟩
    exact List.ne_nil_of_mem member
  rcases Text.trim_append nonempty blank with same | ⟨gap, gapNonempty, blankGap, shape⟩
  · have sameRead : ofInput? (text ++ c :: more) now = ofInput? text now := by
      rw [ofInput?, ofInput?, same]
    rw [sameRead, read] at appended
    rw [Option.some.inj appended]
    exact NotAfter.refl second
  · have trimmed := Text.isTrimmed_trim text
    have furtherRelative : absoluteTime? (Text.trim (text ++ c :: more)) = none := by
      rw [shape, List.append_assoc]
      exact isRelative.absoluteTime?_append trimmed _
    rcases exists_amount_of_ofInput? furtherRelative appended with
      ⟨longer, longerExpressed, longerBefore⟩
    rw [shape] at longerExpressed
    have part := expressed.isPart blankGap gapNonempty longerExpressed
    rcases TimeAmount.before?_of_le part.months part.millis inCalendar longerBefore with
      ⟨later, found, le, _⟩
    rw [before] at found
    rw [Option.some.inj found]
    exact le

end

/-- What a smaller amount leads to exists whenever it does for a larger one, and lies between that
and the present, which is a whole number of milliseconds.  So no relative time lies in the future,
and nothing that is put behind one makes it later. -/
theorem relative_antitone {now : Int} (inCalendar : (ofMillis now).InCalendar) :
    (∀ less more : TimeAmount, less.months ≤ more.months → less.millis ≤ more.millis →
      ∀ earlier, more.before? (ofMillis now) = some earlier →
        ∃ later, less.before? (ofMillis now) = some later ∧ earlier.NotAfter later ∧
          later.NotAfter (ofMillis now)) ∧
    (∀ (text : Text) (instant : Instant), absoluteTime? (Text.trim text) = none →
      ofInput? text (ofMillis now) = some instant → instant.NotAfter (ofMillis now)) ∧
    ∀ (text more : Text) (c : Char) (first second : Instant),
      absoluteTime? (Text.trim text) = none → isBlank c = true →
      ofInput? text (ofMillis now) = some first →
      ofInput? (text ++ c :: more) (ofMillis now) = some second → second.NotAfter first := by
  refine ⟨?_, ?_, ?_⟩
  · intro less more months millis earlier found
    exact TimeAmount.before?_of_le months millis inCalendar found
  · intro text instant relative read
    exact notAfter_of_relative inCalendar relative read
  · intro text more c first second relative blank read appended
    exact notAfter_of_append inCalendar relative blank read appended

/-- Two hours more on the last day of March. -/
theorem relative_antitone_of_further_item :
    (ofMillis 1617192000000).InCalendar ∧
      ofInput? "1 month".toList (ofMillis 1617192000000) = some (ofMillis 1614513600000) ∧
      ofInput? ("1 month".toList ++ ' ' :: "2h".toList) (ofMillis 1617192000000) =
        some (ofMillis 1614506400000) ∧
      (ofMillis 1614506400000).NotAfter (ofMillis 1614513600000) ∧
      ∃ later, (TimeAmount.mk 1 0).before? (ofMillis 1617192000000) = some later ∧
        (ofMillis 1614506400000).NotAfter later ∧ later.NotAfter (ofMillis 1617192000000) := by
  have inCalendar : (ofMillis 1617192000000).InCalendar := ⟨by decide +kernel, by decide⟩
  have relative : absoluteTime? (Text.trim "1 month".toList) = none := by decide +kernel
  have first : ofInput? "1 month".toList (ofMillis 1617192000000) =
      some (ofMillis 1614513600000) := by decide +kernel
  have second : ofInput? ("1 month".toList ++ ' ' :: "2h".toList) (ofMillis 1617192000000) =
      some (ofMillis 1614506400000) := by decide +kernel
  have found : (TimeAmount.mk 1 7200000).before? (ofMillis 1617192000000) =
      some (ofMillis 1614506400000) := by decide +kernel
  exact ⟨inCalendar, first, second,
    (relative_antitone inCalendar).2.2 _ _ ' ' _ _ relative rfl first second,
    (relative_antitone inCalendar).1 ⟨1, 0⟩ ⟨1, 7200000⟩ (le_refl 1) (Nat.zero_le _) _ found⟩

end Instant

end AlarmQuery
