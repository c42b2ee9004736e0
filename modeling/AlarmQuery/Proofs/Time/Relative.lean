import AlarmQuery.Proofs.Time.Earlier
import AlarmQuery.Proofs.Time.SmallLetters
import AlarmQuery.Time.Input

/-!
# Relative times

`Instant.ofInput?_relative` says which texts that are no absolute times are read as a time, and as
which one.  The items of such a text may be moved about and be written as one word or as two, and
whatever is put behind them makes no absolute time of the text.
-/

namespace AlarmQuery

/-! ## Relative times are no absolute times -/

namespace TimeAmount

/-- A text says how long ago a time is: without a final `ago` it is `now` or lists items. -/
def IsRelative (text : Text) : Prop := IsAmount (withoutAgo text)

namespace IsRelative

variable {text : Text}

theorem not_mem_signs (relative : IsRelative text) {c : Char} (sign : c ∈ ['-', '+']) :
    c ∉ text := by
  have facts : ['-', '+'].all fun c =>
      lowerChar c = c ∧ isBlank c = false ∧ c ∉ "ago".toList ∧ isAmountChar c = false := by
    decide
  rcases List.all_iff_forall_prop.1 facts c sign with ⟨same, letter, notAgo, notOwn⟩
  intro member
  exact relative.not_mem letter notAgo notOwn (List.mem_map.2 ⟨c, member, same⟩)

/-- Digits alone say nothing. -/
theorem exists_not_isDigit (relative : IsRelative text) : ∃ c ∈ text, c.isDigit = false := by
  rcases relative.exists_letter with ⟨word, ofText, c, inside, letter⟩
  rcases List.mem_map.1 (mem_of_word_of_cutAgo ofText inside) with ⟨written, member, rfl⟩
  exact ⟨written, member, by simpa using letter⟩

/-- Whatever follows a relative time, the whole is no absolute time. -/
theorem absoluteTime?_append (relative : IsRelative text) (trimmed : text.IsTrimmed)
    (more : Text) : absoluteTime? (text ++ more) = none := by
  have whole : text.takeWhile Char.isDigit ++ text.dropWhile Char.isDigit = text :=
    List.takeWhile_append_dropWhile
  have digit : ∀ c ∈ text.takeWhile Char.isDigit, c.isDigit = true := fun _ member =>
    List.mem_takeWhile_imp member
  cases left : text.dropWhile Char.isDigit with
  | nil =>
    rcases relative.exists_not_isDigit with ⟨c, member, letter⟩
    rw [List.dropWhile_eq_nil_iff.1 left c member] at letter
    cases letter
  | cons c rest =>
    have letter : c.isDigit = false := by
      have first := List.head?_dropWhile_not Char.isDigit text
      rwa [left] at first
    have member : c ∈ text := by
      rw [← whole, left]
      exact List.mem_append_right _ List.mem_cons_self
    have noSign (sign : Char) (isSign : sign ∈ ['-', '+']) : c ≠ sign := by
      rintro rfl
      exact relative.not_mem_signs isSign member
    rw [← whole, left, List.append_assoc, List.cons_append]
    apply absoluteTime?_eq_none digit letter (noSign '-' (by simp))
    intro noDigit
    refine ⟨noSign '+' (by simp), trimmed.first c ?_⟩
    rw [← whole, noDigit, left]
    rfl

end IsRelative

end TimeAmount

/-! ## The order of the items -/

/-- The number and the unit of an item, however they are written. -/
def TimeItem.said (item : TimeItem) : Nat × TimeUnit := (item.count, item.unit)

namespace TimeAmount

section

variable {first second : List TimeItem}

theorem total_eq_of_said (items : List TimeItem) :
    total items = ⟨((items.map TimeItem.said).map fun (count, unit) =>
        (ofUnit count unit).months).sum,
      ((items.map TimeItem.said).map fun (count, unit) => (ofUnit count unit).millis).sum⟩ := by
  rw [total, List.map_map, List.map_map]
  rfl

theorem total_perm (same : (first.map TimeItem.said).Perm (second.map TimeItem.said)) :
    total first = total second := by
  rw [total_eq_of_said, total_eq_of_said, (same.map _).sum_eq, (same.map _).sum_eq]

theorem Fits.perm (fits : Fits first)
    (same : (first.map TimeItem.said).Perm (second.map TimeItem.said)) : Fits second where
  counts := by
    intro item member
    rcases List.mem_map.1 (same.mem_iff.2 (List.mem_map_of_mem member)) with ⟨other, inside, said⟩
    have count : other.count = item.count := congrArg Prod.fst said
    exact count ▸ fits.counts other inside
  total := total_perm same ▸ fits.total

/-- What a text with some items expresses depends on their numbers and units only. -/
theorem Expresses.perm {text other : Text} {amount : TimeAmount} (lists : Lists text first)
    (otherLists : Lists other second)
    (same : (first.map TimeItem.said).Perm (second.map TimeItem.said))
    (expressed : Expresses text amount) : Expresses other amount := by
  rcases expressed with ⟨now, _⟩ | ⟨items, itemsListed, fits, total⟩
  · exact absurd now lists.ne_now
  · -- the words are added up as those of `first`, whichever items they are taken for
    have read := addWords?_eq_some_iff.2 ⟨itemsListed.nonempty, fits, total⟩
    rw [← itemsListed.words, lists.words] at read
    rcases addWords?_eq_some_iff.1 read with ⟨_, firstFits, rfl⟩
    exact Or.inr ⟨second, otherLists, firstFits.perm same, total_perm same⟩

end

end TimeAmount

/-! ## Reading -/

namespace Instant

theorem ofInput?_of_relative {text : Text} (relative : absoluteTime? (Text.trim text) = none)
    (now : Instant) :
    ofInput? text now =
      (TimeAmount.ofText? (Text.trim text)).bind fun amount => amount.before? now := by
  have blank : TimeAmount.ofText? [] = none := by decide
  rw [ofInput?, relative, Option.none_or]
  split
  · rename_i empty
    rw [List.isEmpty_iff.1 empty, blank]
    rfl
  · rfl

theorem ofInput?_relative_eq_some_iff {text : Text}
    (relative : absoluteTime? (Text.trim text) = none) {now : Instant}
    (inCalendar : now.InCalendar) (instant : Instant) :
    ofInput? text now = some instant ↔
      ∃ amount, TimeAmount.Expresses (TimeAmount.withoutAgo (Text.trim text)) amount ∧
        amount.LiesBefore now instant := by
  rw [ofInput?_of_relative relative, Option.bind_eq_some_iff]
  apply exists_congr
  intro amount
  rw [TimeAmount.ofText?_eq_some_iff, TimeAmount.before?_eq_some_iff inCalendar.nanos]

/-- A text that is no absolute time is read exactly if, without a final `ago`, it is `now` or
lists items that can be added up, and the instant so long before `now` belongs to the calendar.
Texts that list the same numbers of the same units are read alike, in whatever order the items
stand and whether they are one word or two. -/
theorem ofInput?_relative {text : Text} (relative : absoluteTime? (Text.trim text) = none)
    {now : Instant} (inCalendar : now.InCalendar) :
    (∀ instant, ofInput? text now = some instant ↔
      ∃ amount, TimeAmount.Expresses (TimeAmount.withoutAgo (Text.trim text)) amount ∧
        amount.LiesBefore now instant) ∧
    ∀ (other : Text) (items others : List TimeItem),
      TimeAmount.Lists (TimeAmount.withoutAgo (Text.trim text)) items →
      TimeAmount.Lists (TimeAmount.withoutAgo (Text.trim other)) others →
      (items.map TimeItem.said).Perm (others.map TimeItem.said) →
      ofInput? other now = ofInput? text now := by
  refine ⟨ofInput?_relative_eq_some_iff relative inCalendar, ?_⟩
  intro other items others lists otherLists same
  have otherRelative : absoluteTime? (Text.trim other) = none := by
    have isRelative : TimeAmount.IsRelative (Text.trim other) := Or.inr ⟨others, otherLists⟩
    simpa using isRelative.absoluteTime?_append (Text.isTrimmed_trim other) []
  apply Option.ext
  intro instant
  rw [ofInput?_relative_eq_some_iff otherRelative inCalendar,
    ofInput?_relative_eq_some_iff relative inCalendar]
  constructor
  · rintro ⟨amount, expressed, before⟩
    exact ⟨amount, expressed.perm otherLists lists same.symm, before⟩
  · rintro ⟨amount, expressed, before⟩
    exact ⟨amount, expressed.perm lists otherLists same, before⟩

/-- A month and two hours before noon on the last day of March, some nanoseconds past, it was ten on
the last day of February.  Half a second before a moment within a leap second it was the second
before it. -/
theorem ofInput?_relative_of_short_month :
    (absoluteTime? (Text.trim "1 Month 2h ago".toList) = none ∧
      InCalendar ⟨1617192000, 123456789⟩ ∧
      ∃ amount,
        TimeAmount.Expresses (TimeAmount.withoutAgo (Text.trim "1 Month 2h ago".toList)) amount ∧
          amount.LiesBefore ⟨1617192000, 123456789⟩ ⟨1614506400, 123456789⟩) ∧
    absoluteTime? (Text.trim "500ms".toList) = none ∧ InCalendar ⟨1483228799, 1250000001⟩ ∧
      ∃ amount, TimeAmount.Expresses (TimeAmount.withoutAgo (Text.trim "500ms".toList)) amount ∧
        amount.LiesBefore ⟨1483228799, 1250000001⟩ ⟨1483228799, 750000001⟩ := by
  have months : absoluteTime? (Text.trim "1 Month 2h ago".toList) = none := by decide +kernel
  have noon : InCalendar ⟨1617192000, 123456789⟩ := ⟨by decide +kernel, by decide⟩
  have monthsRead : ofInput? "1 Month 2h ago".toList ⟨1617192000, 123456789⟩ =
      some ⟨1614506400, 123456789⟩ := by decide +kernel
  have millis : absoluteTime? (Text.trim "500ms".toList) = none := by decide +kernel
  have leap : InCalendar ⟨1483228799, 1250000001⟩ := ⟨by decide +kernel, by decide⟩
  have millisRead : ofInput? "500ms".toList ⟨1483228799, 1250000001⟩ =
      some ⟨1483228799, 750000001⟩ := by decide +kernel
  exact ⟨⟨months, noon, ((ofInput?_relative months noon).1 _).1 monthsRead⟩,
    millis, leap, ((ofInput?_relative millis leap).1 _).1 millisRead⟩

end Instant

end AlarmQuery
