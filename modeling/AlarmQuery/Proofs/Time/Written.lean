import AlarmQuery.Proofs.Text.Words
import AlarmQuery.Proofs.Time.Absolute
import AlarmQuery.Time.Absolute
import Mathlib.Algebra.Order.Ring.Int

/-!
# Written instants

The text of an instant is taken apart again by the format with a fraction of a second, element by
element.  The internet format does not take it, since it names no offset.
-/

namespace AlarmQuery

/-! ## Padded numbers -/

namespace Text

/-- The digits of a number behind as many zeros as are missing to a width. -/
def padded (width number : Nat) : Text := padStart width '0' (ofNat number)

theorem isDigit_of_mem_padded {width number : Nat} {c : Char} (member : c ∈ padded width number) :
    c.isDigit = true := by
  rcases List.mem_append.1 member with zero | digit
  · rw [List.eq_of_mem_replicate zero]
    rfl
  · exact Nat.isDigit_of_mem_toDigits (by decide) (by decide) digit

theorem digitsValue_replicate_append (zeros : Nat) (digits : Text) :
    digitsValue (List.replicate zeros '0' ++ digits) = digitsValue digits := by
  induction zeros with
  | zero => rfl
  | succ zeros ih => exact ih

@[simp]
theorem digitsValue_padded (width number : Nat) : digitsValue (padded width number) = number := by
  rw [padded, padStart, digitsValue_replicate_append]
  exact Nat.ofDigitChars_ten_toDigits

theorem length_padded {width number : Nat} (positive : 0 < width) (small : number < 10 ^ width) :
    (padded width number).length = width := by
  have length : (ofNat number).length ≤ width :=
    (Nat.length_toDigits_le_iff (by decide) positive).2 small
  rw [padded, padStart, List.length_append, List.length_replicate]
  omega

/-- A padded number begins with a digit. -/
theorem exists_of_padded (width number : Nat) :
    ∃ c rest, padded width number = c :: rest ∧ c.isDigit = true := by
  have nonempty : padded width number ≠ [] := fun empty =>
    Nat.toDigits_ne_nil (List.append_eq_nil_iff.1 empty).2
  rcases List.exists_cons_of_ne_nil nonempty with ⟨c, rest, shape⟩
  exact ⟨c, rest, shape, isDigit_of_mem_padded (shape ▸ List.mem_cons_self)⟩

/-- Nothing is trimmed off the front of a padded number. -/
theorem trimStart_padded (width number : Nat) (rest : Text) :
    trimStart (padded width number ++ rest) = padded width number ++ rest := by
  rcases exists_of_padded width number with ⟨c, more, shape, digit⟩
  rw [shape, List.cons_append, trimStart,
    List.dropWhile_cons_of_neg (by simp [isBlank_of_isDigit digit])]

end Text

/-! ## Numbers -/

/-- A number in front of what is no digit is taken whole if its width is allowed. -/
theorem takeNumber?_padded {least most width number : Nat} (positive : 0 < width)
    (small : number < 10 ^ width) (enough : least ≤ width) (fits : width ≤ most) {rest : Text}
    (ends : ∀ c ∈ rest.head?, c.isDigit = false) :
    takeNumber? least most (Text.padded width number ++ rest) = some (number, rest) := by
  have length := Text.length_padded positive small
  rw [takeNumber?_append (fun _ => Text.isDigit_of_mem_padded) ends, length, if_neg (by omega),
    List.take_of_length_le (by omega), List.drop_of_length_le (by omega), Text.digitsValue_padded,
    List.nil_append]

theorem takeNumber?_twoDigits {least number : Nat} (small : number < 100) (enough : least ≤ 2)
    {mark : Char} (noDigit : mark.isDigit = false) (rest : Text) :
    takeNumber? least 2 (Instant.twoDigits number ++ mark :: rest) = some (number, mark :: rest) :=
  takeNumber?_padded (by decide) small enough (le_refl 2) (head?_cons_noDigit noDigit rest)

@[simp]
theorem takeMark?_self (mark : Char) (rest : Text) : takeMark? mark (mark :: rest) = some rest := by
  rw [takeMark?, if_pos rfl]

/-- A year that is written with a sign, or with four digits. -/
theorem yearText_cases (year : Int) :
    (∃ number : Nat, year = number ∧ number < 10 ^ 4 ∧
        Instant.yearText year = Text.padded 4 number) ∨
      ∃ sign, (sign = '-' ∧ year < 0 ∨ sign = '+' ∧ 0 ≤ year) ∧
        Instant.yearText year = sign :: Text.padded 4 year.natAbs := by
  rw [Instant.yearText]
  split
  · rename_i four
    left
    rcases Int.eq_ofNat_of_zero_le four.1 with ⟨number, rfl⟩
    exact ⟨number, rfl, by omega, rfl⟩
  · rename_i signed
    right
    split
    · rename_i negative
      exact ⟨'-', Or.inl ⟨rfl, negative⟩, rfl⟩
    · rename_i positive
      exact ⟨'+', Or.inr ⟨rfl, by omega⟩, rfl⟩

/-- Behind a sign a number is read however many digits it has. -/
theorem takeNumber?_signed (width number : Nat) {mark : Char} (noDigit : mark.isDigit = false)
    (rest : Text) :
    takeNumber? 1 (Text.padded width number ++ mark :: rest).length
      (Text.padded width number ++ mark :: rest) = some (number, mark :: rest) := by
  have ends := head?_cons_noDigit noDigit rest
  have positive : 0 < (Text.padded width number).length := by
    rcases Text.exists_of_padded width number with ⟨c, more, shape, _⟩
    rw [shape]
    exact Nat.zero_lt_succ _
  have all : (Text.padded width number).length ≤
      (Text.padded width number ++ mark :: rest).length := by
    rw [List.length_append]
    exact Nat.le_add_right _ _
  rw [takeNumber?_append (fun _ => Text.isDigit_of_mem_padded) ends, Nat.min_eq_right all,
    if_neg (by omega), List.take_of_length_le all, List.drop_of_length_le all,
    Text.digitsValue_padded, List.nil_append]

/-- A year is read whatever its sign and however many digits it has. -/
theorem takeYear?_yearText (year : Int) {mark : Char} (noDigit : mark.isDigit = false)
    (rest : Text) :
    takeYear? (Instant.yearText year ++ mark :: rest) = some (year, mark :: rest) := by
  rcases yearText_cases year with ⟨number, rfl, small, text⟩ | ⟨sign, isSign, text⟩
  · rw [text]
    rcases Text.exists_of_padded 4 number with ⟨c, more, shape, digit⟩
    have noSign := takeYear?_of_ne (ne_of_isDigit digit rfl) (ne_of_isDigit digit rfl)
    rw [shape, List.cons_append, noSign, ← List.cons_append, ← shape,
      takeNumber?_padded (by decide) small (by decide) (le_refl 4)
        (head?_cons_noDigit noDigit rest)]
    rfl
  · rw [text, List.cons_append]
    rcases isSign with ⟨rfl, negative⟩ | ⟨rfl, positive⟩
    · have value : -(year.natAbs : Int) = year := by omega
      rw [takeYear?, takeNumber?_signed 4 _ noDigit, Option.map_some]
      dsimp only
      rw [value]
    · have value : (year.natAbs : Int) = year := by omega
      rw [takeYear?, takeNumber?_signed 4 _ noDigit, Option.map_some]
      dsimp only
      rw [value]

/-! ## Formats -/

namespace TimeParts

/-- The parts with the number that an element stands for. -/
def note (parts : TimeParts) (element : TimeElement) (number : Nat) : TimeParts :=
  match element with
  | .month => { parts with month := number }
  | .day => { parts with day := number }
  | .hour => { parts with hour := number }
  | .minute => { parts with minute := number }
  | .second => { parts with second := number }
  | _ => parts

/-- The elements that stand for numbers of two digits. -/
def twoDigitElements : List TimeElement := [.month, .day, .hour, .minute, .second]

theorem ofFormat?_number {element : TimeElement} (isNumber : element ∈ twoDigitElements)
    {number : Nat} (small : number < 100) {mark : Char} (noDigit : mark.isDigit = false)
    (others : List TimeElement) (parts : TimeParts) (rest : Text) :
    ofFormat? (element :: others) parts (Instant.twoDigits number ++ mark :: rest) =
      ofFormat? others (parts.note element number) (mark :: rest) := by
  have trimmed : Text.trimStart (Instant.twoDigits number ++ mark :: rest) =
      Instant.twoDigits number ++ mark :: rest := Text.trimStart_padded 2 number _
  have read : takeNumber? 1 2 (Instant.twoDigits number ++ mark :: rest) =
      some (number, mark :: rest) := takeNumber?_twoDigits small (by decide) noDigit rest
  simp only [twoDigitElements, List.mem_cons, List.not_mem_nil, or_false] at isNumber
  rcases isNumber with rfl | rfl | rfl | rfl | rfl
  all_goals
    rw [ofFormat?, takeElement?, trimmed, read]
    rfl

theorem ofFormat?_mark (mark : Char) (others : List TimeElement) (parts : TimeParts)
    (rest : Text) :
    ofFormat? (.mark mark :: others) parts (mark :: rest) = ofFormat? others parts rest := by
  rw [ofFormat?, takeElement?, takeMark?_self]
  rfl

/-- The sign or the digits of a year are not trimmed off. -/
theorem trimStart_yearText (year : Int) (rest : Text) :
    Text.trimStart (Instant.yearText year ++ rest) = Instant.yearText year ++ rest := by
  rcases yearText_cases year with ⟨number, _, _, text⟩ | ⟨sign, isSign, text⟩
  · rw [text]
    exact Text.trimStart_padded 4 number rest
  · rw [text]
    rcases isSign with ⟨rfl, _⟩ | ⟨rfl, _⟩ <;> rfl

theorem ofFormat?_year (year : Int) {mark : Char} (noDigit : mark.isDigit = false)
    (others : List TimeElement) (parts : TimeParts) (rest : Text) :
    ofFormat? (.year :: others) parts (Instant.yearText year ++ mark :: rest) =
      ofFormat? others { parts with year } (mark :: rest) := by
  rw [ofFormat?, takeElement?, trimStart_yearText, takeYear?_yearText year noDigit]
  rfl

theorem ofFormat?_blanks (number : Nat) (others : List TimeElement) (parts : TimeParts)
    (rest : Text) :
    ofFormat? (.blanks :: others) parts (' ' :: (Instant.twoDigits number ++ rest)) =
      ofFormat? others parts (Instant.twoDigits number ++ rest) := by
  have trimmed : Text.trimStart (' ' :: (Instant.twoDigits number ++ rest)) =
      Instant.twoDigits number ++ rest := Text.trimStart_padded 2 number rest
  rw [ofFormat?, takeElement?, trimmed]
  rfl

end TimeParts

/-- Three digits of a second are thousandths. -/
theorem takeFraction?_millis {millis : Nat} (small : millis < 1000) :
    takeFraction? ('.' :: Text.padded 3 millis) = some (millis * 1000000, []) := by
  have length : (Text.padded 3 millis).length = 3 := Text.length_padded (by decide) small
  have digits : (Text.padded 3 millis).takeWhile Char.isDigit = Text.padded 3 millis :=
    List.takeWhile_eq_self_iff.2 fun _ => Text.isDigit_of_mem_padded
  have nonempty : (Text.padded 3 millis).isEmpty = false := by
    rw [List.isEmpty_eq_false_iff_exists_mem]
    rcases Text.exists_of_padded 3 millis with ⟨c, more, shape, _⟩
    exact ⟨c, shape ▸ List.mem_cons_self⟩
  have counted : (Text.padded 3 millis).take 9 = Text.padded 3 millis :=
    List.take_of_length_le (by omega)
  rw [takeFraction?, takeNanos?, digits, nonempty, counted, length, Text.digitsValue_padded,
    List.drop_of_length_le (by omega)]
  rfl

/-- A date and a time of day as they are written in the alarm log. -/
def TimeParts.text (parts : TimeParts) : Text :=
  Instant.yearText parts.year ++ '-' :: (Instant.twoDigits parts.month ++
    '-' :: (Instant.twoDigits parts.day ++ ' ' :: (Instant.twoDigits parts.hour ++
      ':' :: (Instant.twoDigits parts.minute ++ ':' :: (Instant.twoDigits parts.second ++
        '.' :: Text.padded 3 (parts.nanos / 1000000))))))

/-- The numbers of a date and a time of day fit the digits that there are for them. -/
structure TimeParts.Fits (parts : TimeParts) : Prop where
  month : parts.month < 100
  day : parts.day < 100
  hour : parts.hour < 100
  minute : parts.minute < 100
  second : parts.second < 100
  nanos : parts.nanos < 1000000000

section

variable {parts : TimeParts}

theorem TimeParts.ofFormat?_text (fits : parts.Fits) :
    ofFormat? secondFormat {} parts.text =
      some { parts with nanos := parts.nanos / 1000000 * 1000000 } := by
  have millis : parts.nanos / 1000000 < 1000 := by
    have := fits.nanos
    omega
  simp only [secondFormat, minuteFormat, dateFormat, List.cons_append, List.nil_append, text]
  rw [ofFormat?_year _ rfl, ofFormat?_mark, ofFormat?_number (by decide) fits.month rfl,
    ofFormat?_mark, ofFormat?_number (by decide) fits.day rfl, ofFormat?_blanks,
    ofFormat?_number (by decide) fits.hour rfl, ofFormat?_mark,
    ofFormat?_number (by decide) fits.minute rfl, ofFormat?_mark,
    ofFormat?_number (by decide) fits.second rfl, ofFormat?, takeElement?,
    takeFraction?_millis millis]
  rfl

/-- The internet format lacks an offset, or already a year without a sign. -/
theorem internetTime?_text (fits : parts.Fits) : internetTime? parts.text = none := by
  have millis : parts.nanos / 1000000 < 1000 := by
    have := fits.nanos
    omega
  have number {number : Nat} (small : number < 100) (mark : Char) (noDigit : mark.isDigit = false)
      (rest : Text) : takeNumber? 2 2 (Instant.twoDigits number ++ mark :: rest) =
        some (number, mark :: rest) := takeNumber?_twoDigits small (le_refl 2) noDigit rest
  rcases yearText_cases parts.year with ⟨year, _, small, text⟩ | ⟨sign, isSign, text⟩
  · have year (rest : Text) : takeNumber? 4 4 (Text.padded 4 year ++ '-' :: rest) =
        some (year, '-' :: rest) :=
      takeNumber?_padded (by decide) small (le_refl 4) (le_refl 4) (head?_cons_noDigit rfl rest)
    have reads {α : Type} {taken : Option α} {value : α} (found : taken = some value)
        (next : α → Option Instant) : taken.bind next = next value := by
      rw [found, Option.bind_some]
    rw [TimeParts.text, text, internetTime?]
    refine (reads (year _) _).trans ?_
    refine (reads (takeMark?_self '-' _) _).trans ?_
    refine (reads (number fits.month '-' rfl _) _).trans ?_
    refine (reads (takeMark?_self '-' _) _).trans ?_
    refine (reads (number fits.day ' ' rfl _) _).trans ?_
    refine (reads (number fits.hour ':' rfl _) _).trans ?_
    refine (reads (takeMark?_self ':' _) _).trans ?_
    refine (reads (number fits.minute ':' rfl _) _).trans ?_
    refine (reads (takeMark?_self ':' _) _).trans ?_
    refine (reads (number fits.second '.' rfl _) _).trans ?_
    exact (reads (takeFraction?_millis millis) _).trans rfl
  · have year (rest : Text) : takeNumber? 4 4 (sign :: rest) = none := by
      have noDigit : sign.isDigit = false := by
        rcases isSign with ⟨rfl, _⟩ | ⟨rfl, _⟩ <;> rfl
      have noDigits : (sign :: rest.take 3).takeWhile Char.isDigit = [] :=
        List.takeWhile_cons_of_neg (by simp [noDigit])
      rw [takeNumber?, List.take_succ_cons, noDigits]
      rfl
    rw [TimeParts.text, text, List.cons_append, internetTime?, year]
    rfl

end

end AlarmQuery
