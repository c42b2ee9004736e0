import AlarmQuery.Time.Absolute
import Mathlib.Data.List.TakeWhile

/-!
# Numbers in absolute times

What the readers of numbers take off a text that begins with digits.  Every absolute time has a
minus sign behind the digits of its year, so a text with another character there is none.
-/

namespace AlarmQuery

/-! ## Digits -/

theorem isDigit_iff {c : Char} : c.isDigit = true ↔ 48 ≤ c.toNat ∧ c.toNat ≤ 57 := by
  rw [Char.isDigit, Bool.and_eq_true, decide_eq_true_eq, decide_eq_true_eq, ge_iff_le,
    UInt32.le_iff_toNat_le, UInt32.le_iff_toNat_le]
  rfl

theorem isBlank_of_isDigit {c : Char} (digit : c.isDigit = true) : isBlank c = false := by
  rw [isDigit_iff] at digit
  simp only [isBlank, Bool.or_eq_false_iff, Bool.and_eq_false_iff, decide_eq_false_iff_not,
    beq_eq_false_iff_ne]
  omega

theorem ne_of_isDigit {c mark : Char} (digit : c.isDigit = true) (noDigit : mark.isDigit = false) :
    c ≠ mark := by
  rintro rfl
  rw [digit] at noDigit
  cases noDigit

/-- Digits end in front of another character. -/
theorem head?_cons_noDigit {mark : Char} (noDigit : mark.isDigit = false) (rest : Text) :
    ∀ c ∈ (mark :: rest).head?, c.isDigit = false := by
  rintro c here
  cases here
  exact noDigit

/-- A number takes as many digits as it may, and needs its least number of them. -/
theorem takeNumber?_append {digits rest : Text} (digit : ∀ c ∈ digits, c.isDigit = true)
    (ends : ∀ c ∈ rest.head?, c.isDigit = false) (least most : Nat) :
    takeNumber? least most (digits ++ rest) =
      if min most digits.length < least then none
      else some (Text.digitsValue (digits.take most), digits.drop most ++ rest) := by
  have digitTaken : ∀ c ∈ digits.take most, c.isDigit = true := fun c member =>
    digit c (List.mem_of_mem_take member)
  have stops : (rest.take (most - digits.length)).takeWhile Char.isDigit = [] := by
    cases rest with
    | nil => simp
    | cons c rest =>
      cases most - digits.length with
      | zero => rfl
      | succ more =>
        rw [List.take_succ_cons, List.takeWhile_cons_of_neg]
        simp [ends c rfl]
  have taken : ((digits ++ rest).take most).takeWhile Char.isDigit = digits.take most := by
    rw [List.take_append, List.takeWhile_append_of_pos digitTaken, stops, List.append_nil]
  have left : (digits ++ rest).drop (min most digits.length) = digits.drop most ++ rest := by
    rcases Nat.le_total most digits.length with fewer | all
    · rw [Nat.min_eq_left fewer, List.drop_append_of_le_length fewer]
    · rw [Nat.min_eq_right all, List.drop_left, List.drop_eq_nil_of_le all, List.nil_append]
  rw [takeNumber?, taken, List.length_take, left]

/-! ## Texts that are no absolute times -/

section

variable {digits rest : Text} {c : Char}

/-- Digits in front of another character leave it or one of them behind. -/
theorem takeNumber?_cases (digit : ∀ c ∈ digits, c.isDigit = true) (letter : c.isDigit = false)
    (noMinus : c ≠ '-') (least most : Nat) :
    takeNumber? least most (digits ++ c :: rest) = none ∨
      ∃ number next more, takeNumber? least most (digits ++ c :: rest) =
        some (number, next :: more) ∧ next ≠ '-' := by
  rw [takeNumber?_append digit (head?_cons_noDigit letter rest)]
  split
  · exact Or.inl rfl
  · right
    cases left : digits.drop most with
    | nil => exact ⟨_, c, rest, rfl, noMinus⟩
    | cons next more =>
      have inside : next ∈ digits := List.mem_of_mem_drop (left ▸ List.mem_cons_self)
      exact ⟨_, next, more ++ c :: rest, rfl, ne_of_isDigit (digit next inside) rfl⟩

theorem takeMark?_of_ne {mark : Char} (different : c ≠ mark) (rest : Text) :
    takeMark? mark (c :: rest) = none := by
  rw [takeMark?, if_neg different]

theorem takeYear?_of_ne (noMinus : c ≠ '-') (noPlus : c ≠ '+') (rest : Text) :
    takeYear? (c :: rest) = (takeNumber? 1 4 (c :: rest)).map fun (year, rest) => (year, rest) := by
  rw [takeYear?]
  · exact fun _ same => noMinus (List.cons.inj same).1
  · exact fun _ same => noPlus (List.cons.inj same).1

theorem internetTime?_eq_none (digit : ∀ c ∈ digits, c.isDigit = true)
    (letter : c.isDigit = false) (noMinus : c ≠ '-') :
    internetTime? (digits ++ c :: rest) = none := by
  rw [internetTime?]
  rcases takeNumber?_cases digit letter noMinus 4 4 with
    missing | ⟨number, next, more, year, noMark⟩
  · rw [missing]
    rfl
  · rw [year, Option.bind_eq_bind, Option.bind_some]
    dsimp only
    rw [takeMark?_of_ne noMark]
    rfl

/-- A text that begins with no year and minus sign has no format that begins with a date. -/
theorem ofFormat?_eq_none (digit : ∀ c ∈ digits, c.isDigit = true) (letter : c.isDigit = false)
    (noMinus : c ≠ '-') (begins : digits = [] → c ≠ '+' ∧ isBlank c = false)
    (others : List TimeElement) (parts : TimeParts) :
    TimeParts.ofFormat? (.year :: .mark '-' :: others) parts (digits ++ c :: rest) = none := by
  have start : ∃ first more, digits ++ c :: rest = first :: more ∧ first ≠ '-' ∧ first ≠ '+' ∧
      isBlank first = false := by
    cases digits with
    | nil => exact ⟨c, rest, rfl, noMinus, (begins rfl).1, (begins rfl).2⟩
    | cons first more =>
      have isDigit := digit first List.mem_cons_self
      exact ⟨first, more ++ c :: rest, rfl, ne_of_isDigit isDigit rfl, ne_of_isDigit isDigit rfl,
        isBlank_of_isDigit isDigit⟩
  rcases start with ⟨first, more, shape, firstMinus, firstPlus, blank⟩
  have trimmed : Text.trimStart (digits ++ c :: rest) = digits ++ c :: rest := by
    rw [shape, Text.trimStart, List.dropWhile_cons_of_neg (by simp [blank])]
  have year : takeYear? (digits ++ c :: rest) =
      (takeNumber? 1 4 (digits ++ c :: rest)).map fun (year, rest) => (year, rest) := by
    rw [shape]
    exact takeYear?_of_ne firstMinus firstPlus more
  rw [TimeParts.ofFormat?, TimeParts.takeElement?, trimmed, year]
  rcases takeNumber?_cases digit letter noMinus 1 4 with
    missing | ⟨number, next, left, found, noMark⟩
  · rw [missing]
    rfl
  · rw [found]
    simp only [Option.map_some, Option.bind_some]
    rw [TimeParts.ofFormat?, TimeParts.takeElement?, takeMark?_of_ne noMark]
    rfl

theorem absoluteTime?_eq_none (digit : ∀ c ∈ digits, c.isDigit = true)
    (letter : c.isDigit = false) (noMinus : c ≠ '-')
    (begins : digits = [] → c ≠ '+' ∧ isBlank c = false) :
    absoluteTime? (digits ++ c :: rest) = none := by
  have noFormat (others : List TimeElement) (parts : TimeParts) : TimeParts.ofFormat?
      (.year :: .mark '-' :: others) parts (digits ++ c :: rest) = none :=
    ofFormat?_eq_none digit letter noMinus begins others parts
  rw [absoluteTime?, internetTime?_eq_none digit letter noMinus, Option.none_or, lenientTime?]
  simp only [List.findSome?_cons, secondFormat, minuteFormat, dateFormat, List.cons_append,
    noFormat, Option.bind_none, List.findSome?_nil]

end

end AlarmQuery
