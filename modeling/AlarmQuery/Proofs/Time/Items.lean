import AlarmQuery.Proofs.Text.Words
import AlarmQuery.Proofs.Time.Absolute
import AlarmQuery.Time.Amount
import Mathlib.Algebra.BigOperators.Group.List.Basic
import Mathlib.Algebra.Order.Ring.Int
import Mathlib.Data.Bool.AllAny
import Mathlib.Data.List.TakeWhile
import Mathlib.Tactic.MkIffOfInductiveProp

/-!
# Items of an amount of time

An amount of time is written as items, each of them a number with a unit in one word or in two.
The reader adds them up one by one and checks numbers, products and sums on the way.  For one item
the checks come to one condition on the sum (`TimeAmount.addUnit?_eq_some_iff`), and for all of them
to one on the total (`TimeAmount.addWords?_items_append`).  `TimeAmount.ofText?_eq_some_iff` says
which texts are amounts.
-/

namespace AlarmQuery

/-! ## Units -/

namespace TimeUnit

/-- No two units share a name. -/
theorem ofName?_eq_some_iff {name : Text} {unit : TimeUnit} :
    ofName? name = some unit ↔ name ∈ unit.names := by
  have distinct : ∀ unit ∈ all, ∀ name ∈ unit.names, ofName? name = some unit := by decide
  constructor
  · intro found
    rw [ofName?] at found
    have contained := List.find?_some found
    exact List.contains_iff_mem.1 contained
  · intro named
    exact distinct unit (by cases unit <;> decide) name named

/-- The letters that names of units have. -/
def letters : Text := "acdehiklmnorstuwy".toList

theorem isDigit_of_mem_letters {c : Char} (letter : c ∈ letters) : c.isDigit = false := by
  have noDigit : letters.all fun c => c.isDigit = false := by decide
  exact of_decide_eq_true (List.all_eq_true.1 noDigit c letter)

/-- A name has letters only. -/
theorem letters_of_mem_names {unit : TimeUnit} {name : Text} (named : name ∈ unit.names) :
    name ≠ [] ∧ ∀ c ∈ name, c ∈ letters := by
  have written : ∀ unit ∈ all, ∀ name ∈ unit.names, name ≠ [] ∧ name.all fun c => c ∈ letters := by
    decide
  rcases written unit (by cases unit <;> decide) name named with ⟨nonempty, inside⟩
  exact ⟨nonempty, List.all_iff_forall_prop.1 inside⟩

end TimeUnit

/-- Whether an amount of time may have a character: a digit or a letter of a unit. -/
def isAmountChar (c : Char) : Bool := c.isDigit || TimeUnit.letters.contains c

theorem toNat_lt_of_isAmountChar {c : Char} (own : isAmountChar c = true) : c.toNat < 128 := by
  rcases Bool.or_eq_true_iff.1 own with digit | letter
  · have := isDigit_iff.1 digit
    omega
  · have small : TimeUnit.letters.all fun c => c.toNat < 128 := by decide
    exact of_decide_eq_true (List.all_eq_true.1 small c (List.contains_iff_mem.1 letter))

/-! ## Amounts -/

namespace TimeAmount

/-- So many of a unit. -/
def ofUnit (count : Nat) : TimeUnit → TimeAmount
  | .millisecond => ⟨0, count⟩
  | .second => ⟨0, count * 1000⟩
  | .minute => ⟨0, count * 60000⟩
  | .hour => ⟨0, count * 3600000⟩
  | .day => ⟨0, count * 86400000⟩
  | .week => ⟨0, count * 604800000⟩
  | .month => ⟨count, 0⟩
  | .year => ⟨count * 12, 0⟩

/-- Both amounts together. -/
def add (first second : TimeAmount) : TimeAmount :=
  ⟨first.months + second.months, first.millis + second.millis⟩

@[simp]
theorem zero_add (amount : TimeAmount) : add {} amount = amount := by
  simp [add]

/-- An amount does not become too large. -/
@[mk_iff]
structure IsWithin (amount : TimeAmount) : Prop where
  months : amount.months ≤ maxMonths
  millis : amount.millis ≤ maxMillis

instance (amount : TimeAmount) : Decidable amount.IsWithin :=
  decidable_of_iff _ (isWithin_iff amount).symm

/-- Part of an amount that is not too large is not too large. -/
theorem IsWithin.of_add {first second : TimeAmount} (within : (first.add second).IsWithin) :
    first.IsWithin :=
  ⟨le_trans (Nat.le_add_right _ _) within.months, le_trans (Nat.le_add_right _ _) within.millis⟩

/-! ## Checks -/

theorem atMost?_map_eq_some_iff {α : Type} {limit number : Nat} {make : Nat → α} {made : α} :
    (atMost? limit number).map make = some made ↔ number ≤ limit ∧ made = make number := by
  rw [atMost?]
  split
  · rename_i le
    simp [le, eq_comm]
  · rename_i lt
    simp [lt]

/-- A check makes no difference where what follows implies it. -/
theorem atMost?_bind_iff_of_imp {α : Type} {limit number : Nat} {next : Nat → Option α} {found : α}
    (implied : next number = some found → number ≤ limit) :
    (atMost? limit number).bind next = some found ↔ next number = some found := by
  rw [atMost?]
  split
  · rfl
  · rename_i lt
    exact iff_of_false (by simp) fun follows => lt (implied follows)

section

variable {amount sum : TimeAmount} {count : Nat}

theorem addMonths?_eq_some_iff {months : Nat} :
    amount.addMonths? months = some sum ↔
      amount.months + months ≤ maxMonths ∧ sum = amount.add ⟨months, 0⟩ :=
  atMost?_map_eq_some_iff

theorem addMillis?_eq_some_iff {millis : Nat} :
    amount.addMillis? millis = some sum ↔
      amount.millis + millis ≤ maxMillis ∧ sum = amount.add ⟨0, millis⟩ :=
  atMost?_map_eq_some_iff

/-- The limit for seconds follows from the one for the sum. -/
theorem addSeconds?_eq_some_iff {seconds : Nat} :
    amount.addSeconds? seconds = some sum ↔
      amount.millis + seconds * 1000 ≤ maxMillis ∧ sum = amount.add ⟨0, seconds * 1000⟩ := by
  rw [← addMillis?_eq_some_iff]
  apply atMost?_bind_iff_of_imp
  intro added
  have within := (addMillis?_eq_some_iff.1 added).1
  omega

/-- So does the one for a number of seconds that is a product. -/
theorem addProduct?_eq_some_iff {length : Nat} :
    (atMost? maxCount (count * length)).bind amount.addSeconds? = some sum ↔
      amount.millis + count * (length * 1000) ≤ maxMillis ∧
        sum = amount.add ⟨0, count * (length * 1000)⟩ := by
  rw [← Nat.mul_assoc, ← addSeconds?_eq_some_iff]
  apply atMost?_bind_iff_of_imp
  intro added
  have within := (addSeconds?_eq_some_iff.1 added).1
  have same : maxCount = maxMillis := rfl
  omega

theorem isWithin_add_months_iff (within : amount.IsWithin) {months : Nat} :
    (amount.add ⟨months, 0⟩).IsWithin ↔ amount.months + months ≤ maxMonths := by
  rw [isWithin_iff]
  exact and_iff_left within.millis

theorem isWithin_add_millis_iff (within : amount.IsWithin) {millis : Nat} :
    (amount.add ⟨0, millis⟩).IsWithin ↔ amount.millis + millis ≤ maxMillis := by
  rw [isWithin_iff]
  exact and_iff_right within.months

/-- All the checks for a unit come to one for the sum. -/
theorem addUnit?_eq_some_iff (within : amount.IsWithin) (unit : TimeUnit) :
    amount.addUnit? count unit = some sum ↔
      (amount.add (ofUnit count unit)).IsWithin ∧ sum = amount.add (ofUnit count unit) := by
  cases unit
  case millisecond =>
    rw [ofUnit, isWithin_add_millis_iff within, ← addMillis?_eq_some_iff]
    apply atMost?_bind_iff_of_imp
    intro added
    exact (Nat.le_add_left _ _).trans (addMillis?_eq_some_iff.1 added).1
  case second =>
    rw [ofUnit, isWithin_add_millis_iff within]
    exact addSeconds?_eq_some_iff
  case month =>
    rw [ofUnit, isWithin_add_months_iff within, ← addMonths?_eq_some_iff]
    apply atMost?_bind_iff_of_imp
    intro added
    exact (Nat.le_add_left _ _).trans (addMonths?_eq_some_iff.1 added).1
  case year =>
    rw [ofUnit, isWithin_add_months_iff within, ← addMonths?_eq_some_iff]
    have product : (atMost? maxMonths (count * 12)).bind amount.addMonths? = some sum ↔
        amount.addMonths? (count * 12) = some sum := by
      apply atMost?_bind_iff_of_imp
      intro added
      exact (Nat.le_add_left _ _).trans (addMonths?_eq_some_iff.1 added).1
    rw [← product]
    apply atMost?_bind_iff_of_imp
    intro added
    have sum := (addMonths?_eq_some_iff.1 (product.1 added)).1
    omega
  all_goals
    rw [ofUnit, isWithin_add_millis_iff within]
    exact addProduct?_eq_some_iff

end

end TimeAmount

/-! ## Items -/

/-- A number and the name of a unit, as one word or as two. -/
structure TimeItem where
  digits : Text
  unit : TimeUnit
  name : Text
  joined : Bool
  digits_ne_nil : digits ≠ []
  isDigit : ∀ c ∈ digits, c.isDigit = true
  named : name ∈ unit.names

namespace TimeItem

/-- The words of an item. -/
def words (item : TimeItem) : List Text :=
  if item.joined then [item.digits ++ item.name] else [item.digits, item.name]

/-- The number of an item. -/
def count (item : TimeItem) : Nat := Text.digitsValue item.digits

/-- The amount of time that an item stands for. -/
def amount (item : TimeItem) : TimeAmount := .ofUnit item.count item.unit

/-- The first word of an item begins with a digit. -/
theorem exists_of_words (item : TimeItem) :
    ∃ c word others, item.words = (c :: word) :: others ∧ c.isDigit = true := by
  rcases List.exists_cons_of_ne_nil item.digits_ne_nil with ⟨c, rest, digits⟩
  have digit : c.isDigit = true := item.isDigit c (by rw [digits]; exact List.mem_cons_self)
  rw [words, digits]
  split
  · exact ⟨c, rest ++ item.name, [], rfl, digit⟩
  · exact ⟨c, rest, [item.name], rfl, digit⟩

theorem flatten_words (item : TimeItem) : item.words.flatten = item.digits ++ item.name := by
  rw [words]
  split <;> simp

/-- An item is more than its number. -/
theorem exists_letter (item : TimeItem) : ∃ word ∈ item.words, ∃ c ∈ word, c.isDigit = false := by
  rcases TimeUnit.letters_of_mem_names item.named with ⟨nonempty, letters⟩
  rcases List.exists_mem_of_ne_nil _ nonempty with ⟨c, member⟩
  have inside : c ∈ item.words.flatten := by
    rw [flatten_words]
    exact List.mem_append_right _ member
  rcases List.mem_flatten.1 inside with ⟨word, ofItem, ofWord⟩
  exact ⟨word, ofItem, c, ofWord, TimeUnit.isDigit_of_mem_letters (letters c member)⟩

theorem isAmountChar_of_mem (item : TimeItem) {word : Text} (ofItem : word ∈ item.words) {c : Char}
    (ofWord : c ∈ word) : isAmountChar c = true := by
  have inside : c ∈ item.words.flatten := List.mem_flatten.2 ⟨word, ofItem, ofWord⟩
  rw [flatten_words] at inside
  rw [isAmountChar, Bool.or_eq_true_iff, List.contains_iff_mem]
  rcases List.mem_append.1 inside with digit | letter
  · exact Or.inl (item.isDigit c digit)
  · exact Or.inr ((TimeUnit.letters_of_mem_names item.named).2 c letter)

/-- A name has no number in front. -/
theorem takeWhile_name (item : TimeItem) :
    item.name.takeWhile Char.isDigit = [] ∧ item.name.dropWhile Char.isDigit = item.name := by
  rcases TimeUnit.letters_of_mem_names item.named with ⟨nonempty, letters⟩
  rcases List.exists_cons_of_ne_nil nonempty with ⟨c, rest, same⟩
  have letter : c.isDigit = false :=
    TimeUnit.isDigit_of_mem_letters (letters c (by rw [same]; exact List.mem_cons_self))
  rw [same]
  simp [letter]

/-- The number ends where the name begins. -/
theorem takeWhile_word (item : TimeItem) :
    (item.digits ++ item.name).takeWhile Char.isDigit = item.digits ∧
      (item.digits ++ item.name).dropWhile Char.isDigit = item.name := by
  rw [List.takeWhile_append_of_pos item.isDigit, List.dropWhile_append_of_pos item.isDigit,
    item.takeWhile_name.1, item.takeWhile_name.2, List.append_nil]
  exact ⟨rfl, rfl⟩

theorem takeWhile_digits (item : TimeItem) :
    item.digits.takeWhile Char.isDigit = item.digits ∧
      item.digits.dropWhile Char.isDigit = [] :=
  ⟨List.takeWhile_eq_self_iff.2 item.isDigit, List.dropWhile_eq_nil_iff.2 item.isDigit⟩

end TimeItem

/-! ## Totals -/

namespace TimeAmount

/-- All the items together: their months, and the rest of them. -/
def total (items : List TimeItem) : TimeAmount :=
  ⟨(items.map fun item => item.amount.months).sum, (items.map fun item => item.amount.millis).sum⟩

theorem add_total_cons (amount : TimeAmount) (item : TimeItem) (items : List TimeItem) :
    amount.add (total (item :: items)) = (amount.add item.amount).add (total items) := by
  simp only [total, add, List.map_cons, List.sum_cons, Nat.add_assoc]

/-- Items can be added up: none of their numbers is too large, nor is what they come to. -/
@[mk_iff]
structure Fits (items : List TimeItem) : Prop where
  counts : ∀ item ∈ items, item.count ≤ maxCount
  total : (total items).IsWithin

instance (items : List TimeItem) : Decidable (Fits items) :=
  decidable_of_iff _ (fits_iff items).symm

/-! ## Words that are read -/

theorem addNamed?_item {amount : TimeAmount} (within : amount.IsWithin) (item : TimeItem) :
    amount.addNamed? item.count item.name =
      if (amount.add item.amount).IsWithin then some (amount.add item.amount) else none := by
  apply Option.ext
  intro sum
  rw [addNamed?, TimeUnit.ofName?_eq_some_iff.2 item.named, Option.bind_some,
    addUnit?_eq_some_iff within, TimeItem.amount, Option.ite_none_right_eq_some, Option.some_inj,
    eq_comm]

theorem exists_unit_of_addNamed? {amount sum : TimeAmount} {count : Nat} {name : Text}
    (added : amount.addNamed? count name = some sum) : ∃ unit : TimeUnit, name ∈ unit.names := by
  rw [addNamed?] at added
  rcases Option.bind_eq_some_iff.1 added with ⟨unit, found, _⟩
  exact ⟨unit, TimeUnit.ofName?_eq_some_iff.1 found⟩

/-- The words of an item are read as this item, if its number is not too large. -/
theorem addWords?_words_append (amount : TimeAmount) (matched : Bool) (item : TimeItem)
    (rest : List Text) :
    amount.addWords? none matched (item.words ++ rest) =
      (atMost? maxCount item.count).bind fun count =>
        (amount.addNamed? count item.name).bind fun sum => sum.addWords? none true rest := by
  have digits : item.digits.isEmpty = false := by
    simpa using item.digits_ne_nil
  have name : item.name.isEmpty = false := by
    simpa using (TimeUnit.letters_of_mem_names item.named).1
  rw [TimeItem.words]
  split
  · rw [List.singleton_append, addWords?, item.takeWhile_word.1, item.takeWhile_word.2, name]
    simp only [count?, digits, TimeItem.count, Bool.false_eq_true, if_false]
  · rw [List.cons_append, List.singleton_append, addWords?, item.takeWhile_digits.1,
      item.takeWhile_digits.2]
    simp only [count?, digits, TimeItem.count, List.isEmpty_nil, if_true]
    apply congrArg
    funext count
    rw [addWords?, item.takeWhile_name.1, item.takeWhile_name.2, name]
    rfl

/-- The sums on the way are within the limits exactly if the last one is. -/
theorem addWords?_items_append {amount : TimeAmount} (items : List TimeItem)
    (within : amount.IsWithin) (matched : Bool) (rest : List Text) :
    amount.addWords? none matched (items.flatMap TimeItem.words ++ rest) =
      if (∀ item ∈ items, item.count ≤ maxCount) ∧ (amount.add (total items)).IsWithin then
        (amount.add (total items)).addWords? none (matched || !items.isEmpty) rest
      else none := by
  induction items generalizing amount matched with
  | nil =>
    rw [if_pos ⟨by simp, within⟩, List.isEmpty_nil, Bool.not_true, Bool.or_false]
    rfl
  | cons item items ih =>
    rw [List.flatMap_cons, List.append_assoc, addWords?_words_append, add_total_cons, atMost?]
    by_cases count : item.count ≤ maxCount
    · rw [if_pos count, Option.bind_some, addNamed?_item within]
      by_cases sum : (amount.add item.amount).IsWithin
      · rw [if_pos sum, Option.bind_some, ih sum]
        exact if_congr (by simp [count]) (by simp) rfl
      · rw [if_neg sum, Option.bind_none, if_neg]
        rintro ⟨_, whole⟩
        exact sum whole.of_add
    · rw [if_neg count, Option.bind_none, if_neg]
      rintro ⟨counts, _⟩
      exact count (counts item List.mem_cons_self)

/-- A word goes on either with its own number or with one that is pending, never with both. -/
theorem pending_of_count? {pending : Option Nat} {digits : Text} {count : Nat}
    (counted : count? pending digits = some count) :
    (pending = none ∧ digits ≠ []) ∨ (pending = some count ∧ digits = []) := by
  cases digits with
  | nil =>
    cases pending with
    | none => cases counted
    | some number => exact Or.inr ⟨counted, rfl⟩
  | cons c rest =>
    cases pending with
    | none => exact Or.inl ⟨rfl, List.cons_ne_nil _ _⟩
    | some number => cases counted

/-- Words that go on where the reader stands: the words of items, behind the name of a unit if a
number is pending. -/
def Continue : Option Nat → List Text → Prop
  | none, words => ∃ items : List TimeItem, words = items.flatMap TimeItem.words
  | some _, words => ∃ (unit : TimeUnit) (name : Text) (items : List TimeItem),
      name ∈ unit.names ∧ words = name :: items.flatMap TimeItem.words

/-- Words that are read at all are the words of items. -/
theorem continue_of_addWords? {amount sum : TimeAmount} {pending : Option Nat} {matched : Bool}
    {words : List Text} (nonempty : ∀ word ∈ words, word ≠ [])
    (read : amount.addWords? pending matched words = some sum) : Continue pending words := by
  induction words generalizing amount pending matched with
  | nil =>
    cases pending with
    | none => exact ⟨[], rfl⟩
    | some count => cases read
  | cons word others ih =>
    have digit : ∀ c ∈ word.takeWhile Char.isDigit, c.isDigit = true := fun _ member =>
      List.mem_takeWhile_imp member
    have whole : word.takeWhile Char.isDigit ++ word.dropWhile Char.isDigit = word :=
      List.takeWhile_append_dropWhile
    have written : word ≠ [] := nonempty word List.mem_cons_self
    have later : ∀ word ∈ others, word ≠ [] := fun word member =>
      nonempty word (List.mem_cons_of_mem _ member)
    rw [addWords?] at read
    rcases Option.bind_eq_some_iff.1 read with ⟨count, counted, read⟩
    revert digit whole read counted
    generalize word.takeWhile Char.isDigit = digits
    generalize word.dropWhile Char.isDigit = name
    intro digit whole counted read
    split at read
    · -- the word is a number, and its unit is the next one
      rename_i isNumber
      rw [List.isEmpty_iff.1 isNumber, List.append_nil] at whole
      rcases ih later read with ⟨unit, name, items, named, rfl⟩
      rcases pending_of_count? counted with ⟨rfl, number⟩ | ⟨_, rfl⟩
      · exact ⟨⟨digits, unit, name, false, number, digit, named⟩ :: items,
          congrArg (fun first => first :: name :: items.flatMap TimeItem.words) whole.symm⟩
      · exact absurd whole.symm written
    · rcases Option.bind_eq_some_iff.1 read with ⟨inner, added, readOthers⟩
      rcases exists_unit_of_addNamed? added with ⟨unit, named⟩
      rcases ih later readOthers with ⟨items, rfl⟩
      rcases pending_of_count? counted with ⟨rfl, number⟩ | ⟨rfl, rfl⟩
      · exact ⟨⟨digits, unit, name, true, number, digit, named⟩ :: items,
          congrArg (fun first => first :: items.flatMap TimeItem.words) whole.symm⟩
      · exact ⟨unit, name, items, named,
          congrArg (fun first => first :: items.flatMap TimeItem.words) whole.symm⟩

/-! ## Texts that are amounts -/

/-- A text lists items: there are some, and its words are theirs. -/
structure Lists (text : Text) (items : List TimeItem) : Prop where
  nonempty : items ≠ []
  words : Text.words text = items.flatMap TimeItem.words

/-- A text expresses an amount: it is `now`, or it lists items that can be added up. -/
def Expresses (text : Text) (amount : TimeAmount) : Prop :=
  (text = "now".toList ∧ amount = {}) ∨
    ∃ items, Lists text items ∧ Fits items ∧ amount = total items

theorem addWords?_eq_append (items : List TimeItem) (rest : List Text) :
    addWords? {} none false (items.flatMap TimeItem.words ++ rest) =
      if Fits items then (total items).addWords? none (!items.isEmpty) rest else none := by
  have zero : IsWithin {} := ⟨Nat.zero_le _, Nat.zero_le _⟩
  rw [addWords?_items_append items zero, zero_add, Bool.false_or,
    if_congr (fits_iff items) rfl rfl]

theorem addWords?_eq_some_iff {items : List TimeItem} {amount : TimeAmount} :
    addWords? {} none false (items.flatMap TimeItem.words) = some amount ↔
      items ≠ [] ∧ Fits items ∧ amount = total items := by
  have read := addWords?_eq_append items []
  rw [List.append_nil] at read
  rw [read, addWords?]
  cases items with
  | nil => simp
  | cons item items => simp [eq_comm]

/-- `now` does not begin with items. -/
theorem words_now_ne {items : List TimeItem} (nonempty : items ≠ []) (others : List Text) :
    Text.words "now".toList ≠ items.flatMap TimeItem.words ++ others := by
  have words : Text.words "now".toList = [['n', 'o', 'w']] := by decide
  rw [words]
  intro same
  rcases List.exists_cons_of_ne_nil nonempty with ⟨item, items, rfl⟩
  rcases item.exists_of_words with ⟨c, word, rest, first, digit⟩
  rw [List.flatMap_cons, first] at same
  obtain ⟨rfl, _⟩ := List.cons.inj (List.cons.inj same).1
  exact absurd digit (by decide)

theorem Lists.ne_now {text : Text} {items : List TimeItem} (lists : Lists text items) :
    text ≠ "now".toList := by
  rintro rfl
  apply words_now_ne lists.nonempty []
  rw [List.append_nil, lists.words]

theorem ofBody?_eq_some_iff {body : Text} {amount : TimeAmount} :
    ofBody? body = some amount ↔ Expresses body amount := by
  rw [ofBody?, Expresses]
  by_cases now : body = "now".toList
  · rw [if_pos now, Option.some_inj]
    constructor
    · rintro rfl
      exact Or.inl ⟨now, rfl⟩
    · rintro (⟨_, rfl⟩ | ⟨items, lists, _⟩)
      · rfl
      · exact absurd now lists.ne_now
  · rw [if_neg now]
    constructor
    · intro read
      rcases continue_of_addWords? (fun _ => Text.ne_nil_of_mem_words) read with ⟨items, words⟩
      rw [words] at read
      rcases addWords?_eq_some_iff.1 read with ⟨nonempty, fits, total⟩
      exact Or.inr ⟨items, ⟨nonempty, words⟩, fits, total⟩
    · rintro (⟨here, _⟩ | ⟨items, lists, fits, total⟩)
      · exact absurd here now
      · rw [lists.words]
        exact addWords?_eq_some_iff.2 ⟨lists.nonempty, fits, total⟩

theorem ofText?_eq_some_iff {text : Text} {amount : TimeAmount} :
    ofText? text = some amount ↔ Expresses (withoutAgo text) amount := ofBody?_eq_some_iff

/-- A text is `now` or lists items, whether they can be added up or not. -/
def IsAmount (text : Text) : Prop := text = "now".toList ∨ ∃ items, Lists text items

theorem Expresses.isAmount {text : Text} {amount : TimeAmount}
    (expressed : Expresses text amount) : IsAmount text := by
  rcases expressed with ⟨now, _⟩ | ⟨items, lists, _⟩
  · exact Or.inl now
  · exact Or.inr ⟨items, lists⟩

theorem IsAmount.isAmountChar_of_mem {text word : Text} (amount : IsAmount text)
    (ofText : word ∈ Text.words text) {c : Char} (ofWord : c ∈ word) : isAmountChar c = true := by
  rcases amount with rfl | ⟨items, lists⟩
  · have letters : ∀ word ∈ Text.words "now".toList, word.all isAmountChar := by decide
    exact List.all_eq_true.1 (letters word ofText) c ofWord
  · rw [lists.words] at ofText
    rcases List.mem_flatMap.1 ofText with ⟨item, _, ofItem⟩
    exact item.isAmountChar_of_mem ofItem ofWord

/-- Digits alone are no amount. -/
theorem IsAmount.exists_letter {text : Text} (amount : IsAmount text) :
    ∃ word ∈ Text.words text, ∃ c ∈ word, c.isDigit = false := by
  rcases amount with rfl | ⟨items, lists⟩
  · exact ⟨"now".toList, by decide, 'n', by decide, rfl⟩
  · rcases List.exists_cons_of_ne_nil lists.nonempty with ⟨item, others, rfl⟩
    rcases item.exists_letter with ⟨word, ofItem, letter⟩
    rw [lists.words]
    exact ⟨word, List.mem_flatMap.2 ⟨item, List.mem_cons_self, ofItem⟩, letter⟩

end TimeAmount

end AlarmQuery
