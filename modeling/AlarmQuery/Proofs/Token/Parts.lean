import AlarmQuery.Proofs.Token.Word

/-!
# Texts that are written part by part

A text that is scanned in front of anything that ends a word keeps its tokens wherever it is
written.  So the tokens of a list of such texts, with spaces between them, are those of its items
one after the other, and parentheses around a text are parentheses around its tokens.
-/

namespace AlarmQuery

/-! ## Lists that are written part by part -/

/-- A sequence that consists of one part for each item. -/
inductive Concats {α β : Type} (part : α → List β → Prop) : List α → List β → Prop
  | nil : Concats part [] []
  | cons {item items first others} (head : part item first) (tail : Concats part items others) :
      Concats part (item :: items) (first ++ others)

namespace Concats

variable {α β : Type} {part other : α → List β → Prop}

theorem imp {items : List α} {whole : List β}
    (step : ∀ item ∈ items, ∀ tokens, part item tokens → other item tokens)
    (concats : Concats part items whole) : Concats other items whole := by
  induction concats with
  | nil => exact .nil
  | cons head tail ih =>
    exact .cons (step _ List.mem_cons_self _ head)
      (ih fun item member => step item (List.mem_cons_of_mem _ member))

/-- Every item has its part somewhere in the whole. -/
theorem exists_part {items : List α} {whole : List β} (concats : Concats part items whole)
    {item : α} (member : item ∈ items) : ∃ inner, inner <:+: whole ∧ part item inner := by
  induction concats with
  | nil => exact absurd member List.not_mem_nil
  | @cons head items first others found tail ih =>
    rcases List.mem_cons.1 member with rfl | later
    · exact ⟨first, (List.prefix_append first others).isInfix, found⟩
    · rcases ih later with ⟨inner, inside, holds⟩
      exact ⟨inner, inside.trans (List.suffix_append first others).isInfix, holds⟩

theorem forall_mem {items : List α} {whole : List β} {property : β → Prop}
    (each : ∀ item ∈ items, ∀ tokens, part item tokens → ∀ token ∈ tokens, property token)
    (concats : Concats part items whole) : ∀ token ∈ whole, property token := by
  induction concats with
  | nil => exact fun _ absent => absurd absent List.not_mem_nil
  | cons head tail ih =>
    intro token member
    rcases List.mem_append.1 member with first | later
    · exact each _ List.mem_cons_self _ head token first
    · exact ih (fun item inside => each item (List.mem_cons_of_mem _ inside)) token later

end Concats

/-- Tokens in parentheses. -/
def Parenthesized (inner : List (Placed Token) → Prop) (tokens : List (Placed Token)) : Prop :=
  ∃ opening content closing, tokens = opening :: (content ++ [closing]) ∧
    opening.value = .openParen ∧ closing.value = .closeParen ∧ inner content

/-! ## Scanning part by part -/

/-- In front of anything that ends a word the text is scanned, and of its tokens something is
known. -/
def ScannedAs (text : Text) (good : List (Placed Token) → Prop) : Prop :=
  ∀ position rest, EndsWord rest → ∃ tokens,
    Scans ⟨position, text ++ rest⟩ tokens ⟨position + text.length, rest⟩ ∧ good tokens

theorem ScannedAs.imp {text : Text} {good other : List (Placed Token) → Prop}
    (scanned : ScannedAs text good) (step : ∀ tokens, good tokens → other tokens) :
    ScannedAs text other := by
  intro position rest ends
  rcases scanned position rest ends with ⟨tokens, scans, holds⟩
  exact ⟨tokens, scans, step tokens holds⟩

/-- The text can be scanned alone. -/
theorem ScannedAs.scan {text : Text} {good : List (Placed Token) → Prop}
    (scanned : ScannedAs text good) :
    ∃ scanned, AlarmQuery.scan text = .ok scanned ∧ good scanned.tokens := by
  rcases scanned 0 [] endsWord_nil with ⟨tokens, scansAll, holds⟩
  rw [List.append_nil] at scansAll
  exact ⟨_, scan_eq_ok_of_scans scansAll, holds⟩

/-- Parts with spaces between them are scanned one after the other. -/
theorem scannedAs_join {α : Type} {text : α → Text} {part : α → List (Placed Token) → Prop}
    {items : List α} (each : ∀ item ∈ items, ScannedAs (text item) (part item)) :
    ScannedAs (Text.join [' '] (items.map text)) (Concats part items) := by
  intro position rest ends
  induction items generalizing position with
  | nil => exact ⟨[], Scans.refl _, .nil⟩
  | cons item items ih =>
    have others := ih fun other member => each other (List.mem_cons_of_mem _ member)
    cases items with
    | nil =>
      rcases each item List.mem_cons_self position rest ends with ⟨tokens, scans, holds⟩
      refine ⟨tokens, scans, ?_⟩
      have only : Concats part [item] (tokens ++ []) := .cons holds .nil
      rwa [List.append_nil] at only
    | cons next items =>
      let following := Text.join [' '] ((next :: items).map text)
      have spaced : EndsWord (' ' :: (following ++ rest)) := endsWord_cons ' ' (by decide) _
      rcases each item List.mem_cons_self position _ spaced with ⟨tokens, scans, holds⟩
      have space := scans_space (by decide : isSpace ' ' = true)
        (position + (text item).length) (following ++ rest)
      rcases others (position + (text item).length + 1) with ⟨later, scansLater, holdsLater⟩
      refine ⟨tokens ++ later, ?_, .cons holds holdsLater⟩
      have joined := scans.trans (space.trans scansLater)
      refine Scans.recount (by simpa [following] using joined) ?_
      simp only [List.map_cons, Text.join_cons_cons, List.length_append, List.length_cons,
        List.length_nil]
      omega

theorem ScannedAs.enclose {text : Text} {inner : List (Placed Token) → Prop}
    (scanned : ScannedAs text inner) :
    ScannedAs ('(' :: (text ++ [')'])) (Parenthesized inner) := by
  intro position rest _
  have ends : EndsWord (')' :: rest) := endsWord_cons ')' (by decide) rest
  rcases scanned (position + 1) _ ends with ⟨tokens, scans, holds⟩
  have joined := (scans_openParen position (text ++ ')' :: rest)).trans
    (scans.trans (scans_closeParen (position + 1 + text.length) rest))
  refine ⟨_, Scans.recount (by simpa using joined) ?_, ⟨_, _⟩, tokens, ⟨_, _⟩, rfl, rfl, rfl, holds⟩
  simp only [List.length_append, List.length_cons, List.length_nil]
  omega

end AlarmQuery
