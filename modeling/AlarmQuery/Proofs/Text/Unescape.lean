import AlarmQuery.Proofs.Text.Letter
import AlarmQuery.Token.Fault

/-!
# Reading escapes

What a text is read as does not depend on where it stands, and reading escapes fails for nothing
else than an escape.
-/

namespace AlarmQuery

/-! ## Results that are changed -/

theorem exists_of_map_eq_ok {ε α β : Type} {result : Except ε α} {change : α → β} {value : β}
    (mapped : result.map change = .ok value) :
    ∃ inner, result = .ok inner ∧ change inner = value := by
  cases result with
  | error fault => cases mapped
  | ok inner => exact ⟨inner, rfl, Except.ok.inj mapped⟩

theorem eq_error_of_map_eq_error {ε α β : Type} {result : Except ε α} {change : α → β} {fault : ε}
    (mapped : result.map change = .error fault) : result = .error fault := by
  cases result with
  | error other => exact congrArg Except.error (Except.error.inj mapped)
  | ok inner => cases mapped

/-- What a computation gives may be compared without its errors. -/
theorem eq_ok_of_toOption {α ε : Type} {computed : Except ε α} {value : α}
    (given : computed.toOption = some value) : computed = .ok value := by
  cases computed with
  | error fault => cases given
  | ok found => rw [Option.some.inj given]

/-! ## Escapes -/

/-- Where a text stands makes no difference to what it is read as. -/
theorem unescape_eq_ok_of_eq_ok {text plain : Text} {position : Nat} (other : Nat)
    (read : unescape position text = .ok plain) : unescape other text = .ok plain := by
  fun_induction unescape position text generalizing other plain with
  | case1 => exact read
  | case2 => cases read
  | case3 => cases read
  | case4 => cases read
  | case5 position first second third fourth rest code found c isChar ih =>
    rcases exists_of_map_eq_ok read with ⟨inner, readRest, rfl⟩
    rw [unescape, found]
    dsimp only
    rw [isChar]
    dsimp only
    rw [ih _ readRest]
    rfl
  | case6 => cases read
  | case7 position c rest _ noCode ih =>
    rcases exists_of_map_eq_ok read with ⟨inner, readRest, rfl⟩
    rw [unescape_escaped noCode, ih _ readRest]
    rfl
  | case8 position c rest alone _ _ escapes ih =>
    rcases exists_of_map_eq_ok read with ⟨inner, readRest, rfl⟩
    have bare : c ≠ '\\' := by
      intro backslash
      cases rest with
      | nil => exact alone backslash rfl
      | cons next rest => exact escapes next rest backslash rfl
    rw [unescape_bare bare, ih _ readRest]
    rfl

theorem unescapeAt_eq_ok_iff {position : Nat} {text plain : Text} :
    unescapeAt position text = .ok plain ↔ unescape 0 text = .ok plain := by
  constructor
  · intro read
    rw [unescapeAt] at read
    cases found : unescape position text with
    | error fault =>
      rw [found] at read
      cases read
    | ok inner =>
      rw [found] at read
      exact Except.ok.inj read ▸ unescape_eq_ok_of_eq_ok 0 found
  · intro read
    rw [unescapeAt, unescape_eq_ok_of_eq_ok position read]
    rfl

/-- Nor does it when a fault would be placed. -/
theorem unescapeAt_eq_ok_of_eq_ok {position : Nat} {text plain : Text} (other : Nat)
    (read : unescapeAt position text = .ok plain) : unescapeAt other text = .ok plain :=
  unescapeAt_eq_ok_iff.2 (unescapeAt_eq_ok_iff.1 read)

theorem unescapeAt_escape (position : Nat) (literal : Bool) (text : Text) :
    unescapeAt position (escape literal text) = .ok text :=
  unescapeAt_eq_ok_iff.2 (unescape_escape literal text 0)

theorem fault_of_unescapeAt {position : Nat} {text : Text} {fault : Placed Fault}
    (refused : unescapeAt position text = .error fault) :
    ∃ inner, unescape position text = .error inner ∧ inner.escapeFault = fault := by
  rw [unescapeAt] at refused
  cases found : unescape position text with
  | ok plain =>
    rw [found] at refused
    cases refused
  | error inner =>
    rw [found] at refused
    exact ⟨inner, rfl, Except.error.inj refused⟩

end AlarmQuery
