import AlarmQuery.Text.Basic

/-!
# Cursors

A cursor is a place in a text.  `Cursor.Reads` says that one cursor lies behind another with a
given text between them, which is what every reader of tokens guarantees.
-/

namespace AlarmQuery

/-- A place in a text: how many characters lie before it, and the ones that follow. -/
structure Cursor where
  position : Nat
  rest : Text
deriving DecidableEq, Repr

namespace Cursor

/-- The place before the first character of a text. -/
def ofText (text : Text) : Cursor := ⟨0, text⟩

/-- The longest run of characters with a property, and the place behind it. -/
def takeWhile (property : Char → Bool) (start : Cursor) : Text × Cursor :=
  let taken := start.rest.takeWhile property
  (taken, ⟨start.position + taken.length, start.rest.dropWhile property⟩)

/-- The first place whose character lacks a property. -/
def skipWhile (property : Char → Bool) (start : Cursor) : Cursor := (start.takeWhile property).2

/-- From `start` to `stop` one reads `text`. -/
structure Reads (start : Cursor) (text : Text) (stop : Cursor) : Prop where
  rest : start.rest = text ++ stop.rest
  position : stop.position = start.position + text.length

namespace Reads

theorem refl (start : Cursor) : Reads start [] start := ⟨rfl, rfl⟩

theorem trans {start middle stop : Cursor} {first second : Text}
    (one : Reads start first middle) (two : Reads middle second stop) :
    Reads start (first ++ second) stop :=
  ⟨by rw [one.rest, two.rest, List.append_assoc],
    by rw [two.position, one.position, List.length_append, Nat.add_assoc]⟩

/-- What is read is no longer ahead. -/
theorem length_rest {start stop : Cursor} {text : Text} (reads : Reads start text stop) :
    start.rest.length = text.length + stop.rest.length := by
  rw [reads.rest, List.length_append]

end Reads

theorem reads_takeWhile (property : Char → Bool) (start : Cursor) :
    Reads start (start.takeWhile property).1 (start.takeWhile property).2 :=
  ⟨List.takeWhile_append_dropWhile.symm, rfl⟩

theorem reads_skipWhile (property : Char → Bool) (start : Cursor) :
    Reads start (start.rest.takeWhile property) (start.skipWhile property) :=
  start.reads_takeWhile property

end Cursor

end AlarmQuery
