/-!
A place in a text. What lies before it is kept backwards, so moving by a few characters costs no
more than those characters, and the text as a whole is the same after every move.
-/

namespace Parens

@[ext] structure Cursor where
  /-- What lies before the cursor, its last character first. -/
  before : List Char
  after : List Char
  pos : Nat
  pos_eq : pos = before.length

namespace Cursor

def ofText (text : List Char) : Cursor := ⟨[], text, 0, rfl⟩

def consumed (c : Cursor) : List Char := c.before.reverse

def source (c : Cursor) : List Char := c.consumed ++ c.after

/-- The cursor `n` characters further on, or at the end of the text. -/
def advance (c : Cursor) (n : Nat) : Cursor :=
  let passed := c.after.take n
  { before := passed.reverse ++ c.before
    after := c.after.drop n
    pos := c.pos + passed.length
    pos_eq := by rw [c.pos_eq, List.length_append, List.length_reverse, Nat.add_comm] }

/-- The cursor `n` characters further back, or at the start of the text. -/
def retreat (c : Cursor) (n : Nat) : Cursor :=
  let passed := c.before.take n
  { before := c.before.drop n
    after := passed.reverse ++ c.after
    pos := c.pos - passed.length
    pos_eq := by rw [c.pos_eq, List.length_take, List.length_drop]; omega }

@[simp] theorem source_ofText (text : List Char) : (ofText text).source = text := by
  simp [ofText, source, consumed]

@[simp] theorem source_advance (c : Cursor) (n : Nat) : (c.advance n).source = c.source := by
  simp [advance, source, consumed]

@[simp] theorem source_retreat (c : Cursor) (n : Nat) : (c.retreat n).source = c.source := by
  simp only [retreat, source, consumed, ← List.append_assoc, ← List.reverse_append,
    List.take_append_drop]

@[simp] theorem after_advance (c : Cursor) (n : Nat) : (c.advance n).after = c.after.drop n := rfl

@[simp] theorem consumed_advance (c : Cursor) (n : Nat) :
    (c.advance n).consumed = c.consumed ++ c.after.take n := by
  simp [advance, consumed]

theorem pos_le (c : Cursor) : c.pos ≤ c.source.length := by
  rw [c.pos_eq, source, consumed, List.length_append, List.length_reverse]
  omega

theorem pos_advance {c : Cursor} {n : Nat} (h : n ≤ c.after.length) :
    (c.advance n).pos = c.pos + n := by
  simp [advance, Nat.min_eq_left h]

theorem pos_retreat {c : Cursor} {n : Nat} (h : n ≤ c.pos) : (c.retreat n).pos = c.pos - n := by
  rw [c.pos_eq] at h
  simp [retreat, Nat.min_eq_left h]

/-- The source and the position tell where the cursor stands. -/
theorem drop_pos_source (c : Cursor) : c.source.drop c.pos = c.after := by
  rw [source, consumed, List.drop_left' (by rw [List.length_reverse, c.pos_eq])]

/-- Going back as far as one has come leads to where one was. -/
theorem retreat_advance (c : Cursor) (n : Nat) :
    (c.advance n).retreat (c.after.take n).length = c := by
  have hl : (c.after.take n).reverse.length = (c.after.take n).length := List.length_reverse
  ext1
  · simp only [retreat, advance]
    rw [List.drop_left' hl]
  · simp only [retreat, advance]
    rw [List.take_left' hl, List.reverse_reverse, List.take_append_drop]
  · simp only [retreat, advance]
    rw [List.take_left' hl, hl, Nat.add_sub_cancel]

end Cursor
end Parens
