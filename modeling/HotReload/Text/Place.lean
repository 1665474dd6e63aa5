/-! # Places in a text

A place is a line and a column, both counted from one. Lines end at `'\n'`, and a column counts
characters. `Place.advance` is the one rule by which places move; every reader of this library keeps
its place by it.
-/

namespace HotReload

/-- A line and a column of a text, both counted from one. -/
structure Place where
  line : Nat := 1
  column : Nat := 1
  deriving DecidableEq, Repr, Inhabited

namespace Place

/-- Where a text begins. -/
def start : Place := ⟨1, 1⟩

/-- The place after one character. -/
def next (p : Place) (c : Char) : Place :=
  if c = '\n' then ⟨p.line + 1, 1⟩ else ⟨p.line, p.column + 1⟩

/-- The place after a run of characters. -/
def advance (p : Place) (text : List Char) : Place :=
  text.foldl next p

@[simp] theorem advance_nil (p : Place) : p.advance [] = p := rfl

@[simp] theorem advance_cons (p : Place) (c : Char) (text : List Char) :
    p.advance (c :: text) = (p.next c).advance text := rfl

@[simp] theorem advance_append (p : Place) (a b : List Char) :
    p.advance (a ++ b) = (p.advance a).advance b := List.foldl_append

end Place

/-- The rest of a text that is being read, with its place. -/
structure Cursor where
  place : Place
  rest : List Char
  deriving DecidableEq, Repr, Inhabited

namespace Cursor

/-- A cursor before the first character of a text. -/
def ofText (text : List Char) : Cursor := ⟨Place.start, text⟩

/-- `c.Reads text d` says that `d` is the cursor `c` after reading `text`. -/
def Reads (c : Cursor) (text : List Char) (d : Cursor) : Prop :=
  c.rest = text ++ d.rest ∧ d.place = c.place.advance text

theorem Reads.refl (c : Cursor) : c.Reads [] c := ⟨rfl, rfl⟩

theorem Reads.trans {c d e : Cursor} {a b : List Char} (h : c.Reads a d) (k : d.Reads b e) :
    c.Reads (a ++ b) e :=
  ⟨by rw [h.1, k.1, List.append_assoc], by rw [k.2, h.2, Place.advance_append]⟩

theorem Reads.cons {p : Place} {x : Char} {xs text : List Char} {d : Cursor}
    (h : Cursor.Reads ⟨p.next x, xs⟩ text d) : Cursor.Reads ⟨p, x :: xs⟩ (x :: text) d :=
  ⟨by rw [show (x :: xs) = x :: (text ++ d.rest) from congrArg _ h.1]; rfl, h.2⟩

theorem Reads.run {p q : Place} {xs cs read b t : List Char} {d : Cursor}
    (h : Cursor.Reads ⟨q, cs⟩ (b ++ t) d) (hq : q = p.advance read) (hx : xs = read ++ cs) :
    Cursor.Reads ⟨p, xs⟩ (read ++ b ++ t) d := by
  subst hq hx
  obtain ⟨rfl, hd⟩ := h
  exact ⟨by simp, by simpa using hd⟩

theorem Reads.length_le {c d : Cursor} {text : List Char} (h : c.Reads text d) :
    d.rest.length ≤ c.rest.length := by
  rw [h.1]
  simp

theorem Reads.length_lt {c d : Cursor} {text : List Char} (h : c.Reads text d) (hne : text ≠ []) :
    d.rest.length < c.rest.length := by
  have := List.length_pos_iff.2 hne
  rw [h.1, List.length_append]
  omega

end Cursor

end HotReload
