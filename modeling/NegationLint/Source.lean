/-
  Source buffers and spans.

  A buffer is the text under inspection together with the offsets at which its lines begin.  Only
  the newline U+000A ends a line; the first line begins at offset 0 and a line begins behind every
  newline, also behind one that ends the text.

  A `Span` is a half-open piece `[begin, stop)` of the buffer with the line (from 1) and the column
  (from 0) of its beginning.  Offsets may lie past the end of the text: line and column are those
  that a longer last line would have.

  1. `Text.lineStarts` — the ascending offsets of line beginnings, never empty;
  2. `Buffer.span` — the last line that begins at or before the offset, and the distance from there;
  3. `Span.overlaps` — the two pieces share a code point, where an empty piece shares none with its
     neighbours but lies inside a piece that surrounds it.
-/
import NegationLint.Text.Basic

namespace NegationLint

/-- A half-open piece of a source, with the place of its beginning. -/
structure Span where
  begin : Int
  stop : Int
  line : Int
  column : Int
deriving DecidableEq

/-- Each of the two pieces begins before the other one ends. -/
def Span.overlaps (s t : Span) : Bool := s.begin < t.stop && t.begin < s.stop

theorem Span.overlaps_comm (s t : Span) : s.overlaps t = t.overlaps s := Bool.and_comm ..

/-! ## Lines -/

/-- The offsets behind the newlines of a text that begins at `offset`. -/
def Text.lineStartsFrom (offset : Int) : Text → List Int
  | [] => []
  | c :: rest =>
    if c.is '\n' then (offset + 1) :: lineStartsFrom (offset + 1) rest
    else lineStartsFrom (offset + 1) rest

/-- The offsets at which the lines of a text begin. -/
def Text.lineStarts (t : Text) : List Int := 0 :: lineStartsFrom 0 t

/-- A source text with its size and its line beginnings at hand. -/
structure Buffer where
  text : Text
  size : Nat := text.length
  lineStarts : List Int := text.lineStarts
  size_eq : size = text.length := by rfl
  lineStarts_eq : lineStarts = text.lineStarts := by rfl

namespace Buffer

/-- The buffer of a text. -/
def ofText (t : Text) : Buffer := { text := t }

/-- The span between two offsets. -/
def span (b : Buffer) (begin stop : Int) : Span :=
  let before := b.lineStarts.takeWhile (· ≤ begin)
  { begin, stop, line := before.length, column := begin - before.getLast?.getD 0 }

/-- The text of a span. -/
def slice (b : Buffer) (s : Span) : Text := b.text.slice s.begin s.stop

@[simp] theorem text_ofText (t : Text) : (ofText t).text = t := rfl

@[simp] theorem size_ofText (t : Text) : (ofText t).size = t.length := rfl

end Buffer

end NegationLint
