import EventPipeline.Text.Ranges

/-!
# Blanks

Whitespace of every script, the separators that end a line, and the trimming of texts.
-/

namespace EventPipeline

namespace Symbol

/-- Whitespace characters, the four information separators included. -/
def blankRanges : CodeRanges :=
  [(0x09, 0x0D), (0x1C, 0x20), (0x85, 0x85), (0xA0, 0xA0), (0x1680, 0x1680), (0x2000, 0x200A),
   (0x2028, 0x2029), (0x202F, 0x202F), (0x205F, 0x205F), (0x3000, 0x3000)]

/-- A whitespace character. -/
def isBlank : Symbol → Bool
  | .char c => blankRanges.contains c.toNat
  | .surrogate _ => false

/-- A character that ends a line of a document. -/
def endsLine : Symbol → Bool
  | .char c => c == '\n' || c == '\r' || c == '\x0b' || c == '\x0c' || c == '\x1c' || c == '\x1d'
      || c == '\x1e' || c == '\u0085' || c == '\u2028' || c == '\u2029'
  | .surrogate _ => false

end Symbol

namespace Text

/-- The text without whitespace at its start. -/
def stripStart (t : Text) : Text :=
  t.dropWhile Symbol.isBlank

/-- The text without whitespace at its end. -/
def stripEnd (t : Text) : Text :=
  (t.reverse.dropWhile Symbol.isBlank).reverse

/-- The text without whitespace at either end. -/
def strip (t : Text) : Text :=
  stripEnd (stripStart t)

/-- The text holds whitespace only, or nothing. -/
def isBlank (t : Text) : Bool :=
  t.all Symbol.isBlank

theorem stripStart_eq_nil_iff (t : Text) : stripStart t = [] ↔ isBlank t = true := by
  induction t with
  | nil => simp [stripStart, isBlank]
  | cons c t ih =>
    simp only [stripStart, isBlank, List.dropWhile_cons, List.all_cons] at ih ⊢
    cases h : c.isBlank <;> simp [ih]

theorem isBlank_eq_false_iff (t : Text) : isBlank t = false ↔ ∃ s ∈ t, s.isBlank = false := by
  rw [isBlank, List.all_eq_false]
  simp only [Bool.not_eq_true]

end Text

end EventPipeline
