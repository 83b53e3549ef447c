/-!
# Blank characters

Spacing in logical notation is any character with the Unicode property
White_Space. Symbols are separated by it, it never belongs to a symbol, and
table cells are compared after trimming it.
-/

namespace SymbolicLogic
namespace Text

/-- The code points of White_Space, as inclusive ranges in ascending order. -/
def blankRanges : List (Nat × Nat) :=
  [(0x09, 0x0D), (0x20, 0x20), (0x85, 0x85), (0xA0, 0xA0), (0x1680, 0x1680),
    (0x2000, 0x200A), (0x2028, 0x2029), (0x202F, 0x202F), (0x205F, 0x205F),
    (0x3000, 0x3000)]

/-- A character is blank when Unicode gives it the property White_Space. -/
def isBlank (c : Char) : Bool :=
  blankRanges.any fun range => range.1 <= c.toNat && c.toNat <= range.2

/-- Every character that core calls white space is blank. -/
theorem isBlank_of_isWhitespace
    {c : Char}
    (white : c.isWhitespace = true) :
    isBlank c = true := by
  simp only [Char.isWhitespace, Bool.or_eq_true, decide_eq_true_eq] at white
  rcases white with ((rfl | rfl) | rfl) | rfl <;> decide

/-- Remove the blanks at both ends. -/
def trim (text : List Char) : List Char :=
  ((text.dropWhile isBlank).reverse.dropWhile isBlank).reverse

/-- A text is blank when it holds nothing but blanks. -/
def allBlank (text : List Char) : Bool :=
  text.all isBlank

/-- Nothing is left of a blank text without the blanks in front. -/
theorem dropWhile_isBlank_eq_nil_iff (text : List Char) :
    text.dropWhile isBlank = [] ↔ allBlank text = true := by
  induction text with
  | nil => simp [allBlank]
  | cons c rest ih =>
      by_cases blank : isBlank c = true
      · simp_all [allBlank]
      · simp [allBlank, blank]

/-- Trimming leaves nothing of a blank text, and something of every other. -/
theorem trim_eq_nil_iff (text : List Char) :
    trim text = [] ↔ allBlank text = true := by
  unfold trim
  rw [List.reverse_eq_nil_iff, dropWhile_isBlank_eq_nil_iff]
  constructor
  · intro blank
    apply (dropWhile_isBlank_eq_nil_iff text).mp
    have stop := List.head?_dropWhile_not isBlank text
    cases kept : text.dropWhile isBlank with
    | nil => rfl
    | cons c rest => simp_all [allBlank]
  · intro blank
    rw [(dropWhile_isBlank_eq_nil_iff text).mpr blank]
    rfl

end Text
end SymbolicLogic
