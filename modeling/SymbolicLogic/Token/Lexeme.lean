import SymbolicLogic.Text.Blank

/-!
# Lexemes

Text is cut into lexemes: a glyph, which is any character that is not blank,
and the longest run of index characters directly after it. Blanks separate
lexemes and are dropped. Cutting never fails and loses nothing but blanks.
-/

namespace SymbolicLogic

/-- A glyph with the index characters after it. -/
structure Lexeme where
  glyph : Char
  index : List Char
  deriving DecidableEq, Repr

namespace Lexeme

/-- Characters of an index: digits, subscript digits, primes, apostrophes. -/
def isIndex (c : Char) : Bool :=
  ('0' <= c && c <= '9') || ('₀' <= c && c <= '₉') || c = '′' || c = '\''

/-- The characters of a lexeme. -/
def characters (lexeme : Lexeme) : List Char :=
  lexeme.glyph :: lexeme.index

/-- The text of a lexeme. -/
def text (lexeme : Lexeme) : String :=
  String.ofList lexeme.characters

mutual

/-- Read on with no lexeme begun. -/
def between : List Char -> List Lexeme
  | [] => []
  | c :: rest => if Text.isBlank c then between rest else within ⟨c, []⟩ rest

/-- Read on with a lexeme begun: its glyph and its index so far. -/
def within (begun : Lexeme) : List Char -> List Lexeme
  | [] => [begun]
  | c :: rest =>
      if isIndex c then within { begun with index := begun.index ++ [c] } rest
      else if Text.isBlank c then begun :: between rest
      else begun :: within ⟨c, []⟩ rest

end

/-- The lexemes of a text. -/
def ofText (text : List Char) : List Lexeme :=
  between text

/-- No index character is blank. -/
theorem isBlank_of_isIndex
    {c : Char}
    (index : isIndex c = true) :
    Text.isBlank c = false := by
  have bounds : (0x30 <= c.toNat ∧ c.toNat <= 0x39) ∨
      (0x2080 <= c.toNat ∧ c.toNat <= 0x2089) ∨ c.toNat = 0x2032 ∨
        c.toNat = 0x27 := by
    simp only [isIndex, Bool.or_eq_true, Bool.and_eq_true, decide_eq_true_eq]
      at index
    rcases index with ((digit | subscript) | rfl) | rfl
    · exact .inl digit
    · exact .inr (.inl subscript)
    · exact .inr (.inr (.inl rfl))
    · exact .inr (.inr (.inr rfl))
  simp [Text.isBlank, Text.blankRanges]
  omega

mutual

/-- Lexemes keep all characters of a text but its blanks. -/
theorem characters_between (text : List Char) :
    (between text).flatMap characters =
      text.filter fun c => !Text.isBlank c := by
  cases text with
  | nil => rfl
  | cons c rest =>
      by_cases blank : Text.isBlank c = true
      · simp [between, blank, characters_between rest]
      · simp [between, blank, characters_within ⟨c, []⟩ rest, characters]

/-- A lexeme that has begun is kept in front of them. -/
theorem characters_within (begun : Lexeme) (text : List Char) :
    (within begun text).flatMap characters =
      begun.characters ++ text.filter fun c => !Text.isBlank c := by
  cases text with
  | nil => simp [within]
  | cons c rest =>
      by_cases index : isIndex c = true
      · simp [within, index, characters_within _ rest,
          isBlank_of_isIndex index, characters]
      · by_cases blank : Text.isBlank c = true
        · simp [within, index, blank, characters_between rest]
        · simp [within, index, blank, characters_within ⟨c, []⟩ rest,
            characters]

end

/-- The lexemes of a text hold its characters in order, but for the blanks. -/
theorem characters_ofText (text : List Char) :
    (ofText text).flatMap characters =
      text.filter fun c => !Text.isBlank c :=
  characters_between text

end Lexeme
end SymbolicLogic
