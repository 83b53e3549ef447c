import SymbolicLogic.Language.Validity

/-!
# The registry of languages

A registry finds valid languages by name. It starts with the built-in ones; a
language registered under a name in use takes the place of the one before.
-/

namespace SymbolicLogic

/-- Languages by name, in order of their first registration. -/
structure Registry where
  languages : List Language
  deriving DecidableEq, Repr

namespace Registry

/-- The registry of the built-in languages. -/
def builtin : Registry :=
  ⟨[.sentential, .predicate]⟩

/-- The names in use. -/
def names (registry : Registry) : List String :=
  registry.languages.map Language.name

/-- The language of a name. -/
def get (registry : Registry) (name : String) : Except LanguageError Language :=
  match registry.languages.find? fun language => language.name = name with
  | some language => .ok language
  | none => .error (.unknown name)

/-- Put a language in the place of the one with its name, or at the end. -/
def put (language : Language) : List Language -> List Language
  | [] => [language]
  | first :: rest =>
      if first.name = language.name then language :: rest
      else first :: put language rest

/-- A language that was put in is the one that is found by its name. -/
theorem find?_put (language : Language) (languages : List Language) :
    ((put language languages).find? fun found => found.name = language.name) =
      some language := by
  induction languages with
  | nil => simp [put]
  | cons first rest ih =>
      unfold put
      split
      · simp
      · next other => simp [other, ih]

/-- Add a valid language, replacing one of the same name. -/
def register
    (registry : Registry)
    (language : Language) : Except LanguageError Registry := do
  language.validate
  return ⟨put language registry.languages⟩

end Registry
end SymbolicLogic
