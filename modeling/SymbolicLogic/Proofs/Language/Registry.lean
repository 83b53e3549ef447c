import Mathlib.Data.List.Induction
import Mathlib.Data.List.Nodup
import SymbolicLogic.Proofs.Language.Validity
import SymbolicLogic.Proofs.Outcome
import SymbolicLogic.Settings.Document

/-!
# The registry is a map of valid languages

Languages are registered one after the other. One that is not valid is turned away,
and the registry stays as it was. A valid one takes the place of the language with its
name, or comes last. So no two languages share a name and all are valid, and a name
stands for the last valid language that was registered under it, or else for the
built-in one. The languages of settings that were loaded are all valid, and are
registered in order.
-/

namespace SymbolicLogic
namespace Registry

/-- Register a language in place. It is checked before anything is changed. -/
def registering (language : Language) : ExceptT LanguageError (StateM Registry) Unit := do
  liftExcept language.validate
  modify fun registry => ⟨put language registry.languages⟩

/-- What comes of it, and the registry that there is afterwards, whether the language was
registered or not. -/
def attempt
    (registry : Registry)
    (language : Language) : Except LanguageError Unit × Registry :=
  (registering language).run.run registry

/-- The registry after an attempt to register each of the languages, in order. -/
def attemptAll (registry : Registry) (languages : List Language) : Registry :=
  languages.foldl (fun registry language => (registry.attempt language).2) registry

/-- The last valid language of a name. -/
def latest? (languages : List Language) (name : String) : Option Language :=
  languages.reverse.find? fun language =>
    language.name = name && language.validate.isOk

/-- The registry is a map of valid languages. -/
structure IsMap (registry : Registry) : Prop where
  nodup_names : registry.names.Nodup
  valid : ∀ language ∈ registry.languages, language.validate = .ok ()

/-- A name stands for the last valid one of the languages, or else for the built-in
language. -/
structure Records (registry : Registry) (languages : List Language) : Prop where
  isMap : registry.IsMap
  get_eq : ∀ name, registry.get name =
    match latest? languages name, builtin.languages.find? (·.name = name) with
    | some language, _ => .ok language
    | none, some language => .ok language
    | none, none => .error (.unknown name)

variable {registry : Registry} {language found : Language} {languages : List Language}
  {name : String} {error : LanguageError}

/-- A language that is put takes the place of its name, or adds its name at the end. -/
theorem map_name_put (language : Language) (languages : List Language) :
    (put language languages).map Language.name =
      if language.name ∈ languages.map Language.name then
        languages.map Language.name
      else languages.map Language.name ++ [language.name] := by
  induction languages with
  | nil => rfl
  | cons first rest inductionHypothesis =>
      rw [put]
      split
      · next same => simp [same]
      · next other =>
          have other' : language.name ≠ first.name := Ne.symm other
          rw [List.map_cons, inductionHypothesis]
          by_cases member : language.name ∈ rest.map Language.name
          · simp [member]
          · simp [member, other']

theorem eq_or_mem_of_mem_put (member : found ∈ put language languages) :
    found = language ∨ found ∈ languages := by
  induction languages with
  | nil => exact .inl (List.mem_singleton.mp member)
  | cons first rest inductionHypothesis =>
      rw [put] at member
      split at member
      · exact (List.mem_cons.mp member).imp_right (List.mem_cons_of_mem _)
      · rcases List.mem_cons.mp member with rfl | member
        · exact .inr List.mem_cons_self
        · exact (inductionHypothesis member).imp_right (List.mem_cons_of_mem _)

/-- Other names are not affected. -/
theorem find?_put_of_ne (other : language.name ≠ name) (languages : List Language) :
    (put language languages).find? (·.name = name) =
      languages.find? (·.name = name) := by
  induction languages with
  | nil => simp [put, other]
  | cons first rest inductionHypothesis =>
      rw [put]
      split
      · next same => simp [other, same ▸ other]
      · rw [List.find?_cons, List.find?_cons, inductionHypothesis]

theorem attempt_of_valid
    (registry : Registry)
    (valid : language.validate = .ok ()) :
    registry.attempt language = (.ok (), ⟨put language registry.languages⟩) := by
  rw [attempt, registering, valid]
  rfl

/-- A language that is not valid is turned away with the fault that was found, and
nothing changes. -/
theorem attempt_of_error
    (registry : Registry)
    (fault : language.validate = .error error) :
    registry.attempt language = (.error error, registry) := by
  rw [attempt, registering, fault]
  rfl

/-- In place or not, the same languages are registered. -/
theorem register_eq (registry : Registry) (language : Language) :
    registry.register language =
      (registry.attempt language).1.map fun _ => (registry.attempt language).2 := by
  cases outcome : language.validate with
  | error fault =>
      rw [attempt_of_error registry outcome, register, outcome]
      rfl
  | ok =>
      rw [attempt_of_valid registry outcome, register, outcome]
      rfl

/-- An attempt fails with the fault of the language. -/
theorem attempt_eq_error_iff :
    (registry.attempt language).1 = .error error ↔
      language.validate = .error error := by
  cases outcome : language.validate with
  | ok => simp [attempt_of_valid registry outcome]
  | error fault => simp [attempt_of_error registry outcome]

/-- An attempt keeps the registry a map of valid languages. -/
theorem IsMap.attempt (isMap : registry.IsMap) (language : Language) :
    (registry.attempt language).2.IsMap := by
  cases outcome : language.validate with
  | error fault =>
      rw [attempt_of_error registry outcome]
      exact isMap
  | ok =>
      rw [attempt_of_valid registry outcome]
      constructor
      · rw [names, map_name_put]
        split
        · exact isMap.nodup_names
        · next fresh =>
            exact List.nodup_append.mpr ⟨isMap.nodup_names, List.nodup_singleton _,
              fun used member new isNew same =>
                fresh (List.mem_singleton.mp isNew ▸ same ▸ member)⟩
      · intro found member
        rcases eq_or_mem_of_mem_put member with rfl | member
        · exact outcome
        · exact isMap.valid found member

/-- A valid language is found by its name from now on. -/
theorem get_attempt (registry : Registry) (language : Language) (name : String) :
    (registry.attempt language).2.get name =
      if language.name = name ∧ language.validate.isOk = true then .ok language
      else registry.get name := by
  cases outcome : language.validate with
  | error fault =>
      rw [attempt_of_error registry outcome, if_neg (by simp [Except.isOk, Except.toBool])]
  | ok =>
      rw [attempt_of_valid registry outcome]
      by_cases same : language.name = name
      · subst same
        simp [get, find?_put, Except.isOk, Except.toBool]
      · rw [if_neg (fun both => same both.1), get, get, find?_put_of_ne same]

theorem attemptAll_cons
    (registry : Registry)
    (language : Language)
    (languages : List Language) :
    registry.attemptAll (language :: languages) =
      (registry.attempt language).2.attemptAll languages := by
  rw [attemptAll, attemptAll, List.foldl_cons]

theorem isMap_builtin : builtin.IsMap where
  nodup_names := by decide
  valid := fun _ => Language.validate_of_mem_builtin

/-- So do attempts in any number. -/
theorem IsMap.attemptAll (isMap : registry.IsMap) (languages : List Language) :
    (registry.attemptAll languages).IsMap := by
  induction languages generalizing registry with
  | nil => exact isMap
  | cons language languages inductionHypothesis =>
      rw [attemptAll_cons]
      exact inductionHypothesis (isMap.attempt language)

theorem latest?_concat (languages : List Language) (language : Language) (name : String) :
    latest? (languages ++ [language]) name =
      if language.name = name ∧ language.validate.isOk = true then some language
      else latest? languages name := by
  rw [latest?, List.reverse_concat, List.find?_cons, latest?]
  by_cases names : language.name = name <;>
    cases language.validate.isOk <;> simp [names]

/-- The last valid language of a name is the one that counts. -/
theorem get_attemptAll (registry : Registry) (languages : List Language) (name : String) :
    (registry.attemptAll languages).get name =
      match latest? languages name with
      | some language => .ok language
      | none => registry.get name := by
  induction languages using List.reverseRecOn with
  | nil => rfl
  | append_singleton languages language inductionHypothesis =>
      rw [attemptAll, List.foldl_concat, ← attemptAll, get_attempt, latest?_concat]
      split
      · rfl
      · exact inductionHypothesis

/-- The built-in registry records all attempts. -/
theorem records_attemptAll (languages : List Language) :
    (builtin.attemptAll languages).Records languages where
  isMap := isMap_builtin.attemptAll languages
  get_eq := by
    intro name
    rw [get_attemptAll, get]
    cases latest? languages name with
    | some language => rfl
    | none => cases builtin.languages.find? (·.name = name) <;> rfl

/-- Valid languages are all registered. -/
theorem foldlM_register
    (valid : ∀ language ∈ languages, language.validate = .ok ()) :
    languages.foldlM register registry = .ok (registry.attemptAll languages) := by
  induction languages generalizing registry with
  | nil => rfl
  | cons language languages inductionHypothesis =>
      obtain ⟨first, others⟩ := List.forall_mem_cons.mp valid
      have registered :
          registry.register language = .ok ⟨put language registry.languages⟩ := by
        rw [register_eq, attempt_of_valid registry first]
        rfl
      rw [List.foldlM_cons, registered, attemptAll_cons, attempt_of_valid registry first]
      exact inductionHypothesis others

end Registry

namespace Settings

open Registry

variable {decode? : String -> Option Settings} {text : String} {settings : Settings}

/-- Whatever decodes the text, the languages of settings have been checked. -/
theorem valid_of_decodeWith (loaded : decodeWith decode? text = .ok settings) :
    ∀ language ∈ settings.languages, language.validate = .ok () := by
  unfold decodeWith at loaded
  cases decoded : decode? text with
  | none => simp [decoded] at loaded
  | some settings' =>
      cases checked : settings'.languages.forM Language.validate with
      | error fault => simp [decoded, checked] at loaded
      | ok =>
          simp only [decoded, checked, Except.ok.injEq] at loaded
          exact loaded ▸ forall_of_forM checked

/-- Languages of settings that were loaded are all registered. -/
theorem registry_eq_ok (loaded : decodeWith decode? text = .ok settings) :
    settings.registry = .ok (builtin.attemptAll settings.languages) :=
  foldlM_register (valid_of_decodeWith loaded)

end Settings

namespace Registry

/-- After any attempts to register languages, the next one fails exactly if the language
is not valid, and then changes nothing. The registry is a map of valid languages, in
which a name stands for the last valid language that was registered under it, or else for
the built-in one. Settings that were loaded, whatever decodes their text, have valid
languages only, which are all registered by the same law. -/
theorem registrations_recorded (languages : List Language) :
    (builtin.attemptAll languages).Records languages ∧
    (∀ language error,
      (((builtin.attemptAll languages).attempt language).1 = .error error ↔
        language.validate = .error error) ∧
      (language.validate = .error error ->
        ((builtin.attemptAll languages).attempt language).2 =
          builtin.attemptAll languages)) ∧
    ∀ decode? text settings, Settings.decodeWith decode? text = .ok settings ->
      (∀ language ∈ settings.languages, language.validate = .ok ()) ∧
        ∃ registry, settings.registry = .ok registry ∧
          registry.Records settings.languages := by
  refine ⟨records_attemptAll languages, ?_, ?_⟩
  · intro language error
    refine ⟨attempt_eq_error_iff, fun fault => ?_⟩
    rw [attempt_of_error _ fault]
  · intro decode? text settings loaded
    exact ⟨Settings.valid_of_decodeWith loaded, builtin.attemptAll settings.languages,
      Settings.registry_eq_ok loaded, records_attemptAll settings.languages⟩

/-- A small sentential language. -/
def tiny : Language :=
  { Language.sentential with name := "Tiny", letters := ['P', 'Q'] }

/-- A letter of this one is a constant too. -/
def ambiguous : Language :=
  { tiny with constants := ['P'] }

/-- `Tiny` is registered and cannot be replaced by a language that is not valid. The
built-in languages stay. -/
theorem registrations_recorded_tiny :
    (∃ error, ambiguous.validate = .error error ∧
      (builtin.attemptAll [tiny]).attempt ambiguous =
        (.error error, builtin.attemptAll [tiny])) ∧
    (builtin.attemptAll [tiny, ambiguous]).get "Tiny" = .ok tiny ∧
    (builtin.attemptAll [tiny, ambiguous]).get "Predicate" = .ok .predicate ∧
    (builtin.attemptAll [tiny, ambiguous]).get "Modal" = .error (.unknown "Modal") ∧
    ∃ settings registry,
      Settings.ofDocument "[[languages]]\nname = \"Tiny\"\nletters = \"PQ\"\n" =
        .ok settings ∧
      settings.registry = .ok registry ∧ registry.get "Tiny" = .ok tiny := by
  have fault : ambiguous.validate =
      .error (.overlapping "Tiny" 'P' .letter .constant) := by
    decide
  have loads : succeedsWith
      (Settings.ofDocument "[[languages]]\nname = \"Tiny\"\nletters = \"PQ\"\n")
      (fun settings => settings.languages = [tiny]) = true := by
    decide +kernel
  obtain ⟨settings, loaded, tested⟩ := exists_of_succeedsWith loads
  have languagesEq : settings.languages = [tiny] := of_decide_eq_true tested
  obtain ⟨-, attempts, -⟩ := registrations_recorded [tiny]
  obtain ⟨recorded, -, ofSettings⟩ := registrations_recorded [tiny, ambiguous]
  obtain ⟨-, registry, registered, records⟩ := ofSettings _ _ settings loaded
  rw [languagesEq] at records
  obtain ⟨fails, unchanged⟩ := attempts ambiguous _
  refine ⟨⟨_, fault, Prod.ext (fails.mpr fault) (unchanged fault)⟩, ?_, ?_, ?_, settings,
    registry, loaded, registered, ?_⟩
  · rw [recorded.get_eq]
    decide +kernel
  · rw [recorded.get_eq]
    decide +kernel
  · rw [recorded.get_eq]
    decide +kernel
  · rw [records.get_eq]
    decide +kernel

end Registry
end SymbolicLogic
