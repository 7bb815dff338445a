import Redaction.Derivation.Options
import Redaction.Proofs.Fallible

/-!
# Words that are options

Each option that is accepted is one of a few words: it has its path and just what belongs behind it.
What an accepted option changes is determined by its word.
-/

namespace Redaction.Derivation

namespace Meta

/-- What is read as an option is one, or the truth value that is its path. -/
theorem eq_option_of_asOption {item : Meta} {path : List String} {tail : MetaTail}
    (read : item.asOption = .ok (path, tail)) (word : ∀ value, path ≠ [truthWord value]) :
    item = .option path tail := by
  cases item with
  | option _ _ => cases read; rfl
  | literal value =>
    cases value with
    | truth value => cases read; exact absurd rfl (word value)
    | text _ => cases read
    | number _ => cases read

end Meta

namespace MetaTail

/-- An option that takes no value has nothing behind it. -/
theorem eq_nothing_of_requireNothing {tail : MetaTail} {done : Unit}
    (read : tail.requireNothing = .ok done) : tail = .nothing := by
  cases tail with
  | nothing => rfl
  | value _ => cases read
  | arguments _ => cases read

/-- What has a text behind an equals sign is just that. -/
theorem eq_text_of_requireText {tail : MetaTail} {text : String}
    (read : tail.requireText = .ok text) : tail = .value (.text text) := by
  cases tail with
  | nothing => cases read
  | arguments _ => cases read
  | value given =>
    cases given with
    | text _ => cases read; rfl
    | number _ => cases read
    | truth _ => cases read

end MetaTail

/-- A word that is an option of a field. -/
inductive FieldWord where
  /-- The value is secret. -/
  | secret
  /-- The field is left out. -/
  | skip
  /-- The value has a kind. -/
  | kind (chosen : KindOption)
  /-- The value is written under a name. -/
  | name (text : String)
deriving DecidableEq

namespace FieldWord

/-- The option that a word is written as. -/
def written : FieldWord → Meta
  | .secret => .option ["secret"] .nothing
  | .skip => .option ["skip"] .nothing
  | .kind chosen => .option [chosen.keyword] .nothing
  | .name text => .option ["name"] (.value (.text text))

/-- The kind that a word chooses. -/
@[simp] def kind? : FieldWord → Option KindOption
  | .kind chosen => some chosen
  | .secret | .skip | .name _ => none

/-- The name that a word gives. -/
@[simp] def name? : FieldWord → Option String
  | .name text => some text
  | .secret | .skip | .kind _ => none

end FieldWord

namespace FieldOptions

/-- How one more word changes the options. -/
inductive Adds (options : FieldOptions) : FieldWord → FieldOptions → Prop
  /-- The value is secret. -/
  | secret : Adds options .secret { options with secret := true }
  /-- The field is left out. -/
  | skip : Adds options .skip { options with skip := true }
  /-- A kind is chosen, if there is none yet. -/
  | kind (kind : KindOption) (free : options.kind = none) :
    Adds options (.kind kind) { options with kind := some kind }
  /-- A name is given, if there is none yet. -/
  | name (text : String) (free : options.name = none) (solid : text ≠ "") :
    Adds options (.name text) { options with name := some text }

/-- The path of a kind is its keyword. -/
theorem kindOf?_eq_some_iff {path : List String} {kind : KindOption} :
    kindOf? path = some kind ↔ path = [kind.keyword] := by
  refine ⟨fun found => ?_, ?_⟩
  · rw [kindOf?] at found
    have same := List.find?_some found
    exact eq_of_beq same
  · rintro rfl
    cases kind <;> decide

/-- A kind is chosen if there is none yet. -/
theorem withKind_eq_ok_iff {options larger : FieldOptions} {kind : KindOption} :
    options.withKind kind = .ok larger ↔
      options.kind = none ∧ larger = { options with kind := some kind } := by
  rw [withKind]
  cases options.kind with
  | none => exact ⟨fun done => ⟨rfl, (Except.ok.inj done).symm⟩, fun fits => fits.2 ▸ rfl⟩
  | some previous => exact ⟨nofun, fun fits => nomatch fits.1⟩

/-- A name is given if there is none yet and it is not empty. -/
theorem withName_eq_ok_iff {options larger : FieldOptions} {text : String} :
    options.withName text = .ok larger ↔
      options.name = none ∧ text ≠ "" ∧ larger = { options with name := some text } := by
  rw [withName]
  cases options.name with
  | some previous => exact ⟨nofun, fun fits => nomatch fits.1⟩
  | none =>
    rw [if_neg (by simp)]
    split
    · next empty => exact ⟨nofun, fun fits => absurd empty fits.2.1⟩
    · next solid =>
      exact ⟨fun done => ⟨rfl, solid, (Except.ok.inj done).symm⟩, fun fits => fits.2.2 ▸ rfl⟩

/-- One more option is accepted exactly if it is a word that can be added. -/
theorem add_eq_ok_iff {options larger : FieldOptions} {item : Meta} :
    options.add item = .ok larger ↔ ∃ word, item = word.written ∧ options.Adds word larger := by
  refine ⟨fun done => ?_, ?_⟩
  · rw [add] at done
    obtain ⟨⟨path, tail⟩, read, done⟩ := bind_eq_ok_iff.mp done
    dsimp only at done
    split at done
    · next word =>
      obtain ⟨_, bare, done⟩ := bind_eq_ok_iff.mp done
      cases done
      cases MetaTail.eq_nothing_of_requireNothing bare
      subst word
      exact ⟨.secret, Meta.eq_option_of_asOption read (by decide), .secret⟩
    split at done
    · next word =>
      obtain ⟨_, bare, done⟩ := bind_eq_ok_iff.mp done
      cases done
      cases MetaTail.eq_nothing_of_requireNothing bare
      subst word
      exact ⟨.skip, Meta.eq_option_of_asOption read (by decide), .skip⟩
    split at done
    · next word =>
      obtain ⟨text, given, done⟩ := bind_eq_ok_iff.mp done
      cases MetaTail.eq_text_of_requireText given
      obtain ⟨free, solid, rfl⟩ := withName_eq_ok_iff.mp done
      subst word
      exact ⟨.name text, Meta.eq_option_of_asOption read (by decide), .name text free solid⟩
    · split at done
      · next kind chosen =>
        obtain ⟨next, taken, done⟩ := bind_eq_ok_iff.mp done
        obtain ⟨_, bare, done⟩ := bind_eq_ok_iff.mp done
        cases done
        cases MetaTail.eq_nothing_of_requireNothing bare
        obtain ⟨free, rfl⟩ := withKind_eq_ok_iff.mp taken
        obtain rfl := kindOf?_eq_some_iff.mp chosen
        exact ⟨.kind kind, Meta.eq_option_of_asOption read (by cases kind <;> decide),
          .kind kind free⟩
      · cases done
  · rintro ⟨word, rfl, adds⟩
    cases adds with
    | secret => rfl
    | skip => rfl
    | kind kind free =>
      have taken : options.withKind kind = .ok { options with kind := some kind } :=
        withKind_eq_ok_iff.mpr ⟨free, rfl⟩
      cases kind <;> exact bind_eq_ok_iff.mpr ⟨_, rfl, bind_eq_ok_iff.mpr ⟨_, taken, rfl⟩⟩
    | name text free solid => exact withName_eq_ok_iff.mpr ⟨free, solid, rfl⟩

end FieldOptions

/-- A word that is an option of a whole type. -/
inductive ContainerWord where
  /-- The full name. -/
  | name (text : String)
  /-- The part before the name. -/
  | package (text : String)
deriving DecidableEq

namespace ContainerWord

/-- The option that a word is written as. -/
def written : ContainerWord → Meta
  | .name text => .option ["name"] (.value (.text text))
  | .package text => .option ["package"] (.value (.text text))

/-- The text of a word. -/
def text : ContainerWord → String
  | .name text | .package text => text

/-- The name that a word gives. -/
@[simp] def name? : ContainerWord → Option String
  | .name text => some text
  | .package _ => none

/-- The package that a word gives. -/
@[simp] def package? : ContainerWord → Option String
  | .package text => some text
  | .name _ => none

end ContainerWord

namespace ContainerOptions

/-- How one more word changes the options. -/
inductive Adds (options : ContainerOptions) : ContainerWord → ContainerOptions → Prop
  /-- A name is given, if there is none yet. -/
  | name (text : String) (free : options.name = none) (solid : withoutDots text ≠ "") :
    Adds options (.name text) { options with name := some text }
  /-- A package is given, if there is none yet. -/
  | package (text : String) (free : options.package = none) (solid : withoutDots text ≠ "") :
    Adds options (.package text) { options with package := some text }

/-- A value is accepted if the option is not given yet and it is more than dots. -/
theorem acceptOnce_eq_ok_iff {option : ContainerOption} {previous : Option String}
    {value accepted : String} :
    acceptOnce option previous value = .ok accepted ↔
      previous = none ∧ withoutDots value ≠ "" ∧ accepted = value := by
  rw [acceptOnce]
  cases previous with
  | some _ => exact ⟨nofun, fun fits => nomatch fits.1⟩
  | none =>
    rw [if_neg (by simp)]
    split
    · next empty => exact ⟨nofun, fun fits => absurd empty fits.2.1⟩
    · next solid =>
      exact ⟨fun done => ⟨rfl, solid, (Except.ok.inj done).symm⟩, fun fits => fits.2.2 ▸ rfl⟩

/-- One more option is accepted exactly if it is a word that can be added. -/
theorem add_eq_ok_iff {options larger : ContainerOptions} {item : Meta} :
    options.add item = .ok larger ↔ ∃ word, item = word.written ∧ options.Adds word larger := by
  refine ⟨fun done => ?_, ?_⟩
  · rw [add] at done
    obtain ⟨⟨path, tail⟩, read, done⟩ := bind_eq_ok_iff.mp done
    dsimp only at done
    split at done
    · split at done
      · next word =>
        obtain ⟨text, given, done⟩ := bind_eq_ok_iff.mp done
        obtain ⟨accepted, once, done⟩ := bind_eq_ok_iff.mp done
        cases done
        cases MetaTail.eq_text_of_requireText given
        obtain ⟨free, solid, rfl⟩ := acceptOnce_eq_ok_iff.mp once
        subst word
        exact ⟨.name _, Meta.eq_option_of_asOption read (by decide), .name _ free solid⟩
      split at done
      · next word =>
        obtain ⟨text, given, done⟩ := bind_eq_ok_iff.mp done
        obtain ⟨accepted, once, done⟩ := bind_eq_ok_iff.mp done
        cases done
        cases MetaTail.eq_text_of_requireText given
        obtain ⟨free, solid, rfl⟩ := acceptOnce_eq_ok_iff.mp once
        subst word
        exact ⟨.package _, Meta.eq_option_of_asOption read (by decide), .package _ free solid⟩
      · cases done
    · cases done
  · rintro ⟨word, rfl, adds⟩
    cases adds with
    | name text free solid =>
      have once : acceptOnce .name options.name text = .ok text :=
        acceptOnce_eq_ok_iff.mpr ⟨free, solid, rfl⟩
      exact bind_eq_ok_iff.mpr
        ⟨_, rfl, bind_eq_ok_iff.mpr ⟨_, rfl, bind_eq_ok_iff.mpr ⟨_, once, rfl⟩⟩⟩
    | package text free solid =>
      have once : acceptOnce .package options.package text = .ok text :=
        acceptOnce_eq_ok_iff.mpr ⟨free, solid, rfl⟩
      exact bind_eq_ok_iff.mpr
        ⟨_, rfl, bind_eq_ok_iff.mpr ⟨_, rfl, bind_eq_ok_iff.mpr ⟨_, once, rfl⟩⟩⟩

end ContainerOptions

end Redaction.Derivation
