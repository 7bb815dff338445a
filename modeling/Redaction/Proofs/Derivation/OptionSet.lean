import Redaction.Proofs.Derivation.Listed
import Redaction.Proofs.Derivation.Words

/-!
# Options are a set

The words of a field fit together if there is at most one kind and at most one name among them, and
if a field that is left out has no others; those of a type fit together if there is a name or a
package at most. Exactly words that fit together are accepted, in any order.
-/

namespace Redaction.Derivation

namespace FieldWord

/-- Whether words can be options of one field, as far as each shows when it is read. -/
structure Consistent (words : List FieldWord) : Prop where
  /-- At most one kind is chosen. -/
  oneKind : (words.filterMap kind?).length ≤ 1
  /-- At most one name is given. -/
  oneName : (words.filterMap name?).length ≤ 1
  /-- A name that is given is not empty. -/
  named : .name "" ∉ words

/-- Whether words can be the options of one field. -/
structure Fits (words : List FieldWord) : Prop extends Consistent words where
  /-- A field that is left out has no other options. -/
  alone : .skip ∈ words → ∀ word ∈ words, word = .skip

/-- One more word is consistent with others if it is no second kind and no second or empty name. -/
theorem consistent_append_iff {words : List FieldWord} {word : FieldWord} :
    Consistent (words ++ [word]) ↔ Consistent words ∧
      (word.kind?.isSome → words.findSome? kind? = none) ∧
      (word.name?.isSome → words.findSome? name? = none) ∧ word ≠ .name "" := by
  refine ⟨fun together => ?_, ?_⟩
  · obtain ⟨oneKind, noKind⟩ := length_filterMap_append_le_one_iff.mp together.oneKind
    obtain ⟨oneName, noName⟩ := length_filterMap_append_le_one_iff.mp together.oneName
    have named := together.named
    rw [List.mem_append, not_or, List.mem_singleton] at named
    exact ⟨⟨oneKind, oneName, named.1⟩, noKind, noName, Ne.symm named.2⟩
  · rintro ⟨consistent, noKind, noName, solid⟩
    refine ⟨length_filterMap_append_le_one_iff.mpr ⟨consistent.oneKind, noKind⟩,
      length_filterMap_append_le_one_iff.mpr ⟨consistent.oneName, noName⟩, ?_⟩
    rw [List.mem_append, not_or, List.mem_singleton]
    exact ⟨consistent.named, Ne.symm solid⟩

/-- Words that fit together do so in any order. -/
theorem Fits.perm {words others : List FieldWord} (fits : Fits words) (same : words.Perm others) :
    Fits others where
  oneKind := (same.filterMap kind?).length_eq ▸ fits.oneKind
  oneName := (same.filterMap name?).length_eq ▸ fits.oneName
  named := same.mem_iff.not.mp fits.named
  alone skip _ present := fits.alone (same.mem_iff.mpr skip) _ (same.mem_iff.mpr present)

end FieldWord

namespace FieldOptions

/-- The options that words give. -/
def ofWords (words : List FieldWord) : FieldOptions where
  secret := decide (.secret ∈ words)
  kind := words.findSome? FieldWord.kind?
  skip := decide (.skip ∈ words)
  name := words.findSome? FieldWord.name?

/-- What one more word changes. -/
theorem ofWords_append (words : List FieldWord) (word : FieldWord) :
    ofWords (words ++ [word]) =
      { secret := (ofWords words).secret || decide (word = .secret)
        kind := (ofWords words).kind.or word.kind?
        skip := (ofWords words).skip || decide (word = .skip)
        name := (ofWords words).name.or word.name? } := by
  simp only [ofWords, List.mem_append, List.mem_singleton, Bool.decide_or, List.findSome?_append,
    List.findSome?_singleton, eq_comm]

/-- A word can be added to consistent words exactly if it is consistent with them. -/
theorem adds_ofWords_iff {words : List FieldWord} {word : FieldWord} {larger : FieldOptions}
    (consistent : FieldWord.Consistent words) :
    (ofWords words).Adds word larger ↔
      FieldWord.Consistent (words ++ [word]) ∧ larger = ofWords (words ++ [word]) := by
  rw [FieldWord.consistent_append_iff, ofWords_append]
  refine ⟨fun adds => ?_, ?_⟩
  · cases adds with
    | secret => exact ⟨⟨consistent, nofun, nofun, nofun⟩, by simp⟩
    | skip => exact ⟨⟨consistent, nofun, nofun, nofun⟩, by simp⟩
    | kind chosen free =>
      exact ⟨⟨consistent, fun _ => free, nofun, nofun⟩, by simp [free]⟩
    | name text free solid =>
      exact ⟨⟨consistent, nofun, fun _ => free, by simpa using solid⟩, by simp [free]⟩
  · rintro ⟨⟨_, noKind, noName, solid⟩, rfl⟩
    cases word with
    | secret => simpa using Adds.secret
    | skip => simpa using Adds.skip
    | kind chosen =>
      have free : (ofWords words).kind = none := noKind rfl
      simpa [free] using Adds.kind chosen free
    | name text =>
      have free : (ofWords words).name = none := noName rfl
      simpa [free] using Adds.name text free (by simpa using solid)

/-- The name that words give is one of them. -/
theorem mem_of_name_ofWords {words : List FieldWord} {text : String}
    (given : (ofWords words).name = some text) : .name text ∈ words := by
  obtain ⟨word, present, value⟩ := List.exists_of_findSome?_eq_some given
  cases word with
  | name _ => exact Option.some.inj value ▸ present
  | secret => cases value
  | skip => cases value
  | kind _ => cases value

/-- The words are contradictory if a field that is left out has other options. -/
theorem contradictory_ofWords (words : List FieldWord) :
    (ofWords words).contradictory = false ↔ (.skip ∈ words → ∀ word ∈ words, word = .skip) := by
  have others : (∀ word ∈ words, word = .skip) ↔ .secret ∉ words ∧
      words.findSome? FieldWord.kind? = none ∧ words.findSome? FieldWord.name? = none := by
    rw [List.findSome?_eq_none_iff, List.findSome?_eq_none_iff]
    refine ⟨fun all => ⟨fun secret => (by cases all _ secret), ?_, ?_⟩, ?_⟩
    · exact fun word present => by rw [all word present]; rfl
    · exact fun word present => by rw [all word present]; rfl
    · rintro ⟨noSecret, noKind, noName⟩ word present
      cases word with
      | secret => exact absurd present noSecret
      | skip => rfl
      | kind _ => cases noKind _ present
      | name _ => cases noName _ present
  rw [others, contradictory, ofWords]
  by_cases skip : .skip ∈ words
  · simp [skip, and_assoc]
  · simp [skip]

/-- The options of a field that are accepted one after the other are those of consistent words. -/
theorem foldlM_add_eq_ok_iff {items : List Meta} {options : FieldOptions} :
    items.foldlM add (ofWords []) = .ok options ↔ ∃ words,
      items = words.map FieldWord.written ∧ FieldWord.Consistent words ∧
        options = ofWords words := by
  refine foldlM_words ⟨by simp, by simp, by simp⟩ ?_ ?_
  · exact fun together => (FieldWord.consistent_append_iff.mp together).1
  · intro words item larger consistent
    rw [add_eq_ok_iff]
    exact exists_congr fun word => and_congr_right fun _ => adds_ofWords_iff consistent

/-- The options of a field are a set. -/
theorem readsSet_ofAttributes :
    ReadsSet ofAttributes FieldWord.written FieldWord.Fits ofWords := by
  refine ReadsSet.of_reads (fun _ => rfl) foldlM_add_eq_ok_iff ?_ ?_ ?_
  · intro words
    rw [contradictory_ofWords]
    exact ⟨fun fits => ⟨fits.toConsistent, fits.alone⟩, fun fits => ⟨fits.1, fits.2⟩⟩
  · exact fun fits same => fits.perm same
  · intro words others fits same
    rw [ofWords, ofWords, findSome?_eq_of_perm same fits.oneKind,
      findSome?_eq_of_perm same fits.oneName, decide_eq_decide.mpr same.mem_iff,
      decide_eq_decide.mpr same.mem_iff]

end FieldOptions

namespace ContainerWord

/-- Whether words can be options of one type, as far as each shows when it is read. -/
structure Consistent (words : List ContainerWord) : Prop where
  /-- At most one name is given. -/
  oneName : (words.filterMap name?).length ≤ 1
  /-- At most one package is given. -/
  onePackage : (words.filterMap package?).length ≤ 1
  /-- There is something behind the dots at the beginning of each text. -/
  solid : ∀ word ∈ words, withoutDots word.text ≠ ""

/-- Whether words can be the options of one type. -/
structure Fits (words : List ContainerWord) : Prop extends Consistent words where
  /-- There is no package beside a name. -/
  apart : ∀ {name package}, .name name ∈ words → .package package ∉ words

/-- One more word is consistent with others if none of them is of its sort and it is more than
dots. -/
theorem consistent_append_iff {words : List ContainerWord} {word : ContainerWord} :
    Consistent (words ++ [word]) ↔ Consistent words ∧
      (word.name?.isSome → words.findSome? name? = none) ∧
      (word.package?.isSome → words.findSome? package? = none) ∧ withoutDots word.text ≠ "" := by
  refine ⟨fun together => ?_, ?_⟩
  · obtain ⟨oneName, noName⟩ := length_filterMap_append_le_one_iff.mp together.oneName
    obtain ⟨onePackage, noPackage⟩ := length_filterMap_append_le_one_iff.mp together.onePackage
    obtain ⟨earlier, last⟩ := List.forall_mem_append.mp together.solid
    exact ⟨⟨oneName, onePackage, earlier⟩, noName, noPackage, last _ (List.mem_singleton_self _)⟩
  · rintro ⟨consistent, noName, noPackage, solid⟩
    exact ⟨length_filterMap_append_le_one_iff.mpr ⟨consistent.oneName, noName⟩,
      length_filterMap_append_le_one_iff.mpr ⟨consistent.onePackage, noPackage⟩,
      List.forall_mem_append.mpr ⟨consistent.solid, List.forall_mem_singleton.mpr solid⟩⟩

/-- Words that fit together do so in any order. -/
theorem Fits.perm {words others : List ContainerWord} (fits : Fits words)
    (same : words.Perm others) : Fits others where
  oneName := (same.filterMap name?).length_eq ▸ fits.oneName
  onePackage := (same.filterMap package?).length_eq ▸ fits.onePackage
  solid _ present := fits.solid _ (same.mem_iff.mpr present)
  apart name package := fits.apart (same.mem_iff.mpr name) (same.mem_iff.mpr package)

end ContainerWord

namespace ContainerOptions

/-- The options that words give. -/
def ofWords (words : List ContainerWord) : ContainerOptions where
  name := words.findSome? ContainerWord.name?
  package := words.findSome? ContainerWord.package?

/-- What one more word changes. -/
theorem ofWords_append (words : List ContainerWord) (word : ContainerWord) :
    ofWords (words ++ [word]) =
      { name := (ofWords words).name.or word.name?
        package := (ofWords words).package.or word.package? } := by
  simp only [ofWords, List.findSome?_append, List.findSome?_singleton]

/-- A word can be added to consistent words exactly if it is consistent with them. -/
theorem adds_ofWords_iff {words : List ContainerWord} {word : ContainerWord}
    {larger : ContainerOptions} (consistent : ContainerWord.Consistent words) :
    (ofWords words).Adds word larger ↔
      ContainerWord.Consistent (words ++ [word]) ∧ larger = ofWords (words ++ [word]) := by
  rw [ContainerWord.consistent_append_iff, ofWords_append]
  refine ⟨fun adds => ?_, ?_⟩
  · cases adds with
    | name text free solid =>
      exact ⟨⟨consistent, fun _ => free, nofun, solid⟩,
        by simp [free]⟩
    | package text free solid =>
      exact ⟨⟨consistent, nofun, fun _ => free, solid⟩,
        by simp [free]⟩
  · rintro ⟨⟨_, noName, noPackage, solid⟩, rfl⟩
    cases word with
    | name text =>
      have free : (ofWords words).name = none := noName rfl
      simpa [free] using Adds.name text free solid
    | package text =>
      have free : (ofWords words).package = none := noPackage rfl
      simpa [free] using Adds.package text free solid

/-- The options of a type that are accepted one after the other are those of consistent words. -/
theorem foldlM_add_eq_ok_iff {items : List Meta} {options : ContainerOptions} :
    items.foldlM add (ofWords []) = .ok options ↔ ∃ words,
      items = words.map ContainerWord.written ∧ ContainerWord.Consistent words ∧
        options = ofWords words := by
  refine foldlM_words ⟨by simp, by simp, by simp⟩ ?_ ?_
  · exact fun together => (ContainerWord.consistent_append_iff.mp together).1
  · intro words item larger consistent
    rw [add_eq_ok_iff]
    exact exists_congr fun word => and_congr_right fun _ => adds_ofWords_iff consistent

/-- The name that words give is one of them. -/
theorem mem_of_name_ofWords {words : List ContainerWord} {text : String}
    (given : (ofWords words).name = some text) : .name text ∈ words := by
  obtain ⟨word, present, value⟩ := List.exists_of_findSome?_eq_some given
  cases word with
  | name _ => exact Option.some.inj value ▸ present
  | package _ => cases value

/-- The package that words give is one of them. -/
theorem mem_of_package_ofWords {words : List ContainerWord} {text : String}
    (given : (ofWords words).package = some text) : .package text ∈ words := by
  obtain ⟨word, present, value⟩ := List.exists_of_findSome?_eq_some given
  cases word with
  | name _ => cases value
  | package _ => exact Option.some.inj value ▸ present

/-- Words give both a name and a package exactly if both are among them. -/
theorem both_ofWords (words : List ContainerWord) :
    ((ofWords words).name.isSome && (ofWords words).package.isSome) = false ↔
      ∀ {name package}, .name name ∈ words → ContainerWord.package package ∉ words := by
  rw [← Bool.not_eq_true, Bool.and_eq_true]
  refine ⟨fun apart name package first second => apart ⟨?_, ?_⟩, fun apart both => ?_⟩
  · exact List.findSome?_isSome_iff.mpr ⟨_, first, rfl⟩
  · exact List.findSome?_isSome_iff.mpr ⟨_, second, rfl⟩
  · obtain ⟨name, named⟩ := Option.isSome_iff_exists.mp both.1
    obtain ⟨package, packaged⟩ := Option.isSome_iff_exists.mp both.2
    exact apart (mem_of_name_ofWords named) (mem_of_package_ofWords packaged)

/-- The options of a type are a set. -/
theorem readsSet_ofAttributes :
    ReadsSet ofAttributes ContainerWord.written ContainerWord.Fits ofWords := by
  refine ReadsSet.of_reads (fun _ => rfl) foldlM_add_eq_ok_iff ?_ ?_ ?_
  · intro words
    rw [both_ofWords]
    exact ⟨fun fits => ⟨fits.toConsistent, fits.apart⟩, fun fits => ⟨fits.1, fits.2⟩⟩
  · exact fun fits same => fits.perm same
  · intro words others fits same
    rw [ofWords, ofWords, findSome?_eq_of_perm same fits.oneName,
      findSome?_eq_of_perm same fits.onePackage]

end ContainerOptions

/-- Options are a set, however they are written. For fields and alternatives and for whole types:
exactly those attributes are accepted that list words which fit together, and what is read is
determined by these words; other attributes are ignored, lists can be split and joined, and the
options can stand in any order. -/
theorem options_are_sets :
    ReadsSet FieldOptions.ofAttributes FieldWord.written FieldWord.Fits FieldOptions.ofWords ∧
    ReadsSet ContainerOptions.ofAttributes ContainerWord.written ContainerWord.Fits
      ContainerOptions.ofWords :=
  ⟨FieldOptions.readsSet_ofAttributes, ContainerOptions.readsSet_ofAttributes⟩

/-- A group with a name of its own: in one attribute, and in two with another one between them. -/
theorem group_options_are_a_set :
    let oneof : Meta := .option ["oneof"] .nothing
    let named : Meta := .option ["name"] (.value (.text "type"))
    let attributes : List Attribute :=
      [.listing [named], ⟨["serde"], .options [.option ["default"] .nothing]⟩, .listing [oneof]]
    FieldOptions.ofAttributes attributes = .ok { kind := some .oneof, name := some "type" } ∧
    (FieldOptions.ofAttributes attributes).toOption =
      (FieldOptions.ofAttributes [.listing [oneof, named]]).toOption :=
  ⟨options_are_sets.1.accepts.mpr ⟨[.name "type", .kind .oneof], rfl,
      ⟨⟨by decide, by decide, by decide⟩, by decide⟩, rfl⟩,
    options_are_sets.1.unordered (.some (.swap _ _ _))⟩

end Redaction.Derivation
