import Redaction.Proofs.Config.Described

/-!
# The accepted configuration texts

Which configuration a text yields depends only on the document that it spells, and of this document
only on the members as a set: neither their order nor a member that gives a default counts. What is
accepted has no flaw.
-/

namespace Redaction

/-- A document names one keyword, and a keyword has one meaning. -/
theorem Keywords.Names.unique {α : Type} {keywords : Keywords α} {document : Json}
    {meaning again : α} (names : keywords.Names document meaning)
    (namesAgain : keywords.Names document again) : meaning = again := by
  obtain ⟨word, known, rfl | rfl⟩ := names <;>
  · obtain ⟨wordAgain, knownAgain, same | same⟩ := namesAgain <;>
    · cases same <;> exact Option.some.inj (known.symm.trans knownAgain)

/-- A document gives one value of a setting. -/
theorem Setting.same_of_gives {setting : Setting} {config other : Config} {document : Json}
    (gives : setting.Gives document config) (givesOther : setting.Gives document other) :
    setting.Same config other := by
  cases setting with
  | style | fallback | unknownFields => exact Keywords.Names.unique gives givesOther
  | marker => exact Json.string.inj (gives.symm.trans givesOther)
  | secretSuffix =>
    have same :
        config.secretSuffix.elim Json.null .string = other.secretSuffix.elim .null .string :=
      gives.symm.trans givesOther
    show config.secretSuffix = other.secretSuffix
    match config.secretSuffix, other.secretSuffix, same with
    | none, none, _ => rfl
    | some _, some _, same => exact congrArg some (Json.string.inj same)

namespace Config

variable {members others : List (String × Json)} {config : Config}

/-- Two texts are read alike if they yield the same configuration or none. -/
def ReadAlike (text other : String) : Prop :=
  ∀ config, Config.read text = .ok config ↔ Config.read other = .ok config

/-- What it takes for an object to describe a configuration. -/
theorem describedBy_object_iff :
    config.DescribedBy (.object members) ↔ (Members.keys members).Nodup ∧
      (∀ key ∈ Members.keys members, ∃ setting : Setting, setting.key = key) ∧
      config.Takes members {} := by
  constructor
  · rintro ⟨_, given, described⟩
    obtain rfl := Option.some.inj given
    exact described
  · exact fun described => ⟨members, rfl, described⟩

/-- The order of the members does not count. -/
theorem describedBy_perm (perm : members.Perm others) :
    config.DescribedBy (.object members) ↔ config.DescribedBy (.object others) := by
  have keys : (Members.keys members).Perm (Members.keys others) := perm.map _
  rw [describedBy_object_iff, describedBy_object_iff, keys.nodup_iff]
  refine and_congr_right fun distinct => and_congr ?_ ?_
  · exact forall_congr' fun key => imp_congr_left keys.mem_iff
  · have found (key : String) : Members.find? key members = Members.find? key others := by
      ext value
      rw [Members.find?_eq_some_iff (keys.nodup_iff.mpr distinct),
        Members.find?_eq_some_iff distinct, perm.mem_iff]
    simp only [Takes, found]

/-- A member that gives a default does not count. -/
theorem describedBy_default {setting : Setting} {value : Json} (default : setting.Gives value {})
    (absent : setting.key ∉ Members.keys members) :
    config.DescribedBy (.object ((setting.key, value) :: members)) ↔
      config.DescribedBy (.object members) := by
  have base : config.Takes ((setting.key, value) :: members) {} ↔ config.Takes members {} := by
    rw [takes_cons_iff absent]
    constructor
    · rintro ⟨next, gives, others, takes⟩
      have unchanged : next = {} := Setting.eq_of_same fun other => by
        by_cases same : other = setting
        · exact same ▸ Setting.same_of_gives gives default
        · exact others other same
      exact unchanged ▸ takes
    · exact fun takes => ⟨{}, default, fun other _ => Setting.same_refl other {}, takes⟩
  rw [describedBy_object_iff, describedBy_object_iff, base]
  constructor
  · rintro ⟨distinct, known, takes⟩
    exact ⟨(List.nodup_cons.mp distinct).2, fun key present => known key
      (List.mem_cons_of_mem _ present), takes⟩
  · rintro ⟨distinct, known, takes⟩
    refine ⟨List.nodup_cons.mpr ⟨absent, distinct⟩, fun key present => ?_, takes⟩
    rcases List.mem_cons.mp present with rfl | later
    · exact ⟨setting, rfl⟩
    · exact known key later

/-- Texts that spell documents which describe the same configurations are read alike. -/
theorem readAlike_of_describedBy {document counterpart : Json} {text other : String}
    (spelled : document.SpelledText text.toList)
    (spelledOther : counterpart.SpelledText other.toList)
    (same : ∀ config : Config, config.DescribedBy document ↔ config.DescribedBy counterpart) :
    ReadAlike text other := by
  have told {document : Json} {text : String} (spelled : document.SpelledText text.toList)
      (config : Config) :
      Config.read text = .ok config ↔ config.DescribedBy document ∧ config.flaw? = none := by
    rw [read_eq_ok_iff]
    refine and_congr_left fun _ => ⟨?_, fun described => ⟨document, spelled, described⟩⟩
    rintro ⟨found, spelledFound, described⟩
    exact spelledFound.unique spelled ▸ described
  intro config
  rw [told spelled, told spelledOther, same]

/-- A text is accepted exactly if it spells a document that describes a configuration in which
neither the marker nor the suffix is empty. Accepted configurations have no flaw; blanks and
escapes, the order of the members and members that give a default make no difference. -/
theorem read_exact :
    (∀ (text : String) (config : Config), Config.read text = .ok config ↔
      (∃ document : Json, document.SpelledText text.toList ∧ config.DescribedBy document) ∧
        config.marker ≠ "" ∧ config.secretSuffix ≠ some "") ∧
    (∀ (text : String) (config : Config), Config.read text = .ok config → config.flaw? = none) ∧
    (∀ (document : Json) (text other : String), document.SpelledText text.toList →
      document.SpelledText other.toList → ReadAlike text other) ∧
    (∀ (members others : List (String × Json)) (text other : String), members.Perm others →
      (Json.object members).SpelledText text.toList →
      (Json.object others).SpelledText other.toList → ReadAlike text other) ∧
    (∀ (setting : Setting) (value : Json) (members others : List (String × Json))
      (text other : String), setting.Gives value {} → setting.key ∉ Members.keys members →
      others.Perm ((setting.key, value) :: members) →
      (Json.object members).SpelledText text.toList →
      (Json.object others).SpelledText other.toList → ReadAlike text other) := by
  refine ⟨fun text config => ?_, fun text config read => (read_eq_ok_iff.mp read).2,
    fun document text other spelled spelledOther => ?_,
    fun members others text other perm spelled spelledOther => ?_,
    fun setting value members others text other default absent perm spelled spelledOther => ?_⟩
  · rw [read_eq_ok_iff, flaw?_eq_none_iff]
  · exact readAlike_of_describedBy spelled spelledOther fun _ => Iff.rfl
  · exact readAlike_of_describedBy spelled spelledOther fun _ => describedBy_perm perm
  · exact readAlike_of_describedBy spelled spelledOther fun _ =>
      (describedBy_default default absent).symm.trans (describedBy_perm perm.symm)

/-- The members of a configuration with another style and another marker. -/
def sparseMembers : List (String × Json) := [("style", .string "compact"), ("marker", .string "#")]

/-- The same members in another order, and a member that gives a default. -/
def wordyMembers : List (String × Json) :=
  [("marker", .string "#"), ("fallback", .object [("strip", .null)]), ("style", .string "compact")]

/-- Two texts that differ in the order of their members and in a default are read alike, as the
configuration that they describe. -/
theorem read_exact_reordered :
    ReadAlike (Json.object sparseMembers).text (Json.object wordyMembers).text ∧
    Config.read (Json.object sparseMembers).text = .ok { style := .compact, marker := "#" } := by
  have sparse : (Json.object sparseMembers).SpelledText (Json.object sparseMembers).text.toList :=
    Json.spelledText_text ⟨trivial, trivial, trivial⟩
  have wordy : (Json.object wordyMembers).SpelledText (Json.object wordyMembers).text.toList :=
    Json.spelledText_text ⟨trivial, ⟨trivial, trivial⟩, trivial, trivial⟩
  have default : Setting.Gives (.object [("strip", .null)]) {} .fallback :=
    ⟨"strip", rfl, .inr rfl⟩
  refine ⟨read_exact.2.2.2.2 .fallback (.object [("strip", .null)]) sparseMembers wordyMembers _ _
    default (by decide) (by decide) sparse wordy, ?_⟩
  refine (read_exact.1 _ _).mpr
    ⟨⟨_, sparse, sparseMembers, rfl, by decide, ?_, ?_⟩, by decide, by decide⟩
  · intro key present
    rcases List.mem_cons.mp present with rfl | later
    · exact ⟨.style, rfl⟩
    · exact ⟨.marker, (List.mem_singleton.mp later).symm⟩
  · intro setting
    cases setting with
    | style => exact ⟨"compact", rfl, .inl rfl⟩
    | _ => rfl

end Config

end Redaction
