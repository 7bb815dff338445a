import Redaction.Config.Reader
import Redaction.Proofs.Json.Unambiguous
import Redaction.Proofs.Tree.Blotted

/-!
# What a configuration text says

A document describes a configuration through its members: each has the key of a setting and a value
in the form of that setting, no key occurs twice, and a setting without a member has its default. A
list stands for the members of the first settings. The reader of configurations accepts exactly the
texts that spell such a document.
-/

namespace Redaction

open Json (Begins Blank Joint Lead SpellsString Spelled SpelledItems SpelledMembers SpelledText)

/-- Whether a document names a meaning by its keyword: as a text, or as the only key of an object
whose value is `null`. -/
def Keywords.Names {α : Type} (keywords : Keywords α) (document : Json) (meaning : α) : Prop :=
  ∃ word, Members.find? word keywords = some meaning ∧
    (document = .string word ∨ document = .object [(word, .null)])

namespace Setting

/-- Whether a document gives the value that the setting has in a configuration. -/
def Gives (document : Json) (config : Config) : Setting → Prop
  | .style => Style.keywords.Names document config.style
  | .marker => document = .string config.marker
  | .secretSuffix => document = config.secretSuffix.elim .null .string
  | .fallback => Fallback.keywords.Names document config.fallback
  | .unknownFields => UnknownFields.keywords.Names document config.unknownFields

/-- Whether the setting has the same value in two configurations. -/
def Same (config other : Config) : Setting → Prop
  | .style => config.style = other.style
  | .marker => config.marker = other.marker
  | .secretSuffix => config.secretSuffix = other.secretSuffix
  | .fallback => config.fallback = other.fallback
  | .unknownFields => config.unknownFields = other.unknownFields

/-- A configuration with the value that the setting has in another one. -/
def take (source config : Config) : Setting → Config
  | .style => { config with style := source.style }
  | .marker => { config with marker := source.marker }
  | .secretSuffix => { config with secretSuffix := source.secretSuffix }
  | .fallback => { config with fallback := source.fallback }
  | .unknownFields => { config with unknownFields := source.unknownFields }

variable {setting other : Setting} {config base next : Config} {document : Json}

/-- The setting has the value that was taken over. -/
theorem same_take_self (source config : Config) :
    setting.Same (setting.take source config) source := by
  cases setting <;> rfl

/-- The other settings keep their values. -/
theorem same_take_of_ne (source config : Config) (different : other ≠ setting) :
    other.Same (setting.take source config) config := by
  cases setting <;> cases other <;> first | rfl | exact absurd rfl different

/-- Values are the same in either order. -/
theorem Same.symm (same : setting.Same config base) : setting.Same base config := by
  cases setting <;> exact Eq.symm same

/-- Values that are the same as a third are the same. -/
theorem Same.trans (same : setting.Same config base) (again : setting.Same base next) :
    setting.Same config next := by
  cases setting <;> exact Eq.trans same again

/-- Every value is the same as itself. -/
theorem same_refl (setting : Setting) (config : Config) : setting.Same config config := by
  cases setting <;> rfl

/-- Whether a document gives the value of a setting depends on the value alone. -/
theorem Same.gives (same : setting.Same config base) (given : setting.Gives document base) :
    setting.Gives document config := by
  cases setting <;>
  · simp only [Same, Gives] at same given ⊢
    rw [same]
    exact given

/-- Configurations whose settings all have the same values are equal. -/
theorem eq_of_same (same : ∀ setting : Setting, setting.Same config base) : config = base := by
  obtain ⟨style, marker, secretSuffix, fallback, unknownFields⟩ := config
  obtain rfl : style = base.style := same .style
  obtain rfl : marker = base.marker := same .marker
  obtain rfl : secretSuffix = base.secretSuffix := same .secretSuffix
  obtain rfl : fallback = base.fallback := same .fallback
  obtain rfl : unknownFields = base.unknownFields := same .unknownFields
  rfl

/-- A configuration that differs in one setting at most is the other one with the value of that
setting taken over. -/
theorem eq_take_iff :
    next = setting.take next config ↔ ∀ other, other ≠ setting → Same next config other := by
  constructor
  · intro taken other different
    have same := same_take_of_ne next config different
    rwa [← taken] at same
  · intro same
    refine eq_of_same fun other => ?_
    by_cases here : other = setting
    · subst here
      exact (same_take_self next config).symm
    · exact (same other here).trans (same_take_of_ne next config here).symm

/-- The setting of a key is the one that has the key. -/
theorem ofKey?_eq_some_iff {key : String} : ofKey? key = some setting ↔ setting.key = key := by
  constructor
  · intro found
    rw [ofKey?] at found
    have same := List.find?_some found
    exact beq_iff_eq.mp same
  · rintro rfl
    cases setting <;> rfl

/-- Different settings have different keys. -/
theorem key_injective {first second : Setting} (same : first.key = second.key) : first = second :=
  Option.some.inj ((ofKey?_eq_some_iff.mpr rfl).symm.trans (ofKey?_eq_some_iff.mpr same.symm))

end Setting

namespace Config

/-- Whether a configuration has the values that the members give, and otherwise those of a base. -/
def Takes (config : Config) (members : List (String × Json)) (base : Config) : Prop :=
  ∀ setting : Setting, match Members.find? setting.key members with
    | some document => setting.Gives document config
    | none => setting.Same config base

/-- The members that a document gives: those of an object, and for a list the settings in their
order with the items. -/
def membersOf? : Json → Option (List (String × Json))
  | .object members => some members
  | .array items =>
    if items.length ≤ Setting.all.length then some ((Setting.all.map Setting.key).zip items)
    else none
  | _ => none

/-- Whether a document describes a configuration: its members have the keys of different settings
and give their values, and the other settings have their defaults. -/
def DescribedBy (config : Config) (document : Json) : Prop :=
  ∃ members, membersOf? document = some members ∧ (Members.keys members).Nodup ∧
    (∀ key ∈ Members.keys members, ∃ setting : Setting, setting.key = key) ∧
    config.Takes members {}

section Takes

variable {members : List (String × Json)} {base config : Config} {setting : Setting}
  {document : Json}

/-- Without members all settings keep their values. -/
theorem takes_nil_iff : config.Takes [] base ↔ config = base :=
  ⟨Setting.eq_of_same, by rintro rfl setting; exact Setting.same_refl setting config⟩

/-- A first member sets its setting, and the later members do not touch it. -/
theorem takes_cons_iff (absent : setting.key ∉ Members.keys members) :
    config.Takes ((setting.key, document) :: members) base ↔
      ∃ next : Config, setting.Gives document next ∧
        (∀ other, other ≠ setting → Setting.Same next base other) ∧ config.Takes members next := by
  have untouched : Members.find? setting.key members = none := by
    cases found : Members.find? setting.key members with
    | none => rfl
    | some other => exact absurd (List.mem_map.mpr ⟨_, Members.mem_of_find? found, rfl⟩) absent
  have later {other : Setting} (different : other ≠ setting) :
      Members.find? other.key ((setting.key, document) :: members) =
        Members.find? other.key members := by
    rw [Members.find?, if_neg fun same => different (Setting.key_injective same).symm]
  constructor
  · intro takes
    have here := takes setting
    rw [Members.find?, if_pos rfl] at here
    refine ⟨setting.take config base, (Setting.same_take_self config base).gives here,
      fun other => Setting.same_take_of_ne config base, fun other => ?_⟩
    by_cases same : other = setting
    · subst same
      rw [untouched]
      exact (Setting.same_take_self config base).symm
    · have there := takes other
      rw [later same] at there
      split at there
      · exact there
      · exact there.trans (Setting.same_take_of_ne config base same).symm
  · rintro ⟨next, gives, others, takes⟩ other
    by_cases same : other = setting
    · subst same
      have here := takes other
      rw [untouched] at here
      rw [Members.find?, if_pos rfl]
      exact here.gives gives
    · have there := takes other
      rw [later same]
      split at there
      · exact there
      · exact there.trans (others other same)

end Takes

/-! ## Reading the values -/

section Values

variable {text rest : List Char}

/-- Taking over the result of a lexical element keeps it. -/
theorem lexical_eq_ok_iff {α : Type} {result : Except Json.Fault α} {value : α} :
    lexical result = .ok value ↔ result = .ok value := by
  cases result with
  | error fault => exact ⟨nofun, nofun⟩
  | ok read => exact ⟨fun same => congrArg _ (Except.ok.inj same),
      fun same => congrArg _ (Except.ok.inj same)⟩

/-- A text is read exactly if it is spelled behind blanks. -/
theorem readText_eq_ok_iff {wanted : Wanted} {value : String} :
    readText wanted text = .ok (value, rest) ↔ Begins (SpellsString value) text rest := by
  rw [Json.begins_string_iff]
  constructor
  · intro read
    unfold readText at read
    split at read
    · next behind skipped => exact ⟨behind, skipped, lexical_eq_ok_iff.mp read⟩
    · cases read
  · rintro ⟨behind, skipped, quoted⟩
    simp only [readText, skipped]
    exact lexical_eq_ok_iff.mpr quoted

/-- The value `null` is read exactly if it stands behind blanks. -/
theorem readNull_eq_ok_iff : readNull text = .ok ((), rest) ↔ Begins (Spelled .null) text rest := by
  refine Iff.trans ?_ (Json.begins_word_iff (rfl : Json.isBlank 'n' = false)).symm
  constructor
  · intro read
    unfold readNull at read
    split at read
    · next behind skipped =>
      obtain ⟨after, word, done⟩ := bind_eq_ok_iff.mp read
      cases done
      exact ⟨behind, skipped, lexical_eq_ok_iff.mp word⟩
    · cases read
  · rintro ⟨behind, skipped, word⟩
    simp only [readNull, skipped]
    exact bind_eq_ok_iff.mpr ⟨rest, lexical_eq_ok_iff.mpr word, rfl⟩

/-- A quoted text may stand behind blanks that have been skipped. -/
theorem begins_skipped_iff {value : String} :
    Begins (SpellsString value) (Json.skipBlanks text) rest ↔
      Begins (SpellsString value) text rest := by
  refine Json.begins_skipBlanks_iff ?_
  rintro _ ⟨inside, _, rfl⟩
  exact ⟨_, _, rfl, rfl⟩

/-- A text or `null` is read exactly if it is spelled behind blanks. -/
theorem readOptionalText_eq_ok_iff {value : Option String} :
    readOptionalText text = .ok (value, rest) ↔
      Begins (Spelled (value.elim .null .string)) text rest := by
  cases value with
  | none =>
    refine Iff.trans ?_ (Json.begins_word_iff (rfl : Json.isBlank 'n' = false)).symm
    constructor
    · intro read
      unfold readOptionalText at read
      split at read
      · next behind skipped =>
        obtain ⟨after, word, done⟩ := bind_eq_ok_iff.mp read
        cases done
        exact ⟨behind, skipped, lexical_eq_ok_iff.mp word⟩
      · obtain ⟨_, _, done⟩ := bind_eq_ok_iff.mp read
        cases done
    · rintro ⟨behind, skipped, word⟩
      simp only [readOptionalText, skipped]
      exact bind_eq_ok_iff.mpr ⟨rest, lexical_eq_ok_iff.mpr word, rfl⟩
  | some value =>
    constructor
    · intro read
      unfold readOptionalText at read
      split at read
      · obtain ⟨_, _, done⟩ := bind_eq_ok_iff.mp read
        cases done
      · obtain ⟨_, quoted, done⟩ := bind_eq_ok_iff.mp read
        cases done
        exact begins_skipped_iff.mp (readText_eq_ok_iff.mp quoted)
    · intro begins
      have quoted : readText .text (Json.skipBlanks text) = .ok (value, rest) :=
        readText_eq_ok_iff.mpr (begins_skipped_iff.mpr begins)
      obtain ⟨behind, skipped, _⟩ := Json.begins_string_iff.mp begins
      rw [skipped] at quoted
      simp only [readOptionalText, skipped]
      exact bind_eq_ok_iff.mpr ⟨(value, rest), quoted, rfl⟩

/-- A keyword between quotes is read exactly if it is spelled behind blanks. -/
theorem readWordOf_eq_ok_iff {α : Type} {keywords : Keywords α} {meaning : α} :
    readWordOf keywords text = .ok (meaning, rest) ↔
      ∃ word, Members.find? word keywords = some meaning ∧
        Begins (SpellsString word) text rest := by
  constructor
  · intro read
    obtain ⟨⟨word, after⟩, quoted, read⟩ := bind_eq_ok_iff.mp read
    dsimp only at read
    split at read
    · next known =>
      cases read
      exact ⟨word, known, readText_eq_ok_iff.mp quoted⟩
    · cases read
  · rintro ⟨word, known, begins⟩
    refine bind_eq_ok_iff.mpr ⟨(word, rest), readText_eq_ok_iff.mpr begins, ?_⟩
    simp only [known]

/-- The texts that spell an object with `null` under its only key. -/
theorem begins_lone_iff {word : String} :
    Begins (Spelled (.object [(word, .null)])) text rest ↔
      ∃ behind afterKey afterColon afterNull, Begins (· = ['\x7b']) text behind ∧
        Begins (SpellsString word) behind afterKey ∧ Begins (· = [':']) afterKey afterColon ∧
        Begins (Spelled .null) afterColon afterNull ∧ Begins (· = ['\x7d']) afterNull rest := by
  constructor
  · rintro ⟨blanks, _, blank, ⟨_, ⟨lead, name, _, here, later, leads, quoted,
      ⟨before, after, blankBefore, blankAfter, rfl⟩, spelled, ends, rfl⟩, rfl⟩, rfl⟩
    have last : Begins (· = ['\x7d']) (later ++ '\x7d' :: rest) rest :=
      ⟨later, _, ends, rfl, by simp⟩
    exact ⟨_, before ++ ':' :: (after ++ (here ++ (later ++ '\x7d' :: rest))), _, _,
      ⟨blanks, _, blank, rfl, by simp⟩, ⟨lead, name, leads, quoted, rfl⟩,
      ⟨before, _, blankBefore, rfl, by simp⟩, ⟨after, here, blankAfter, spelled, rfl⟩, last⟩
  · rintro ⟨_, _, _, _, ⟨blanks, _, blank, rfl, rfl⟩, ⟨lead, name, leads, quoted, rfl⟩,
      ⟨before, _, blankBefore, rfl, rfl⟩, ⟨after, here, blankAfter, spelled, rfl⟩,
      ⟨later, _, ends, rfl, rfl⟩⟩
    exact ⟨blanks, _, blank, ⟨_, ⟨lead, name, _, here, later, leads, quoted,
      ⟨before, after, blankBefore, blankAfter, rfl⟩, spelled, ends, rfl⟩, rfl⟩, by simp⟩

/-- A keyword is read exactly if a document that names it is spelled behind blanks. -/
theorem readKeyword_eq_ok_iff {α : Type} {keywords : Keywords α} {meaning : α} :
    readKeyword keywords text = .ok (meaning, rest) ↔
      ∃ document, keywords.Names document meaning ∧ Begins document.Spelled text rest := by
  constructor
  · intro read
    unfold readKeyword at read
    split at read
    · cases read
    · next behind skipped =>
      obtain ⟨word, known, begins⟩ := readWordOf_eq_ok_iff.mp read
      rw [← skipped] at begins
      exact ⟨.string word, ⟨word, known, .inl rfl⟩, begins_skipped_iff.mp begins⟩
    · next behind skipped =>
      obtain ⟨⟨meaning, afterKey⟩, keyed, read⟩ := bind_eq_ok_iff.mp read
      obtain ⟨afterColon, colon, read⟩ := bind_eq_ok_iff.mp read
      obtain ⟨⟨_, afterNull⟩, null, read⟩ := bind_eq_ok_iff.mp read
      dsimp only at read
      split at read
      · cases read
      · next last =>
        cases read
        obtain ⟨word, known, begins⟩ := readWordOf_eq_ok_iff.mp keyed
        refine ⟨.object [(word, .null)], ⟨word, known, .inr rfl⟩, begins_lone_iff.mpr
          ⟨behind, afterKey, afterColon, afterNull, ?_, begins, ?_, readNull_eq_ok_iff.mp null, ?_⟩⟩
        · exact (Json.skipBlanks_eq_cons_iff rfl).mp skipped
        · exact Json.readColon_eq_ok_iff.mp (lexical_eq_ok_iff.mp colon)
        · exact (Json.skipBlanks_eq_cons_iff rfl).mp last
      · cases read
    · cases read
  · rintro ⟨document, ⟨word, known, rfl | rfl⟩, begins⟩
    · obtain ⟨behind, skipped, _⟩ := Json.begins_string_iff.mp begins
      have keyed : readWordOf keywords (Json.skipBlanks text) = .ok (meaning, rest) :=
        readWordOf_eq_ok_iff.mpr ⟨word, known, begins_skipped_iff.mpr begins⟩
      rw [skipped] at keyed
      simp only [readKeyword, skipped]
      exact keyed
    · obtain ⟨behind, afterKey, afterColon, afterNull, brace, key, colon, null, last⟩ :=
        begins_lone_iff.mp begins
      have keyed := readWordOf_eq_ok_iff.mpr ⟨word, known, key⟩
      have skipped := (Json.skipBlanks_eq_cons_iff rfl).mpr brace
      have ended := (Json.skipBlanks_eq_cons_iff rfl).mpr last
      simp only [readKeyword, skipped]
      refine bind_eq_ok_iff.mpr ⟨_, keyed, bind_eq_ok_iff.mpr ⟨afterColon,
        lexical_eq_ok_iff.mpr (Json.readColon_eq_ok_iff.mpr colon),
        bind_eq_ok_iff.mpr ⟨_, readNull_eq_ok_iff.mpr null, ?_⟩⟩⟩
      simp only [ended]

/-- What is read for one setting is its value in the configuration that results. -/
theorem update_eq_ok_iff {α : Type} {read : Except ReadError (α × List Char)} (set : α → Config)
    (get : Config → α) (kept : ∀ value, get (set value) = value) {next : Config} :
    (read >>= fun pair => .ok (set pair.1, pair.2)) = .ok (next, rest) ↔
      read = .ok (get next, rest) ∧ next = set (get next) := by
  constructor
  · intro done
    obtain ⟨⟨value, after⟩, found, same⟩ := bind_eq_ok_iff.mp done
    obtain ⟨rfl, rfl⟩ := Prod.mk.inj (Except.ok.inj same)
    dsimp only at found ⊢
    rw [kept]
    exact ⟨found, rfl⟩
  · rintro ⟨found, same⟩
    refine bind_eq_ok_iff.mpr ⟨_, found, ?_⟩
    dsimp only
    rw [← same]

/-- The value of a setting is read exactly if a document that gives it is spelled behind blanks; the
other settings keep their values. -/
theorem readSetting_eq_ok_iff {config next : Config} {setting : Setting} :
    readSetting config setting text = .ok (next, rest) ↔
      ∃ document, Begins document.Spelled text rest ∧ setting.Gives document next ∧
        ∀ other, other ≠ setting → Setting.Same next config other := by
  simp only [← Setting.eq_take_iff]
  cases setting with
  | style =>
    refine (update_eq_ok_iff (fun style => { config with style }) Config.style
      fun _ => rfl).trans ?_
    rw [readKeyword_eq_ok_iff]
    exact ⟨fun ⟨⟨document, names, begins⟩, same⟩ => ⟨document, begins, names, same⟩,
      fun ⟨document, begins, names, same⟩ => ⟨⟨document, names, begins⟩, same⟩⟩
  | marker =>
    refine (update_eq_ok_iff (fun marker => { config with marker }) Config.marker
      fun _ => rfl).trans ?_
    rw [readText_eq_ok_iff]
    refine ⟨fun ⟨begins, same⟩ => ⟨.string next.marker, begins, rfl, same⟩, ?_⟩
    rintro ⟨_, begins, rfl, same⟩
    exact ⟨begins, same⟩
  | secretSuffix =>
    refine (update_eq_ok_iff (fun secretSuffix => { config with secretSuffix }) Config.secretSuffix
      fun _ => rfl).trans ?_
    rw [readOptionalText_eq_ok_iff]
    refine ⟨fun ⟨begins, same⟩ => ⟨_, begins, rfl, same⟩, ?_⟩
    rintro ⟨_, begins, rfl, same⟩
    exact ⟨begins, same⟩
  | fallback =>
    refine (update_eq_ok_iff (fun fallback => { config with fallback }) Config.fallback
      fun _ => rfl).trans ?_
    rw [readKeyword_eq_ok_iff]
    exact ⟨fun ⟨⟨document, names, begins⟩, same⟩ => ⟨document, begins, names, same⟩,
      fun ⟨document, begins, names, same⟩ => ⟨⟨document, names, begins⟩, same⟩⟩
  | unknownFields =>
    refine (update_eq_ok_iff (fun unknownFields => { config with unknownFields })
      Config.unknownFields fun _ => rfl).trans ?_
    rw [readKeyword_eq_ok_iff]
    exact ⟨fun ⟨⟨document, names, begins⟩, same⟩ => ⟨document, begins, names, same⟩,
      fun ⟨document, begins, names, same⟩ => ⟨⟨document, names, begins⟩, same⟩⟩

/-- The end of a list is read exactly if its bracket stands behind blanks. -/
theorem readListEnd_eq_ok_iff : readListEnd text = .ok rest ↔ Begins (· = [']']) text rest := by
  rw [← Json.skipBlanks_eq_cons_iff rfl]
  constructor
  · intro read
    unfold readListEnd at read
    split at read
    · cases read
    · next skipped => exact Except.ok.inj read ▸ skipped
    · split at read <;> cases read
    · cases read
  · intro skipped
    simp only [readListEnd, skipped]

end Values

/-! ## Reading lists and objects -/

/-- The keys of a list's members are those of settings. -/
theorem mem_keys_zip {settings : List Setting} {items : List Json} {key : String}
    (present : key ∈ Members.keys ((settings.map Setting.key).zip items)) :
    ∃ setting ∈ settings, Setting.key setting = key := by
  obtain ⟨member, paired, rfl⟩ := List.mem_map.mp present
  exact List.mem_map.mp (List.of_mem_zip paired).1

/-- A setting whose value is not among the items gives no member its key. -/
theorem key_not_mem_keys_zip {setting : Setting} {settings : List Setting}
    (fresh : setting ∉ settings) (items : List Json) :
    setting.key ∉ Members.keys ((settings.map Setting.key).zip items) := by
  intro present
  obtain ⟨other, known, same⟩ := mem_keys_zip present
  exact fresh (Setting.key_injective same ▸ known)

/-- Different settings give a list's members different keys. -/
theorem nodup_keys_zip {settings : List Setting} (distinct : settings.Nodup) (items : List Json) :
    (Members.keys ((settings.map Setting.key).zip items)).Nodup := by
  induction settings generalizing items with
  | nil => exact List.nodup_nil
  | cons setting settings ih =>
    cases items with
    | nil => exact List.nodup_nil
    | cons item items =>
      obtain ⟨fresh, distinct⟩ := List.nodup_cons.mp distinct
      exact List.nodup_cons.mpr ⟨key_not_mem_keys_zip fresh items, ih distinct items⟩

/-- The reading of items ends at the bracket, or goes on behind an item with the next setting. -/
theorem readItems_cons_eq_ok_iff {config result : Config} {setting : Setting}
    {settings : List Setting} {first : Bool} {text rest : List Char} :
    readItems config (setting :: settings) first text = .ok (result, rest) ↔
      (Json.nextItem first text = .ok (.done rest) ∧ result = config) ∨
      ∃ here next after, Json.nextItem first text = .ok (.item here) ∧
        readSetting config setting here = .ok (next, after) ∧
        readItems next settings false after = .ok (result, rest) := by
  constructor
  · intro read
    obtain ⟨next, found, goes⟩ := bind_eq_ok_iff.mp read
    cases next with
    | done after =>
      cases goes
      exact .inl ⟨lexical_eq_ok_iff.mp found, rfl⟩
    | item here =>
      obtain ⟨⟨next, after⟩, value, others⟩ := bind_eq_ok_iff.mp goes
      exact .inr ⟨here, next, after, lexical_eq_ok_iff.mp found, value, others⟩
  · rintro (⟨found, rfl⟩ | ⟨here, next, after, found, value, others⟩)
    · exact bind_eq_ok_iff.mpr ⟨_, lexical_eq_ok_iff.mpr found, rfl⟩
    · exact bind_eq_ok_iff.mpr ⟨_, lexical_eq_ok_iff.mpr found,
        bind_eq_ok_iff.mpr ⟨(next, after), value, others⟩⟩

/-- The items of a list are read exactly if they are spelled up to its bracket, are no more than the
settings, and give the values of these in their order. -/
theorem readItems_eq_ok_iff {config result : Config} {settings : List Setting} {first : Bool}
    {text rest : List Char} (distinct : settings.Nodup) :
    readItems config settings first text = .ok (result, rest) ↔
      ∃ items inside, SpelledItems first items inside ∧ text = inside ++ ']' :: rest ∧
        items.length ≤ settings.length ∧
        result.Takes ((settings.map Setting.key).zip items) config := by
  induction settings generalizing config first text with
  | nil =>
    constructor
    · intro read
      obtain ⟨after, ended, same⟩ := bind_eq_ok_iff.mp read
      cases same
      obtain ⟨blanks, _, blank, rfl, rfl⟩ := readListEnd_eq_ok_iff.mp ended
      exact ⟨[], blanks, blank, by simp, Nat.le_refl 0, takes_nil_iff.mpr rfl⟩
    · rintro ⟨items, inside, spelled, rfl, short, takes⟩
      obtain rfl : items = [] := List.eq_nil_of_length_eq_zero (Nat.le_zero.mp short)
      obtain rfl := takes_nil_iff.mp takes
      exact bind_eq_ok_iff.mpr ⟨rest, readListEnd_eq_ok_iff.mpr
        ⟨inside, _, spelled, rfl, by simp⟩, rfl⟩
  | cons setting settings ih =>
    obtain ⟨fresh, distinct⟩ := List.nodup_cons.mp distinct
    have absent := key_not_mem_keys_zip fresh
    rw [readItems_cons_eq_ok_iff]
    constructor
    · rintro (⟨found, rfl⟩ | ⟨here, next, after, found, value, others⟩)
      · obtain ⟨blanks, _, blank, rfl, rfl⟩ := Json.nextItem_eq_done_iff.mp found
        exact ⟨[], blanks, blank, by simp, Nat.zero_le _, takes_nil_iff.mpr rfl⟩
      · obtain ⟨lead, _, _, leads, _, _, _, rfl⟩ := Json.nextItem_eq_item_iff.mp found
        obtain ⟨document, ⟨blanks, spelling, blank, spelled, rfl⟩, gives, kept⟩ :=
          readSetting_eq_ok_iff.mp value
        obtain ⟨items, inside, spelledItems, rfl, short, takes⟩ := (ih distinct).mp others
        refine ⟨document :: items, lead ++ blanks ++ spelling ++ inside,
          ⟨lead ++ blanks, spelling, inside, leads.append blank, spelled, spelledItems, rfl⟩,
          by simp only [List.append_assoc], Nat.succ_le_succ short, ?_⟩
        exact (takes_cons_iff (absent items)).mpr ⟨next, gives, kept, takes⟩
    · rintro ⟨items, inside, spelled, rfl, short, takes⟩
      have found := spelled.next rest
      cases items with
      | nil =>
        obtain rfl := takes_nil_iff.mp takes
        exact .inl ⟨found, rfl⟩
      | cons document items =>
        obtain ⟨here, later, spelledHere, spelledLater, found⟩ := found
        obtain ⟨next, gives, others, takes⟩ := (takes_cons_iff (absent items)).mp takes
        have begins : Begins document.Spelled (here ++ (later ++ ']' :: rest))
            (later ++ ']' :: rest) := ⟨[], here, Json.blank_nil, spelledHere, rfl⟩
        exact .inr ⟨_, next, _, found, readSetting_eq_ok_iff.mpr ⟨document, begins, gives, others⟩,
          (ih distinct).mpr ⟨items, later, spelledLater, rfl, Nat.le_of_succ_le_succ short, takes⟩⟩

/-- The reading of members ends at the brace, or goes on behind a member with a missing setting. -/
theorem readMembers_eq_ok_iff_step {config result : Config} {missing : List Setting} {first : Bool}
    {text rest : List Char} :
    readMembers config missing first text = .ok (result, rest) ↔
      (Json.nextMember first text = .ok (.done rest) ∧ result = config) ∨
      ∃ behind afterKey afterColon setting next after,
        Json.nextMember first text = .ok (.key behind) ∧
        Json.readString behind = .ok (Setting.key setting, afterKey) ∧ setting ∈ missing ∧
        Json.readColon afterKey = .ok afterColon ∧
        readSetting config setting afterColon = .ok (next, after) ∧
        readMembers next (missing.erase setting) false after = .ok (result, rest) := by
  rw [readMembers]
  constructor
  · intro read
    obtain ⟨next, found, read⟩ := bind_eq_ok_iff.mp read
    cases next with
    | done after =>
      cases read
      exact .inl ⟨lexical_eq_ok_iff.mp found, rfl⟩
    | key behind =>
      dsimp only at read
      obtain ⟨⟨key, afterKey⟩, name, read⟩ := bind_eq_ok_iff.mp read
      dsimp only at read
      split at read
      · cases read
      · next setting known =>
        split at read
        · next present =>
          obtain ⟨afterColon, colon, read⟩ := bind_eq_ok_iff.mp read
          obtain ⟨⟨next, after⟩, value, read⟩ := bind_eq_ok_iff.mp read
          obtain rfl := Setting.ofKey?_eq_some_iff.mp known
          exact .inr ⟨behind, afterKey, afterColon, setting, next, after,
            lexical_eq_ok_iff.mp found, lexical_eq_ok_iff.mp name, present,
            lexical_eq_ok_iff.mp colon, value, read⟩
        · cases read
  · rintro (⟨found, rfl⟩ | ⟨behind, afterKey, afterColon, setting, next, after, found, name,
      present, colon, value, read⟩)
    · exact bind_eq_ok_iff.mpr ⟨_, lexical_eq_ok_iff.mpr found, rfl⟩
    · refine bind_eq_ok_iff.mpr ⟨_, lexical_eq_ok_iff.mpr found, bind_eq_ok_iff.mpr
        ⟨_, lexical_eq_ok_iff.mpr name, ?_⟩⟩
      simp only [Setting.ofKey?_eq_some_iff.mpr rfl, present, dif_pos]
      exact bind_eq_ok_iff.mpr ⟨_, lexical_eq_ok_iff.mpr colon, bind_eq_ok_iff.mpr
        ⟨_, value, read⟩⟩

/-- What has been read up to the brace of an object are members with the keys of different settings
among those that are missing, and the values that they give have been taken. -/
theorem exists_members_of_readMembers {config result : Config} {missing : List Setting}
    {first : Bool} {text rest : List Char} (distinct : missing.Nodup)
    (read : readMembers config missing first text = .ok (result, rest)) :
    ∃ members inside, SpelledMembers first members inside ∧ text = inside ++ '\x7d' :: rest ∧
      (Members.keys members).Nodup ∧
      (∀ key ∈ Members.keys members, ∃ setting ∈ missing, Setting.key setting = key) ∧
      result.Takes members config := by
  -- each member takes its setting out of those that are missing
  induction size : missing.length using Nat.strongRecOn
    generalizing config missing first text with
  | ind count ih =>
    rcases readMembers_eq_ok_iff_step.mp read with ⟨found, rfl⟩ | ⟨behind, afterKey, afterColon,
      setting, next, after, found, name, present, colon, value, others⟩
    · obtain ⟨blanks, _, blank, rfl, rfl⟩ := Json.nextMember_eq_done_iff.mp found
      exact ⟨[], blanks, blank, by simp, List.nodup_nil, nofun, takes_nil_iff.mpr rfl⟩
    · have shorter : (missing.erase setting).length < count := by
        have erased := List.length_erase_of_mem present
        have positive := List.length_pos_of_mem present
        omega
      obtain ⟨members, inside, spelled, rfl, unique, known, takes⟩ :=
        ih _ shorter (distinct.erase setting) others rfl
      obtain ⟨lead, leads, rfl⟩ := Json.nextMember_eq_key_iff.mp found
      obtain ⟨quoted, spelledName, rfl⟩ := Json.readString_eq_ok_iff.mp name
      obtain ⟨before, _, blankBefore, rfl, rfl⟩ := Json.readColon_eq_ok_iff.mp colon
      obtain ⟨document, ⟨blanks, here, blank, spelledHere, rfl⟩, gives, kept⟩ :=
        readSetting_eq_ok_iff.mp value
      have fresh : setting.key ∉ Members.keys members := fun inside => by
        obtain ⟨other, known, same⟩ := known _ inside
        obtain rfl := Setting.key_injective same
        exact distinct.not_mem_erase known
      refine ⟨(setting.key, document) :: members, _,
        ⟨lead, _, _, here, inside, leads, ⟨quoted, spelledName, rfl⟩,
          ⟨before, blanks, blankBefore, blank, rfl⟩, spelledHere, spelled, rfl⟩, by simp,
        List.nodup_cons.mpr ⟨fresh, unique⟩, fun key among => ?_,
        (takes_cons_iff fresh).mpr ⟨next, gives, kept, takes⟩⟩
      rcases List.mem_cons.mp among with rfl | later
      · exact ⟨setting, present, rfl⟩
      · obtain ⟨other, among, same⟩ := known key later
        exact ⟨other, List.mem_of_mem_erase among, same⟩

/-- Members with the keys of different settings among those that are missing are read up to the
brace behind them, and the values that they give are taken. -/
theorem readMembers_of_takes {config result : Config} {missing : List Setting} {first : Bool}
    {members : List (String × Json)} {inside : List Char} (rest : List Char)
    (distinct : missing.Nodup) (spelled : SpelledMembers first members inside)
    (unique : (Members.keys members).Nodup)
    (known : ∀ key ∈ Members.keys members, ∃ setting ∈ missing, Setting.key setting = key)
    (takes : result.Takes members config) :
    readMembers config missing first (inside ++ '\x7d' :: rest) = .ok (result, rest) := by
  induction members generalizing config missing first inside with
  | nil =>
    obtain rfl := takes_nil_iff.mp takes
    exact readMembers_eq_ok_iff_step.mpr (.inl ⟨spelled.next rest, rfl⟩)
  | cons member members ih =>
    obtain ⟨key, value⟩ := member
    obtain ⟨setting, present, rfl⟩ := known key List.mem_cons_self
    obtain ⟨fresh, uniqueLater⟩ := List.nodup_cons.mp unique
    obtain ⟨behind, afterKey, before, here, later, blank, spelledHere, spelledLater, found, name,
      colon⟩ := spelled.next rest
    obtain ⟨next, gives, others, takes⟩ := (takes_cons_iff fresh).mp takes
    have left : ∀ key ∈ Members.keys members, ∃ other ∈ missing.erase setting,
        Setting.key other = key := by
      intro key inside
      obtain ⟨other, among, rfl⟩ := known key (List.mem_cons_of_mem _ inside)
      refine ⟨other, (List.mem_erase_of_ne ?_).mpr among, rfl⟩
      rintro rfl
      exact fresh inside
    refine readMembers_eq_ok_iff_step.mpr (.inr ⟨behind, afterKey, _, setting, next, _, found,
      name, present, colon, readSetting_eq_ok_iff.mpr ⟨value, ⟨before, here, blank, spelledHere,
        (List.append_assoc ..).symm⟩, gives, others⟩, ?_⟩)
    exact ih (distinct.erase setting) spelledLater uniqueLater left takes

/-- The members of an object are read exactly if they are spelled up to its brace, have the keys of
different settings among those that are missing, and give the values of these. -/
theorem readMembers_eq_ok_iff {config result : Config} {missing : List Setting} {first : Bool}
    {text rest : List Char} (distinct : missing.Nodup) :
    readMembers config missing first text = .ok (result, rest) ↔
      ∃ members inside, SpelledMembers first members inside ∧ text = inside ++ '\x7d' :: rest ∧
        (Members.keys members).Nodup ∧
        (∀ key ∈ Members.keys members, ∃ setting ∈ missing, Setting.key setting = key) ∧
        result.Takes members config := by
  refine ⟨exists_members_of_readMembers distinct, ?_⟩
  rintro ⟨members, inside, spelled, rfl, unique, known, takes⟩
  exact readMembers_of_takes rest distinct spelled unique known takes

/-! ## Reading a whole text -/

/-- No setting stands twice in the order of the settings. -/
theorem nodup_all : Setting.all.Nodup := by decide

/-- A configuration is read exactly if a document that describes it is spelled behind blanks. -/
theorem readForm_eq_ok_iff {config : Config} {text rest : List Char} :
    readForm text = .ok (config, rest) ↔
      ∃ document, config.DescribedBy document ∧ Begins document.Spelled text rest := by
  constructor
  · intro read
    unfold readForm at read
    split at read
    · next behind skipped =>
      obtain ⟨members, inside, spelled, rfl, unique, known, takes⟩ :=
        (readMembers_eq_ok_iff nodup_all).mp read
      obtain ⟨blanks, _, blank, rfl, rfl⟩ := (Json.skipBlanks_eq_cons_iff rfl).mp skipped
      refine ⟨.object members, ⟨members, rfl, unique, fun key present => ?_, takes⟩,
        blanks, _, blank, ⟨inside, spelled, rfl⟩, by simp⟩
      obtain ⟨setting, _, same⟩ := known key present
      exact ⟨setting, same⟩
    · next behind skipped =>
      obtain ⟨items, inside, spelled, rfl, short, takes⟩ := (readItems_eq_ok_iff nodup_all).mp read
      obtain ⟨blanks, _, blank, rfl, rfl⟩ := (Json.skipBlanks_eq_cons_iff rfl).mp skipped
      refine ⟨.array items, ⟨_, if_pos short, nodup_keys_zip nodup_all items, fun key present => ?_,
        takes⟩, blanks, _, blank, ⟨inside, spelled, rfl⟩, by simp⟩
      obtain ⟨setting, _, same⟩ := mem_keys_zip present
      exact ⟨setting, same⟩
    · cases read
  · rintro ⟨document, ⟨members, given, unique, known, takes⟩, blanks, _, blank, spelled, rfl⟩
    cases document with
    | object others =>
      obtain rfl : others = members := Option.some.inj given
      obtain ⟨inside, spelled, rfl⟩ := spelled
      have skipped : Json.skipBlanks (blanks ++ ('\x7b' :: inside ++ ['\x7d']) ++ rest) =
          '\x7b' :: (inside ++ '\x7d' :: rest) :=
        (Json.skipBlanks_eq_cons_iff rfl).mpr ⟨blanks, _, blank, rfl, by simp⟩
      simp only [readForm, skipped]
      refine (readMembers_eq_ok_iff nodup_all).mpr ⟨others, inside, spelled, rfl, unique,
        fun key present => ?_, takes⟩
      obtain ⟨setting, same⟩ := known key present
      exact ⟨setting, by cases setting <;> decide, same⟩
    | array items =>
      obtain ⟨inside, spelled, rfl⟩ := spelled
      have skipped : Json.skipBlanks (blanks ++ ('[' :: inside ++ [']']) ++ rest) =
          '[' :: (inside ++ ']' :: rest) :=
        (Json.skipBlanks_eq_cons_iff rfl).mpr ⟨blanks, _, blank, rfl, by simp⟩
      simp only [readForm, skipped]
      rw [membersOf?] at given
      split at given
      · next short =>
        obtain rfl := Option.some.inj given
        exact (readItems_eq_ok_iff nodup_all).mpr ⟨items, inside, spelled, rfl, short, takes⟩
      · cases given
    | _ => cases given

/-- A text is read as a configuration exactly if it spells a document that describes it. -/
theorem readChars_eq_ok_iff {config : Config} {text : List Char} :
    readChars text = .ok config ↔
      ∃ document : Json, document.SpelledText text ∧ config.DescribedBy document := by
  constructor
  · intro read
    obtain ⟨⟨result, rest⟩, form, ended⟩ := bind_eq_ok_iff.mp read
    dsimp only at ended
    split at ended
    · next none =>
      cases ended
      obtain ⟨document, described, blanks, here, blank, spelled, rfl⟩ := readForm_eq_ok_iff.mp form
      exact ⟨document,
        ⟨blanks, here, rest, blank, spelled, Json.skipBlanks_eq_nil_iff.mp none, rfl⟩, described⟩
    · cases ended
  · rintro ⟨document, ⟨before, here, after, blankBefore, spelled, blankAfter, rfl⟩, described⟩
    refine bind_eq_ok_iff.mpr ⟨(config, after), readForm_eq_ok_iff.mpr
      ⟨document, described, before, here, blankBefore, spelled, rfl⟩, ?_⟩
    simp only [Json.skipBlanks_eq_nil_iff.mpr blankAfter]

/-- A text is accepted exactly if it spells a document that describes a configuration without
flaws. -/
theorem read_eq_ok_iff {config : Config} {text : String} :
    Config.read text = .ok config ↔
      (∃ document : Json, document.SpelledText text.toList ∧ config.DescribedBy document) ∧
        config.flaw? = none := by
  rw [← readChars_eq_ok_iff, Config.read]
  constructor
  · intro read
    split at read
    · cases read
    · next result found =>
      split at read
      · cases read
      · next sound =>
        cases read
        exact ⟨found, sound⟩
  · rintro ⟨found, sound⟩
    simp only [found, sound]

end Config

end Redaction
