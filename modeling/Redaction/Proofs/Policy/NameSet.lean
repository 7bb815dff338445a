import Mathlib.Data.List.Nodup
import Redaction.Policy.Basic
import Redaction.Proofs.Text.LowerCased

/-!
# Additional names as a set

Names are added one at a time or several at once. What comes about is the set of their lower-case
forms: neither the order of the calls nor a repetition leaves a trace, and a name that is listed in
whatever case of its ASCII letters makes a field of this name secret.
-/

namespace Redaction

open Text (SameLetters lowerCase lowerCase_lowerCase)

/-- A call that adds names to a set. -/
inductive Listing where
  /-- One name. -/
  | insert (name : String)
  /-- Several names, one after the other. -/
  | extend (names : List String)
deriving DecidableEq, Repr

/-- The names that a call adds. -/
def Listing.names : Listing → List String
  | .insert name => [name]
  | .extend names => names

namespace AdditionalNames

/-- The set after one more call. -/
def list (set : AdditionalNames) : Listing → AdditionalNames
  | .insert name => set.insert name
  | .extend names => set.insertAll names

/-- The set after a list of calls, without names at the beginning. -/
def afterListings (listings : List Listing) : AdditionalNames := listings.foldl list empty

variable {set other : AdditionalNames} {name form : String} {listings : List Listing}

/-- Sets with the same names are equal. -/
theorem eq_of_mem_iff (same : ∀ name, name ∈ set.names ↔ name ∈ other.names) : set = other := by
  have distinct : ∀ {names : List String}, names.Pairwise (· < ·) → names.Nodup := by
    intro names ordered
    refine ordered.imp fun {first second} below same => ?_
    exact String.lt_irrefl second (same ▸ below)
  have names : set.names = other.names :=
    List.Perm.eq_of_pairwise (fun _ _ _ _ below above => absurd above (String.lt_asymm below))
      set.ordered other.ordered
      ((List.perm_ext_iff_of_nodup (distinct set.ordered) (distinct other.ordered)).mpr same)
  cases set
  cases other
  cases names
  rfl

/-- Adding names adds their lower-case forms. -/
theorem mem_insertAll (names : List String) :
    form ∈ (set.insertAll names).names ↔
      form ∈ set.names ∨ ∃ name ∈ names, lowerCase name = form := by
  induction names generalizing set with
  | nil => simp [insertAll]
  | cons name rest ih =>
    change form ∈ ((set.insert name).insertAll rest).names ↔ _
    rw [ih, insert, mem_place, List.exists_mem_cons_iff, ← or_assoc, or_comm (a := form = _),
      eq_comm (a := form)]

/-- A call adds the lower-case forms of its names. -/
theorem mem_list (listing : Listing) :
    form ∈ (set.list listing).names ↔
      form ∈ set.names ∨ ∃ name ∈ listing.names, lowerCase name = form := by
  cases listing with
  | insert name => exact mem_insertAll [name]
  | extend names => exact mem_insertAll names

/-- Calls add the lower-case forms of all their names. -/
theorem mem_foldl_list :
    form ∈ (listings.foldl list set).names ↔
      form ∈ set.names ∨ ∃ name ∈ listings.flatMap Listing.names, lowerCase name = form := by
  induction listings generalizing set with
  | nil => simp
  | cons listing rest ih =>
    rw [List.foldl_cons, ih, mem_list, List.flatMap_cons, or_assoc]
    simp only [List.mem_append, or_and_right, exists_or]

/-- The set holds the lower-case forms of the names that have been listed. -/
theorem mem_afterListings :
    form ∈ (afterListings listings).names ↔
      ∃ name ∈ listings.flatMap Listing.names, lowerCase name = form := by
  rw [afterListings, mem_foldl_list, or_iff_right]
  exact List.not_mem_nil

/-- A name is in a set if its lower-case form is. -/
theorem contains_iff : set.contains name = true ↔ lowerCase name ∈ set.names := by
  rw [contains, Bool.and_eq_true, List.contains_iff_mem, and_iff_right_of_imp]
  intro present
  rw [Bool.not_eq_true', List.isEmpty_eq_false_iff]
  exact List.ne_nil_of_mem present

/-- A name may be given in either case of its ASCII letters. -/
theorem contains_eq_of_sameLetters (same : SameLetters name form) :
    set.contains name = set.contains form := by
  rw [Bool.eq_iff_iff, contains_iff, contains_iff, same.lowerCase_eq]

/-- A name of the set is its own lower-case form. -/
theorem lowerCase_of_mem (present : form ∈ (afterListings listings).names) :
    lowerCase form = form := by
  obtain ⟨name, _, rfl⟩ := mem_afterListings.mp present
  exact lowerCase_lowerCase name

end AdditionalNames

open AdditionalNames (afterListings mem_afterListings)

/-- The additional names are a set of lower-case forms. A name is in it exactly if a listed name has
its lower-case form; calls that list the same names make the same set, in whatever order and however
often; listing the names of the set again changes nothing, as lower-casing a second time does not;
and the case of ASCII letters does not matter, so a field is secret as soon as its name has been
listed in any such case among whatever other names. -/
theorem additional_names_are_a_set :
    (∀ listings name, (afterListings listings).contains name = true ↔
      ∃ listed ∈ listings.flatMap Listing.names, lowerCase listed = lowerCase name) ∧
    (∀ {listings others}, (∀ name, name ∈ listings.flatMap Listing.names ↔
        name ∈ others.flatMap Listing.names) → afterListings listings = afterListings others) ∧
    (∀ {listings again}, (∀ name ∈ again.flatMap Listing.names,
        name ∈ (afterListings listings).names) →
      afterListings (listings ++ again) = afterListings listings) ∧
    (∀ text, lowerCase (lowerCase text) = lowerCase text) ∧
    (∀ {listings name other}, SameLetters name other →
      (afterListings listings).contains name = (afterListings listings).contains other) ∧
    ∀ {listings listed} {field : Schema.Field} (suffix : Option String),
      listed ∈ listings.flatMap Listing.names → SameLetters listed field.name →
      Policy.isSensitive ⟨suffix, afterListings listings⟩ field = true := by
  have contains : ∀ listings name, (afterListings listings).contains name = true ↔
      ∃ listed ∈ listings.flatMap Listing.names, lowerCase listed = lowerCase name :=
    fun listings name => AdditionalNames.contains_iff.trans mem_afterListings
  refine ⟨contains, fun {listings others} same => ?_, fun {listings again} known => ?_,
    lowerCase_lowerCase, AdditionalNames.contains_eq_of_sameLetters, ?_⟩
  · refine AdditionalNames.eq_of_mem_iff fun form => ?_
    rw [mem_afterListings, mem_afterListings]
    exact exists_congr fun name => and_congr_left' (same name)
  · refine AdditionalNames.eq_of_mem_iff fun form => ?_
    rw [afterListings, List.foldl_append, AdditionalNames.mem_foldl_list, or_iff_left_of_imp]
    · rfl
    · rintro ⟨name, listed, rfl⟩
      have present := known name listed
      rwa [AdditionalNames.lowerCase_of_mem present]
  · intro listings listed field suffix present same
    have among : (afterListings listings).contains field.name = true :=
      (contains listings field.name).mpr ⟨listed, present, same.lowerCase_eq⟩
    rw [Policy.isSensitive, Policy.matchesName, among, Bool.true_or, Bool.or_true]

/-- A field whose name ends in a capital sigma, listed among other names and with its ASCII letters
in another case. -/
theorem key_is_secret :
    let listings : List Listing := [.insert "volume", .extend ["KEYΣ", "\u0130D"], .insert "VOLUME"]
    let others : List Listing :=
      [.extend ["\u0130D", "VOLUME", "KEYΣ"], .insert "KEYΣ", .insert "volume"]
    (afterListings listings).names = ["i\u0307d", "keyς", "volume"] ∧
    afterListings listings = afterListings others ∧
    afterListings (listings ++ [.extend ["volume", "i\u0307d", "keyς"]]) = afterListings listings ∧
    (afterListings listings).contains "kEyΣ" = (afterListings listings).contains "KeYΣ" ∧
    Policy.isSensitive ⟨none, afterListings listings⟩ (.scalar "KeyΣ") = true := by
  intro listings others
  have names : (afterListings listings).names = ["i\u0307d", "keyς", "volume"] := by
    decide +kernel
  have there : ∀ name ∈ listings.flatMap Listing.names, name ∈ others.flatMap Listing.names := by
    decide
  have back : ∀ name ∈ others.flatMap Listing.names, name ∈ listings.flatMap Listing.names := by
    decide
  have listed : "KEYΣ" ∈ listings.flatMap Listing.names := by decide
  obtain ⟨_, unordered, again, _, anyCase, secret⟩ := additional_names_are_a_set
  refine ⟨names, unordered fun name => ⟨there name, back name⟩, again ?_, anyCase (by decide),
    secret none listed (by decide)⟩
  rw [names]
  decide

end Redaction
