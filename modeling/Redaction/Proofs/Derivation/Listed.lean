import Mathlib.Data.List.Induction
import Mathlib.Data.List.Perm.Basic
import Redaction.Derivation.Options
import Redaction.Proofs.Fallible

/-!
# Options that attributes list together

The options of a declaration may stand in one attribute or in several. A reader takes one after the
other, so what it has after some of them is described by the words that these are. If the order of
the words does not matter for this, then the reader reads a set.
-/

namespace Redaction.Derivation

/-- The options that an attribute lists, if it is a list of options. -/
def AttributeBody.items? : AttributeBody → Option (List Meta)
  | .options items => some items
  | .value _ | .bare => none

/-- The options that the attributes which concern the schema list together, if each of these
attributes is a list of options. -/
def listed? : List Attribute → Option (List Meta)
  | [] => some []
  | attr :: rest =>
    if attr.concernsSchema then do return (← attr.body.items?) ++ (← listed? rest)
    else listed? rest

/-- An attribute that lists options of the schema. -/
def Attribute.listing (items : List Meta) : Attribute := ⟨["proto"], .options items⟩

section Listed

variable {Options : Type} {add : Options → Meta → Except Complaint Options} {bare value : Complaint}

/-- How a reader of single options takes an attribute, with the complaints about one that is no list
of options. -/
def addListed (add : Options → Meta → Except Complaint Options) (bare value : Complaint)
    (options : Options) (attr : Attribute) : Except Complaint Options :=
  if attr.concernsSchema then
    match attr.body with
    | .options items => items.foldlM add options
    | .bare => .error bare
    | .value _ => .error value
  else .ok options

/-- Other attributes are ignored. -/
theorem addListed_foreign {options : Options} {attr : Attribute} (foreign : ¬attr.concernsSchema) :
    addListed add bare value options attr = .ok options :=
  if_neg foreign

/-- An attribute is accepted exactly if it is a list whose options are accepted. -/
theorem addListed_eq_ok_iff {options result : Options} {attr : Attribute}
    (concerns : attr.concernsSchema) :
    addListed add bare value options attr = .ok result ↔
      ∃ items, attr.body.items? = some items ∧ items.foldlM add options = .ok result := by
  rw [addListed, if_pos concerns]
  cases attr.body with
  | options items =>
    refine ⟨fun done => ⟨items, rfl, done⟩, ?_⟩
    rintro ⟨_, same, done⟩
    exact Option.some.inj same ▸ done
  | value _ => exact ⟨nofun, fun ⟨_, lists, _⟩ => nomatch lists⟩
  | bare => exact ⟨nofun, fun ⟨_, lists, _⟩ => nomatch lists⟩

/-- Attributes are accepted exactly if they are lists whose options are accepted together. -/
theorem foldlM_addListed_eq_ok_iff {attributes : List Attribute} {start result : Options} :
    attributes.foldlM (addListed add bare value) start = .ok result ↔
      ∃ items, listed? attributes = some items ∧ items.foldlM add start = .ok result := by
  induction attributes generalizing start with
  | nil =>
    refine ⟨fun done => ⟨[], rfl, done⟩, ?_⟩
    rintro ⟨items, listed, done⟩
    obtain rfl := Option.some.inj listed
    exact done
  | cons attr rest ih =>
    rw [List.foldlM_cons, listed?]
    by_cases concerns : attr.concernsSchema
    · rw [if_pos concerns]
      refine ⟨fun done => ?_, ?_⟩
      · obtain ⟨next, here, remaining⟩ := bind_eq_ok_iff.mp done
        obtain ⟨items, lists, first⟩ := (addListed_eq_ok_iff concerns).mp here
        obtain ⟨others, listed, later⟩ := ih.mp remaining
        refine ⟨items ++ others, by rw [lists, listed]; rfl, ?_⟩
        rw [List.foldlM_append]
        exact bind_eq_ok_iff.mpr ⟨next, first, later⟩
      · rintro ⟨together, listed, done⟩
        obtain ⟨items, lists, listed⟩ := Option.bind_eq_some_iff.mp listed
        obtain ⟨others, behind, listed⟩ := Option.bind_eq_some_iff.mp listed
        obtain rfl := Option.some.inj listed
        rw [List.foldlM_append] at done
        obtain ⟨next, first, later⟩ := bind_eq_ok_iff.mp done
        have here : addListed add bare value start attr = .ok next :=
          (addListed_eq_ok_iff concerns).mpr ⟨items, lists, first⟩
        exact bind_eq_ok_iff.mpr ⟨next, here, ih.mpr ⟨others, behind, later⟩⟩
    · rw [if_neg concerns, addListed_foreign concerns]
      exact ih

/-- Attributes that do not concern the schema can be left out. -/
theorem foldlM_addListed_filter (attributes : List Attribute) (start : Options) :
    (attributes.filter Attribute.concernsSchema).foldlM (addListed add bare value) start =
      attributes.foldlM (addListed add bare value) start := by
  induction attributes generalizing start with
  | nil => rfl
  | cons attr rest ih =>
    rw [List.foldlM_cons, List.filter_cons]
    split
    · rw [List.foldlM_cons]
      exact congrArg _ (funext ih)
    · next foreign =>
      rw [addListed_foreign foreign]
      exact ih start

/-- A list of options can be split into two. -/
theorem foldlM_addListed_split (earlier later : List Attribute) (items more : List Meta)
    (start : Options) :
    (earlier ++ .listing (items ++ more) :: later).foldlM (addListed add bare value) start =
      (earlier ++ .listing items :: .listing more :: later).foldlM (addListed add bare value)
        start := by
  have takes (options : Options) (items : List Meta) :
      addListed add bare value options (.listing items) = items.foldlM add options := rfl
  rw [List.foldlM_append, List.foldlM_append]
  refine congrArg _ (funext fun options => ?_)
  rw [List.foldlM_cons, List.foldlM_cons, takes, List.foldlM_append, takes, bind_assoc]
  refine congrArg _ (funext fun next => ?_)
  rw [List.foldlM_cons, takes]

end Listed

section Words

variable {Word Options : Type} {add : Options → Meta → Except Complaint Options}
  {written : Word → Meta} {Consistent : List Word → Prop} {gathered : List Word → Options}

/-- If the reader takes an option exactly if it is a word that is consistent with those before it,
the options it accepts are those of consistent words. -/
theorem foldlM_words (none : Consistent [])
    (keeps : ∀ {words word}, Consistent (words ++ [word]) → Consistent words)
    (step : ∀ {words item larger}, Consistent words →
      (add (gathered words) item = .ok larger ↔ ∃ word, item = written word ∧
        Consistent (words ++ [word]) ∧ larger = gathered (words ++ [word])))
    {items : List Meta} {result : Options} :
    items.foldlM add (gathered []) = .ok result ↔
      ∃ words, items = words.map written ∧ Consistent words ∧ result = gathered words := by
  -- From the last option: the words before it are those that the reader has taken.
  induction items using List.reverseRecOn generalizing result with
  | nil =>
    refine ⟨fun done => ⟨[], rfl, none, (Except.ok.inj done).symm⟩, ?_⟩
    rintro ⟨words, same, _, rfl⟩
    rw [List.map_eq_nil_iff.mp same.symm]
    rfl
  | append_singleton items item ih =>
    rw [List.foldlM_append]
    refine ⟨fun done => ?_, ?_⟩
    · obtain ⟨next, earlier, last⟩ := bind_eq_ok_iff.mp done
      obtain ⟨words, rfl, consistent, rfl⟩ := ih.mp earlier
      rw [List.foldlM_cons] at last
      obtain ⟨larger, taken, ends⟩ := bind_eq_ok_iff.mp last
      obtain rfl := Except.ok.inj ends
      obtain ⟨word, rfl, together, rfl⟩ := (step consistent).mp taken
      exact ⟨words ++ [word], by rw [List.map_append]; rfl, together, rfl⟩
    · rintro ⟨words, same, together, rfl⟩
      obtain ⟨before, last, rfl, rfl, single⟩ := List.append_eq_map_iff.mp same
      obtain ⟨word, rfl, rfl⟩ := List.map_eq_singleton_iff.mp single
      have consistent := keeps together
      refine bind_eq_ok_iff.mpr ⟨gathered before, ih.mpr ⟨before, rfl, consistent, rfl⟩, ?_⟩
      rw [List.foldlM_cons]
      exact bind_eq_ok_iff.mpr
        ⟨_, (step consistent).mpr ⟨word, rfl, together, rfl⟩, rfl⟩

end Words

section AtMostOne

variable {α β : Type} {f : α → Option β} {words others : List α} {word : α}

/-- With one more word there is at most one value if there was, and none if the word has one. -/
theorem length_filterMap_append_le_one_iff :
    ((words ++ [word]).filterMap f).length ≤ 1 ↔
      (words.filterMap f).length ≤ 1 ∧ ((f word).isSome → words.findSome? f = none) := by
  rw [List.filterMap_append, List.length_append, ← List.head?_filterMap,
    List.head?_eq_none_iff, ← List.length_eq_zero_iff]
  cases value : f word with
  | none => simp [value]
  | some _ =>
    simp only [List.filterMap_cons, value, List.filterMap_nil, List.length_singleton,
      Option.isSome_some, forall_const]
    omega

/-- Where there is at most one value, it does not depend on the order. -/
theorem findSome?_eq_of_perm (same : words.Perm others) (one : (words.filterMap f).length ≤ 1) :
    words.findSome? f = others.findSome? f := by
  have values : (words.filterMap f).Perm (others.filterMap f) := same.filterMap f
  rw [← List.head?_filterMap, ← List.head?_filterMap]
  match found : words.filterMap f with
  | [] =>
    rw [found] at values
    rw [List.nil_perm.mp values]
  | [_] =>
    rw [found] at values
    rw [List.singleton_perm.mp values]
  | _ :: _ :: _ =>
    rw [found] at one
    simp at one

end AtMostOne

/-- What it is to read the options that attributes list as a set of words. -/
structure ReadsSet {Word Options : Type} (read : List Attribute → Except Complaint Options)
    (written : Word → Meta) (Fits : List Word → Prop) (gathered : List Word → Options) : Prop where
  /-- Exactly words that fit together are accepted, and what is read is determined by them. -/
  accepts : ∀ {attributes options}, read attributes = .ok options ↔ ∃ words,
    listed? attributes = some (words.map written) ∧ Fits words ∧ options = gathered words
  /-- Other attributes are ignored. -/
  foreign : ∀ attributes, read (attributes.filter Attribute.concernsSchema) = read attributes
  /-- One list can be split into two, and two can be joined. -/
  split : ∀ earlier items more later, read (earlier ++ .listing (items ++ more) :: later) =
    read (earlier ++ .listing items :: .listing more :: later)
  /-- What is read is the same however the options are ordered and distributed. -/
  unordered : ∀ {attributes others}, Option.Rel List.Perm (listed? attributes) (listed? others) →
    (read attributes).toOption = (read others).toOption

/-- Reorderings of what may be missing can be undone. -/
theorem rel_perm_symm {α : Type} {first second : Option (List α)}
    (related : Option.Rel List.Perm first second) : Option.Rel List.Perm second first := by
  cases related with
  | some same => exact .some same.symm
  | none => exact .none

namespace ReadsSet

variable {Word Options : Type} {add : Options → Meta → Except Complaint Options}
  {read : List Attribute → Except Complaint Options} {written : Word → Meta}
  {Consistent Fits : List Word → Prop} {gathered : List Word → Options} {bad : Options → Bool}
  {bare value fault : Complaint}

/-- A reader that takes one option after the other and looks at the whole in the end reads a set. -/
theorem of_reads
    (reads : ∀ attributes, read attributes = do
      let options ← attributes.foldlM (addListed add bare value) (gathered [])
      if bad options then .error fault else .ok options)
    (exact : ∀ {items result}, items.foldlM add (gathered []) = .ok result ↔
      ∃ words, items = words.map written ∧ Consistent words ∧ result = gathered words)
    (fits_iff : ∀ {words}, Fits words ↔ Consistent words ∧ bad (gathered words) = false)
    (perm : ∀ {words others}, Fits words → words.Perm others → Fits others)
    (same : ∀ {words others}, Fits words → words.Perm others → gathered words = gathered others) :
    ReadsSet read written Fits gathered := by
  have accepts : ∀ {attributes options}, read attributes = .ok options ↔ ∃ words,
      listed? attributes = some (words.map written) ∧ Fits words ∧ options = gathered words := by
    intro attributes options
    rw [reads, bind_eq_ok_iff]
    refine ⟨?_, ?_⟩
    · rintro ⟨given, read, done⟩
      obtain ⟨items, listed, taken⟩ := foldlM_addListed_eq_ok_iff.mp read
      obtain ⟨words, rfl, consistent, rfl⟩ := exact.mp taken
      split at done
      · cases done
      · next good =>
        obtain rfl := Except.ok.inj done
        exact ⟨words, listed, fits_iff.mpr ⟨consistent, eq_false_of_ne_true good⟩, rfl⟩
    · rintro ⟨words, listed, fits, rfl⟩
      obtain ⟨consistent, good⟩ := fits_iff.mp fits
      have taken := exact.mpr ⟨words, rfl, consistent, rfl⟩
      exact ⟨gathered words, foldlM_addListed_eq_ok_iff.mpr ⟨_, listed, taken⟩, by rw [good]; rfl⟩
  have moved : ∀ {attributes others options},
      Option.Rel List.Perm (listed? attributes) (listed? others) →
      read attributes = .ok options → read others = .ok options := by
    intro attributes others options related done
    obtain ⟨words, listed, fits, rfl⟩ := accepts.mp done
    rw [listed] at related
    cases behind : listed? others with
    | none => rw [behind] at related; cases related
    | some items =>
      rw [behind] at related
      obtain ⟨together⟩ := related
      have split := congrFun (congrFun (List.eq_map_comp_perm written) items) words
      obtain ⟨ordered, rfl, order⟩ := split.mpr together.symm
      exact accepts.mpr ⟨ordered, behind, perm fits order.symm, same fits order.symm⟩
  refine ⟨accepts, fun attributes => ?_, fun earlier items more later => ?_, fun related => ?_⟩
  · rw [reads, reads, foldlM_addListed_filter]
  · rw [reads, reads, foldlM_addListed_split]
  · refine Option.ext fun options => ?_
    rw [toOption_eq_some_iff, toOption_eq_some_iff]
    exact ⟨moved related, moved (rel_perm_symm related)⟩

end ReadsSet

end Redaction.Derivation
