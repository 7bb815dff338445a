import Redaction.Proofs.Walk.Placed

/-!
# Problems that can be foreseen

The types of a registry and the reference with which a walk starts determine a finite list of
problems, before there is any tree: a reference that means no type, a group that is malformed in one
of finitely many ways, or a field whose value has one of finitely many shapes in the place of
another. Whatever the tree, a walk reports nothing else.
-/

namespace Redaction

open Schema

/-- All shapes. -/
def Shape.all : List Shape := [.null, .bool, .number, .string, .list, .object, .stripped]

/-- There is no other shape. -/
theorem Shape.mem_all (shape : Shape) : shape ∈ all := by
  cases shape <;> decide

/-- All that a field may need as its value. -/
def Expectation.all : List Expectation := [.object, .list, .map]

/-- A field needs nothing else as its value. -/
theorem Expectation.mem_all (expected : Expectation) : expected ∈ all := by
  cases expected <;> decide

/-- All that may stand in the place of a group. -/
def GroupFlaw.all : List GroupFlaw :=
  .noAlternative :: .severalAlternatives :: Shape.all.map .shape

/-- Nothing else stands in the place of a group. -/
theorem GroupFlaw.mem_all (flaw : GroupFlaw) : flaw ∈ all := by
  cases flaw with
  | noAlternative => exact List.mem_cons_self
  | severalAlternatives => exact List.mem_cons_of_mem _ List.mem_cons_self
  | shape found =>
    have listed : GroupFlaw.shape found ∈ Shape.all.map GroupFlaw.shape :=
      List.mem_map_of_mem (Shape.mem_all found)
    exact List.mem_cons_of_mem _ (List.mem_cons_of_mem _ listed)

namespace Schema

/-- The problems with groups of a message type. -/
def Message.groupProblems (message : Message) : List Problem :=
  message.groups.flatMap fun group => GroupFlaw.all.map (.malformedOneof message.name group)

/-- The problems with the shape of values that a field of the name has. -/
def Message.shapeProblems (message : Message) (field : String) : List Problem :=
  Expectation.all.flatMap fun expected =>
    Shape.all.map (.unexpectedShape message.name field expected)

namespace Registry

/-- The names of the fields of all types. -/
def fieldNames (registry : Registry) : List String :=
  registry.messages.flatMap fun message => message.fields.map Field.name

/-- The problems that a walk of a message of the type referred to may meet. Only the whole message
belongs to no field. -/
def foreseen (registry : Registry) (reference : String) : List Problem :=
  (reference :: registry.messages.flatMap Message.references).map .unknownType ++
    registry.messages.flatMap Message.groupProblems ++
    (registry.messages.flatMap fun message => registry.fieldNames.flatMap message.shapeProblems) ++
    (registry.get? reference).toList.flatMap fun message => message.shapeProblems ""

variable {registry : Registry} {reference : String} {message : Message}

/-- The name of a declared field is one of the names of fields. -/
theorem mem_fieldNames {field : Field} (member : message ∈ registry.messages)
    (declared : field ∈ message.fields) : field.name ∈ registry.fieldNames :=
  List.mem_flatMap.mpr ⟨message, member, List.mem_map_of_mem declared⟩

/-- The problems that are foreseen: the first reference or one that a type declares means no type, a
group of a type is malformed, or a value has the wrong shape. -/
theorem mem_foreseen_iff {problem : Problem} :
    problem ∈ registry.foreseen reference ↔
      problem = .unknownType reference ∨
      (∃ message ∈ registry.messages, ∃ typeName ∈ message.references,
        problem = .unknownType typeName) ∨
      (∃ message ∈ registry.messages, ∃ group ∈ message.groups, ∃ flaw,
        problem = .malformedOneof message.name group flaw) ∨
      (∃ message ∈ registry.messages, ∃ field ∈ registry.fieldNames, ∃ expected found,
        problem = .unexpectedShape message.name field expected found) ∨
      ∃ message, registry.get? reference = some message ∧ ∃ expected found,
        problem = .unexpectedShape message.name "" expected found := by
  simp only [foreseen, Message.groupProblems, Message.shapeProblems, List.mem_append,
    List.map_cons, List.mem_cons, List.mem_map, List.mem_flatMap, Option.mem_toList, or_assoc]
  constructor
  · rintro (rfl | ⟨typeName, ⟨message, member, refers⟩, rfl⟩ |
      ⟨message, member, group, listed, flaw, _, rfl⟩ |
      ⟨message, member, field, named, expected, _, found, _, rfl⟩ |
      ⟨message, known, expected, _, found, _, rfl⟩)
    · exact .inl rfl
    · exact .inr (.inl ⟨message, member, typeName, refers, rfl⟩)
    · exact .inr (.inr (.inl ⟨message, member, group, listed, flaw, rfl⟩))
    · exact .inr (.inr (.inr (.inl ⟨message, member, field, named, expected, found, rfl⟩)))
    · exact .inr (.inr (.inr (.inr ⟨message, known, expected, found, rfl⟩)))
  · rintro (rfl | ⟨message, member, typeName, refers, rfl⟩ |
      ⟨message, member, group, listed, flaw, rfl⟩ |
      ⟨message, member, field, named, expected, found, rfl⟩ |
      ⟨message, known, expected, found, rfl⟩)
    · exact .inl rfl
    · exact .inr (.inl ⟨typeName, ⟨message, member, refers⟩, rfl⟩)
    · exact .inr (.inr (.inl ⟨message, member, group, listed, flaw, flaw.mem_all, rfl⟩))
    · exact .inr (.inr (.inr (.inl ⟨message, member, field, named, expected, expected.mem_all,
        found, found.mem_all, rfl⟩)))
    · exact .inr (.inr (.inr (.inr ⟨message, known, expected, expected.mem_all, found,
        found.mem_all, rfl⟩)))

/-- The problem with a shape that a value has for a field is foreseen. -/
theorem mem_foreseen_of_declared {parent : Message} {field : Field}
    (member : message ∈ registry.messages) (known : parent ∈ registry.messages)
    (declared : field ∈ parent.fields) (expected : Expectation) (found : Shape) :
    .unexpectedShape message.name field.name expected found ∈ registry.foreseen reference :=
  mem_foreseen_iff.mpr (.inr (.inr (.inr (.inl
    ⟨message, member, field.name, mem_fieldNames known declared, expected, found, rfl⟩))))

/-- The problem of a value that does not fit what the schema arrives at is foreseen. -/
theorem Arrives.mem_foreseen {policy : Policy} {path : List Step} {last : Task} {value : Tree}
    {problem : Problem} (arrives : registry.Arrives policy (.root reference) path last)
    (misfit : registry.misfit? policy last value = some problem) :
    problem ∈ registry.foreseen reference := by
  have declares := arrives.declares trivial
  cases last with
  | root other =>
    cases arrives with
    | step _ passes => cases passes
    | here =>
      rw [misfit?] at misfit
      split at misfit
      · exact mem_foreseen_iff.mpr (.inl (Option.some.inj misfit).symm)
      · cases misfit
  | message type owner =>
    obtain ⟨_, rfl⟩ := Tree.misshape?_eq_some_iff.mp misfit
    cases arrives with
    | step earlier passes =>
      cases passes with
      | root known =>
        cases earlier with
        | step _ passes => cases passes
        | here =>
          exact mem_foreseen_iff.mpr
            (.inr (.inr (.inr (.inr ⟨type, known, .object, value.shape, rfl⟩))))
      | single | item | entry =>
        obtain ⟨known, declared, _⟩ := earlier.declares trivial
        exact mem_foreseen_of_declared declares known declared .object value.shape
  | field parent field =>
    rw [misfit?] at misfit
    split at misfit
    · next typeName expects =>
      have refers := (outlook_eq_missing_iff.mp expects).2.1
      have listed : typeName ∈ parent.references :=
        List.mem_filterMap.mpr ⟨field, declares.2, refers⟩
      exact mem_foreseen_iff.mpr
        (.inr (.inl ⟨parent, declares.1, typeName, listed, (Option.some.inj misfit).symm⟩))
    all_goals cases misfit
  | nested parent field type =>
    obtain ⟨expected, _, wrong⟩ := Option.bind_eq_some_iff.mp misfit
    obtain ⟨_, rfl⟩ := Tree.misshape?_eq_some_iff.mp wrong
    exact mem_foreseen_of_declared declares.1 declares.1 declares.2.1 expected value.shape
  | group parent group =>
    obtain ⟨flaw, _, rfl⟩ := Option.map_eq_some_iff.mp misfit
    exact mem_foreseen_iff.mpr
      (.inr (.inr (.inl ⟨parent, declares.1, group, declares.2, flaw, rfl⟩)))

end Registry

end Schema

/-- A walk meets no problem but those that are foreseen. -/
theorem Walker.mem_foreseen_of_mem_problems {walker : Walker} {reference : String} {tree : Tree}
    {problem : Problem} (reported : problem ∈ (walker.walkRoot reference tree).problems) :
    problem ∈ walker.registry.foreseen reference := by
  obtain ⟨path, last, value, arrives, _, misfit⟩ := placed_of_mem_problems reported
  exact arrives.mem_foreseen misfit

end Redaction
