import Mathlib.Data.List.Nodup
import ResponseTypes.Proofs.FirstOccurrence
import ResponseTypes.Proofs.Schema.Indexing
import ResponseTypes.Selection.Basic

/-!
# Valid schemas

Validation goes over the definitions as they are listed, but looks names up in the index.  In a
schema that was built the index holds the listed definitions, and once no name is listed twice the
two views agree: a name is looked up exactly if a definition of that name is listed.  So what
validation checks can be said of the list alone.

Whoever asks for the possible types of a composite type goes over the list again, and relies on a
valid schema: there, all of them are objects, and the type is the only possible one of itself
exactly if it is an object.

## What is here

* `Schema.Built` — the ways to build a schema.
* `Schema.IsValid`, from `Schema.Defines`, `Schema.LeadsTo` and `TypeDefinition.IsValid` — valid
  schemas, without the index.
* `Schema.Possibilities` — what the possible types of a type are.
* `Schema.validate_spec` — validation accepts valid schemas and no others, and what it accepts has
  these possible types.
-/

set_option autoImplicit false

namespace ResponseTypes
namespace Schema

variable {s : Schema}

/-! ## Building -/

/-- The ways to build a schema: it is read, or it starts from the built-in scalars; more definitions
are added, and the types that operations start from are named. -/
inductive Built : Schema → Prop where
  | parse {text : String} {s : Schema} (h : parse text = .ok s) : Built s
  | ofQueryType (name : String) : Built (ofQueryType name)
  | define {s : Schema} (h : Built s) (d : TypeDefinition) : Built (s.define d)
  | start {s : Schema} (h : Built s) (query : String) (mutation? subscription? : Option String) :
    Built { s with
      queryType := query, mutationType? := mutation?, subscriptionType? := subscription? }

/-- **A schema that was built is indexed.** -/
theorem Built.isIndexed (h : s.Built) : s.IsIndexed := by
  induction h with
  | parse h => exact (IsMade.parse h).isSettled.indexed
  | ofQueryType name => exact (IsMade.ofQueryType name).isSettled.indexed
  | define _ d ih => exact ih.define d
  | start _ query mutation? subscription? ih => exact ih

/-- **What is looked up is what is listed**, if no name is listed twice. -/
theorem IsIndexed.get?_eq_some_iff (h : s.IsIndexed)
    (hnames : (s.types.map TypeDefinition.name).Nodup) {name : String} {d : TypeDefinition} :
    s.get? name = some d ↔ d ∈ s.types ∧ d.name = name := by
  have hreverse : (s.types.reverse.map TypeDefinition.name).Nodup := by
    rwa [List.map_reverse, List.nodup_reverse]
  rw [h.get?_eq_find?, find?_key_eq_some_iff hreverse, List.mem_reverse]

/-! ## Valid schemas -/

/-- A definition of this name is listed, and it is of such a kind. -/
def Defines (s : Schema) (name : String) (P : TypeKind → Prop) : Prop :=
  ∃ d ∈ s.types, d.name = name ∧ P d.kind

/-- A reference leads to a definition of such a kind, through sound wrappers. -/
def LeadsTo (s : Schema) (ref : TypeRef) (P : TypeKind → Prop) : Prop :=
  ref.WellWrapped ∧ s.Defines ref.innermost P

end Schema

/-- Fields of an object or an interface have distinct names, and their values are no input objects.
-/
structure FieldDefinition.AreValid (s : Schema) (fields : List FieldDefinition) : Prop where
  names : (fields.map FieldDefinition.name).Nodup
  types : ∀ f ∈ fields, s.LeadsTo f.type (· ≠ .inputObject)

/-- Fields of an input object have distinct names, and their values are scalars, values of enums or
input objects. -/
structure InputField.AreValid (s : Schema) (fields : List InputField) : Prop where
  names : (fields.map InputField.name).Nodup
  types : ∀ f ∈ fields, s.LeadsTo f.type fun kind =>
    kind = .scalar ∨ kind = .enum ∨ kind = .inputObject

/-- A definition is valid among those of a schema. -/
def TypeDefinition.IsValid (s : Schema) : TypeDefinition → Prop
  | .scalar _ => True
  | .enum d => (d.values.map EnumValue.name).Nodup
  | .object d => FieldDefinition.AreValid s d.fields ∧
    ∀ name ∈ d.interfaces, s.Defines name (· = .interface)
  | .interface d => FieldDefinition.AreValid s d.fields
  | .union d => ∀ name ∈ d.members, s.Defines name (· = .object)
  | .inputObject d => InputField.AreValid s d.fields

namespace Schema

variable {s : Schema}

/-- **A valid schema**: no name is listed twice, operations start from objects, and all definitions
are valid. -/
structure IsValid (s : Schema) : Prop where
  names : (s.types.map TypeDefinition.name).Nodup
  roots : ∀ kind name, s.rootType? kind = some name → s.Defines name (· = .object)
  definitions : ∀ d ∈ s.types, d.IsValid s

/-! ## What validation checks -/

theorem validateNames_eq_ok_iff :
    s.validateNames = .ok () ↔ (s.types.map TypeDefinition.name).Nodup := by
  simp [validateNames, checkUnique_eq_ok_iff]

section Lookup

variable (hindexed : s.IsIndexed) (hnames : (s.types.map TypeDefinition.name).Nodup)

include hindexed hnames

/-- The check of a kind, for the kinds that are expected. -/
theorem checkKind_iff_defines {name : String} {isExpected : TypeKind → Bool}
    {expected : Expectation} {P : TypeKind → Prop} (hP : ∀ kind, isExpected kind = true ↔ P kind) :
    s.checkKind name isExpected expected = .ok () ↔ s.Defines name P := by
  simp only [checkKind_eq_ok_iff, hindexed.get?_eq_some_iff hnames, hP, Defines, and_assoc]

/-- The check of a reference, for the kinds that are expected at its heart. -/
theorem checkRef_iff_leadsTo {ref : TypeRef} {isExpected : TypeKind → Bool}
    {expected : Expectation} {P : TypeKind → Prop} (hP : ∀ kind, isExpected kind = true ↔ P kind) :
    s.checkRef ref isExpected expected = .ok () ↔ s.LeadsTo ref P := by
  simp only [checkRef_eq_ok_iff, hindexed.get?_eq_some_iff hnames, hP, LeadsTo, Defines, and_assoc]

theorem validateRoots_eq_ok_iff :
    s.validateRoots = .ok () ↔
      ∀ kind name, s.rootType? kind = some name → s.Defines name (· = .object) := by
  rw [validateRoots, checkAll_eq_ok_iff]
  simp only [mem_roots_iff, checkKind_iff_defines hindexed hnames fun _ => beq_iff_eq]
  exact ⟨fun h kind name hroot => h name ⟨kind, hroot⟩,
    fun h name ⟨kind, hroot⟩ => h kind name hroot⟩

theorem validateFields_eq_ok_iff {typeName : String} {fields : List FieldDefinition} :
    s.validateFields typeName fields = .ok () ↔ FieldDefinition.AreValid s fields := by
  have hkind : ∀ kind : TypeKind, kind.isOutput = true ↔ kind ≠ .inputObject := by
    intro kind
    cases kind <;> decide
  rw [validateFields, checkUnique_eq_ok_iff]
  simp only [checkRef_iff_leadsTo hindexed hnames hkind]
  exact ⟨fun ⟨_, hunique, htypes⟩ => ⟨hunique, htypes⟩,
    fun ⟨hunique, htypes⟩ => ⟨by simp, hunique, htypes⟩⟩

theorem validateInputFields_eq_ok_iff {typeName : String} {fields : List InputField} :
    s.validateInputFields typeName fields = .ok () ↔ InputField.AreValid s fields := by
  have hkind : ∀ kind : TypeKind, kind.isInput = true ↔
      kind = .scalar ∨ kind = .enum ∨ kind = .inputObject := by
    intro kind
    cases kind <;> decide
  rw [validateInputFields, checkUnique_eq_ok_iff]
  simp only [checkRef_iff_leadsTo hindexed hnames hkind]
  exact ⟨fun ⟨_, hunique, htypes⟩ => ⟨hunique, htypes⟩,
    fun ⟨hunique, htypes⟩ => ⟨by simp, hunique, htypes⟩⟩

/-- **One definition** is checked for what makes it valid. -/
theorem validateType_eq_ok_iff {d : TypeDefinition} : s.validateType d = .ok () ↔ d.IsValid s := by
  cases d with
  | scalar d => exact iff_of_true rfl trivial
  | enum d =>
    rw [validateType, validateValues, checkUnique_eq_ok_iff]
    simp [TypeDefinition.IsValid]
  | object d =>
    rw [validateType, then_eq_ok_iff, validateFields_eq_ok_iff hindexed hnames, checkAll_eq_ok_iff]
    simp only [checkKind_iff_defines hindexed hnames fun _ => beq_iff_eq, TypeDefinition.IsValid]
  | interface d => exact validateFields_eq_ok_iff hindexed hnames
  | union d =>
    rw [validateType, checkAll_eq_ok_iff]
    simp only [checkKind_iff_defines hindexed hnames fun _ => beq_iff_eq, TypeDefinition.IsValid]
  | inputObject d => exact validateInputFields_eq_ok_iff hindexed hnames

end Lookup

/-- **Validation accepts valid schemas** and no others. -/
theorem IsIndexed.validate_eq_ok_iff (h : s.IsIndexed) : s.validate = .ok () ↔ s.IsValid := by
  rw [validate, then_eq_ok_iff, then_eq_ok_iff, validateNames_eq_ok_iff]
  -- The names come first: only if they are unique, the index agrees with the list.
  constructor
  · rintro ⟨hnames, hroots, htypes⟩
    refine ⟨hnames, (validateRoots_eq_ok_iff h hnames).1 hroots, fun d hd => ?_⟩
    exact (validateType_eq_ok_iff h hnames).1 (checkAll_eq_ok_iff.1 htypes d hd)
  · rintro ⟨hnames, hroots, htypes⟩
    refine ⟨hnames, (validateRoots_eq_ok_iff h hnames).2 hroots,
      checkAll_eq_ok_iff.2 fun d hd => ?_⟩
    exact (validateType_eq_ok_iff h hnames).2 (htypes d hd)

/-! ## Possible types -/

/-- **What the possible types of a composite type are**: objects; those that declare it, each once
and in the order in which they are listed, if it is an interface; and not the type alone exactly if
it is abstract. -/
structure Possibilities (s : Schema) (d : TypeDefinition) : Prop where
  objects : ∀ name ∈ s.possibleTypes d.name, s.Defines name (· = .object)
  sublist : d.kind = .interface →
    (s.possibleTypes d.name).Sublist (s.types.map TypeDefinition.name)
  nodup : d.kind = .interface → (s.possibleTypes d.name).Nodup
  declaring : d.kind = .interface → ∀ name, name ∈ s.possibleTypes d.name ↔
    ∃ o, .object o ∈ s.types ∧ o.name = name ∧ d.name ∈ o.interfaces
  polymorphic : ({ parentType := d.name, possible := s.possibleTypes d.name, selections := [] } :
    SelectionSet).isPolymorphic = true ↔ d.kind.isAbstract = true

theorem mem_objects_iff {o : ObjectDefinition} : o ∈ s.objects ↔ .object o ∈ s.types := by
  rw [objects, List.mem_filterMap]
  constructor
  · rintro ⟨d, hd, ho⟩
    cases d with
    | object d => exact Option.some.inj ho ▸ hd
    | scalar d | enum d | interface d | union d | inputObject d => cases ho
  · exact fun ho => ⟨.object o, ho, rfl⟩

/-- The objects are listed among all definitions, in this order. -/
theorem map_name_objects_sublist :
    (s.objects.map ObjectDefinition.name).Sublist (s.types.map TypeDefinition.name) := by
  rw [objects]
  induction s.types with
  | nil => exact .slnil
  | cons d types ih =>
    cases d with
    | object d => exact ih.cons_cons d.name
    | scalar d | enum d | interface d | union d | inputObject d => exact ih.cons _

namespace IsValid

variable (hvalid : s.IsValid) {d : TypeDefinition} (hd : d ∈ s.types)

include hvalid hd

/-- A definition that is listed under the name of an object is that object. -/
theorem kind_eq_object (h : s.Defines d.name (· = .object)) : d.kind = .object := by
  obtain ⟨e, he, hname, hkind⟩ := h
  rwa [List.inj_on_of_nodup_map hvalid.names he hd hname] at hkind

/-- **The possible types** of a definition in a valid schema. -/
theorem possibilities (hindexed : s.IsIndexed) (hcomposite : d.kind.isComposite = true) :
    s.Possibilities d := by
  have hget : s.get? d.name = some d := (hindexed.get?_eq_some_iff hvalid.names).2 ⟨hd, rfl⟩
  -- A type that is no object cannot stand among objects, so it is not the only possible one.
  have hpolymorphic : (∀ name ∈ s.possibleTypes d.name, s.Defines name (· = .object)) →
      d.kind ≠ .object → s.possibleTypes d.name ≠ [d.name] := by
    intro hobjects hkind hself
    exact hkind (hvalid.kind_eq_object hd (hobjects d.name (hself ▸ List.mem_cons_self)))
  cases d with
  | object d =>
    have hpossible : s.possibleTypes d.name = [d.name] := by
      rw [possibleTypes, show s.get? d.name = _ from hget]
    refine ⟨?_, nofun, nofun, nofun, iff_of_false ?_ Bool.false_ne_true⟩
    · exact hpossible ▸ List.forall_mem_singleton.2 ⟨.object d, hd, rfl, rfl⟩
    · exact fun hne => bne_iff_ne.1 hne hpossible
  | interface d =>
    have hpossible : s.possibleTypes d.name
        = (s.objects.filter fun o => o.interfaces.contains d.name).map fun o => o.name := by
      rw [possibleTypes, show s.get? d.name = _ from hget]
    have hdeclaring : ∀ name, name ∈ s.possibleTypes d.name ↔
        ∃ o, .object o ∈ s.types ∧ o.name = name ∧ d.name ∈ o.interfaces := by
      intro name
      simp only [hpossible, List.mem_map, List.mem_filter, mem_objects_iff, List.contains_iff_mem,
        and_assoc, and_comm]
    have hsublist : (s.possibleTypes d.name).Sublist (s.types.map TypeDefinition.name) :=
      hpossible ▸ (List.filter_sublist.map _).trans map_name_objects_sublist
    have hobjects : ∀ name ∈ s.possibleTypes d.name, s.Defines name (· = .object) := by
      intro name hname
      obtain ⟨o, ho, rfl, -⟩ := (hdeclaring name).1 hname
      exact ⟨.object o, ho, rfl, rfl⟩
    refine ⟨hobjects, fun _ => hsublist, fun _ => hvalid.names.sublist hsublist,
      fun _ => hdeclaring, ?_⟩
    exact iff_of_true (bne_iff_ne.2 (hpolymorphic hobjects nofun)) rfl
  | union d =>
    have hpossible : s.possibleTypes d.name = d.members := by
      rw [possibleTypes, show s.get? d.name = _ from hget]
    have hobjects : ∀ name ∈ s.possibleTypes d.name, s.Defines name (· = .object) :=
      hpossible ▸ hvalid.definitions _ hd
    exact ⟨hobjects, nofun, nofun, nofun,
      iff_of_true (bne_iff_ne.2 (hpolymorphic hobjects nofun)) rfl⟩
  | scalar d | enum d | inputObject d => cases hcomposite

end IsValid

/-- **Validation is exact**: of the schemas that can be built, it accepts the valid ones and no
others.  And the possible types of every object, interface and union of a schema that it accepts
are what they are relied on to be. -/
theorem validate_spec (h : s.Built) :
    (s.validate = .ok () ↔ s.IsValid) ∧
      (s.validate = .ok () →
        ∀ d ∈ s.types, d.kind.isComposite = true → s.Possibilities d) := by
  have hexact := h.isIndexed.validate_eq_ok_iff
  exact ⟨hexact, fun hvalidate d hd hcomposite =>
    (hexact.1 hvalidate).possibilities hd h.isIndexed hcomposite⟩

/-- Dogs and cats are pets, and only cats are strays. -/
def pound : Schema :=
  let name : FieldDefinition := { name := "name", type := .nonNull (.named "String") }
  ofQueryType "Query"
    |>.define (.interface { name := "Pet", fields := [name] })
    |>.define (.object { name := "Dog", fields := [name], interfaces := ["Pet"] })
    |>.define (.object { name := "Cat", fields := [name], interfaces := ["Pet"] })
    |>.define (.union { name := "Stray", members := ["Cat"] })
    |>.define (.object { name := "Query", fields := [{ name := "stray", type := .named "Stray" }] })

/-- A stray can only be a cat, but to be a stray is not to be a cat. -/
theorem validate_spec_pound :
    pound.Built ∧ pound.validate = .ok () ∧ pound.IsValid ∧
      pound.possibleTypes "Pet" = ["Dog", "Cat"] ∧ pound.possibleTypes "Stray" = ["Cat"] ∧
        ∀ d ∈ pound.types, d.kind.isComposite = true → pound.Possibilities d := by
  have hbuilt : pound.Built :=
    (((((Built.ofQueryType "Query").define _).define _).define _).define _).define _
  have hvalidate : pound.validate = .ok () := by cbv
  obtain ⟨hexact, hpossibilities⟩ := validate_spec hbuilt
  exact ⟨hbuilt, hvalidate, hexact.1 hvalidate, by cbv, by cbv, hpossibilities hvalidate⟩

end Schema
end ResponseTypes
