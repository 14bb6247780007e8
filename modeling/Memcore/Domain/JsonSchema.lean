import Memcore.Domain.Values

/-!
# JSON schemas and structures read from JSON

A schema says which values a model is asked to answer with. The schemas here name the types of a
value, the items of an array, and the properties of an object, some of them required and no others
permitted. A structure is read from an object by the names of its fields, or from an array by their
order, as the derived readers of the source do.
-/
namespace Memcore

inductive JsonType where
  | null | boolean | number | string | array | object
  deriving DecidableEq

/-- The values of a type. -/
def JsonType.admitsValue : JsonType → Value → Bool
  | null, .null => true
  | boolean, .bool _ => true
  | number, .integer _ => true
  | number, .float _ => true
  | string, .string _ => true
  | array, .array _ => true
  | object, .object _ => true
  | _, _ => false

inductive JsonSchema where
  | ofTypes (types : List JsonType)
  | arrayOf (items : JsonSchema)
  | objectOf (properties : List (String × JsonSchema)) (required : List String)

namespace JsonSchema

mutual

/-- Whether a value is as a schema says. An object has each name once. -/
def conforms : JsonSchema → Value → Bool
  | ofTypes types, value => types.any fun type => type.admitsValue value
  | arrayOf items, .array values => values.all fun value => items.conforms value
  | arrayOf _, _ => false
  | objectOf properties required, .object members =>
      decide (members.map Prod.fst).Nodup &&
        (required.all fun name => decide (name ∈ members.map Prod.fst)) &&
        members.all fun member => propertyConforms properties member.1 member.2
  | objectOf _ _, _ => false

/-- Whether a property is one of those permitted, and as its schema says. -/
def propertyConforms : List (String × JsonSchema) → String → Value → Bool
  | [], _, _ => false
  | (name, schema) :: rest, wanted, value =>
      if name = wanted then schema.conforms value else propertyConforms rest wanted value

end

end JsonSchema

namespace Value

/-- A value that is a text. -/
def asText : Value → Option String
  | string text => some text
  | _ => none

/-- A value that is a number. -/
def asNumber : Value → Option ℚ
  | integer value => some value
  | float value => some value
  | _ => none

/-- The fields of a structure, by name or by order. A field given twice is refused. -/
def fieldsOf (names : List String) : Value → Option (List (String × Value))
  | object members =>
      if ((members.map Prod.fst).filter fun name => decide (name ∈ names)).Nodup then some members
      else none
  | array items => if items.length ≤ names.length then some (names.zip items) else none
  | _ => none

/-- A name that occurs has a value. -/
theorem exists_lookup {members : List (String × Value)} {name : String}
    (named : name ∈ members.map Prod.fst) :
    ∃ value, lookup name members = some value ∧ (name, value) ∈ members := by
  obtain ⟨⟨stored, value⟩, member, same⟩ := List.mem_map.mp named
  subst same
  cases found : members.find? fun member => member.1 == stored with
  | none => exact absurd (beq_self_eq_true stored) (List.find?_eq_none.mp found _ member)
  | some first =>
    have same : first.1 = stored := by simpa using List.find?_some found
    refine ⟨first.2, by rw [lookup, found]; rfl, ?_⟩
    rw [← same]
    exact List.mem_of_find?_eq_some found

end Value

namespace JsonSchema

theorem arrayOf_conforms (items : JsonSchema) (value : Value) :
    (arrayOf items).conforms value = true ↔
      ∃ values, value = .array values ∧ ∀ item ∈ values, items.conforms item = true := by
  cases value <;> simp [conforms]

/-- An object of required properties has all of them, each once and as its schema says. -/
theorem objectOf_conforms (properties : List (String × JsonSchema)) (required : List String)
    (value : Value) (conforming : (objectOf properties required).conforms value = true) :
    ∃ members, value = .object members ∧ (members.map Prod.fst).Nodup ∧
      ∀ name ∈ required, ∃ property, Value.lookup name members = some property ∧
        propertyConforms properties name property = true := by
  cases value with
  | object members =>
    simp only [conforms, Bool.and_eq_true, decide_eq_true_eq, List.all_eq_true] at conforming
    obtain ⟨⟨distinct, named⟩, permitted⟩ := conforming
    refine ⟨members, rfl, distinct, fun name member => ?_⟩
    obtain ⟨property, found, stored⟩ := Value.exists_lookup (named name member)
    exact ⟨property, found, permitted _ stored⟩
  | _ => simp [conforms] at conforming

end JsonSchema

end Memcore
