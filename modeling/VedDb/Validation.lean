import VedDb.Query.Filter
import VedDb.Schema

/-!
# Validation against a schema

`Schema::validate` of `schema.rs`.  The types of nested values are checked at every depth by
`is_compatible`; the validators are run at the top level only, and the `max_length` of a string type
is compared with nothing.
-/

namespace VedDb

/-! ## Validators -/

inductive ValidationError where
  | requiredFieldMissing (field : String)
  | typeMismatch (field expected actual : String)
  | minValueViolation (field : String) (min actual : F64)
  | maxValueViolation (field : String) (max actual : F64)
  | minLengthViolation (field : String) (min actual : Nat)
  | maxLengthViolation (field : String) (max actual : Nat)
  | regexMismatch (field pattern value : String)
  | invalidRegex (pattern error : String)
  | enumViolation (field : String) (allowed : List Value) (actual : Value)
  | uniqueConstraintViolation (field : String)

def Value.asF64 : Value → Option F64
  | .int32 i => some (F64.ofInt i.toInt)
  | .int64 i => some (F64.ofInt i.toInt)
  | .float64 f => some f
  | _ => none

/-- The length a validator measures: bytes of a string, items of an array. -/
def Value.len : Value → Option Nat
  | .string s => some s.utf8ByteSize
  | .array vs => some vs.length
  | .binary b => some b.length
  | _ => none

variable (regex : RegexCrate)

def Validator.validate (fieldName : String) (value : Value) :
    Validator → Except ValidationError Unit
  | .min bound =>
    match value.asF64 with
    | some num =>
      if num.partialCmp bound = some .lt then .error (.minValueViolation fieldName bound num)
      else .ok ()
    | none => .ok ()
  | .max bound =>
    match value.asF64 with
    | some num =>
      if num.partialCmp bound = some .gt then .error (.maxValueViolation fieldName bound num)
      else .ok ()
    | none => .ok ()
  | .minLength minLen =>
    match value.len with
    | none => .ok ()
    | some len =>
      if len < minLen then .error (.minLengthViolation fieldName minLen len) else .ok ()
  | .maxLength maxLen =>
    match value.len with
    | none => .ok ()
    | some len =>
      if maxLen < len then .error (.maxLengthViolation fieldName maxLen len) else .ok ()
  | .regex pattern =>
    match value with
    | .string s =>
      match regex.compile pattern with
      | .error e => .error (.invalidRegex pattern e)
      | .ok isMatch =>
        if isMatch s then .ok () else .error (.regexMismatch fieldName pattern s)
    | _ => .ok ()
  | .enum allowed =>
    if allowed.any (·.eq value) then .ok () else .error (.enumViolation fieldName allowed value)
  -- custom validators are left to the application
  | .custom _ => .ok ()

/-- `for validator in &self.validators`. -/
def validateAll (fieldName : String) (value : Value) :
    List Validator → Except ValidationError Unit
  | [] => .ok ()
  | validator :: validators =>
    match validator.validate regex fieldName value with
    | .error e => .error e
    | .ok () => validateAll fieldName value validators

/-! ## Types -/

namespace FieldDefinition

def fieldType : FieldDefinition → FieldType
  | .mk fieldType _ _ _ _ _ _ _ => fieldType

def required : FieldDefinition → Bool
  | .mk _ required _ _ _ _ _ _ => required

def default : FieldDefinition → Option Value
  | .mk _ _ default _ _ _ _ _ => default

def validators : FieldDefinition → List Validator
  | .mk _ _ _ _ _ validators _ _ => validators

/-- `FieldDefinition::new`: nothing is required of the field. -/
def new (fieldType : FieldType) : FieldDefinition :=
  .mk fieldType false none false false [] false none

end FieldDefinition

mutual

def FieldType.isCompatible : FieldType → Value → Bool
  | .string _, .string _ => true
  | .int32, .int32 _ => true
  | .int64, .int64 _ => true
  | .int64, .int32 _ => true
  | .float64, .float64 _ => true
  | .float64, .int32 _ => true
  | .float64, .int64 _ => true
  | .boolean, .bool _ => true
  | .date, .dateTime _ => true
  | .binary, .binary _ => true
  | .objectId, .objectId _ => true
  | .array itemType, .array vs => vs.all fun v => itemType.isCompatible v
  | .object fields, .object kvs => FieldType.fieldsCompatible kvs fields
  | .reference _, .objectId _ => true
  | .any, _ => true
  | _, _ => false

/-- The loop over the fields of an object type. -/
def FieldType.fieldsCompatible (kvs : List (String × Value)) :
    List (String × FieldDefinition) → Bool
  | [] => true
  | (name, .mk fieldType required _ _ _ _ _ _) :: fields =>
    match kvs.lookup name with
    | none => !required && FieldType.fieldsCompatible kvs fields
    | some value => fieldType.isCompatible value && FieldType.fieldsCompatible kvs fields

end

/-! ## Documents -/

/-- What the errors print: `Debug` of types and values. -/
structure FieldTexts where
  fieldType : FieldType → String
  value : Value → String

variable (texts : FieldTexts)

def FieldDefinition.validate (field : FieldDefinition) (fieldName : String) (value : Value) :
    Except ValidationError Unit :=
  if field.fieldType.isCompatible value then validateAll regex fieldName value field.validators
  else .error (.typeMismatch fieldName (texts.fieldType field.fieldType) (texts.value value))

namespace Schema

/-- The loop of `Schema::validate` over the fields of the schema. -/
def validateFields (doc : Document) :
    List (String × FieldDefinition) → Except ValidationError Unit
  | [] => .ok ()
  | (fieldName, field) :: fields =>
    match doc.fields[fieldName]? with
    | none =>
      if field.required then .error (.requiredFieldMissing fieldName)
      else validateFields doc fields
    | some value =>
      match field.validate regex texts fieldName value with
      | .error e => .error e
      | .ok () => validateFields doc fields

/-- `Schema::validate`.  Unknown fields are allowed. -/
def validate (schema : Schema) (doc : Document) : Except ValidationError Unit :=
  validateFields regex texts doc schema.fields.toList

/-- `Schema::apply_defaults`, which never fails. -/
def applyDefaults (now : DateTime) (schema : Schema) (doc : Document) : Document :=
  schema.fields.toList.foldl
    (fun doc entry =>
      match entry.2.default with
      | some value => if doc.fields.contains entry.1 then doc else doc.insert now entry.1 value
      | none => doc)
    doc

def ofFields (fields : List (String × FieldDefinition)) : Schema :=
  { version := 1, fields := Std.ExtTreeMap.ofList fields, indexes := []
    cacheConfig := { strategy := .none, ttl := none, fields := none, warming := .none }
    validation := none }

end Schema

/-! ## What a schema asks for -/

def Validator.Holds (value : Value) : Validator → Prop
  | .min bound => ∀ num, value.asF64 = some num → num.partialCmp bound ≠ some .lt
  | .max bound => ∀ num, value.asF64 = some num → num.partialCmp bound ≠ some .gt
  | .minLength minLen => ∀ len, value.len = some len → minLen ≤ len
  | .maxLength maxLen => ∀ len, value.len = some len → len ≤ maxLen
  | .regex pattern =>
    ∀ s, value = .string s → ∃ isMatch, regex.compile pattern = .ok isMatch ∧ isMatch s = true
  | .enum allowed => ∃ a ∈ allowed, a.eq value = true
  | .custom _ => True

/-- The part `w` of a value is declared to have the type `σ` by the type `τ` of the value. -/
inductive Within : FieldType → Value → FieldType → Value → Prop where
  | here (τ : FieldType) (v : Value) : Within τ v τ v
  | item {itemType σ : FieldType} {vs : List Value} {v w : Value} (hv : v ∈ vs)
      (h : Within itemType v σ w) : Within (.array itemType) (.array vs) σ w
  | member {fields : List (String × FieldDefinition)} {kvs : List (String × Value)}
      {name : String} {field : FieldDefinition} {σ : FieldType} {v w : Value}
      (hfield : (name, field) ∈ fields) (hv : kvs.lookup name = some v)
      (h : Within field.fieldType v σ w) : Within (.object fields) (.object kvs) σ w

/-- Whether the values of a type include one like `v`, whatever its parts. -/
def FieldType.admits : FieldType → Value → Bool
  | .string _, .string _ => true
  | .int32, .int32 _ => true
  | .int64, .int64 _ => true
  | .int64, .int32 _ => true
  | .float64, .float64 _ => true
  | .float64, .int32 _ => true
  | .float64, .int64 _ => true
  | .boolean, .bool _ => true
  | .date, .dateTime _ => true
  | .binary, .binary _ => true
  | .objectId, .objectId _ => true
  | .array _, .array _ => true
  | .object _, .object _ => true
  | .reference _, .objectId _ => true
  | .any, _ => true
  | _, _ => false

structure Typed (σ : FieldType) (w : Value) : Prop where
  admits : σ.admits w = true
  required : ∀ fields kvs, σ = .object fields → w = .object kvs → ∀ name field,
    (name, field) ∈ fields → field.required = true → (kvs.lookup name).isSome = true

/-- The value is no longer than its type allows, and the validators its type declares for its
fields hold. -/
structure Constrained (σ : FieldType) (w : Value) : Prop where
  maxLength : ∀ bound s, σ = .string (some bound) → w = .string s → s.utf8ByteSize ≤ bound
  validators : ∀ fields kvs, σ = .object fields → w = .object kvs → ∀ name field v,
    (name, field) ∈ fields → kvs.lookup name = some v →
      ∀ validator ∈ field.validators, validator.Holds regex v

namespace Schema

/-- The document is what the schema declares, at every depth. -/
def Accepts (schema : Schema) (doc : Document) : Prop :=
  ∀ (name : String) (field : FieldDefinition), schema.fields[name]? = some field →
    (field.required = true → doc.fields.contains name = true) ∧
      ∀ value, doc.fields[name]? = some value →
        (∀ validator ∈ field.validators, validator.Holds regex value) ∧
          ∀ σ w, Within field.fieldType value σ w → Typed σ w ∧ Constrained regex σ w

def Passes (schema : Schema) (doc : Document) : Prop :=
  ∀ (name : String) (field : FieldDefinition), schema.fields[name]? = some field →
    (field.required = true → doc.fields.contains name = true) ∧
      ∀ value, doc.fields[name]? = some value →
        (∀ validator ∈ field.validators, validator.Holds regex value) ∧
          ∀ σ w, Within field.fieldType value σ w → Typed σ w

/-- At every depth, strings are no longer than their types allow and the validators of the fields
of objects hold. -/
def Constrains (schema : Schema) (doc : Document) : Prop :=
  ∀ (name : String) (field : FieldDefinition) (value : Value),
    schema.fields[name]? = some field → doc.fields[name]? = some value →
      ∀ σ w, Within field.fieldType value σ w → Constrained regex σ w

end Schema

/-! ## What the code checks -/

variable {regex : RegexCrate} {texts : FieldTexts}

theorem Validator.validate_eq_ok_iff (validator : Validator) (fieldName : String)
    (value : Value) :
    validator.validate regex fieldName value = .ok () ↔ validator.Holds regex value := by
  cases validator with
  | min bound =>
    unfold Validator.validate Validator.Holds
    cases value.asF64 with
    | none => simp
    | some num => simp
  | max bound =>
    unfold Validator.validate Validator.Holds
    cases value.asF64 with
    | none => simp
    | some num => simp
  | minLength bound =>
    unfold Validator.validate Validator.Holds
    cases value.len with
    | none => simp
    | some len => simp
  | maxLength bound =>
    unfold Validator.validate Validator.Holds
    cases value.len with
    | none => simp
    | some len => simp
  | regex pattern =>
    unfold Validator.validate Validator.Holds
    cases value with
    | string s =>
      cases hcompile : regex.compile pattern with
      | error e => simp [hcompile]
      | ok isMatch => simp [hcompile]
    | _ => simp
  | enum allowed => simp [Validator.validate, Validator.Holds]
  | custom funcName => simp [Validator.validate, Validator.Holds]

theorem validateAll_eq_ok_iff (fieldName : String) (value : Value)
    (validators : List Validator) :
    validateAll regex fieldName value validators = .ok () ↔
      ∀ validator ∈ validators, validator.Holds regex value := by
  induction validators with
  | nil => simp [validateAll]
  | cons validator validators ih =>
    rw [List.forall_mem_cons, ← ih, ← validator.validate_eq_ok_iff fieldName value, validateAll]
    cases validator.validate regex fieldName value with
    | error e => simp
    | ok done => simp

theorem Within.of_array {itemType σ : FieldType} {vs : List Value} {w : Value}
    (h : Within (.array itemType) (.array vs) σ w) :
    (σ = .array itemType ∧ w = .array vs) ∨ ∃ v ∈ vs, Within itemType v σ w := by
  cases h with
  | here => exact .inl ⟨rfl, rfl⟩
  | item hv h => exact .inr ⟨_, hv, h⟩

theorem Within.of_object {fields : List (String × FieldDefinition)} {σ : FieldType}
    {kvs : List (String × Value)} {w : Value} (h : Within (.object fields) (.object kvs) σ w) :
    (σ = .object fields ∧ w = .object kvs) ∨ ∃ name field v,
      (name, field) ∈ fields ∧ kvs.lookup name = some v ∧ Within field.fieldType v σ w := by
  cases h with
  | here => exact .inl ⟨rfl, rfl⟩
  | member hfield hv h => exact .inr ⟨_, _, _, hfield, hv, h⟩

theorem Within.eq_here {τ σ : FieldType} {v w : Value} (h : Within τ v σ w)
    (harray : ∀ itemType vs, τ = .array itemType → v ≠ .array vs)
    (hobject : ∀ fields kvs, τ = .object fields → v ≠ .object kvs) : σ = τ ∧ w = v := by
  cases h with
  | here => exact ⟨rfl, rfl⟩
  | item hv h => exact absurd rfl (harray _ _ rfl)
  | member hfield hv h => exact absurd rfl (hobject _ _ rfl)

theorem FieldType.isCompatible_eq_admits {τ : FieldType} {v : Value}
    (harray : ∀ itemType vs, τ = .array itemType → v ≠ .array vs)
    (hobject : ∀ fields kvs, τ = .object fields → v ≠ .object kvs) :
    τ.isCompatible v = τ.admits v := by
  cases τ with
  | array itemType =>
    cases v with
    | array vs => exact absurd rfl (harray itemType vs rfl)
    | _ => simp [FieldType.isCompatible, FieldType.admits]
  | object fields =>
    cases v with
    | object kvs => exact absurd rfl (hobject fields kvs rfl)
    | _ => simp [FieldType.isCompatible, FieldType.admits]
  | _ => cases v <;> simp [FieldType.isCompatible, FieldType.admits]

theorem Typed.of_array (itemType : FieldType) (vs : List Value) :
    Typed (.array itemType) (.array vs) :=
  ⟨rfl, fun _ _ h => absurd h (by simp)⟩

theorem forall_entry_cons {α β : Type} {a : α} {b : β} {entries : List (α × β)}
    {P : α → β → Prop} :
    (∀ x y, (x, y) ∈ (a, b) :: entries → P x y) ↔ P a b ∧ ∀ x y, (x, y) ∈ entries → P x y := by
  simp only [List.mem_cons, Prod.mk.injEq, or_imp, forall_and, and_imp, forall_eq_apply_imp_iff,
    forall_eq]

theorem Typed.of_object {fields : List (String × FieldDefinition)} {kvs : List (String × Value)}
    (h : ∀ name field, (name, field) ∈ fields → field.required = true →
      (kvs.lookup name).isSome = true) : Typed (.object fields) (.object kvs) := by
  refine ⟨rfl, ?_⟩
  intro fields' kvs' hσ hw
  rw [← FieldType.object.inj hσ, ← Value.object.inj hw]
  exact h

mutual

/-- What `is_compatible` checks of a value it checks of all its parts. -/
theorem FieldType.isCompatible_iff (τ : FieldType) (v : Value) :
    τ.isCompatible v = true ↔ ∀ σ w, Within τ v σ w → Typed σ w := by
  have hplain (harray : ∀ itemType vs, τ = .array itemType → v ≠ .array vs)
      (hobject : ∀ fields kvs, τ = .object fields → v ≠ .object kvs) :
      τ.isCompatible v = true ↔ ∀ σ w, Within τ v σ w → Typed σ w := by
    rw [isCompatible_eq_admits harray hobject]
    constructor
    · intro hadmits σ w hwithin
      obtain ⟨rfl, rfl⟩ := hwithin.eq_here harray hobject
      exact ⟨hadmits, fun fields kvs hσ hw => absurd hw (hobject fields kvs hσ)⟩
    · intro h
      exact (h τ v (.here τ v)).admits
  cases τ with
  | array itemType =>
    by_cases hv : ∃ vs, v = .array vs
    · obtain ⟨vs, rfl⟩ := hv
      rw [isCompatible, List.all_eq_true]
      constructor
      · intro hall σ w hwithin
        rcases hwithin.of_array with ⟨rfl, rfl⟩ | ⟨v, hv, hwithin⟩
        · exact .of_array itemType vs
        · exact (FieldType.isCompatible_iff itemType v).mp (hall v hv) σ w hwithin
      · intro h v hv
        exact (FieldType.isCompatible_iff itemType v).mpr
          fun σ w hwithin => h σ w (.item hv hwithin)
    · exact hplain (fun _ vs _ heq => hv ⟨vs, heq⟩) (by simp)
  | object fields =>
    by_cases hv : ∃ kvs, v = .object kvs
    · obtain ⟨kvs, rfl⟩ := hv
      rw [isCompatible, FieldType.fieldsCompatible_iff kvs fields]
      constructor
      · intro hall σ w hwithin
        rcases hwithin.of_object with ⟨rfl, rfl⟩ | ⟨name, field, v, hfield, hv, hwithin⟩
        · exact .of_object fun name field hfield => (hall name field hfield).1
        · exact (hall name field hfield).2 v hv σ w hwithin
      · intro h name field hfield
        refine ⟨(h _ _ (.here _ _)).required fields kvs rfl rfl name field hfield, ?_⟩
        intro v hv σ w hwithin
        exact h σ w (.member hfield hv hwithin)
    · exact hplain (by simp) (fun _ kvs _ heq => hv ⟨kvs, heq⟩)
  | _ => exact hplain (by simp) (by simp)

/-- The loop over the fields checks each of them. -/
theorem FieldType.fieldsCompatible_iff (kvs : List (String × Value)) :
    ∀ fields : List (String × FieldDefinition), FieldType.fieldsCompatible kvs fields = true ↔
      ∀ name field, (name, field) ∈ fields →
        (field.required = true → (kvs.lookup name).isSome = true) ∧
          ∀ v, kvs.lookup name = some v → ∀ σ w, Within field.fieldType v σ w → Typed σ w
  | [] => by simp [fieldsCompatible]
  | (name, .mk fieldType required default unique indexed validators encrypted keyId) :: fields => by
      have hrest := FieldType.fieldsCompatible_iff kvs fields
      have hfield := FieldType.isCompatible_iff fieldType
      rw [forall_entry_cons, ← hrest, fieldsCompatible]
      cases kvs.lookup name with
      | none => simp [FieldDefinition.required]
      | some value => simp [FieldDefinition.fieldType, hfield]

end

theorem FieldDefinition.validate_eq_ok_iff (field : FieldDefinition) (fieldName : String)
    (value : Value) :
    field.validate regex texts fieldName value = .ok () ↔
      (∀ validator ∈ field.validators, validator.Holds regex value) ∧
        ∀ σ w, Within field.fieldType value σ w → Typed σ w := by
  rw [← validateAll_eq_ok_iff fieldName, ← FieldType.isCompatible_iff]
  unfold validate
  cases field.fieldType.isCompatible value with
  | true => simp
  | false => simp

namespace Schema

theorem validateFields_eq_ok_iff (doc : Document) (fields : List (String × FieldDefinition)) :
    validateFields regex texts doc fields = .ok () ↔ ∀ name field, (name, field) ∈ fields →
      (field.required = true → doc.fields.contains name = true) ∧
        ∀ value, doc.fields[name]? = some value →
          field.validate regex texts name value = .ok () := by
  induction fields with
  | nil => simp [validateFields]
  | cons entry fields ih =>
    obtain ⟨name, field⟩ := entry
    rw [forall_entry_cons, ← ih, validateFields, Std.ExtTreeMap.contains_eq_isSome_getElem?]
    cases doc.fields[name]? with
    | none => cases field.required <;> simp
    | some value =>
      simp only [Option.isSome_some, implies_true, true_and, Option.some.injEq, forall_eq']
      cases field.validate regex texts name value with
      | error e => simp
      | ok done => simp

theorem validate_eq_ok_iff (schema : Schema) (doc : Document) :
    schema.validate regex texts doc = .ok () ↔ schema.Passes regex doc := by
  rw [validate, validateFields_eq_ok_iff]
  unfold Passes
  simp only [Std.ExtTreeMap.mem_toList_iff_getElem?_eq_some,
    FieldDefinition.validate_eq_ok_iff]

theorem accepts_iff (schema : Schema) (doc : Document) :
    schema.Accepts regex doc ↔ schema.Passes regex doc ∧ schema.Constrains regex doc := by
  constructor
  · intro h
    refine ⟨?_, ?_⟩
    · intro name field hfield
      obtain ⟨hrequired, hvalue⟩ := h name field hfield
      refine ⟨hrequired, ?_⟩
      intro value hget
      obtain ⟨hvalidators, hparts⟩ := hvalue value hget
      exact ⟨hvalidators, fun σ w hwithin => (hparts σ w hwithin).1⟩
    · intro name field value hfield hget σ w hwithin
      exact (((h name field hfield).2 value hget).2 σ w hwithin).2
  · intro ⟨hpasses, hconstrains⟩ name field hfield
    obtain ⟨hrequired, hvalue⟩ := hpasses name field hfield
    refine ⟨hrequired, ?_⟩
    intro value hget
    obtain ⟨hvalidators, hparts⟩ := hvalue value hget
    refine ⟨hvalidators, ?_⟩
    intro σ w hwithin
    exact ⟨hparts σ w hwithin, hconstrains name field value hfield hget σ w hwithin⟩

end Schema

end VedDb
