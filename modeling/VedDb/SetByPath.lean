import VedDb.Lib.Lens
import VedDb.Paths

/-!
# Writing at a path

`Document::set_by_path`: the objects on the way are entered, or made where there are none, and the
last part of the path is written into the last of them.  Arrays are not entered.  Parts are members
of objects, so a path is a lens that goes from member to member.
-/

namespace VedDb

/-- `DocumentError`, of the functions that check or change a document. -/
inductive DocumentError where
  | documentTooLarge (size max : Nat)
  | nestingTooDeep (depth max : Nat)
  | invalidPath (message : String)
  | deserializationError (message : String)
  deriving DecidableEq

/-! ## Members of an object -/

def replaceMember (key : String) (value : Value) : List (String × Value) → List (String × Value)
  | [] => []
  | (k, v) :: kvs => if k = key then (k, value) :: kvs else (k, v) :: replaceMember key value kvs

/-- A new entry goes in front of the first one with a greater key. -/
def insertNew (key : String) (value : Value) : List (String × Value) → List (String × Value)
  | [] => [(key, value)]
  | (k, v) :: kvs =>
    if compare key k = .lt then (key, value) :: (k, v) :: kvs
    else (k, v) :: insertNew key value kvs

/-- `BTreeMap::insert` on the sorted entries. -/
def insertMember (key : String) (value : Value) (kvs : List (String × Value)) :
    List (String × Value) :=
  if (kvs.lookup key).isSome then replaceMember key value kvs else insertNew key value kvs

/-! ## Writing -/

/-- The loop of `set_by_path_parts` below the field: `entry(part).or_insert_with(..)` for parents,
then the insertion of the value under its name. -/
def setBelow (field : String) (new : Value) : List String → Value →
    Except DocumentError Unit × Value
  | [], .object kvs => (.ok (), .object (insertMember field new kvs))
  | [], current => (.error (.invalidPath "parent is not an object"), current)
  | part :: parents, .object kvs =>
    let (result, child) := setBelow field new parents ((kvs.lookup part).getD (.object []))
    (result, .object (insertMember part child kvs))
  | _ :: _, current => (.error (.invalidPath "path traverses non-object"), current)

/-- `set_by_path_parts`.  The fields are left as they are when it stops. -/
def Fields.setByPathParts (fields : Fields) (value : Value) : List String →
    Except DocumentError Unit × Fields
  | [] => (.error (.invalidPath "empty path"), fields)
  | [part] => (.ok (), fields.insert part value)
  | part :: next :: parts =>
    let (result, current) := setBelow ((next :: parts).getLast (List.cons_ne_nil _ _)) value
      (next :: parts).dropLast (fields[part]?.getD (.object []))
    (result, fields.insert part current)

/-- `set_by_path`.  An error returns before the metadata is updated. -/
def Document.setByPath (now : DateTime) (document : Document) (path : String) (value : Value) :
    Except DocumentError Unit × Document :=
  match document.fields.setByPathParts value (pathParts path) with
  | (.ok (), fields) => (.ok (), Document.updateMetadata now { document with fields := fields })
  | (.error e, fields) => (.error e, { document with fields := fields })

/-! ## Members as lenses -/

theorem lookup_replaceMember {key : String} (value : Value) {kvs : List (String × Value)}
    (h : (kvs.lookup key).isSome) (other : String) :
    (replaceMember key value kvs).lookup other =
      if other = key then some value else kvs.lookup other := by
  induction kvs with
  | nil => cases h
  | cons kv kvs ih =>
    obtain ⟨k, v⟩ := kv
    rw [replaceMember]
    by_cases hkey : k = key
    · rw [if_pos hkey, List.lookup_cons, hkey, List.lookup_cons]
      by_cases hother : other = key
      · rw [hother, beq_self_eq_true, if_pos rfl]
      · rw [beq_eq_false_iff_ne.mpr hother, if_neg hother]
    · rw [List.lookup_cons, beq_eq_false_iff_ne.mpr (Ne.symm hkey)] at h
      rw [if_neg hkey, List.lookup_cons, List.lookup_cons, ih h]
      by_cases hother : other = k
      · rw [hother, beq_self_eq_true]
        exact (if_neg hkey).symm
      · rw [beq_eq_false_iff_ne.mpr hother]

theorem lookup_insertNew {key : String} (value : Value) {kvs : List (String × Value)}
    (h : kvs.lookup key = none) (other : String) :
    (insertNew key value kvs).lookup other =
      if other = key then some value else kvs.lookup other := by
  induction kvs with
  | nil =>
    rw [insertNew, List.lookup_cons]
    by_cases hother : other = key
    · rw [hother, beq_self_eq_true, if_pos rfl]
    · rw [beq_eq_false_iff_ne.mpr hother, if_neg hother]
  | cons kv kvs ih =>
    obtain ⟨k, v⟩ := kv
    rw [insertNew]
    by_cases hlt : compare key k = .lt
    · rw [if_pos hlt, List.lookup_cons]
      by_cases hother : other = key
      · rw [hother, beq_self_eq_true, if_pos rfl]
      · rw [beq_eq_false_iff_ne.mpr hother, if_neg hother]
    · have hne : key ≠ k := by
        intro heq
        rw [heq, List.lookup_cons, beq_self_eq_true] at h
        cases h
      rw [List.lookup_cons, beq_eq_false_iff_ne.mpr hne] at h
      rw [if_neg hlt, List.lookup_cons, List.lookup_cons, ih h]
      by_cases hother : other = k
      · rw [hother, beq_self_eq_true]
        exact (if_neg (Ne.symm hne)).symm
      · rw [beq_eq_false_iff_ne.mpr hother]

theorem lookup_insertMember (key : String) (value : Value) (kvs : List (String × Value))
    (other : String) : (insertMember key value kvs).lookup other =
      if other = key then some value else kvs.lookup other := by
  rw [insertMember]
  split
  next h => exact lookup_replaceMember value h other
  next h =>
    rw [Bool.not_eq_true, Option.isSome_eq_false_iff, Option.isNone_iff_eq_none] at h
    exact lookup_insertNew value h other

theorem replaceMember_replaceMember (key : String) (v w : Value) (kvs : List (String × Value)) :
    replaceMember key w (replaceMember key v kvs) = replaceMember key w kvs := by
  induction kvs with
  | nil => rfl
  | cons kv kvs ih =>
    obtain ⟨k, own⟩ := kv
    by_cases hkey : k = key
    · rw [replaceMember, if_pos hkey, replaceMember, if_pos hkey, replaceMember, if_pos hkey]
    · rw [replaceMember, if_neg hkey, replaceMember, if_neg hkey, replaceMember, if_neg hkey, ih]

theorem replaceMember_insertNew {key : String} (v w : Value) {kvs : List (String × Value)}
    (h : kvs.lookup key = none) :
    replaceMember key w (insertNew key v kvs) = insertNew key w kvs := by
  induction kvs with
  | nil => rw [insertNew, replaceMember, if_pos rfl, insertNew]
  | cons kv kvs ih =>
    obtain ⟨k, own⟩ := kv
    have hne : key ≠ k := by
      intro heq
      rw [heq, List.lookup_cons, beq_self_eq_true] at h
      cases h
    rw [List.lookup_cons, beq_eq_false_iff_ne.mpr hne] at h
    rw [insertNew, insertNew]
    split
    · rw [replaceMember, if_pos rfl]
    · rw [replaceMember, if_neg (Ne.symm hne), ih h]

theorem insertMember_insertMember (key : String) (v w : Value) (kvs : List (String × Value)) :
    insertMember key w (insertMember key v kvs) = insertMember key w kvs := by
  have hthere : ((insertMember key v kvs).lookup key).isSome = true := by
    rw [lookup_insertMember, if_pos rfl]
    rfl
  rw [insertMember, if_pos hthere, insertMember, insertMember]
  split
  next => rw [replaceMember_replaceMember]
  next h =>
    rw [Bool.not_eq_true, Option.isSome_eq_false_iff, Option.isNone_iff_eq_none] at h
    rw [replaceMember_insertNew v w h]

theorem insertMember_of_lookup {key : String} {value : Value} {kvs : List (String × Value)}
    (h : kvs.lookup key = some value) : insertMember key value kvs = kvs := by
  rw [insertMember, h, Option.isSome_some, if_pos rfl]
  induction kvs with
  | nil => rfl
  | cons kv kvs ih =>
    obtain ⟨k, own⟩ := kv
    rw [replaceMember]
    by_cases hkey : k = key
    · rw [List.lookup_cons, hkey, beq_self_eq_true] at h
      rw [if_pos hkey, Option.some.inj h]
    · rw [List.lookup_cons, beq_eq_false_iff_ne.mpr (Ne.symm hkey)] at h
      rw [if_neg hkey, ih h]

/-- The member of an object that a part names.  It is read out of an array as well. -/
def memberLens (part : String) : PartialLens Value Value where
  get value := value.getPart part
  put new value :=
    match value with
    | .object kvs => some (.object (insertMember part new kvs))
    | _ => none

theorem memberLens_put_eq_some_iff {part : String} {new value value' : Value} :
    (memberLens part).put new value = some value' ↔
      ∃ kvs, value = .object kvs ∧ value' = .object (insertMember part new kvs) := by
  cases value with
  | object kvs => simp [memberLens, eq_comm]
  | _ => simp [memberLens]

theorem memberLens_lawful (part : String) : (memberLens part).Lawful where
  get_put h := by
    obtain ⟨kvs, rfl, rfl⟩ := memberLens_put_eq_some_iff.mp h
    show (insertMember part _ kvs).lookup part = _
    rw [lookup_insertMember, if_pos rfl]
  put_put h := by
    obtain ⟨kvs, rfl, rfl⟩ := memberLens_put_eq_some_iff.mp h
    show some (Value.object _) = some (Value.object _)
    rw [insertMember_insertMember]
  put_get hget hput := by
    obtain ⟨kvs, rfl, rfl⟩ := memberLens_put_eq_some_iff.mp hput
    rw [insertMember_of_lookup hget]
  put_any w h := by
    obtain ⟨kvs, rfl, rfl⟩ := memberLens_put_eq_some_iff.mp h
    exact ⟨_, rfl⟩

theorem memberLens_apart {part other : String} (h : other ≠ part) :
    (memberLens part).Apart (memberLens other) := by
  intro value value' new hput
  obtain ⟨kvs, rfl, rfl⟩ := memberLens_put_eq_some_iff.mp hput
  show (insertMember part new kvs).lookup other = kvs.lookup other
  rw [lookup_insertMember, if_neg h]

def pathLens : List String → PartialLens Value Value
  | [] => .whole Value
  | part :: parts => (memberLens part).compose (.object []) (pathLens parts)

theorem pathLens_lawful (parts : List String) : (pathLens parts).Lawful := by
  induction parts with
  | nil => exact PartialLens.whole_lawful
  | cons part parts ih => exact (memberLens_lawful part).compose ih

theorem pathLens_get (parts : List String) (value : Value) :
    (pathLens parts).get value = parts.foldlM Value.getPart value := by
  induction parts generalizing value with
  | nil => rfl
  | cons part parts ih =>
    rw [List.foldlM_cons]
    show (value.getPart part).bind (pathLens parts).get = (value.getPart part).bind _
    cases value.getPart part with
    | none => rfl
    | some own => exact ih own

/-- Paths of which neither goes on from the other lie apart. -/
theorem pathLens_apart {parts others : List String} (h : ¬parts <+: others)
    (h' : ¬others <+: parts) : (pathLens parts).Apart (pathLens others) := by
  induction parts generalizing others with
  | nil => exact absurd List.nil_prefix h
  | cons part parts ih =>
    cases others with
    | nil => exact absurd List.nil_prefix h'
    | cons other others =>
      by_cases hsame : other = part
      · subst hsame
        rw [List.prefix_cons_inj] at h h'
        refine (ih h h').compose (memberLens_lawful other) ?_
        cases others with
        | nil => exact absurd List.nil_prefix h'
        | cons next others => rfl
      · exact (memberLens_apart hsame).compose_left.compose_right

/-- The field of a document. -/
def fieldLens (part : String) : PartialLens Fields Value where
  get fields := fields[part]?
  put new fields := some (fields.insert part new)

theorem fieldLens_lawful (part : String) : (fieldLens part).Lawful where
  get_put h := by
    rw [← Option.some.inj h]
    exact Std.ExtTreeMap.getElem?_insert_self
  put_put {fields fields' v w} h := by
    rw [← Option.some.inj h]
    refine congrArg some (Std.ExtTreeMap.ext_getElem? fun name => ?_)
    rw [lookup_insert, lookup_insert, lookup_insert]
    split
    · rfl
    · rfl
  put_get {fields fields' v} hget hput := by
    rw [← Option.some.inj hput]
    refine Std.ExtTreeMap.ext_getElem? fun name => ?_
    rw [lookup_insert]
    split
    next hname =>
      rw [← hname]
      exact hget.symm
    next => rfl
  put_any w _ := ⟨_, rfl⟩

theorem fieldLens_apart {part other : String} (h : other ≠ part) :
    (fieldLens part).Apart (fieldLens other) := by
  intro fields fields' new hput
  rw [← Option.some.inj hput]
  show (fields.insert part new)[other]? = fields[other]?
  rw [lookup_insert, if_neg (Ne.symm h)]

/-- A field, and from member to member in it. -/
def fieldsLens (part : String) (parts : List String) : PartialLens Fields Value :=
  (fieldLens part).compose (.object []) (pathLens parts)

theorem fieldsLens_lawful (part : String) (parts : List String) :
    (fieldsLens part parts).Lawful :=
  (fieldLens_lawful part).compose (pathLens_lawful parts)

theorem fieldsLens_get (part : String) (parts : List String) (fields : Fields) :
    (fieldsLens part parts).get fields = fields.getByPathParts (part :: parts) := by
  rw [Fields.getByPathParts]
  show fields[part]?.bind (pathLens parts).get = _
  cases fields[part]? with
  | none => rfl
  | some value => exact pathLens_get parts value

theorem fieldsLens_apart {part other : String} {parts others : List String}
    (h : ¬part :: parts <+: other :: others) (h' : ¬other :: others <+: part :: parts) :
    (fieldsLens part parts).Apart (fieldsLens other others) := by
  by_cases hsame : other = part
  · subst hsame
    rw [List.prefix_cons_inj] at h h'
    refine (pathLens_apart h h').compose (fieldLens_lawful other) ?_
    cases others with
    | nil => exact absurd List.nil_prefix h'
    | cons next others => rfl
  · exact (fieldLens_apart hsame).compose_left.compose_right

/-! ## What is written -/

theorem pathLens_put_fresh (parts : List String) (new : Value) :
    ∃ made, (pathLens parts).put new (.object []) = some made := by
  induction parts with
  | nil => exact ⟨new, rfl⟩
  | cons part parts ih =>
    obtain ⟨made, hmade⟩ := ih
    refine ⟨.object (insertMember part made []), ?_⟩
    exact PartialLens.compose_put_eq_some_iff.mpr ⟨made, hmade, rfl⟩

theorem exists_of_refused {own : Option Value} {parts : List String} {new : Value}
    (h : (pathLens parts).put new (own.getD (.object [])) = none) : ∃ child, own = some child := by
  cases own with
  | some child => exact ⟨child, rfl⟩
  | none =>
    obtain ⟨made, hmade⟩ := pathLens_put_fresh parts new
    rw [Option.getD_none, hmade] at h
    cases h

theorem pathLens_put_of_not_object {value : Value} (h : ∀ kvs, value ≠ .object kvs)
    (part : String) (parts : List String) (new : Value) :
    (pathLens (part :: parts)).put new value = none := by
  rw [Option.eq_none_iff_forall_ne_some]
  intro written hwritten
  obtain ⟨child, hchild, hput⟩ := PartialLens.compose_put_eq_some_iff.mp hwritten
  obtain ⟨kvs, hobject, hmade⟩ := memberLens_put_eq_some_iff.mp hput
  exact h kvs hobject

theorem setBelow_eq (field : String) (new : Value) (parents : List String) (current : Value) :
    match (pathLens (parents ++ [field])).put new current with
    | some written => setBelow field new parents current = (.ok (), written)
    | none => ∃ e, setBelow field new parents current = (.error e, current) := by
  induction parents generalizing current with
  | nil =>
    cases current with
    | object kvs => rfl
    | _ => exact ⟨_, rfl⟩
  | cons part parents ih =>
    cases current with
    | object kvs =>
      have hbelow := ih ((kvs.lookup part).getD (.object []))
      have hput : (pathLens (part :: parents ++ [field])).put new (.object kvs) =
          ((pathLens (parents ++ [field])).put new
            ((kvs.lookup part).getD (.object []))).map
            fun child => .object (insertMember part child kvs) := by
        rw [Option.map_eq_bind]
        rfl
      rw [hput]
      cases hown : (pathLens (parents ++ [field])).put new
          ((kvs.lookup part).getD (.object [])) with
      | some written =>
        rw [hown] at hbelow
        dsimp only at hbelow
        simp only [Option.map_some, setBelow, hbelow]
      | none =>
        rw [hown] at hbelow
        obtain ⟨e, he⟩ := hbelow
        -- A member that was made here would have taken the rest of the path.
        obtain ⟨child, hchild⟩ := exists_of_refused hown
        refine ⟨e, ?_⟩
        rw [setBelow, he, hchild, Option.getD_some]
        dsimp only
        rw [insertMember_of_lookup hchild]
    | _ =>
      rw [List.cons_append, pathLens_put_of_not_object (by intro kvs h; cases h)]
      exact ⟨_, rfl⟩

theorem setByPathParts_eq (fields : Fields) (value : Value) (part : String) (parts : List String) :
    match (fieldsLens part parts).put value fields with
    | some written => fields.setByPathParts value (part :: parts) = (.ok (), written)
    | none => ∃ e, fields.setByPathParts value (part :: parts) = (.error e, fields) := by
  cases parts with
  | nil => rfl
  | cons next rest =>
    have hsplit : (next :: rest).dropLast ++ [(next :: rest).getLast (List.cons_ne_nil _ _)] =
        next :: rest := List.dropLast_concat_getLast (List.cons_ne_nil _ _)
    have hbelow := setBelow_eq ((next :: rest).getLast (List.cons_ne_nil _ _)) value
      (next :: rest).dropLast (fields[part]?.getD (.object []))
    rw [hsplit] at hbelow
    have hput : (fieldsLens part (next :: rest)).put value fields =
        ((pathLens (next :: rest)).put value (fields[part]?.getD (.object []))).map
          fun current => fields.insert part current := by
      rw [Option.map_eq_bind]
      rfl
    rw [hput]
    cases hown : (pathLens (next :: rest)).put value (fields[part]?.getD (.object [])) with
    | some written =>
      rw [hown] at hbelow
      dsimp only at hbelow
      simp only [Option.map_some, Fields.setByPathParts, hbelow]
    | none =>
      rw [hown] at hbelow
      obtain ⟨e, he⟩ := hbelow
      obtain ⟨current, hcurrent⟩ := exists_of_refused hown
      have hsame : fields.insert part current = fields :=
        (fieldLens_lawful part).put_get hcurrent rfl
      refine ⟨e, ?_⟩
      rw [Fields.setByPathParts, he, hcurrent, Option.getD_some]
      dsimp only
      rw [hsame]

theorem pathParts_ne_nil (path : String) : pathParts path ≠ [] := by
  rw [pathParts, Ne, List.map_eq_nil_iff]
  exact List.splitOn_ne_nil _ _

namespace Document

variable {d : Document} {path part : String} {parts : List String} {value : Value}

theorem getByPath_eq (hparts : pathParts path = part :: parts) :
    d.getByPath path = (fieldsLens part parts).get d.fields := by
  rw [getByPath, Fields.getByPath, hparts, fieldsLens_get]

theorem setByPath_of_put {written : Fields} (hparts : pathParts path = part :: parts)
    (h : (fieldsLens part parts).put value d.fields = some written) (now : DateTime) :
    d.setByPath now path value =
      (.ok (), updateMetadata now { d with fields := written }) := by
  have hown := setByPathParts_eq d.fields value part parts
  rw [h] at hown
  dsimp only at hown
  rw [setByPath, hparts, hown]

theorem setByPath_of_refused (hparts : pathParts path = part :: parts)
    (h : (fieldsLens part parts).put value d.fields = none) (now : DateTime) :
    ∃ e, d.setByPath now path value = (.error e, d) := by
  have hown := setByPathParts_eq d.fields value part parts
  rw [h] at hown
  obtain ⟨e, he⟩ := hown
  refine ⟨e, ?_⟩
  rw [setByPath, hparts, he]

/-- A value that can be written at a path is read there, nowhere beside it is anything changed, a
second write replaces the first, and to write what is there changes no field.  A write that fails
changes no field. -/
theorem setByPath_lens (now : DateTime) (d : Document) (path : String) (value : Value) :
    match d.setByPath now path value with
    | (.ok (), d') =>
      d'.getByPath path = some value ∧
      (∀ other, ¬pathParts other <+: pathParts path → ¬pathParts path <+: pathParts other →
        d'.getByPath other = d.getByPath other) ∧
      (∀ later value', ∃ twice once, d'.setByPath later path value' = (.ok (), twice) ∧
        d.setByPath later path value' = (.ok (), once) ∧ twice.fields = once.fields) ∧
      (d.getByPath path = some value → d'.fields = d.fields)
    | (.error _, d') => d'.fields = d.fields := by
  obtain ⟨part, parts, hparts⟩ := List.exists_cons_of_ne_nil (pathParts_ne_nil path)
  have hlawful := fieldsLens_lawful part parts
  cases hwrite : (fieldsLens part parts).put value d.fields with
  | none =>
    obtain ⟨e, he⟩ := setByPath_of_refused hparts hwrite now
    rw [he]
  | some written =>
    rw [setByPath_of_put hparts hwrite]
    refine ⟨?_, ?_, ?_, ?_⟩
    · rw [getByPath_eq hparts]
      exact hlawful.get_put hwrite
    · intro other hprefix hprefix'
      obtain ⟨first, rest, hother⟩ := List.exists_cons_of_ne_nil (pathParts_ne_nil other)
      rw [hparts, hother] at hprefix hprefix'
      rw [getByPath_eq hother, getByPath_eq hother]
      exact fieldsLens_apart hprefix' hprefix d.fields written value hwrite
    · intro later value'
      obtain ⟨last, hlast⟩ := hlawful.put_any value' hwrite
      have hagain : (fieldsLens part parts).put value' written = some last := by
        rw [hlawful.put_put hwrite, hlast]
      exact ⟨_, _, setByPath_of_put hparts hagain later, setByPath_of_put hparts hlast later, rfl⟩
    · intro hthere
      rw [getByPath_eq hparts] at hthere
      exact hlawful.put_get hthere hwrite

end Document

end VedDb
