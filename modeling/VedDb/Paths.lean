import VedDb.Document

/-!
# Field paths

`Document::get_by_path`: the parts of a path are divided by dots; a part selects a member of an
object, or an item of an array by its position.
-/

namespace VedDb

/-- `part.parse::<usize>()`: decimal digits, with an optional sign, that fit 64 bits. -/
def parseUsize (part : String) : Option Nat :=
  let digits :=
    match part.toList with
    | '+' :: rest => rest
    | chars => chars
  if digits.isEmpty || digits.any (fun c => !c.isDigit) then none
  else
    let n := digits.foldl (fun n c => 10 * n + (c.toNat - 48)) 0
    if n < 2 ^ 64 then some n else none

/-- The value a part of a path selects in a value. -/
def Value.getPart (value : Value) (part : String) : Option Value :=
  match value with
  | .object kvs => kvs.lookup part
  | .array vs =>
    match parseUsize part with
    | some index => vs[index]?
    | none => none
  | _ => none

def Fields.getByPathParts (fields : Fields) : List String → Option Value
  | [] => none
  | part :: parts =>
    match fields[part]? with
    | none => none
    | some value => parts.foldlM Value.getPart value

/-- `path.split('.')`. -/
def pathParts (path : String) : List String := (path.toList.splitOn '.').map String.ofList

def Fields.getByPath (fields : Fields) (path : String) : Option Value :=
  fields.getByPathParts (pathParts path)

def Document.getByPath (document : Document) (path : String) : Option Value :=
  document.fields.getByPath path

/-- An array is entered by position, an object by name. -/
example : Value.getPart (.array [.null, .bool true]) "1" = some (.bool true) := by rfl

/-! ## The first part of a path -/

theorem Fields.getByPath_of_no_dot {path : String} (h : '.' ∉ path.toList) (fields : Fields) :
    fields.getByPath path = fields[path]? := by
  rw [getByPath, pathParts, List.splitOn_eq_singleton h, List.map_singleton, String.ofList_toList,
    getByPathParts]
  cases fields[path]? with
  | none => rfl
  | some value => rfl

theorem Fields.exists_firstPart (path : String) : ∃ first : String,
    first.toList <+: path.toList ∧ '.' ∉ first.toList ∧
      ∀ fields : Fields, fields[first]? = none → fields.getByPath path = none := by
  by_cases hdot : '.' ∈ path.toList
  · obtain ⟨first, rest, hpath, hfirst⟩ := List.eq_append_cons_of_mem hdot
    refine ⟨.ofList first, ?_, ?_, fun fields hnone => ?_⟩
    · rw [String.toList_ofList, hpath]
      exact List.prefix_append _ _
    · rw [String.toList_ofList]
      exact hfirst
    · rw [getByPath, pathParts, hpath, List.splitOn_append_cons_self_of_not_mem hfirst,
        List.map_cons, getByPathParts, hnone]
  · refine ⟨path, List.prefix_rfl, hdot, fun fields hnone => ?_⟩
    rw [getByPath_of_no_dot hdot, hnone]

end VedDb
