import VedDb.Lib.SortKeys
import VedDb.Lib.StableSort
import VedDb.Query.Filter

/-!
# Sorting documents

The comparators of `apply_sort` in `query/executor.rs` and of the `$sort` stage in
`aggregation.rs`.  A sort wants a total preorder.  Both comparators let values of different kinds
tie, so that a text between two numbers ties with both of them.
-/

namespace VedDb

open Comparator

/-! ## Queries -/

inductive SortOrder where
  | ascending
  | descending
deriving DecidableEq

/-- `Sort`. -/
structure SortSpecification where
  fields : List (String × SortOrder)

namespace QueryExecutor

/-- A round of the loop in the comparator of `apply_sort`. -/
def compareField (field : String × SortOrder) (a b : Document) : Ordering :=
  let cmp :=
    match a.getByPath field.1, b.getByPath field.1 with
    | some av, some bv => compareValues av bv
    | some _, none => .gt
    | none, some _ => .lt
    | none, none => .eq
  match field.2 with
  | .ascending => cmp
  | .descending => cmp.swap

/-- The comparator of `apply_sort`: the first field that is not equal decides. -/
def compareBy (sort : SortSpecification) : Document → Document → Ordering :=
  lexicographic (sort.fields.map compareField)

end QueryExecutor

namespace Pipeline

/-- `Pipeline::compare_values`: numbers are compared within one type. -/
def compareValues : Option Value → Option Value → Ordering
  | none, none => .eq
  | none, some _ => .lt
  | some _, none => .gt
  | some (.int32 a), some (.int32 b) => compare a.toInt b.toInt
  | some (.int64 a), some (.int64 b) => compare a.toInt b.toInt
  | some (.float64 a), some (.float64 b) => (a.partialCmp b).getD .eq
  | some (.string a), some (.string b) => compare a b
  | some (.bool a), some (.bool b) => compare a b
  | _, _ => .eq

/-- A round of the loop in the comparator of `$sort`. -/
def compareField (field : String × Int32) (a b : Document) : Ordering :=
  let cmp := compareValues a.fields[field.1]? b.fields[field.1]?
  if field.2 < 0 then cmp.swap else cmp

/-- The comparator of `$sort`, with the fields as the hash map gives them. -/
def compareBy (fields : List (String × Int32)) : Document → Document → Ordering :=
  lexicographic (fields.map compareField)

end Pipeline

/-! ## How the executor compares values -/

/-- A value as the executor compares it.  Of an integer the number matters; binaries, arrays and
objects have no order. -/
inductive SortPlace where
  | null
  | bool (b : Bool)
  | integer (i : Int64)
  | double (f : F64)
  | string (s : String)
  | dateTime (t : DateTime)
  | objectId (bytes : List UInt8)
  | unordered

inductive PlaceKind where
  | null
  | bool
  | number
  | string
  | dateTime
  | objectId
  | unordered
deriving DecidableEq

namespace SortPlace

def ofValue : Value → SortPlace
  | .null => .null
  | .bool b => .bool b
  | .int32 i => .integer i.toInt64
  | .int64 i => .integer i
  | .float64 f => .double f
  | .string s => .string s
  | .dateTime t => .dateTime t
  | .objectId o => .objectId o.bytes
  | .binary _ | .array _ | .object _ => .unordered

def kind : SortPlace → PlaceKind
  | .null => .null
  | .bool _ => .bool
  | .integer _ | .double _ => .number
  | .string _ => .string
  | .dateTime _ => .dateTime
  | .objectId _ => .objectId
  | .unordered => .unordered

def cmp : SortPlace → SortPlace → Ordering
  | .null, .null => .eq
  | .null, _ => .lt
  | _, .null => .gt
  | .bool a, .bool b => compare a b
  | .integer a, .integer b => compare a.toInt b.toInt
  | .double a, .double b => (a.partialCmp b).getD .eq
  | .integer a, .double b => ((F64.ofInt a.toInt).partialCmp b).getD .eq
  | .double a, .integer b => (a.partialCmp (F64.ofInt b.toInt)).getD .eq
  | .string a, .string b => compare a b
  | .dateTime a, .dateTime b => compare a b
  | .objectId a, .objectId b => compare a b
  | _, _ => .eq

theorem compareValues_eq (v w : Value) : compareValues v w = cmp (ofValue v) (ofValue w) := by
  cases v <;> cases w <;> simp [compareValues, cmp, ofValue]

/-- The order of the values of one kind, with null below all others.  Two integers are compared as
integers, other numbers as doubles. -/
inductive Below : SortPlace → SortPlace → Prop
  | null {p : SortPlace} : p.kind ≠ .null → Below .null p
  | bool : Below (.bool false) (.bool true)
  | integer {i j : Int64} : i.toInt < j.toInt → Below (.integer i) (.integer j)
  | double {f g : F64} : f.isNaN = false → g.isNaN = false → f.rank < g.rank →
      Below (.double f) (.double g)
  | integerDouble {i : Int64} {g : F64} : g.isNaN = false → (F64.ofInt i.toInt).rank < g.rank →
      Below (.integer i) (.double g)
  | doubleInteger {f : F64} {j : Int64} : f.isNaN = false → f.rank < (F64.ofInt j.toInt).rank →
      Below (.double f) (.integer j)
  | string {s t : String} : compare s t = .lt → Below (.string s) (.string t)
  | dateTime {t u : DateTime} : t < u → Below (.dateTime t) (.dateTime u)
  | objectId {a b : List UInt8} : compare a b = .lt → Below (.objectId a) (.objectId b)

/-- A value that says nothing about two others, one of which is below the other: it is of another
kind or not a number, or it is the double that both integers are rounded to. -/
inductive Confuses : SortPlace → SortPlace → SortPlace → Prop
  | kind {low high other : SortPlace} : Below low high → low.kind ≠ .null → other.kind ≠ .null →
      other.kind ≠ low.kind → Confuses low high other
  | notANumber {low high : SortPlace} {f : F64} : Below low high → low.kind ≠ .null →
      f.isNaN = true → Confuses low high (.double f)
  | rounded {i j : Int64} {f : F64} : i.toInt < j.toInt → f.isNaN = false →
      f.rank = (F64.ofInt i.toInt).rank → f.rank = (F64.ofInt j.toInt).rank →
      Confuses (.integer i) (.integer j) (.double f)

end SortPlace

/-! ## Doubles -/

namespace F64

/-- The comparison of doubles in a sort: what is not a number ties with everything. -/
def sortCmp (f g : F64) : Ordering := (f.partialCmp g).getD .eq

theorem sortCmp_eq_lt_iff {f g : F64} :
    sortCmp f g = .lt ↔ f.isNaN = false ∧ g.isNaN = false ∧ f.rank < g.rank := by
  rw [sortCmp, partialCmp]
  cases f.isNaN with
  | true => simp
  | false =>
    cases g.isNaN with
    | true => simp
    | false => simp [Int.compare_eq_lt]

theorem sortCmp_eq_eq_iff {f g : F64} :
    sortCmp f g = .eq ↔ f.isNaN = true ∨ g.isNaN = true ∨ f.rank = g.rank := by
  rw [sortCmp, partialCmp]
  cases f.isNaN with
  | true => simp
  | false =>
    cases g.isNaN with
    | true => simp
    | false => simp

theorem sortCmp_swap (f g : F64) : sortCmp g f = (sortCmp f g).swap := by
  rw [sortCmp, sortCmp, partialCmp, partialCmp, Bool.or_comm]
  split
  · rfl
  · exact Std.OrientedOrd.eq_swap

end F64

theorem natAbs_toInt_le (i : Int64) : i.toInt.natAbs ≤ 2 ^ 63 := by
  have hlow := i.le_toInt
  have hhigh := i.toInt_lt
  omega

theorem isNaN_ofInt64 (i : Int64) : (F64.ofInt i.toInt).isNaN = false :=
  F64.isNaN_ofInt (natAbs_toInt_le i)

theorem rank_ofInt64_le {i j : Int64} (h : i.toInt ≤ j.toInt) :
    (F64.ofInt i.toInt).rank ≤ (F64.ofInt j.toInt).rank :=
  F64.rank_ofInt_le (natAbs_toInt_le i) (natAbs_toInt_le j) h

/-! ## The executor's comparison -/

namespace SortPlace

theorem cmp_eq_lt_iff {p q : SortPlace} : cmp p q = .lt ↔ Below p q := by
  constructor
  · intro h
    cases p with
    | null =>
      refine .null fun hnull => ?_
      cases q with
      | null => cases h
      | _ => cases hnull
    | bool a =>
      cases q with
      | bool b =>
        cases a with
        | true => cases b <;> cases h
        | false =>
          cases b with
          | false => cases h
          | true => exact .bool
      | _ => cases h
    | integer i =>
      cases q with
      | integer j => exact .integer (Int.compare_eq_lt.mp h)
      | double g =>
        obtain ⟨-, hg, hlt⟩ := F64.sortCmp_eq_lt_iff.mp h
        exact .integerDouble hg hlt
      | _ => cases h
    | double f =>
      cases q with
      | integer j =>
        obtain ⟨hf, -, hlt⟩ := F64.sortCmp_eq_lt_iff.mp h
        exact .doubleInteger hf hlt
      | double g =>
        obtain ⟨hf, hg, hlt⟩ := F64.sortCmp_eq_lt_iff.mp h
        exact .double hf hg hlt
      | _ => cases h
    | string s =>
      cases q with
      | string t => exact .string h
      | _ => cases h
    | dateTime t =>
      cases q with
      | dateTime u => exact .dateTime (Int.compare_eq_lt.mp h)
      | _ => cases h
    | objectId a =>
      cases q with
      | objectId b => exact .objectId h
      | _ => cases h
    | unordered => cases q <;> cases h
  · intro h
    cases h with
    | null hnull =>
      cases q with
      | null => exact absurd rfl hnull
      | _ => rfl
    | bool => rfl
    | integer hlt => exact Int.compare_eq_lt.mpr hlt
    | double hf hg hlt => exact F64.sortCmp_eq_lt_iff.mpr ⟨hf, hg, hlt⟩
    | integerDouble hg hlt => exact F64.sortCmp_eq_lt_iff.mpr ⟨isNaN_ofInt64 _, hg, hlt⟩
    | doubleInteger hf hlt => exact F64.sortCmp_eq_lt_iff.mpr ⟨hf, isNaN_ofInt64 _, hlt⟩
    | string hlt => exact hlt
    | dateTime hlt => exact Int.compare_eq_lt.mpr hlt
    | objectId hlt => exact hlt

theorem cmp_swap (p q : SortPlace) : cmp q p = (cmp p q).swap := by
  cases p with
  | null => cases q <;> rfl
  | unordered => cases q <;> rfl
  | bool a =>
    cases q with
    | bool b => exact Std.OrientedOrd.eq_swap
    | _ => rfl
  | integer i =>
    cases q with
    | integer j => exact Std.OrientedOrd.eq_swap
    | double g => exact F64.sortCmp_swap _ _
    | _ => rfl
  | double f =>
    cases q with
    | integer j => exact F64.sortCmp_swap _ _
    | double g => exact F64.sortCmp_swap _ _
    | _ => rfl
  | string s =>
    cases q with
    | string t => exact Std.OrientedOrd.eq_swap
    | _ => rfl
  | dateTime t =>
    cases q with
    | dateTime u => exact Std.OrientedOrd.eq_swap
    | _ => rfl
  | objectId a =>
    cases q with
    | objectId b => exact Std.OrientedOrd.eq_swap
    | _ => rfl

theorem Below.kind_eq {p q : SortPlace} (h : Below p q) (hp : p.kind ≠ .null) :
    q.kind = p.kind := by
  cases h with
  | null => exact absurd rfl hp
  | _ => rfl

theorem Below.right_ne_null {p q : SortPlace} (h : Below p q) : q.kind ≠ .null := by
  cases h with
  | null hq => exact hq
  | _ => nofun

theorem Below.trans {p q r : SortPlace} (hpq : Below p q) (hqr : Below q r) : Below p r := by
  cases hpq with
  | null hq => exact .null hqr.right_ne_null
  | bool => cases hqr
  | integer hij =>
    cases hqr with
    | integer hjk => exact .integer (hij.trans hjk)
    | integerDouble hg hlt =>
      exact .integerDouble hg (Int.lt_of_le_of_lt (rank_ofInt64_le hij.le) hlt)
  | double hf hg hlt =>
    cases hqr with
    | double _ hh hlt' => exact .double hf hh (hlt.trans hlt')
    | doubleInteger _ hlt' => exact .doubleInteger hf (hlt.trans hlt')
  | integerDouble hg hlt =>
    cases hqr with
    | double _ hh hlt' => exact .integerDouble hh (hlt.trans hlt')
    | doubleInteger _ hlt' =>
      refine .integer (Int.lt_of_not_ge fun hle => ?_)
      exact absurd (rank_ofInt64_le hle) (Int.not_le.mpr (hlt.trans hlt'))
  | doubleInteger hf hlt =>
    cases hqr with
    | integer hij => exact .doubleInteger hf (Int.lt_of_lt_of_le hlt (rank_ofInt64_le hij.le))
    | integerDouble hg hlt' => exact .double hf hg (hlt.trans hlt')
  | string hst =>
    cases hqr with
    | string htu => exact .string (Std.TransCmp.lt_trans hst htu)
  | dateTime htu =>
    cases hqr with
    | dateTime huv => exact .dateTime (htu.trans huv)
  | objectId hab =>
    cases hqr with
    | objectId hbc => exact .objectId (Std.TransCmp.lt_trans hab hbc)

theorem cmp_lawful : Lawful cmp where
  swap := cmp_swap
  lt_trans hpq hqr := cmp_eq_lt_iff.mpr ((cmp_eq_lt_iff.mp hpq).trans (cmp_eq_lt_iff.mp hqr))

theorem cmp_of_kind_ne {p q : SortPlace} (hp : p.kind ≠ .null) (hq : q.kind ≠ .null)
    (hne : q.kind ≠ p.kind) : cmp p q = .eq := by
  cases p <;> cases q <;> first | rfl | exact absurd rfl hp | exact absurd rfl hq |
    exact absurd rfl hne

theorem cmp_of_isNaN {p : SortPlace} {f : F64} (hp : p.kind ≠ .null) (hf : f.isNaN = true) :
    cmp p (.double f) = .eq := by
  cases p with
  | null => exact absurd rfl hp
  | integer i => exact F64.sortCmp_eq_eq_iff.mpr (.inr (.inl hf))
  | double g => exact F64.sortCmp_eq_eq_iff.mpr (.inr (.inl hf))
  | _ => rfl

theorem Below.confuses_of_kind_eq {p q r : SortPlace} (h : Below p q) (hp : p.kind ≠ .null)
    (hkind : r.kind = p.kind) (hpr : cmp p r = .eq) (hqr : cmp q r = .eq) :
    Confuses p q r := by
  have hrank {f g : F64} (hf : f.isNaN = false) (hg : g.isNaN = false)
      (htie : F64.sortCmp f g = .eq) : f.rank = g.rank := by
    rw [F64.sortCmp_eq_eq_iff, hf, hg] at htie
    simpa using htie
  have hint (i : Int64) := isNaN_ofInt64 i
  -- the third value is not a number, or it is where it ties
  have hdouble {f : F64} (hf : f.isNaN = false → Confuses p q (.double f)) :
      Confuses p q (.double f) := by
    cases hnan : f.isNaN with
    | true => exact .notANumber h hp hnan
    | false => exact hf hnan
  cases h with
  | null => exact absurd rfl hp
  | bool =>
    cases r with
    | bool b =>
      cases b with
      | true => cases hpr
      | false => cases hqr
    | _ => cases hkind
  | integer hij =>
    cases r with
    | integer k =>
      have hik := Std.LawfulEqOrd.eq_of_compare hpr
      have hjk := Std.LawfulEqOrd.eq_of_compare hqr
      omega
    | double f =>
      exact hdouble fun hf =>
        .rounded hij hf (hrank (hint _) hf hpr).symm (hrank (hint _) hf hqr).symm
    | _ => cases hkind
  | double hf hg hlt =>
    cases r with
    | integer k =>
      have hfk := hrank hf (hint k) hpr
      have hgk := hrank hg (hint k) hqr
      omega
    | double e =>
      refine hdouble fun he => ?_
      have hfe := hrank hf he hpr
      have hge := hrank hg he hqr
      omega
    | _ => cases hkind
  | @integerDouble i g hg hlt =>
    cases r with
    | integer k =>
      have hik := Std.LawfulEqOrd.eq_of_compare hpr
      have hgk := hrank hg (hint k) hqr
      rw [hik] at hlt
      omega
    | double e =>
      refine hdouble fun he => ?_
      have hie := hrank (hint i) he hpr
      have hge := hrank hg he hqr
      omega
    | _ => cases hkind
  | @doubleInteger f j hf hlt =>
    cases r with
    | integer k =>
      have hfk := hrank hf (hint k) hpr
      have hjk := Std.LawfulEqOrd.eq_of_compare hqr
      rw [hjk] at hlt
      omega
    | double e =>
      refine hdouble fun he => ?_
      have hfe := hrank hf he hpr
      have hje := hrank (hint j) he hqr
      omega
    | _ => cases hkind
  | @string s t hst =>
    cases r with
    | string u =>
      have hsu : s = u := Std.LawfulEqOrd.eq_of_compare hpr
      have htu : t = u := Std.LawfulEqOrd.eq_of_compare hqr
      rw [hsu, htu, Std.ReflOrd.compare_self] at hst
      cases hst
    | _ => cases hkind
  | @dateTime t u htu =>
    cases r with
    | dateTime v =>
      have htv : t = v := Std.LawfulEqOrd.eq_of_compare hpr
      have huv : u = v := Std.LawfulEqOrd.eq_of_compare hqr
      rw [htv, huv] at htu
      exact absurd htu (Int.lt_irrefl v)
    | _ => cases hkind
  | @objectId a b hab =>
    cases r with
    | objectId c =>
      have hac : a = c := Std.LawfulEqOrd.eq_of_compare hpr
      have hbc : b = c := Std.LawfulEqOrd.eq_of_compare hqr
      rw [hac, hbc, Std.ReflOrd.compare_self] at hab
      cases hab
    | _ => cases hkind

theorem clashes_cmp_iff {p q r : SortPlace} : Clashes cmp p q r ↔ Confuses p q r := by
  constructor
  · rintro ⟨hlt, hpr, hqr⟩
    have hbelow := cmp_eq_lt_iff.mp hlt
    have hr : r.kind ≠ .null := by
      intro hnull
      have hq := hbelow.right_ne_null
      cases r with
      | null =>
        cases q with
        | null => exact hq rfl
        | _ => cases hqr
      | _ => cases hnull
    have hp : p.kind ≠ .null := by
      intro hnull
      cases p with
      | null =>
        cases r with
        | null => exact hr rfl
        | _ => cases hpr
      | _ => cases hnull
    by_cases hkind : r.kind = p.kind
    · exact hbelow.confuses_of_kind_eq hp hkind hpr hqr
    · exact .kind hbelow hp hr hkind
  · intro h
    cases h with
    | kind hbelow hp hr hne =>
      have hqp := hbelow.kind_eq hp
      refine ⟨cmp_eq_lt_iff.mpr hbelow, cmp_of_kind_ne hp hr hne, ?_⟩
      exact cmp_of_kind_ne hbelow.right_ne_null hr (by rw [hqp]; exact hne)
    | notANumber hbelow hp hf =>
      exact ⟨cmp_eq_lt_iff.mpr hbelow, cmp_of_isNaN hp hf, cmp_of_isNaN hbelow.right_ne_null hf⟩
    | rounded hij hf hi hj =>
      exact ⟨Int.compare_eq_lt.mpr hij, F64.sortCmp_eq_eq_iff.mpr (.inr (.inr hi.symm)),
        F64.sortCmp_eq_eq_iff.mpr (.inr (.inr hj.symm))⟩

end SortPlace

/-! ## The executor's comparator -/

def Value.Below (v w : Value) : Prop := SortPlace.Below (.ofValue v) (.ofValue w)

def Value.Confuses (low high other : Value) : Prop :=
  SortPlace.Confuses (.ofValue low) (.ofValue high) (.ofValue other)

def QueryExecutor.sortKey (field : String × SortOrder) : SortKey Document Value where
  value doc := doc.getByPath field.1
  descending := decide (field.2 = .descending)

namespace QueryExecutor

theorem compareValues_orders : Orders compareValues Value.Below Value.Confuses where
  lawful := by
    have heq : compareValues = fun v w => SortPlace.cmp (.ofValue v) (.ofValue w) := by
      funext v w
      exact SortPlace.compareValues_eq v w
    rw [heq]
    exact ⟨fun _ _ => SortPlace.cmp_lawful.swap _ _, SortPlace.cmp_lawful.lt_trans⟩
  lt_iff := by
    intro v w
    rw [SortPlace.compareValues_eq, SortPlace.cmp_eq_lt_iff, Value.Below]
  clashes_iff := by
    intro v w u
    rw [Clashes, SortPlace.compareValues_eq, SortPlace.compareValues_eq, SortPlace.compareValues_eq,
      Value.Confuses, ← SortPlace.clashes_cmp_iff, Clashes]

theorem compareField_eq (field : String × SortOrder) :
    compareField field = (sortKey field).compare compareValues := by
  funext a b
  have hmissing : (match a.getByPath field.1, b.getByPath field.1 with
      | some av, some bv => compareValues av bv
      | some _, none => .gt
      | none, some _ => .lt
      | none, none => .eq) =
      missingFirst compareValues (a.getByPath field.1) (b.getByPath field.1) := by
    cases a.getByPath field.1 with
    | none =>
      cases b.getByPath field.1 with
      | none => rfl
      | some bv => rfl
    | some av =>
      cases b.getByPath field.1 with
      | none => rfl
      | some bv => rfl
  obtain ⟨path, order⟩ := field
  rw [compareField, hmissing]
  cases order with
  | ascending => rfl
  | descending => rfl

theorem compareBy_eq (sort : SortSpecification) :
    compareBy sort =
      lexicographic ((sort.fields.map sortKey).map (SortKey.compare · compareValues)) := by
  rw [compareBy, List.map_map]
  congr 2
  funext field
  exact compareField_eq field

end QueryExecutor

/-! ## The comparator of an aggregation -/

namespace Pipeline

/-- The types whose values are compared with one another. -/
inductive ValueKind where
  | bool
  | int32
  | int64
  | float64
  | string
  | unordered
deriving DecidableEq

def kind : Value → ValueKind
  | .bool _ => .bool
  | .int32 _ => .int32
  | .int64 _ => .int64
  | .float64 _ => .float64
  | .string _ => .string
  | _ => .unordered

inductive Below : Value → Value → Prop
  | bool : Below (.bool false) (.bool true)
  | int32 {i j : Int32} : i.toInt < j.toInt → Below (.int32 i) (.int32 j)
  | int64 {i j : Int64} : i.toInt < j.toInt → Below (.int64 i) (.int64 j)
  | float64 {f g : F64} : f.isNaN = false → g.isNaN = false → f.rank < g.rank →
      Below (.float64 f) (.float64 g)
  | string {s t : String} : compare s t = .lt → Below (.string s) (.string t)

/-- A value that says nothing about two others, one of which is below the other: it is of another
type, null among them, or not a number. -/
inductive Confuses : Value → Value → Value → Prop
  | kind {low high other : Value} : Below low high → kind other ≠ kind low →
      Confuses low high other
  | notANumber {low high : Value} {f : F64} : Below low high → f.isNaN = true →
      Confuses low high (.float64 f)

/-- A field of a `$sort` as a key: its value, if any. -/
def sortKey (field : String × Int32) : SortKey Document Value where
  value doc := doc.fields[field.1]?
  descending := decide (field.2 < 0)

def compareSome (v w : Value) : Ordering := compareValues (some v) (some w)

theorem compareValues_eq : compareValues = missingFirst compareSome := by
  funext x y
  cases x with
  | none =>
    cases y with
    | none => rfl
    | some w => rfl
  | some v =>
    cases y with
    | none => rfl
    | some w => rfl

theorem compareSome_of_kind_ne {v w : Value} (h : kind w ≠ kind v) : compareSome v w = .eq := by
  cases v <;> cases w <;> first | rfl | exact absurd rfl h

theorem compareSome_eq_lt_iff {v w : Value} : compareSome v w = .lt ↔ Below v w := by
  constructor
  · intro h
    have hkind : kind w = kind v := by
      by_contra hne
      rw [compareSome_of_kind_ne hne] at h
      cases h
    cases v with
    | bool a =>
      cases w with
      | bool b =>
        cases a with
        | true => cases b <;> cases h
        | false =>
          cases b with
          | false => cases h
          | true => exact .bool
      | _ => cases hkind
    | int32 i =>
      cases w with
      | int32 j => exact .int32 (Int.compare_eq_lt.mp h)
      | _ => cases hkind
    | int64 i =>
      cases w with
      | int64 j => exact .int64 (Int.compare_eq_lt.mp h)
      | _ => cases hkind
    | float64 f =>
      cases w with
      | float64 g =>
        obtain ⟨hf, hg, hlt⟩ := F64.sortCmp_eq_lt_iff.mp h
        exact .float64 hf hg hlt
      | _ => cases hkind
    | string s =>
      cases w with
      | string t => exact .string h
      | _ => cases hkind
    | _ => cases w <;> cases h
  · intro h
    cases h with
    | bool => rfl
    | int32 hlt => exact Int.compare_eq_lt.mpr hlt
    | int64 hlt => exact Int.compare_eq_lt.mpr hlt
    | float64 hf hg hlt => exact F64.sortCmp_eq_lt_iff.mpr ⟨hf, hg, hlt⟩
    | string hlt => exact hlt

theorem compareSome_swap (v w : Value) : compareSome w v = (compareSome v w).swap := by
  by_cases hkind : kind w = kind v
  · cases v with
    | bool a =>
      cases w with
      | bool b => exact Std.OrientedOrd.eq_swap
      | _ => cases hkind
    | int32 i =>
      cases w with
      | int32 j => exact Std.OrientedOrd.eq_swap
      | _ => cases hkind
    | int64 i =>
      cases w with
      | int64 j => exact Std.OrientedOrd.eq_swap
      | _ => cases hkind
    | float64 f =>
      cases w with
      | float64 g => exact F64.sortCmp_swap _ _
      | _ => cases hkind
    | string s =>
      cases w with
      | string t => exact Std.OrientedOrd.eq_swap
      | _ => cases hkind
    | _ => cases w <;> rfl
  · rw [compareSome_of_kind_ne hkind, compareSome_of_kind_ne fun h => hkind h.symm]
    rfl

theorem Below.trans {v w u : Value} (hvw : Below v w) (hwu : Below w u) : Below v u := by
  cases hvw with
  | bool => cases hwu
  | int32 hij =>
    cases hwu with
    | int32 hjk => exact .int32 (hij.trans hjk)
  | int64 hij =>
    cases hwu with
    | int64 hjk => exact .int64 (hij.trans hjk)
  | float64 hf _ hlt =>
    cases hwu with
    | float64 _ hh hlt' => exact .float64 hf hh (hlt.trans hlt')
  | string hst =>
    cases hwu with
    | string htu => exact .string (Std.TransCmp.lt_trans hst htu)

theorem Below.kind_eq {v w : Value} (h : Below v w) : kind w = kind v := by
  cases h with
  | _ => rfl

/-- A value of the type of two others ties with both of them only where it is not a number. -/
theorem Below.confuses_of_kind_eq {v w u : Value} (h : Below v w) (hkind : kind u = kind v)
    (hvu : compareSome v u = .eq) (hwu : compareSome w u = .eq) : Confuses v w u := by
  cases h with
  | bool =>
    cases u with
    | bool b =>
      cases b with
      | true => cases hvu
      | false => cases hwu
    | _ => cases hkind
  | @int32 i j hij =>
    cases u with
    | int32 k =>
      have hik : i.toInt = k.toInt := Std.LawfulEqOrd.eq_of_compare hvu
      have hjk : j.toInt = k.toInt := Std.LawfulEqOrd.eq_of_compare hwu
      omega
    | _ => cases hkind
  | @int64 i j hij =>
    cases u with
    | int64 k =>
      have hik : i.toInt = k.toInt := Std.LawfulEqOrd.eq_of_compare hvu
      have hjk : j.toInt = k.toInt := Std.LawfulEqOrd.eq_of_compare hwu
      omega
    | _ => cases hkind
  | @float64 f g hf hg hlt =>
    cases u with
    | float64 e =>
      cases hnan : e.isNaN with
      | true => exact .notANumber (.float64 hf hg hlt) hnan
      | false =>
        have hfe := F64.sortCmp_eq_eq_iff.mp hvu
        have hge := F64.sortCmp_eq_eq_iff.mp hwu
        rw [hf, hnan] at hfe
        rw [hg, hnan] at hge
        simp only [Bool.false_eq_true, false_or] at hfe hge
        omega
    | _ => cases hkind
  | @string s t hst =>
    cases u with
    | string u =>
      have hsu : s = u := Std.LawfulEqOrd.eq_of_compare hvu
      have htu : t = u := Std.LawfulEqOrd.eq_of_compare hwu
      rw [hsu, htu, Std.ReflOrd.compare_self] at hst
      cases hst
    | _ => cases hkind

theorem compareSome_of_isNaN {v : Value} {f : F64} (hf : f.isNaN = true) :
    compareSome v (.float64 f) = .eq := by
  cases v with
  | float64 g => exact F64.sortCmp_eq_eq_iff.mpr (.inr (.inl hf))
  | _ => rfl

theorem compareSome_orders : Orders compareSome Below Confuses where
  lawful := ⟨compareSome_swap, fun hvw hwu =>
    compareSome_eq_lt_iff.mpr
      ((compareSome_eq_lt_iff.mp hvw).trans (compareSome_eq_lt_iff.mp hwu))⟩
  lt_iff := compareSome_eq_lt_iff
  clashes_iff := by
    intro v w u
    constructor
    · rintro ⟨hlt, hvu, hwu⟩
      have hbelow := compareSome_eq_lt_iff.mp hlt
      by_cases hkind : kind u = kind v
      · exact hbelow.confuses_of_kind_eq hkind hvu hwu
      · exact .kind hbelow hkind
    · intro h
      cases h with
      | kind hbelow hne =>
        refine ⟨compareSome_eq_lt_iff.mpr hbelow, compareSome_of_kind_ne hne,
          compareSome_of_kind_ne ?_⟩
        rw [hbelow.kind_eq]
        exact hne
      | notANumber hbelow hf =>
        exact ⟨compareSome_eq_lt_iff.mpr hbelow, compareSome_of_isNaN hf,
          compareSome_of_isNaN hf⟩

theorem compareField_eq (field : String × Int32) :
    compareField field = (sortKey field).compare compareSome := by
  funext a b
  simp only [compareField, SortKey.compare, sortKey, compareValues_eq, decide_eq_true_eq]

theorem compareBy_eq (fields : List (String × Int32)) :
    compareBy fields =
      lexicographic ((fields.map sortKey).map (SortKey.compare · compareSome)) := by
  rw [compareBy, List.map_map]
  congr 2
  funext field
  exact compareField_eq field

end Pipeline

/-! ## Total preorders -/

/-- The comparators are total preorders on those sets of documents in which no document has a value
that confuses two others at a sort path. -/
theorem sort_comparators_preorder_iff (sort : SortSpecification) (fields : List (String × Int32))
    (S : Document → Prop) :
    (TotalPreorderOn (QueryExecutor.compareBy sort) S ↔
      ∀ a b c, S a → S b → S c →
        ¬Confuses Value.Below Value.Confuses (sort.fields.map QueryExecutor.sortKey) a b c) ∧
    (TotalPreorderOn (Pipeline.compareBy fields) S ↔
      ∀ a b c, S a → S b → S c →
        ¬Confuses Pipeline.Below Pipeline.Confuses (fields.map Pipeline.sortKey) a b c) := by
  rw [QueryExecutor.compareBy_eq, Pipeline.compareBy_eq]
  exact ⟨totalPreorderOn_compareBy_iff QueryExecutor.compareValues_orders,
    totalPreorderOn_compareBy_iff Pipeline.compareSome_orders⟩

def Document.holding (value : Value) : Document where
  id := ⟨0⟩
  fields := (∅ : Fields).insert "n" value
  metadata := .default 0

theorem Document.holding_getByPath (value : Value) :
    (Document.holding value).getByPath "n" = some value := by
  rw [Document.getByPath, Fields.getByPath, show pathParts "n" = ["n"] from rfl,
    Fields.getByPathParts, Document.holding, Std.ExtTreeMap.getElem?_insert_self]
  rfl

theorem QueryExecutor.compareBy_holding (v w : Value) :
    compareBy { fields := [("n", .ascending)] } (.holding v) (.holding w) = compareValues v w := by
  rw [compareBy, List.map_cons, List.map_nil, lexicographic_singleton, compareField,
    Document.holding_getByPath, Document.holding_getByPath]

/-- A text ties with a number and with one below it. -/
theorem QueryExecutor.not_preorder_of_text {docs : List Document} {low high : Int32} {s : String}
    (hlt : low.toInt < high.toInt) (hlow : .holding (.int32 low) ∈ docs)
    (hhigh : .holding (.int32 high) ∈ docs) (htext : .holding (.string s) ∈ docs) :
    ¬TotalPreorderOn (compareBy { fields := [("n", .ascending)] }) (· ∈ docs) := by
  intro h
  have htie : compareValues (.int32 high) (.string s) = .eq := rfl
  have htie' : compareValues (.string s) (.int32 low) = .eq := rfl
  have hgt : compareValues (.int32 high) (.int32 low) = .gt := Int.compare_eq_gt.mpr hlt
  have htrans := h.trans hhigh htext hlow
  rw [compareBy_holding, compareBy_holding, compareBy_holding, htie, htie'] at htrans
  exact htrans (by decide) (by decide) hgt

/-- A text between two numbers: both comparators go down from two to the text and on to one, and
then up from one to two. -/
theorem sort_comparators_not_preorders :
    ¬TotalPreorderOn (QueryExecutor.compareBy { fields := [("n", .ascending)] })
      (· ∈ [Document.holding (.int32 1), .holding (.string "a"), .holding (.int32 2)]) ∧
    ¬TotalPreorderOn (Pipeline.compareBy [("n", 1)])
      (· ∈ [Document.holding (.int32 1), .holding (.string "a"), .holding (.int32 2)]) := by
  have hfield (value : Value) : (Document.holding value).fields["n"]? = some value :=
    Std.ExtTreeMap.getElem?_insert_self
  constructor
  · exact @QueryExecutor.not_preorder_of_text _ 1 2 "a" (by decide) (by simp) (by simp) (by simp)
  · intro h
    have hcompare (v w : Value) : Pipeline.compareBy [("n", 1)] (.holding v) (.holding w) =
        Pipeline.compareSome v w := by
      rw [Pipeline.compareBy, List.map_cons, List.map_nil, lexicographic_singleton,
        Pipeline.compareField, hfield, hfield, if_neg (by decide), Pipeline.compareSome]
    have htrans := @TotalPreorderOn.trans _ _ _ h (.holding (.int32 2)) (.holding (.string "a"))
      (.holding (.int32 1)) (by simp) (by simp) (by simp)
    rw [hcompare, hcompare, hcompare] at htrans
    exact htrans (by decide) (by decide) rfl

/-! ## Values of one kind -/

/-- Both are integers, both are doubles that are numbers, both are texts, and so on. -/
def SortPlace.OneKind : SortPlace → SortPlace → Prop
  | .integer _, .integer _ => True
  | .double f, .double g => f.isNaN = false ∧ g.isNaN = false
  | .integer _, .double _ | .double _, .integer _ => False
  | p, q => q.kind = p.kind

def Value.OneKind (v w : Value) : Prop := SortPlace.OneKind (.ofValue v) (.ofValue w)

theorem SortPlace.Confuses.not_oneKind {low high other : SortPlace} (h : Confuses low high other) :
    ¬OneKind low other := by
  intro hone
  cases h with
  | kind hbelow hlow hother hne =>
    cases low <;> cases other <;> first | exact hne rfl | exact hne hone
  | notANumber hbelow hlow hf =>
    cases low with
    | double g =>
      rw [hone.2] at hf
      cases hf
    | null => exact hlow rfl
    | _ => cases hone
  | rounded => exact hone

theorem QueryExecutor.compareBy_totalPreorderOn {sort : SortSpecification} {S : Document → Prop}
    (h : ∀ a b, S a → S b → ∀ field ∈ sort.fields, ∀ v w,
      a.getByPath field.1 = some v → b.getByPath field.1 = some w → v.OneKind w) :
    TotalPreorderOn (compareBy sort) S := by
  rw [compareBy_eq, totalPreorderOn_compareBy_iff compareValues_orders]
  rintro a b c ha hb hc ⟨first, key, rest, hsplit, -, ⟨low, high, other, hlow, -, hother, hconf⟩, -⟩
  have hmem : key ∈ sort.fields.map sortKey := by
    rw [hsplit]
    exact List.mem_append_right _ List.mem_cons_self
  obtain ⟨field, hfield, rfl⟩ := List.mem_map.mp hmem
  have hnot := SortPlace.Confuses.not_oneKind hconf
  split at hlow
  · exact hnot (h b c hb hc field hfield low other hlow hother)
  · exact hnot (h a c ha hc field hfield low other hlow hother)

end VedDb
