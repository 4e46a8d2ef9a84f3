import VedDb.Lib.Lookups

/-!
# Crossings

A writer and a reader that may both fail.  A value crosses when it is written and read back.  A list
crosses exactly when its items do, and a map exactly when its values do, whatever the order in which
its entries are written.
-/

namespace VedDb

namespace Crossings

variable {ε ε' α β γ : Type}

/-- What is written for one value is read as another. -/
def Crosses (write : γ → Except ε β) (read : β → Except ε' α) (c : γ) (a : α) : Prop :=
  ∃ b, write c = .ok b ∧ read b = .ok a

theorem map_eq_ok_iff {x : Except ε α} {f : α → β} {b : β} :
    x.map f = .ok b ↔ ∃ a, x = .ok a ∧ f a = b := by
  cases x with
  | error e =>
    refine iff_of_false ?_ ?_
    · rintro ⟨⟩
    · rintro ⟨a, ha, -⟩
      cases ha
  | ok a =>
    constructor
    · exact fun h => ⟨a, rfl, Except.ok.inj h⟩
    · rintro ⟨a', ha, rfl⟩
      obtain rfl := Except.ok.inj ha
      rfl

theorem forall_eq_ok_iff {x : Except ε α} {a : α} (h : x = .ok a) {P : α → Prop} :
    (∀ own, x = .ok own → P own) ↔ P a := by
  subst h
  exact ⟨fun hall => hall a rfl, fun ha own hown => Except.ok.inj hown ▸ ha⟩

/-- What is written inside of something else crosses as it does alone. -/
theorem crosses_within_iff {γ' α' β' : Type} {write : γ → Except ε β} {read : β → Except ε' α}
    {write' : γ' → Except ε β'} {read' : β' → Except ε' α'} {c : γ} {c' : γ'} {a : α}
    {around : β → β'} {outer : α → α'} (houter : Function.Injective outer)
    (hwrite : write' c' = (write c).map around)
    (hread : ∀ b, read' (around b) = (read b).map outer) :
    Crosses write' read' c' (outer a) ↔ Crosses write read c a := by
  have hok (b : β) : read' (around b) = .ok (outer a) ↔ read b = .ok a := by
    rw [hread, map_eq_ok_iff]
    constructor
    · rintro ⟨own, hown, heq⟩
      rwa [houter heq] at hown
    · exact fun h => ⟨a, h, rfl⟩
  constructor
  · rintro ⟨b', hb', hread'⟩
    rw [hwrite, map_eq_ok_iff] at hb'
    obtain ⟨b, hb, rfl⟩ := hb'
    exact ⟨b, hb, (hok b).mp hread'⟩
  · rintro ⟨b, hb, ha⟩
    exact ⟨around b, hwrite.trans (map_eq_ok_iff.mpr ⟨b, hb, rfl⟩), (hok b).mpr ha⟩

/-! ## Lists -/

theorem mapM_cons_eq_ok_iff {f : α → Except ε β} {a : α} {l : List α} {bs : List β} :
    (a :: l).mapM f = .ok bs ↔
      ∃ b rest, f a = .ok b ∧ l.mapM f = .ok rest ∧ bs = b :: rest := by
  rw [List.mapM_cons]
  cases ha : f a with
  | error e =>
    refine iff_of_false (fun h => ?_) ?_
    · cases h
    · rintro ⟨b, rest, hb, -⟩
      cases hb
  | ok b =>
    cases hl : l.mapM f with
    | error e =>
      refine iff_of_false (fun h => ?_) ?_
      · cases h
      · rintro ⟨b, rest, -, hrest, -⟩
        cases hrest
    | ok rest =>
      constructor
      · intro h
        exact ⟨b, rest, rfl, rfl, (Except.ok.inj h).symm⟩
      · rintro ⟨b', rest', hb, hrest, rfl⟩
        obtain rfl := Except.ok.inj hb
        obtain rfl := Except.ok.inj hrest
        rfl

theorem crosses_mapM_iff {write : γ → Except ε β} {read : β → Except ε' α} (value : γ → α)
    {l : List γ} : Crosses (List.mapM write) (List.mapM read) l (l.map value) ↔
      ∀ c ∈ l, Crosses write read c (value c) := by
  induction l with
  | nil => exact iff_of_true ⟨[], rfl, rfl⟩ fun c hc => absurd hc List.not_mem_nil
  | cons c l ih =>
    rw [List.forall_mem_cons, ← ih]
    constructor
    · rintro ⟨bs, hwrite, hread⟩
      obtain ⟨b, rest, hb, hrest, rfl⟩ := mapM_cons_eq_ok_iff.mp hwrite
      obtain ⟨a, l', ha, hl', heq⟩ := mapM_cons_eq_ok_iff.mp hread
      obtain ⟨rfl, rfl⟩ := List.cons.inj heq
      exact ⟨⟨b, hb, ha⟩, rest, hrest, hl'⟩
    · rintro ⟨⟨b, hb, ha⟩, rest, hrest, hl⟩
      exact ⟨b :: rest, mapM_cons_eq_ok_iff.mpr ⟨b, rest, hb, hrest, rfl⟩,
        mapM_cons_eq_ok_iff.mpr ⟨value c, l.map value, ha, hl, rfl⟩⟩

theorem exists_of_mem_mapM {f : α → Except ε β} {l : List α} {bs : List β}
    (h : l.mapM f = .ok bs) : ∀ a ∈ l, ∃ b, f a = .ok b := by
  induction l generalizing bs with
  | nil => exact fun a ha => absurd ha List.not_mem_nil
  | cons a l ih =>
    obtain ⟨b, rest, hb, hrest, -⟩ := mapM_cons_eq_ok_iff.mp h
    exact List.forall_mem_cons.mpr ⟨⟨b, hb⟩, ih hrest⟩

/-- What holds of everything that is written. -/
theorem forall_mem_of_mapM {f : α → Except ε β} {l : List α} {bs : List β}
    (h : l.mapM f = .ok bs) {P : β → Prop} :
    (∀ b ∈ bs, P b) ↔ ∀ a ∈ l, ∀ b, f a = .ok b → P b := by
  induction l generalizing bs with
  | nil =>
    obtain rfl := Except.ok.inj h
    exact iff_of_true (fun b hb => absurd hb List.not_mem_nil)
      fun a ha => absurd ha List.not_mem_nil
  | cons a l ih =>
    obtain ⟨b, rest, hb, hrest, rfl⟩ := mapM_cons_eq_ok_iff.mp h
    rw [List.forall_mem_cons, List.forall_mem_cons, ih hrest, forall_eq_ok_iff hb]

/-! ## Maps -/

variable {K : Type} {write : α → Except ε β} {read : β → Except ε' α}

/-- What is done to the value of an entry. -/
def keyed (f : α → Except ε β) (entry : K × α) : Except ε (K × β) :=
  (f entry.2).map fun b => (entry.1, b)

theorem keyed_eq_ok_iff {f : α → Except ε β} {entry : K × α} {result : K × β} :
    keyed f entry = .ok result ↔ result.1 = entry.1 ∧ f entry.2 = .ok result.2 := by
  rw [keyed, map_eq_ok_iff]
  constructor
  · rintro ⟨b, hb, rfl⟩
    exact ⟨rfl, hb⟩
  · rintro ⟨hkey, hb⟩
    exact ⟨result.2, hb, Prod.ext hkey.symm rfl⟩

theorem crosses_keyed_iff {entry : K × α} :
    Crosses (keyed write) (keyed read) entry entry ↔ Crosses write read entry.2 entry.2 := by
  constructor
  · rintro ⟨result, hwrite, hread⟩
    exact ⟨result.2, (keyed_eq_ok_iff.mp hwrite).2, (keyed_eq_ok_iff.mp hread).2⟩
  · rintro ⟨b, hwrite, hread⟩
    exact ⟨(entry.1, b), keyed_eq_ok_iff.mpr ⟨rfl, hwrite⟩, keyed_eq_ok_iff.mpr ⟨rfl, hread⟩⟩

theorem keys_mapM_keyed {f : α → Except ε β} {entries : List (K × α)} {results : List (K × β)}
    (h : entries.mapM (keyed f) = .ok results) :
    results.map Prod.fst = entries.map Prod.fst := by
  induction entries generalizing results with
  | nil =>
    obtain rfl := Except.ok.inj h
    rfl
  | cons entry entries ih =>
    obtain ⟨result, rest, hresult, hrest, rfl⟩ := mapM_cons_eq_ok_iff.mp h
    rw [List.map_cons, List.map_cons, (keyed_eq_ok_iff.mp hresult).1, ih hrest]

/-- Entries with the same keys in the same order, none of them twice, are the same list where they
are the same in some order. -/
theorem eq_of_perm_of_keys {l l' : List (K × α)} (hperm : l.Perm l')
    (hkeys : l.map Prod.fst = l'.map Prod.fst) (hnodup : (l.map Prod.fst).Nodup) : l = l' := by
  induction l generalizing l' with
  | nil => exact hperm.nil_eq
  | cons entry l ih =>
    cases l' with
    | nil => exact absurd hperm.length_eq (by simp)
    | cons entry' l' =>
      rw [List.map_cons, List.map_cons, List.cons.injEq] at hkeys
      rw [List.map_cons, List.nodup_cons] at hnodup
      have hhead : entry = entry' := by
        rcases List.mem_cons.mp (hperm.mem_iff.mp List.mem_cons_self) with heq | hmem
        · exact heq
        · have hkey : entry.1 ∈ l'.map Prod.fst := List.mem_map_of_mem hmem
          exact absurd (hkeys.2 ▸ hkey) hnodup.1
      subst hhead
      rw [ih (List.perm_cons _ |>.mp hperm) hkeys.2 hnodup.2]

variable [Ord K] [Std.TransOrd K] [Std.LawfulEqOrd K] [DecidableEq K]

theorem crosses_map_iff {map : Std.ExtTreeMap K α} {entries : List (K × α)}
    (h : entries.Perm map.toList) :
    (∃ members, entries.mapM (keyed write) = .ok members ∧
      (members.mapM (keyed read)).map (Std.ExtTreeMap.ofList · compare) = .ok map) ↔
      ∀ (key : K) a, map[key]? = some a → Crosses write read a a := by
  have hall : (∀ (key : K) a, map[key]? = some a → Crosses write read a a) ↔
      Crosses (List.mapM (keyed write)) (List.mapM (keyed read)) entries entries := by
    have hentries : Crosses (List.mapM (keyed write)) (List.mapM (keyed read)) entries
        (entries.map id) ↔ ∀ entry ∈ entries, Crosses (keyed write) (keyed read) entry entry :=
      crosses_mapM_iff id
    rw [List.map_id] at hentries
    rw [hentries]
    constructor
    · intro hvalues entry hentry
      rw [crosses_keyed_iff]
      exact hvalues entry.1 entry.2
        (Std.ExtTreeMap.mem_toList_iff_getElem?_eq_some.mp (h.mem_iff.mp hentry))
    · intro hentries key a hown
      exact crosses_keyed_iff.mp (hentries (key, a)
        (h.mem_iff.mpr (Std.ExtTreeMap.mem_toList_iff_getElem?_eq_some.mpr hown)))
  rw [hall]
  have hnodup : (entries.map Prod.fst).Nodup := by
    rw [(h.map Prod.fst).nodup_iff, Std.ExtTreeMap.map_fst_toList_eq_keys]
    exact Std.ExtTreeMap.nodup_keys
  refine exists_congr fun members => and_congr_right fun hwrite => ?_
  rw [map_eq_ok_iff]
  constructor
  · rintro ⟨entries', hread, rfl⟩
    have hkeys : entries'.map Prod.fst = entries.map Prod.fst :=
      (keys_mapM_keyed hread).trans (keys_mapM_keyed hwrite)
    have hnodup' : (entries'.map Prod.fst).Nodup := hkeys ▸ hnodup
    rwa [eq_of_perm_of_keys ((toList_ofList_perm hnodup').symm.trans h.symm) hkeys hnodup'] at hread
  · exact fun hread => ⟨entries, hread, ofList_of_perm h⟩

end Crossings

end VedDb
