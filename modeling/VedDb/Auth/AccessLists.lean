import Mathlib.Data.Multiset.Lattice
import Mathlib.Order.BoundedOrder.Basic
import VedDb.Auth.Rbac

/-!
# Access control lists

What a list of entries decides about a user and an operation.  Every entry has a verdict, and the
list has the strongest verdict of its entries: neither their order nor their number matters.
-/

namespace VedDb

/-- What an entry says about an operation of a user, from the weakest to the strongest. -/
inductive AclVerdict where
  /-- The entry is about somebody else. -/
  | silent
  /-- The entry is about the user, and not about the operation. -/
  | unmentioned
  | allowed
  | denied
deriving DecidableEq

namespace AclVerdict

def strength : AclVerdict → Nat
  | silent => 0
  | unmentioned => 1
  | allowed => 2
  | denied => 3

theorem strength_injective : Function.Injective strength := by
  intro a b h
  cases a <;> cases b <;> first | rfl | cases h

instance : LinearOrder AclVerdict := LinearOrder.lift' strength strength_injective

theorem le_iff {a b : AclVerdict} : a ≤ b ↔ a.strength ≤ b.strength := Iff.rfl

instance : OrderBot AclVerdict where
  bot := silent
  bot_le a := le_iff.mpr (Nat.zero_le a.strength)

theorem bot_eq : (⊥ : AclVerdict) = silent := rfl

theorem le_denied (a : AclVerdict) : a ≤ denied := by
  cases a <;> exact le_iff.mpr (by decide)

/-- A verdict joined with one that mentions the user only. -/
theorem sup_unmentioned (a : AclVerdict) :
    a ⊔ unmentioned = if a = silent then unmentioned else a := by
  cases a <;> decide

/-- Whether the verdict lets the user through: silence does, an entry about something else
does not. -/
def decision (username : String) (resource : Resource) : AclVerdict → Except RbacError Unit
  | silent | allowed => .ok ()
  | unmentioned => .error (.notAllowed username resource)
  | denied => .error (.denied username resource)

/-- The verdicts that let the user through. -/
def Admits (verdict : AclVerdict) : Prop := verdict = silent ∨ verdict = allowed

instance (verdict : AclVerdict) : Decidable verdict.Admits := inferInstanceAs (Decidable (_ ∨ _))

theorem decision_eq_ok {username : String} {resource : Resource} {verdict : AclVerdict} :
    verdict.decision username resource = .ok () ↔ verdict.Admits := by
  cases verdict <;> simp [decision, Admits]

end AclVerdict

namespace RbacSystem

def AclEntry.Concerns (username : String) (role : Role) (entry : AclEntry) : Prop :=
  entry.principal = username ∨ entry.principal = role.asStr

instance (username : String) (role : Role) (entry : AclEntry) :
    Decidable (AclEntry.Concerns username role entry) :=
  inferInstanceAs (Decidable (_ ∨ _))

def AclEntry.MentionsOnly (operation : Rbac.Operation) (entry : AclEntry) : Prop :=
  ∀ permission ∈ entry.permissions, permission.operation = operation

instance (operation : Rbac.Operation) (entry : AclEntry) :
    Decidable (AclEntry.MentionsOnly operation entry) :=
  inferInstanceAs (Decidable (∀ _ ∈ _, _))

def AclEntry.verdict (username : String) (role : Role) (operation : Rbac.Operation)
    (entry : AclEntry) : AclVerdict :=
  if AclEntry.Concerns username role entry then
    if AclEntry.names operation entry then if entry.deny then .denied else .allowed
    else .unmentioned
  else .silent

def aclVerdict (username : String) (role : Role) (operation : Rbac.Operation)
    (entries : List AclEntry) : AclVerdict :=
  Multiset.sup (entries.map (AclEntry.verdict username role operation) : Multiset AclVerdict)

/-- The list of a resource, empty where it has none. -/
def aclOf (rbac : RbacSystem) (resource : Resource) : List AclEntry :=
  (rbac.resourceAcls resource).getD []

variable {rbac : RbacSystem} {username : String} {role : Role} {operation : Rbac.Operation}
variable {resource : Resource} {entry : AclEntry} {entries : List AclEntry}

/-! ## The verdict of an entry -/

theorem verdict_of_not_concerns (h : ¬AclEntry.Concerns username role entry) :
    AclEntry.verdict username role operation entry = .silent := if_neg h

theorem verdict_of_not_names (hconcerns : AclEntry.Concerns username role entry)
    (h : AclEntry.names operation entry = false) :
    AclEntry.verdict username role operation entry = .unmentioned := by
  rw [AclEntry.verdict, if_pos hconcerns, h]
  rfl

theorem verdict_eq_denied :
    AclEntry.verdict username role operation entry = .denied ↔
      AclEntry.Concerns username role entry ∧ entry.deny = true ∧
        AclEntry.names operation entry = true := by
  rw [AclEntry.verdict]
  split <;> rename_i hconcerns
  · cases hdeny : entry.deny <;> cases hnames : AclEntry.names operation entry <;> simp [hconcerns]
  · simp [hconcerns]

theorem names_of_mentionsOnly {other : Rbac.Operation}
    (h : AclEntry.MentionsOnly operation entry) (hother : other ≠ operation) :
    AclEntry.names other entry = false := by
  rw [AclEntry.names, List.any_eq_false]
  intro permission hmem hother'
  exact hother ((of_decide_eq_true hother').symm.trans (h permission hmem))

/-! ## The verdict of a list -/

theorem aclVerdict_nil : aclVerdict username role operation [] = .silent := rfl

theorem aclVerdict_cons :
    aclVerdict username role operation (entry :: entries) =
      AclEntry.verdict username role operation entry ⊔
        aclVerdict username role operation entries := by
  rw [aclVerdict, List.map_cons, ← Multiset.cons_coe, Multiset.sup_cons]
  rfl

theorem aclVerdict_append {more : List AclEntry} :
    aclVerdict username role operation (entries ++ more) =
      aclVerdict username role operation entries ⊔ aclVerdict username role operation more := by
  rw [aclVerdict, List.map_append, ← Multiset.coe_add, Multiset.sup_add]
  rfl

theorem aclVerdict_singleton :
    aclVerdict username role operation [entry] =
      AclEntry.verdict username role operation entry :=
  Multiset.sup_singleton

theorem aclVerdict_perm {entries' : List AclEntry} (h : entries.Perm entries') :
    aclVerdict username role operation entries = aclVerdict username role operation entries' := by
  rw [aclVerdict, aclVerdict, Multiset.coe_eq_coe.mpr (h.map _)]

theorem aclVerdict_of_denied (hmem : entry ∈ entries)
    (h : AclEntry.verdict username role operation entry = .denied) :
    aclVerdict username role operation entries = .denied := by
  apply le_antisymm (AclVerdict.le_denied _)
  rw [← h]
  exact Multiset.le_sup (Multiset.mem_coe.mpr (List.mem_map_of_mem hmem))

theorem le_aclVerdict_iff {a : AclVerdict} (ha : a ≠ .silent) :
    a ≤ aclVerdict username role operation entries ↔
      ∃ entry ∈ entries, a ≤ AclEntry.verdict username role operation entry := by
  induction entries with
  | nil =>
    rw [aclVerdict_nil, ← AclVerdict.bot_eq, le_bot_iff]
    simp only [AclVerdict.bot_eq, ha, List.not_mem_nil, false_and, exists_false]
  | cons entry entries ih => rw [aclVerdict_cons, le_sup_iff, ih, List.exists_mem_cons_iff]

theorem unmentioned_le_verdict :
    .unmentioned ≤ AclEntry.verdict username role operation entry ↔
      AclEntry.Concerns username role entry := by
  rw [AclEntry.verdict]
  split <;> rename_i hconcerns
  · cases entry.deny <;> cases AclEntry.names operation entry <;>
      exact iff_of_true (by decide) hconcerns
  · exact iff_of_false (by decide) hconcerns

theorem allowed_le_verdict :
    .allowed ≤ AclEntry.verdict username role operation entry ↔
      AclEntry.Concerns username role entry ∧ AclEntry.names operation entry = true := by
  rw [AclEntry.verdict]
  split <;> rename_i hconcerns
  · cases entry.deny <;> cases AclEntry.names operation entry <;> simp [hconcerns] <;> decide
  · exact iff_of_false (by decide) fun h => hconcerns h.1

theorem denied_le_verdict :
    .denied ≤ AclEntry.verdict username role operation entry ↔
      AclEntry.Concerns username role entry ∧ entry.deny = true ∧
        AclEntry.names operation entry = true := by
  rw [← verdict_eq_denied]
  exact ⟨fun h => le_antisymm (AclVerdict.le_denied _) h, fun h => h.ge⟩

/-! ## The check through the verdict -/

theorem mem_matchingEntries :
    entry ∈ matchingEntries entries username role ↔
      entry ∈ entries ∧ AclEntry.Concerns username role entry := by
  rw [matchingEntries, List.mem_filter, decide_eq_true_iff]
  rfl

theorem matchingEntries_ne_nil (operation : Rbac.Operation) :
    matchingEntries entries username role ≠ [] ↔
      .unmentioned ≤ aclVerdict username role operation entries := by
  rw [le_aclVerdict_iff (by decide), ne_eq, List.eq_nil_iff_forall_not_mem]
  simp only [mem_matchingEntries, unmentioned_le_verdict, not_forall, not_not]

theorem any_denies :
    ((matchingEntries entries username role).any
        fun entry => entry.deny && AclEntry.names operation entry) = true ↔
      .denied ≤ aclVerdict username role operation entries := by
  rw [le_aclVerdict_iff (by decide), List.any_eq_true]
  simp only [mem_matchingEntries, denied_le_verdict, Bool.and_eq_true, and_assoc]

theorem any_allows (hdenied : ¬.denied ≤ aclVerdict username role operation entries) :
    ((matchingEntries entries username role).any
        fun entry => !entry.deny && AclEntry.names operation entry) = true ↔
      .allowed ≤ aclVerdict username role operation entries := by
  rw [le_aclVerdict_iff (by decide)] at hdenied ⊢
  rw [List.any_eq_true]
  simp only [mem_matchingEntries, allowed_le_verdict, Bool.and_eq_true, Bool.not_eq_true',
    and_assoc]
  constructor
  · rintro ⟨entry, hmem, hconcerns, _, hnames⟩
    exact ⟨entry, hmem, hconcerns, hnames⟩
  · rintro ⟨entry, hmem, hconcerns, hnames⟩
    refine ⟨entry, hmem, hconcerns, ?_, hnames⟩
    rw [← Bool.not_eq_true]
    intro hdeny
    exact hdenied ⟨entry, hmem, denied_le_verdict.mpr ⟨hconcerns, hdeny, hnames⟩⟩

/-- The three flags of the source decide as the strongest verdict does. -/
theorem decision_aclVerdict :
    (aclVerdict username role operation entries).decision username resource =
      if (matchingEntries entries username role).any
          fun entry => entry.deny && AclEntry.names operation entry then
        .error (.denied username resource)
      else if matchingEntries entries username role ≠ [] ∧
          ¬(matchingEntries entries username role).any
            fun entry => !entry.deny && AclEntry.names operation entry then
        .error (.notAllowed username resource)
      else .ok () := by
  by_cases hdenied : .denied ≤ aclVerdict username role operation entries
  · rw [if_pos (any_denies.mpr hdenied), le_antisymm (AclVerdict.le_denied _) hdenied]
    rfl
  · rw [if_neg (mt any_denies.mp hdenied)]
    simp only [matchingEntries_ne_nil operation, any_allows hdenied]
    cases hverdict : aclVerdict username role operation entries with
    | silent => exact (if_neg (by decide)).symm
    | unmentioned => exact (if_pos (by decide)).symm
    | allowed => exact (if_neg (by decide)).symm
    | denied => exact absurd hverdict.ge hdenied

theorem checkResourcePermission_eq (hrole : rbac.checkPermission role operation = .ok ()) :
    rbac.checkResourcePermission username role operation resource =
      (aclVerdict username role operation (rbac.aclOf resource)).decision username resource := by
  rw [checkResourcePermission, hrole, aclOf]
  cases rbac.resourceAcls resource with
  | none => rfl
  | some entries => exact decision_aclVerdict.symm

theorem checkResourcePermission_of_error {error : RbacError}
    (hrole : rbac.checkPermission role operation = .error error) :
    rbac.checkResourcePermission username role operation resource = .error error := by
  rw [checkResourcePermission, hrole]

theorem checkResourcePermission_congr {rbac' : RbacSystem}
    (hrole : rbac'.rolePermissions = rbac.rolePermissions)
    (hverdict : aclVerdict username role operation (rbac'.aclOf resource) =
      aclVerdict username role operation (rbac.aclOf resource)) :
    rbac'.checkResourcePermission username role operation resource =
      rbac.checkResourcePermission username role operation resource := by
  have hpermission : rbac'.checkPermission role operation =
      rbac.checkPermission role operation := by
    rw [checkPermission, checkPermission, hrole]
  cases hok : rbac.checkPermission role operation with
  | error error =>
    rw [checkResourcePermission_of_error hok,
      checkResourcePermission_of_error (hpermission.trans hok)]
  | ok =>
    rw [checkResourcePermission_eq hok, checkResourcePermission_eq (hpermission.trans hok),
      hverdict]

theorem aclOf_addAclEntry {place : Resource} :
    (rbac.addAclEntry resource entry).aclOf place =
      if place = resource then rbac.aclOf resource ++ [entry] else rbac.aclOf place := by
  rw [aclOf, addAclEntry]
  dsimp only
  rw [Function.update_apply]
  split <;> rfl

/-- A new entry joins its verdict to that of the list. -/
theorem aclVerdict_addAclEntry :
    aclVerdict username role operation ((rbac.addAclEntry resource entry).aclOf resource) =
      aclVerdict username role operation (rbac.aclOf resource) ⊔
        AclEntry.verdict username role operation entry := by
  rw [aclOf_addAclEntry, if_pos rfl, aclVerdict_append, aclVerdict_singleton]

/-! ## What is granted -/

def Permits (rbac : RbacSystem) (role : Role) (operation : Rbac.Operation) : Prop :=
  ∃ permissions ∈ rbac.rolePermissions role, operation ∈ permissions

theorem checkPermission_eq_ok :
    rbac.checkPermission role operation = .ok () ↔ rbac.Permits role operation := by
  rw [checkPermission, Permits]
  cases rbac.rolePermissions role with
  | none => simp
  | some permissions =>
    dsimp only
    split <;> simp_all

theorem checkResourcePermission_eq_ok :
    rbac.checkResourcePermission username role operation resource = .ok () ↔
      rbac.Permits role operation ∧
        (aclVerdict username role operation (rbac.aclOf resource)).Admits := by
  rw [← checkPermission_eq_ok]
  cases hrole : rbac.checkPermission role operation with
  | error error => simp [checkResourcePermission_of_error hrole]
  | ok => simp [checkResourcePermission_eq hrole, AclVerdict.decision_eq_ok]

theorem authorize_eq_ok {place : Option Resource} :
    rbac.authorize username role operation place = .ok () ↔
      rbac.Permits role operation ∧
        ∀ resource ∈ place, (aclVerdict username role operation (rbac.aclOf resource)).Admits := by
  cases place with
  | none => simp [authorize, checkPermission_eq_ok]
  | some resource => simp [authorize, checkResourcePermission_eq_ok]

def withAcl (rbac : RbacSystem) (resource : Resource) (entries : List AclEntry) : RbacSystem :=
  { rbac with resourceAcls := Function.update rbac.resourceAcls resource (some entries) }

theorem aclOf_withAcl : (rbac.withAcl resource entries).aclOf resource = entries := by
  rw [aclOf, withAcl]
  dsimp only
  rw [Function.update_self]
  rfl

/-! ## Composition -/

theorem checkResourcePermission_perm {entries' : List AclEntry} (h : entries.Perm entries') :
    (rbac.withAcl resource entries).checkResourcePermission username role operation resource =
      (rbac.withAcl resource entries').checkResourcePermission username role operation
        resource := by
  have hrole : (rbac.withAcl resource entries).rolePermissions =
      (rbac.withAcl resource entries').rolePermissions := rfl
  apply checkResourcePermission_congr hrole
  rw [aclOf_withAcl, aclOf_withAcl, aclVerdict_perm h]

theorem checkResourcePermission_of_denied (hmem : entry ∈ rbac.aclOf resource)
    (h : AclEntry.verdict username role operation entry = .denied) :
    rbac.checkResourcePermission username role operation resource ≠ .ok () := by
  cases hrole : rbac.checkPermission role operation with
  | error error =>
    rw [checkResourcePermission_of_error hrole]
    intro hok
    cases hok
  | ok =>
    rw [checkResourcePermission_eq hrole, aclVerdict_of_denied hmem h]
    intro hok
    cases hok

theorem checkResourcePermission_addAclEntry_of_silent {place : Resource}
    (h : place = resource → ¬AclEntry.Concerns username role entry) :
    (rbac.addAclEntry resource entry).checkResourcePermission username role operation place =
      rbac.checkResourcePermission username role operation place := by
  have hrole : (rbac.addAclEntry resource entry).rolePermissions = rbac.rolePermissions := rfl
  apply checkResourcePermission_congr hrole
  by_cases hplace : place = resource
  · rw [hplace, aclVerdict_addAclEntry, verdict_of_not_concerns (h hplace)]
    exact sup_bot_eq _
  · rw [aclOf_addAclEntry, if_neg hplace]

/-- An entry about other operations takes the default away from those whom it concerns, where no
entry concerned them before. -/
theorem checkResourcePermission_addAclEntry_of_not_names
    (hconcerns : AclEntry.Concerns username role entry)
    (hnames : AclEntry.names operation entry = false) :
    (rbac.addAclEntry resource entry).checkResourcePermission username role operation resource =
      if rbac.checkPermission role operation = .ok () ∧
          matchingEntries (rbac.aclOf resource) username role = [] then
        .error (.notAllowed username resource)
      else rbac.checkResourcePermission username role operation resource := by
  have hmatching : matchingEntries (rbac.aclOf resource) username role = [] ↔
      aclVerdict username role operation (rbac.aclOf resource) = .silent := by
    rw [← not_iff_not, ← ne_eq, matchingEntries_ne_nil operation]
    cases aclVerdict username role operation (rbac.aclOf resource) <;> decide
  have hnew : aclVerdict username role operation
      ((rbac.addAclEntry resource entry).aclOf resource) = _ := aclVerdict_addAclEntry
  rw [verdict_of_not_names hconcerns hnames, AclVerdict.sup_unmentioned] at hnew
  cases hrole : rbac.checkPermission role operation with
  | error error =>
    have hrole' : (rbac.addAclEntry resource entry).checkPermission role operation =
        .error error := hrole
    rw [checkResourcePermission_of_error hrole, checkResourcePermission_of_error hrole']
    exact (if_neg fun h => (nomatch h.1)).symm
  | ok =>
    have hrole' : (rbac.addAclEntry resource entry).checkPermission role operation = .ok () :=
      hrole
    rw [checkResourcePermission_eq hrole, checkResourcePermission_eq hrole', hnew]
    by_cases hsilent : aclVerdict username role operation (rbac.aclOf resource) = .silent
    · rw [if_pos hsilent]
      exact (if_pos ⟨rfl, hmatching.mpr hsilent⟩).symm
    · rw [if_neg hsilent]
      exact (if_neg fun h => hsilent (hmatching.mp h.2)).symm

/-- The order of a list does not matter, and a refusal wins.  A new entry changes nothing for
those whom it does not concern; for the others it changes an operation that it does not mention
only where no entry concerned them before, and there what the role permits is refused. -/
theorem checkResourcePermission_compositional (rbac : RbacSystem) (resource : Resource) :
    (∀ entries entries' : List AclEntry, entries.Perm entries' → ∀ username role operation,
      (rbac.withAcl resource entries).checkResourcePermission username role operation resource =
        (rbac.withAcl resource entries').checkResourcePermission username role operation
          resource) ∧
      (∀ entry ∈ rbac.aclOf resource, entry.deny = true → ∀ username role operation,
        AclEntry.Concerns username role entry → AclEntry.names operation entry = true →
        rbac.checkResourcePermission username role operation resource ≠ .ok ()) ∧
      ∀ (entry : AclEntry) (mentioned : Rbac.Operation), AclEntry.MentionsOnly mentioned entry →
        ∀ username role operation place,
          (¬AclEntry.Concerns username role entry →
            (rbac.addAclEntry resource entry).checkResourcePermission username role operation
              place = rbac.checkResourcePermission username role operation place) ∧
          (operation ≠ mentioned →
            (rbac.addAclEntry resource entry).checkResourcePermission username role operation
              place =
              if place = resource ∧ AclEntry.Concerns username role entry ∧
                  rbac.checkPermission role operation = .ok () ∧
                  matchingEntries (rbac.aclOf resource) username role = [] then
                .error (.notAllowed username resource)
              else rbac.checkResourcePermission username role operation place) := by
  refine ⟨?_, ?_, ?_⟩
  · intro entries entries' hperm username role operation
    exact checkResourcePermission_perm hperm
  · intro entry hmem hdeny username role operation hconcerns hnames
    exact checkResourcePermission_of_denied hmem
      (verdict_eq_denied.mpr ⟨hconcerns, hdeny, hnames⟩)
  · intro entry mentioned hmentions username role operation place
    constructor
    · intro hconcerns
      exact checkResourcePermission_addAclEntry_of_silent fun _ => hconcerns
    · intro hother
      by_cases hplace : place = resource ∧ AclEntry.Concerns username role entry
      · rw [hplace.1, checkResourcePermission_addAclEntry_of_not_names hplace.2
          (names_of_mentionsOnly hmentions hother)]
        simp only [hplace.2, true_and]
      · rw [if_neg fun h => hplace ⟨h.1, h.2.1⟩]
        exact checkResourcePermission_addAclEntry_of_silent fun hsame hconcerns =>
          hplace ⟨hsame, hconcerns⟩

def noWrites : AclEntry :=
  { principal := "testuser"
    permissions := [{ operation := .write, resource := none, conditions := [] }]
    deny := true }

/-- A refusal of writes refuses reads too, which were permitted before. -/
theorem not_checkResourcePermission_addAclEntry :
    ¬∀ (rbac : RbacSystem) (resource : Resource) (entry : AclEntry) (mentioned : Rbac.Operation)
      (username : String) (role : Role) (operation : Rbac.Operation),
      AclEntry.MentionsOnly mentioned entry → operation ≠ mentioned →
      (rbac.addAclEntry resource entry).checkResourcePermission username role operation resource =
        rbac.checkResourcePermission username role operation resource := by
  intro h
  have hread := h new (Resource.collection "test_collection") noWrites .write "testuser"
    .readWrite .read (by decide) (by decide)
  exact absurd hread (by decide)

end RbacSystem

end VedDb
