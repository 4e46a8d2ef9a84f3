import VedDb.Auth.User
import VedDb.Lib.Runs

/-!
# The last administrator

Which operations on accounts leave an enabled administrator.  Only `delete_user` guards the last
one, and it counts administrators whether they are enabled or not.
-/

namespace VedDb

open LittleEndian (Bytes)

/-- The operations on accounts, through the user manager or the user-management commands. -/
inductive AccountOp where
  | createUser (user : User)
  | updateUser (user : User)
  | setUserEnabled (username : String) (enabled : Bool)
  | deleteUser (username : String)
  | changePassword (salt : Bytes) (username newPassword : String)
  | verifyPassword (now : DateTime) (username password : String)
  | createUserCommand (now : DateTime) (salt : Bytes) (username password role : String)
  | deleteUserCommand (username : String)
  | updateUserRoleCommand (username role : String)

namespace UserManager

variable (bcrypt : Bcrypt)

/-- An operation leaves the store as it is when it fails. -/
def attempt (manager : UserManager) (result : Except String UserManager) : UserManager :=
  match result with
  | .error _ => manager
  | .ok manager => manager

def apply (manager : UserManager) : AccountOp → UserManager
  | .createUser user => manager.attempt (manager.createUser user)
  | .updateUser user => manager.attempt (manager.updateUser user)
  | .setUserEnabled username enabled => manager.attempt (manager.setUserEnabled username enabled)
  | .deleteUser username | .deleteUserCommand username =>
    manager.attempt (manager.deleteUser username)
  | .changePassword salt username newPassword =>
    manager.attempt (manager.changePassword bcrypt salt username newPassword)
  | .verifyPassword now username password =>
    manager.attempt ((manager.verifyPassword bcrypt now username password).map Prod.snd)
  | .createUserCommand now salt username password role =>
    manager.attempt do
      let hash ← bcrypt.hash salt password
      manager.createUser (requestedUser now username hash role)
  | .updateUserRoleCommand username role => manager.attempt (manager.updateUserRole username role)

end UserManager

/-! ## Enabled administrators -/

/-- An enabled account with the role of an administrator. -/
def User.Administers (user : User) : Prop := user.role = .admin ∧ user.enabled = true

instance (user : User) : Decidable user.Administers := inferInstanceAs (Decidable (_ ∧ _))

namespace UserManager

variable {bcrypt : Bcrypt} {manager manager' : UserManager} {username : String} {user : User}

def HasAdmin (manager : UserManager) : Prop :=
  ∃ username user, manager.getUser username = some user ∧ user.Administers

/-- There is an enabled administrator besides the account of this name. -/
def HasAdminBesides (manager : UserManager) (username : String) : Prop :=
  ∃ other user, other ≠ username ∧ manager.getUser other = some user ∧ user.Administers

theorem HasAdmin.besides (h : manager.HasAdmin)
    (hnot : ∀ user, manager.getUser username = some user → ¬user.Administers) :
    manager.HasAdminBesides username := by
  have ⟨other, user, huser, hadmin⟩ := h
  refine ⟨other, user, fun heq => ?_, huser, hadmin⟩
  rw [heq] at huser
  exact hnot user huser hadmin

theorem HasAdmin.besides_of_none (h : manager.HasAdmin)
    (hnone : manager.getUser username = none) : manager.HasAdminBesides username := by
  apply h.besides
  intro user huser
  rw [hnone] at huser
  cases huser

theorem hasAdmin_insert (user : User) :
    HasAdmin { users := manager.users.insert user.username user } ↔
      user.Administers ∨ manager.HasAdminBesides user.username := by
  constructor
  · intro ⟨other, stored, hstored, hadmin⟩
    rw [getUser_insert] at hstored
    split at hstored
    · cases hstored
      exact Or.inl hadmin
    · rename_i hne
      exact Or.inr ⟨other, stored, fun heq => hne heq.symm, hstored, hadmin⟩
  · intro h
    cases h with
    | inl hadmin => exact ⟨user.username, user, by rw [getUser_insert, if_pos rfl], hadmin⟩
    | inr hother =>
      have ⟨other, stored, hne, hstored, hadmin⟩ := hother
      refine ⟨other, stored, ?_, hadmin⟩
      rw [getUser_insert, if_neg hne.symm]
      exact hstored

theorem hasAdmin_erase :
    HasAdmin { users := manager.users.erase username } ↔ manager.HasAdminBesides username := by
  constructor
  · intro ⟨other, stored, hstored, hadmin⟩
    rw [getUser_erase] at hstored
    split at hstored
    · cases hstored
    · rename_i hne
      exact ⟨other, stored, fun heq => hne heq.symm, hstored, hadmin⟩
  · intro ⟨other, stored, hne, hstored, hadmin⟩
    refine ⟨other, stored, ?_, hadmin⟩
    rw [getUser_erase, if_neg hne.symm]
    exact hstored

/-! ## What each operation needs -/

/-- The operation does not take the last enabled administrator away: one that demotes, disables or
deletes an account leaves another, or the guard of `delete_user` refuses it. -/
def Spares (manager : UserManager) : AccountOp → Prop
  | .updateUser user => user.Administers ∨ manager.HasAdminBesides user.username
  | .setUserEnabled username enabled => enabled = true ∨ manager.HasAdminBesides username
  | .deleteUser username | .deleteUserCommand username =>
    (∃ user, manager.getUser username = some user ∧ user.role = .admin ∧
      manager.countUsersByRole .admin ≤ 1) ∨ manager.HasAdminBesides username
  | .updateUserRoleCommand username role =>
    Role.ofRequest role = .admin ∨ manager.HasAdminBesides username
  | _ => True

/-- Writing an account back with another role, state, password or login. -/
theorem hasAdmin_update (hkeyed : manager.Keyed)
    (huser : manager.getUser username = some user) (written : User)
    (hname : written.username = user.username) :
    ∃ manager', manager.updateUser written = .ok manager' ∧
      (manager'.HasAdmin ↔ written.Administers ∨ manager.HasAdminBesides username) := by
  have hkey := hname.trans (hkeyed _ _ huser)
  refine ⟨_, updateUser_of_isSome (by rw [hkey, huser]; rfl), ?_⟩
  rw [hasAdmin_insert, hkey]

theorem createUser_spares (hadmin : manager.HasAdmin) (h : manager.createUser user = .ok manager') :
    manager'.HasAdmin := by
  have ⟨hnew, heq⟩ := createUser_eq_ok h
  rw [heq, hasAdmin_insert]
  exact Or.inr (hadmin.besides_of_none hnew)

theorem deleteUser_spares (hadmin : manager.HasAdmin) :
    (manager.attempt (manager.deleteUser username)).HasAdmin ↔
      (∃ user, manager.getUser username = some user ∧ user.role = .admin ∧
        manager.countUsersByRole .admin ≤ 1) ∨ manager.HasAdminBesides username := by
  rw [deleteUser]
  cases huser : manager.getUser username with
  | none =>
    exact iff_of_true hadmin (Or.inr (hadmin.besides_of_none huser))
  | some user =>
    simp only
    by_cases hguard : user.role = .admin ∧ manager.countUsersByRole .admin ≤ 1
    · rw [if_pos hguard]
      exact iff_of_true hadmin (Or.inl ⟨user, rfl, hguard⟩)
    · rw [if_neg hguard]
      show HasAdmin { users := manager.users.erase username } ↔ _
      rw [hasAdmin_erase]
      constructor
      · exact Or.inr
      · intro h
        cases h with
        | inl hrefused =>
          rcases hrefused with ⟨stored, hstored, hrefuses⟩
          cases hstored
          exact absurd hrefuses hguard
        | inr hother => exact hother

theorem setUserEnabled_spares (hkeyed : manager.Keyed) (hadmin : manager.HasAdmin)
    (enabled : Bool) :
    (manager.attempt (manager.setUserEnabled username enabled)).HasAdmin ↔
      enabled = true ∨ manager.HasAdminBesides username := by
  rw [setUserEnabled]
  cases huser : manager.getUser username with
  | none =>
    exact iff_of_true hadmin (Or.inr (hadmin.besides_of_none huser))
  | some user =>
    obtain ⟨next, hnext, hiff⟩ := hasAdmin_update hkeyed huser { user with enabled := enabled } rfl
    simp only [hnext]
    show next.HasAdmin ↔ _
    rw [hiff]
    constructor
    · intro h
      exact h.imp_left And.right
    · intro h
      cases h with
      | inr hother => exact Or.inr hother
      | inl henabled =>
        by_cases hrole : user.role = .admin
        · exact Or.inl ⟨hrole, henabled⟩
        · apply Or.inr (hadmin.besides fun stored hstored hadministers => ?_)
          rw [huser] at hstored
          cases hstored
          exact hrole hadministers.1

theorem updateUserRole_spares (hkeyed : manager.Keyed) (hadmin : manager.HasAdmin)
    (role : String) :
    (manager.attempt (manager.updateUserRole username role)).HasAdmin ↔
      Role.ofRequest role = .admin ∨ manager.HasAdminBesides username := by
  rw [updateUserRole]
  cases huser : manager.getUser username with
  | none => exact iff_of_true hadmin (Or.inr (hadmin.besides_of_none huser))
  | some user =>
    obtain ⟨next, hnext, hiff⟩ :=
      hasAdmin_update hkeyed huser { user with role := Role.ofRequest role } rfl
    simp only [hnext]
    show next.HasAdmin ↔ _
    rw [hiff]
    constructor
    · intro h
      exact h.imp_left And.left
    · intro h
      cases h with
      | inr hother => exact Or.inr hother
      | inl hrole =>
        by_cases henabled : user.enabled = true
        · exact Or.inl ⟨hrole, henabled⟩
        · apply Or.inr (hadmin.besides fun stored hstored hadministers => ?_)
          rw [huser] at hstored
          cases hstored
          exact henabled hadministers.2

theorem updateUser_spares (hadmin : manager.HasAdmin) (user : User) :
    (manager.attempt (manager.updateUser user)).HasAdmin ↔
      user.Administers ∨ manager.HasAdminBesides user.username := by
  cases hupdate : manager.updateUser user with
  | ok next =>
    show next.HasAdmin ↔ _
    rw [(updateUser_eq_ok hupdate).2, hasAdmin_insert]
  | error error =>
    refine iff_of_true hadmin (Or.inr (hadmin.besides fun stored hstored => ?_))
    rw [updateUser_of_isSome (by rw [hstored]; rfl)] at hupdate
    cases hupdate

/-- A write that changes neither the role nor the state of an account. -/
theorem hasAdmin_of_same (hkeyed : manager.Keyed) (hadmin : manager.HasAdmin)
    (huser : manager.getUser username = some user) (written : User)
    (hname : written.username = user.username) (hsame : written.Administers ↔ user.Administers)
    (hupdate : manager.updateUser written = .ok manager') : manager'.HasAdmin := by
  have ⟨next, hnext, hiff⟩ := hasAdmin_update hkeyed huser written hname
  rw [hnext] at hupdate
  cases hupdate
  rw [hiff, hsame]
  by_cases hadministers : user.Administers
  · exact Or.inl hadministers
  · apply Or.inr (hadmin.besides fun stored hstored => ?_)
    rw [huser] at hstored
    cases hstored
    exact hadministers

theorem attempt_of_ok {P : UserManager → Prop} {result : Except String UserManager}
    (hmanager : P manager) (hok : ∀ {next}, result = .ok next → P next) :
    P (manager.attempt result) := by
  cases result with
  | error error => exact hmanager
  | ok next => exact hok rfl

/-- An operation leaves an enabled administrator exactly when it spares the last one. -/
theorem hasAdmin_apply (hkeyed : manager.Keyed) (hadmin : manager.HasAdmin) (op : AccountOp) :
    (manager.apply bcrypt op).HasAdmin ↔ manager.Spares op := by
  cases op with
  | createUser user =>
    exact iff_of_true (attempt_of_ok hadmin fun h => createUser_spares hadmin h) trivial
  | updateUser user => exact updateUser_spares hadmin user
  | setUserEnabled username enabled => exact setUserEnabled_spares hkeyed hadmin enabled
  | deleteUser username => exact deleteUser_spares hadmin
  | deleteUserCommand username => exact deleteUser_spares hadmin
  | changePassword salt username newPassword =>
    refine iff_of_true (attempt_of_ok hadmin fun h => ?_) trivial
    have ⟨stored, hash, hstored, hupdate⟩ := changePassword_eq_ok h
    exact hasAdmin_of_same hkeyed hadmin hstored { stored with passwordHash := hash } rfl Iff.rfl
      hupdate
  | verifyPassword now username password =>
    refine iff_of_true (attempt_of_ok hadmin fun h => ?_) trivial
    cases hverify : manager.verifyPassword bcrypt now username password with
    | error error =>
      rw [hverify] at h
      cases h
    | ok result =>
      rw [hverify] at h
      cases h
      have ⟨stored, hstored, _, _, huser, hupdate⟩ := verifyPassword_eq_ok hverify
      exact hasAdmin_of_same hkeyed hadmin hstored _ (by rw [huser])
        (by rw [huser]; exact Iff.rfl) hupdate
  | createUserCommand now salt username password role =>
    refine iff_of_true (attempt_of_ok hadmin fun h => ?_) trivial
    cases hhash : bcrypt.hash salt password with
    | error error =>
      rw [hhash] at h
      cases h
    | ok hash =>
      rw [hhash] at h
      exact createUser_spares hadmin h
  | updateUserRoleCommand username role => exact updateUserRole_spares hkeyed hadmin role

theorem keyed_apply (hkeyed : manager.Keyed) (op : AccountOp) :
    (manager.apply bcrypt op).Keyed := by
  have hupdate {user : User} {next : UserManager} (h : manager.updateUser user = .ok next) :
      next.Keyed := by
    rw [(updateUser_eq_ok h).2]
    exact hkeyed.insert user
  have hcreate {user : User} {next : UserManager} (h : manager.createUser user = .ok next) :
      next.Keyed := by
    rw [(createUser_eq_ok h).2]
    exact hkeyed.insert user
  have hdelete {username : String} {next : UserManager}
      (h : manager.deleteUser username = .ok next) : next.Keyed := by
    rw [deleteUser_eq_ok h]
    exact hkeyed.erase username
  cases op with
  | createUser user => exact attempt_of_ok hkeyed hcreate
  | updateUser user => exact attempt_of_ok hkeyed hupdate
  | setUserEnabled username enabled =>
    refine attempt_of_ok hkeyed fun h => ?_
    have ⟨_, _, hnext⟩ := setUserEnabled_eq_ok h
    exact hupdate hnext
  | deleteUser username => exact attempt_of_ok hkeyed hdelete
  | deleteUserCommand username => exact attempt_of_ok hkeyed hdelete
  | changePassword salt username newPassword =>
    refine attempt_of_ok hkeyed fun h => ?_
    have ⟨_, _, _, hnext⟩ := changePassword_eq_ok h
    exact hupdate hnext
  | verifyPassword now username password =>
    refine attempt_of_ok hkeyed fun h => ?_
    cases hverify : manager.verifyPassword bcrypt now username password with
    | error error =>
      rw [hverify] at h
      cases h
    | ok result =>
      rw [hverify] at h
      cases h
      have ⟨_, _, _, _, _, hnext⟩ := verifyPassword_eq_ok hverify
      exact hupdate hnext
  | createUserCommand now salt username password role =>
    refine attempt_of_ok hkeyed fun h => ?_
    cases hhash : bcrypt.hash salt password with
    | error error =>
      rw [hhash] at h
      cases h
    | ok hash =>
      rw [hhash] at h
      exact hcreate h
  | updateUserRoleCommand username role =>
    refine attempt_of_ok hkeyed fun h => ?_
    have ⟨_, _, hnext⟩ := updateUserRole_eq_ok h
    exact hupdate hnext

/-! ## Runs -/

/-- The first start makes an enabled administrator. -/
theorem createDefaultAdmin_hasAdmin {now : DateTime} {salt : Bytes}
    (h : new.createDefaultAdmin bcrypt now salt = .ok manager) :
    manager.Keyed ∧ manager.HasAdmin := by
  rw [createDefaultAdmin, if_pos (by decide)] at h
  split at h
  · cases h
  · rename_i hash _
    rw [(createUser_eq_ok h).2]
    refine ⟨keyed_new.insert _, ?_⟩
    rw [hasAdmin_insert]
    exact Or.inl ⟨rfl, rfl⟩

/-- After the first start there is an enabled administrator in every state of a run exactly when
every operation of it spares the last one. -/
theorem always_hasAdmin_iff {now : DateTime} {salt : Bytes} {ops : List AccountOp}
    (h : new.createDefaultAdmin bcrypt now salt = .ok manager) :
    (∀ n, ((ops.take n).foldl (apply bcrypt) manager).HasAdmin) ↔
      MeetsAlong (apply bcrypt) Spares manager ops :=
  have ⟨hkeyed, hadmin⟩ := createDefaultAdmin_hasAdmin h
  forall_take_iff_meetsAlong HasAdmin Keyed (fun op hkeyed => keyed_apply hkeyed op)
    (fun hkeyed hadmin => hasAdmin_apply hkeyed hadmin _) hkeyed hadmin

/-! ## The other mutators -/

/-- A stand-in for bcrypt that accepts exactly the password of a hash. -/
def plainPasswords : Bcrypt where
  hash _ password := .ok ("$2b$12$" ++ password)
  verify password hash := .ok (hash = "$2b$12$" ++ password)

def firstStart : UserManager :=
  new.attempt (new.createDefaultAdmin plainPasswords 0 [])

theorem firstStart_eq : new.createDefaultAdmin plainPasswords 0 [] = .ok firstStart := rfl

/-- A second administrator, who demotes the first, and whom the guard then protects. -/
theorem always_hasAdmin_iff_handover :
    (∀ n, (([.createUserCommand 0 [] "root" "pw" "admin", .updateUserRoleCommand "admin" "",
        .deleteUser "root"].take n).foldl (apply plainPasswords) firstStart).HasAdmin) ↔
      MeetsAlong (apply plainPasswords) Spares firstStart
        [.createUserCommand 0 [] "root" "pw" "admin", .updateUserRoleCommand "admin" "",
          .deleteUser "root"] :=
  always_hasAdmin_iff firstStart_eq

/-- Disabling the only administrator, or giving it a role that is misspelt, leaves none. -/
theorem no_admin_left :
    ¬((apply plainPasswords firstStart (.setUserEnabled "admin" false)).HasAdmin) ∧
      ¬((apply plainPasswords firstStart (.updateUserRoleCommand "admin" "Admin")).HasAdmin) := by
  have ⟨hkeyed, hadmin⟩ := createDefaultAdmin_hasAdmin firstStart_eq
  have halone : ¬firstStart.HasAdminBesides "admin" := by
    intro ⟨other, user, hne, huser, _⟩
    have hinsert : firstStart.getUser other = (Std.ExtTreeMap.insert ∅ "admin" _)[other]? := rfl
    rw [hinsert, lookup_insert, if_neg hne.symm, Std.ExtTreeMap.getElem?_empty] at huser
    cases huser
  rw [hasAdmin_apply hkeyed hadmin, hasAdmin_apply hkeyed hadmin, Spares, Spares]
  exact ⟨fun h => h.elim (by decide) halone, fun h => h.elim (by decide) halone⟩

end UserManager

end VedDb
