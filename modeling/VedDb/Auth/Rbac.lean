import VedDb.Auth.User

/-!
# Role-based access control

`auth/rbac.rs`: which role may do what, and the access control lists of single resources.
-/

namespace VedDb

inductive Rbac.Operation where
  | read | write | delete
  | createCollection | dropCollection | listCollections
  | createIndex | dropIndex | listIndexes
  | createUser | updateUser | deleteUser | listUsers | changePassword
  | backup | restore | viewMetrics | viewLogs | configureServer
  | subscribe | publish
  | flushCache | viewCacheStats
  | configureReplication | viewReplicationStatus
deriving DecidableEq

inductive ResourceType where
  | collection | index | user | database | channel
deriving DecidableEq

structure Resource where
  resourceType : ResourceType
  resourceId : String
deriving DecidableEq

namespace Resource

def collection (name : String) : Resource := ⟨.collection, name⟩

def index (collection indexName : String) : Resource := ⟨.index, collection ++ ":" ++ indexName⟩

def user (username : String) : Resource := ⟨.user, username⟩

end Resource

/-- `Permission`.  The resource and the conditions of a permission are never looked at. -/
structure Permission where
  operation : Rbac.Operation
  resource : Option Resource
  conditions : List String
deriving DecidableEq

/-- `AclEntry`: the principal is the name of a user or of a role. -/
structure AclEntry where
  principal : String
  permissions : List Permission
  deny : Bool
deriving DecidableEq

inductive RbacError where
  /-- `Unknown role: {:?}` -/
  | unknownRole (role : Role)
  /-- `Role '{}' does not have permission for operation '{}'` -/
  | notPermitted (role : Role) (operation : Rbac.Operation)
  /-- `Access denied by ACL for user '{}' on resource '{:?}'` -/
  | denied (username : String) (resource : Resource)
  /-- `No explicit permission in ACL for user '{}' on resource '{:?}'` -/
  | notAllowed (username : String) (resource : Resource)
deriving DecidableEq

structure RbacSystem where
  rolePermissions : Role → Option (List Rbac.Operation)
  resourceAcls : Resource → Option (List AclEntry)

namespace RbacSystem

/-- The permissions of `initialize_default_permissions`. -/
def defaultPermissions : Role → List Rbac.Operation
  | .admin =>
    [.read, .write, .delete, .createCollection, .dropCollection, .listCollections, .createIndex,
      .dropIndex, .listIndexes, .createUser, .updateUser, .deleteUser, .listUsers,
      .changePassword, .backup, .restore, .viewMetrics, .viewLogs, .configureServer, .subscribe,
      .publish, .flushCache, .viewCacheStats, .configureReplication, .viewReplicationStatus]
  | .readWrite =>
    [.read, .write, .delete, .listCollections, .listIndexes, .changePassword, .subscribe,
      .publish, .viewCacheStats, .viewReplicationStatus]
  | .readOnly =>
    [.read, .listCollections, .listIndexes, .changePassword, .subscribe, .viewCacheStats,
      .viewReplicationStatus]

def new : RbacSystem :=
  { rolePermissions := fun role => some (defaultPermissions role)
    resourceAcls := fun _ => none }

def checkPermission (rbac : RbacSystem) (role : Role) (operation : Rbac.Operation) :
    Except RbacError Unit :=
  match rbac.rolePermissions role with
  | none => .error (.unknownRole role)
  | some permissions =>
    if operation ∈ permissions then .ok () else .error (.notPermitted role operation)

def matchingEntries (entries : List AclEntry) (username : String) (role : Role) : List AclEntry :=
  entries.filter fun entry => entry.principal = username ∨ entry.principal = role.asStr

def AclEntry.names (operation : Rbac.Operation) (entry : AclEntry) : Bool :=
  entry.permissions.any fun permission => permission.operation = operation

/-- `check_resource_permission`.  A refusal wins over any allowance, and without an allowance the
entries that match refuse too. -/
def checkResourcePermission (rbac : RbacSystem) (username : String) (role : Role)
    (operation : Rbac.Operation) (resource : Resource) : Except RbacError Unit :=
  match rbac.checkPermission role operation with
  | .error error => .error error
  | .ok () =>
    match rbac.resourceAcls resource with
    | none => .ok ()
    | some entries =>
      let matching := matchingEntries entries username role
      if matching.any fun entry => entry.deny && AclEntry.names operation entry then
        .error (.denied username resource)
      else if matching ≠ [] ∧
          ¬matching.any fun entry => !entry.deny && AclEntry.names operation entry then
        .error (.notAllowed username resource)
      else .ok ()

def addAclEntry (rbac : RbacSystem) (resource : Resource) (entry : AclEntry) : RbacSystem :=
  { rbac with
    resourceAcls :=
      Function.update rbac.resourceAcls resource
        (some ((rbac.resourceAcls resource).getD [] ++ [entry])) }

def authorize (rbac : RbacSystem) (username : String) (role : Role) (operation : Rbac.Operation)
    (resource : Option Resource) : Except RbacError Unit :=
  match resource with
  | some resource => rbac.checkResourcePermission username role operation resource
  | none => rbac.checkPermission role operation

/-! ## What is granted -/

variable {rbac : RbacSystem} {username : String} {role : Role} {operation : Rbac.Operation}
variable {resource : Option Resource}

/-- Whatever the lists say, nothing is granted beyond the permissions of the role. -/
theorem permitted_of_authorize (h : rbac.authorize username role operation resource = .ok ()) :
    ∃ permissions, rbac.rolePermissions role = some permissions ∧ operation ∈ permissions := by
  have hrole : rbac.checkPermission role operation = .ok () := by
    cases resource with
    | none => exact h
    | some resource =>
      rw [authorize, checkResourcePermission] at h
      split at h
      · cases h
      · rename_i hok
        exact hok
  rw [checkPermission] at hrole
  split at hrole
  · cases hrole
  · rename_i permissions hpermissions
    split at hrole
    · rename_i hmem
      exact ⟨permissions, hpermissions, hmem⟩
    · cases hrole

end RbacSystem

end VedDb
