import EdgeOperator.Blueprint
import EdgeOperator.Owner

set_option autoImplicit false

/-! # Access of the stack to the API

The controller and the admission jobs each run under an account of their own. An account has a role
in the scope and a cluster role, each of the account's own name, and a binding ties it to each of
the two. -/

namespace EdgeOperator

namespace Stack

/-! ## Accounts -/

/-- An account of the stack. -/
inductive Account where
  /-- The account of the controller. -/
  | controller
  /-- The account of the jobs that set up the admission webhook. -/
  | admission
deriving DecidableEq, Repr

/-- The name of an account, and of the roles it has. -/
def Account.name : Account → String
  | .controller => Names.ingressNginx
  | .admission => Names.admission

/-- The labels of the objects that belong to an account. -/
def Account.labels : Account → StringMap String
  | .controller => Labels.ingress Labels.controllerComponent
  | .admission => Labels.ingress Labels.admissionComponent

/-- The object of an account. -/
def serviceAccount (owner : Owner) (account : Account) : Blueprint .serviceAccount where
  metadata := owner.objectMeta account.name (some (Names.scope owner.name)) account.labels
  plan := true

/-! ## Rules -/

/-- The name of the lock by which the copies of a controller choose their leader. -/
def leaderLock : String := "ingress-nginx-leader"

/-- The verbs that allow to read and to follow. -/
def readVerbs : List String := ["get", "list", "watch"]

/-- What an account may do within the scope. -/
def roleRules : Account → List PolicyRule
  | .controller => [
    ⟨"", ["namespaces"], ["get"], none⟩,
    ⟨"", ["configmaps", "pods", "secrets", "endpoints"], readVerbs, none⟩,
    ⟨"", ["services"], readVerbs, none⟩,
    ⟨"networking.k8s.io", ["ingresses"], readVerbs, none⟩,
    ⟨"networking.k8s.io", ["ingresses/status"], ["update"], none⟩,
    ⟨"networking.k8s.io", ["ingressclasses"], readVerbs, none⟩,
    ⟨"coordination.k8s.io", ["leases"], ["get", "update"], some [leaderLock]⟩,
    ⟨"coordination.k8s.io", ["leases"], ["create"], none⟩,
    ⟨"", ["events"], ["create", "patch"], none⟩,
    ⟨"discovery.k8s.io", ["endpointslices"], ["list", "watch", "get"], none⟩]
  | .admission => [⟨"", ["secrets"], ["get", "create"], none⟩]

/-- What an account may do in the whole cluster. -/
def clusterRoleRules : Account → List PolicyRule
  | .controller => [
    ⟨"", ["configmaps", "endpoints", "nodes", "pods", "secrets", "namespaces"],
      ["list", "watch"], none⟩,
    ⟨"coordination.k8s.io", ["leases"], ["list", "watch"], none⟩,
    ⟨"", ["nodes"], ["get"], none⟩,
    ⟨"", ["services"], readVerbs, none⟩,
    ⟨"networking.k8s.io", ["ingresses"], readVerbs, none⟩,
    ⟨"", ["events"], ["create", "patch"], none⟩,
    ⟨"networking.k8s.io", ["ingresses/status"], ["update"], none⟩,
    ⟨"networking.k8s.io", ["ingressclasses"], readVerbs, none⟩,
    ⟨"discovery.k8s.io", ["endpointslices"], ["list", "watch", "get"], none⟩]
  | .admission => [
    ⟨"admissionregistration.k8s.io", ["validatingwebhookconfigurations"], ["get", "update"],
      none⟩]

/-! ## Roles and bindings -/

/-- The role of an account within the scope. -/
def role (owner : Owner) (account : Account) : Blueprint .role where
  metadata := owner.objectMeta account.name (some (Names.scope owner.name)) account.labels
  plan := roleRules account

/-- The role of an account in the whole cluster; all installations share it. -/
def clusterRole (owner : Owner) (account : Account) : Blueprint .clusterRole where
  metadata := owner.objectMeta account.name none account.labels
  plan := clusterRoleRules account

/-- The binding of an account to the role or cluster role of its name. -/
def binding (owner : Owner) (account : Account) (kind : PlainKind) : Binding where
  roleGroup := kind.group
  roleKind := kind.name
  roleName := account.name
  accountName := account.name
  accountNamespace := Names.scope owner.name

/-- The binding of an account to its role. -/
def roleBinding (owner : Owner) (account : Account) : Blueprint .roleBinding where
  metadata := owner.objectMeta account.name (some (Names.scope owner.name)) account.labels
  plan := binding owner account .role

/-- The name of the binding of an account to its cluster role. -/
def clusterRoleBindingName (owner : Owner) : Account → String
  | .controller => Names.clusterRoleBinding (Names.scope owner.name)
  | .admission => Names.admissionClusterRoleBinding (Names.scope owner.name)

/-- The binding of an account to its cluster role. -/
def clusterRoleBinding (owner : Owner) (account : Account) : Blueprint .clusterRoleBinding where
  metadata := owner.objectMeta (clusterRoleBindingName owner account) none account.labels
  plan := binding owner account .clusterRole

end Stack

end EdgeOperator
