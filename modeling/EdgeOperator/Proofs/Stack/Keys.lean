import EdgeOperator.Proofs.Installation
import EdgeOperator.Proofs.ObjectKey

set_option autoImplicit false

/-! # The objects of two stacks

The name of a component's object is made from the name of the anchor by what is put in front of it
and behind it, the two cluster roles aside, which every stack has in common. So two anchors of one
name have all objects in common, and anchors of different names none but one: what `admission-edge`
has as the cluster role binding of its controller is what `edge` has as that of its admission jobs
(`Component.same_object_iff`). The paths tell the same (`Component.eq_of_path`), whatever the
names. -/

namespace EdgeOperator

/-! ## Names -/

namespace Names

theorem scope_injective : Function.Injective scope :=
  fun _ _ h => (String.append_left_inj _).1 h

theorem clusterRoleBinding_injective : Function.Injective clusterRoleBinding :=
  fun _ _ h => (String.append_right_inj _).1 h

theorem admissionClusterRoleBinding_injective : Function.Injective admissionClusterRoleBinding :=
  fun _ _ h => (String.append_right_inj _).1 h

theorem ingressClass_injective : Function.Injective ingressClass :=
  fun _ _ h => (String.append_right_inj _).1 h

theorem admissionWebhook_injective : Function.Injective admissionWebhook :=
  fun _ _ h => (String.append_right_inj _).1 h

/-- The one name that is made in two ways. -/
theorem clusterRoleBinding_eq_iff {name other : String} :
    clusterRoleBinding (scope name) = admissionClusterRoleBinding (scope other) ↔
      name = "admission-" ++ other := by
  have hadmission : admissionClusterRoleBinding (scope other) =
      clusterRoleBinding (scope ("admission-" ++ other)) := by
    have hfront : admission ++ "-" = ingressNginx ++ "-" ++ "admission-" := rfl
    simp only [admissionClusterRoleBinding, clusterRoleBinding, scope, hfront, String.append_assoc]
  rw [hadmission, clusterRoleBinding_injective.eq_iff, scope_injective.eq_iff]

end Names

/-! ## Keys -/

namespace Component

variable {owner other : Owner}

/-- Whether all stacks have the component in common. -/
def isShared : Component → Bool
  | .clusterRole | .admissionClusterRole => true
  | _ => false

theorem name_eq_of_key {component : Component} (hshared : component.isShared = false)
    (h : component.key owner = component.key other) : owner.name = other.name := by
  apply Names.scope_injective
  cases hkind : component.kind.isClusterScoped with
  | false =>
    have hscope := congrArg ObjectKey.namespaceName? h
    rw [namespaceName?_key, namespaceName?_key, hkind] at hscope
    exact Option.some.inj hscope
  | true =>
    have hname := congrArg ObjectKey.name h
    cases component with
    | nameSpace => exact hname
    | clusterRoleBinding => exact Names.clusterRoleBinding_injective hname
    | admissionClusterRoleBinding => exact Names.admissionClusterRoleBinding_injective hname
    | ingressClass => exact Names.ingressClass_injective hname
    | admissionWebhook => exact Names.admissionWebhook_injective hname
    | clusterRole | admissionClusterRole => cases hshared
    | _ => exact absurd hkind (by decide)

theorem key_congr (component : Component) (h : owner.name = other.name) :
    component.key owner = component.key other := by
  simp only [key, h]

/-- Two components of one kind outside of namespaces are the two bindings or the two roles. -/
theorem bindings_of_kind_eq :
    ∀ a ∈ creationOrder, ∀ b ∈ creationOrder, a.isShared = false → a.kind = b.kind → a ≠ b →
      a.kind.isClusterScoped = true →
        a = .clusterRoleBinding ∧ b = .admissionClusterRoleBinding ∨
          b = .clusterRoleBinding ∧ a = .admissionClusterRoleBinding := by
  decide

/-- Whether the controller's binding of one owner is taken for the admission binding of another. -/
def IsTakenFor (a : Component) (owner : Owner) (b : Component) (other : Owner) : Prop :=
  a = .clusterRoleBinding ∧ b = .admissionClusterRoleBinding ∧
    owner.name = "admission-" ++ other.name

theorem IsTakenFor.same_object {a b : Component} (h : a.IsTakenFor owner b other) :
    a.kind = b.kind ∧ a.key owner = b.key other := by
  obtain ⟨rfl, rfl, hname⟩ := h
  exact ⟨rfl, congrArg ObjectKey.clusterWide (Names.clusterRoleBinding_eq_iff.2 hname)⟩

/-- Components of two owners are one object if they are the same component and the names are the
same, or if they are the two bindings and one name goes on behind the other. -/
theorem same_object_iff {a b : Component} (ha : a.isShared = false) :
    a.kind = b.kind ∧ a.key owner = b.key other ↔
      a = b ∧ owner.name = other.name ∨ a.IsTakenFor owner b other ∨
        b.IsTakenFor other a owner := by
  constructor
  · rintro ⟨hkind, hkey⟩
    by_cases hsame : a = b
    · subst hsame
      exact Or.inl ⟨rfl, name_eq_of_key ha hkey⟩
    · right
      have hnames : owner.name ≠ other.name := fun heq =>
        key_ne_of_kind_eq owner hkind hsame (hkey.trans (b.key_congr heq).symm)
      cases hscoped : a.kind.isClusterScoped with
      | false =>
        have hscope := congrArg ObjectKey.namespaceName? hkey
        rw [namespaceName?_key, namespaceName?_key, ← hkind, hscoped] at hscope
        exact absurd (Names.scope_injective (Option.some.inj hscope)) hnames
      | true =>
        have hname := congrArg ObjectKey.name hkey
        rcases bindings_of_kind_eq a a.mem_creationOrder b b.mem_creationOrder ha hkind hsame
          hscoped with ⟨rfl, rfl⟩ | ⟨rfl, rfl⟩
        · exact Or.inl ⟨rfl, rfl, Names.clusterRoleBinding_eq_iff.1 hname⟩
        · exact Or.inr ⟨rfl, rfl, Names.clusterRoleBinding_eq_iff.1 hname.symm⟩
  · rintro (⟨rfl, hname⟩ | htaken | htaken)
    · exact ⟨rfl, a.key_congr hname⟩
    · exact htaken.same_object
    · exact htaken.same_object.imp Eq.symm Eq.symm

/-! ## What two stacks have in common -/

/-- A binding of one stack is taken for one of another if its name has `admission-` in front. -/
theorem exists_isTakenFor_iff :
    (∃ a b : Component, a.isShared = false ∧ b.isShared = false ∧
      (a.IsTakenFor owner b other ∨ b.IsTakenFor other a owner)) ↔
      owner.name = "admission-" ++ other.name ∨ other.name = "admission-" ++ owner.name := by
  constructor
  · rintro ⟨a, b, _, _, htaken | htaken⟩
    · exact Or.inl htaken.2.2
    · exact Or.inr htaken.2.2
  · rintro (hname | hname)
    · exact ⟨.clusterRoleBinding, .admissionClusterRoleBinding, rfl, rfl, Or.inl ⟨rfl, rfl, hname⟩⟩
    · exact ⟨.admissionClusterRoleBinding, .clusterRoleBinding, rfl, rfl, Or.inr ⟨rfl, rfl, hname⟩⟩

/-- **Stacks are apart.** Anchors of different names have no objects but the cluster roles in common,
unless one name is the other behind `admission-`; and if it is, then just one object, the binding
that is the controller's in one stack and that of the admission jobs in the other. Within a stack
all objects are different, so its teardown has no step twice. -/
theorem stacks_apart_iff {owner other : Owner} (h : owner.name ≠ other.name) :
    ((∀ a b : Component, a.isShared = false → b.isShared = false →
        (a.kind, a.key owner) ≠ (b.kind, b.key other)) ↔
      owner.name ≠ "admission-" ++ other.name ∧ other.name ≠ "admission-" ++ owner.name) ∧
    (∀ a b : Component, a.isShared = false → b.isShared = false →
      ((a.kind, a.key owner) = (b.kind, b.key other) ↔
        a.IsTakenFor owner b other ∨ b.IsTakenFor other a owner)) ∧
    (∀ a b : Component, (a.kind, a.key owner) = (b.kind, b.key owner) → a = b) ∧
    owner.anchorTeardown.Nodup := by
  have hsame : ∀ a b : Component, a.isShared = false →
      ((a.kind, a.key owner) = (b.kind, b.key other) ↔
        a.IsTakenFor owner b other ∨ b.IsTakenFor other a owner) := by
    intro a b ha
    rw [Prod.mk.injEq, same_object_iff ha, or_iff_right fun heq => h heq.2]
  refine ⟨?_, fun a b ha _ => hsame a b ha, fun a b heq => ?_, owner.nodup_anchorTeardown⟩
  · rw [← not_or, ← exists_isTakenFor_iff]
    constructor
    · rintro hapart ⟨a, b, ha, hb, htaken⟩
      exact hapart a b ha hb ((hsame a b ha).2 htaken)
    · intro hnone a b ha hb heq
      exact hnone ⟨a, b, ha, hb, (hsame a b ha).1 heq⟩
  · by_contra hne
    obtain ⟨hkind, hkey⟩ := Prod.mk.inj heq
    exact key_ne_of_kind_eq owner hkind hne hkey

/-- The anchor of a name, as an owner. -/
def ownerNamed (name : String) : Owner :=
  ⟨name, "team", ⟨Kind.anchor.apiVersion, none, some true, Kind.anchor.name, name, "uid-" ++ name⟩⟩

theorem edge_and_shop_apart :
    (ownerNamed "edge").name ≠ (ownerNamed "shop").name ∧
      ∀ a b : Component, a.isShared = false → b.isShared = false →
        (a.kind, a.key (ownerNamed "edge")) ≠ (b.kind, b.key (ownerNamed "shop")) := by
  have hne : (ownerNamed "edge").name ≠ (ownerNamed "shop").name := by decide
  exact ⟨hne, (stacks_apart_iff hne).1.2 (by decide)⟩

/-- The controller of `admission-edge` is bound by what binds the admission jobs of `edge`. -/
theorem admission_edge_shares_binding :
    (ownerNamed "admission-edge").name ≠ (ownerNamed "edge").name ∧
      '/' ∉ (ownerNamed "admission-edge").name.toList ∧ '/' ∉ (ownerNamed "edge").name.toList ∧
      isShared .clusterRoleBinding = false ∧ isShared .admissionClusterRoleBinding = false ∧
      (kind .clusterRoleBinding, key .clusterRoleBinding (ownerNamed "admission-edge")) =
        (kind .admissionClusterRoleBinding,
          key .admissionClusterRoleBinding (ownerNamed "edge")) := by
  decide

/-! ## Paths -/

/-- The name of a component in a namespace has no slash and does not end like that of a scope. -/
theorem name_of_inNamespace {component : Component} (owner : Owner)
    (h : component.kind.isClusterScoped = false) :
    '/' ∉ (component.key owner).name.toList ∧
      (component.key owner).name.toList.getLast? ≠ some 's' := by
  cases component with
  | nameSpace | clusterRole | admissionClusterRole | clusterRoleBinding
  | admissionClusterRoleBinding | ingressClass | admissionWebhook => exact absurd h (by decide)
  | _ =>
    simp [key, ObjectKey.inNamespace, Names.ingressNginx, Names.admission, Names.controller,
      Names.controllerAdmission, Names.admissionCreateJob, Names.admissionPatchJob]

theorem getLast?_append_scope (front name : String) :
    (front ++ Names.scope name).toList.getLast? = some 's' := by
  have hend : "-ns".toList = ['-', 'n', 's'] := rfl
  simp [Names.scope, String.toList_append, hend]

/-- The name of a component outside of namespaces has no slash or ends with the scope. -/
theorem name_of_clusterWide {component : Component} (owner : Owner)
    (h : component.kind.isClusterScoped = true) :
    '/' ∉ (component.key owner).name.toList ∨
      (component.key owner).name.toList.getLast? = some 's' := by
  cases component with
  | nameSpace =>
    have hlast := getLast?_append_scope "" owner.name
    rw [String.empty_append] at hlast
    exact Or.inr hlast
  | clusterRole | admissionClusterRole =>
    left
    simp [key, ObjectKey.clusterWide, Names.ingressNginx, Names.admission]
  | clusterRoleBinding | admissionClusterRoleBinding | ingressClass | admissionWebhook =>
    exact Or.inr (getLast?_append_scope _ owner.name)
  | _ => exact absurd h (by decide)

theorem key_of_clusterWide {component : Component} (owner : Owner)
    (h : component.kind.isClusterScoped = true) :
    component.key owner = .clusterWide (component.key owner).name := by
  have hscope := component.namespaceName?_key owner
  rw [if_pos h] at hscope
  rw [ObjectKey.clusterWide, ← hscope]

theorem key_of_inNamespace {component : Component} (owner : Owner)
    (h : component.kind.isClusterScoped = false) :
    component.key owner = .inNamespace (Names.scope owner.name) (component.key owner).name := by
  have hscope := component.namespaceName?_key owner
  rw [h, if_neg Bool.false_ne_true] at hscope
  rw [ObjectKey.inNamespace, ← hscope]

/-- No component outside of namespaces has the path of one in a namespace. -/
theorem path_ne_of_isClusterScoped {a b : Component} (ha : a.kind.isClusterScoped = true)
    (hb : b.kind.isClusterScoped = false) : a.path owner ≠ b.path other := by
  intro h
  rw [path, path, key_of_clusterWide owner ha, key_of_inNamespace other hb] at h
  have hname := ObjectKey.name_of_path_inNamespace h
  rcases a.name_of_clusterWide owner ha with hslash | hlast
  · exact absurd (hname ▸ by simp) hslash
  · -- the name would end with that of the other, which does not end like a scope
    have hother := (b.name_of_inNamespace other hb).2
    rw [hname, List.getLast?_append, List.getLast?_cons, Option.some_or, List.getLast?_append,
      List.getLast?_cons, Option.some_or, Option.getD_some] at hlast
    cases hend : (b.key other).name.toList.getLast? with
    | none =>
      rw [hend] at hlast
      exact absurd (Option.some.inj hlast) (by decide)
    | some last =>
      rw [hend] at hlast
      exact hother (hend.trans hlast)

/-- The path of a component tells its kind and its key, whoever the owner is. -/
theorem eq_of_path {a b : Component} (h : a.path owner = b.path other) :
    a.kind = b.kind ∧ a.key owner = b.key other := by
  cases ha : a.kind.isClusterScoped with
  | false =>
    cases hb : b.kind.isClusterScoped with
    | false =>
      unfold path at h
      rw [key_of_inNamespace owner ha, key_of_inNamespace other hb] at h ⊢
      obtain ⟨hkind, hscope, hname⟩ := ObjectKey.eq_of_inNamespace
        (name_of_inNamespace owner ha).1 (name_of_inNamespace other hb).1 h
      exact ⟨Kind.plain.inj hkind, by rw [hscope, hname]⟩
    | true => exact absurd h.symm (path_ne_of_isClusterScoped hb ha)
  | true =>
    cases hb : b.kind.isClusterScoped with
    | false => exact absurd h (path_ne_of_isClusterScoped ha hb)
    | true =>
      unfold path at h
      rw [key_of_clusterWide owner ha, key_of_clusterWide other hb] at h ⊢
      have hkind := ObjectKey.kind_eq_of_clusterWide h
      exact ⟨Kind.plain.inj hkind, ObjectKey.eq_of_path rfl (hkind ▸ h)⟩

end Component

end EdgeOperator
