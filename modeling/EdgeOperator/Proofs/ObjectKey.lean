import EdgeOperator.Proofs.Cluster.Versions
import Mathlib.Data.List.Basic

set_option autoImplicit false

/-! # Paths and lists

The list of a namespace is taken by the paths of the objects: it holds what is stored right under the
path of the namespace. Where the name of the namespace has no slash, these are the objects that say
of themselves that they live there (`namespaceName?_of_mem_listed`). Where no name and no namespace
has a slash, a path tells the kind and the key of its object (`ObjectKey.path_inj`). -/

namespace EdgeOperator

/-! ## Paths as lists of segments -/

/-- What stands before the first separator is determined. -/
theorem segment_inj {α : Type} {separator : α} {a b c d : List α} (ha : separator ∉ a)
    (hc : separator ∉ c) (h : a ++ separator :: b = c ++ separator :: d) : a = c ∧ b = d := by
  induction a generalizing c with
  | nil =>
    cases c with
    | nil => exact ⟨rfl, (List.cons.inj h).2⟩
    | cons x rest => exact absurd (List.mem_cons.2 (Or.inl (List.cons.inj h).1)) hc
  | cons x rest ih =>
    cases c with
    | nil => exact absurd (List.mem_cons.2 (Or.inl (List.cons.inj h).1.symm)) ha
    | cons y rest' =>
      obtain ⟨rfl, htail⟩ := List.cons.inj h
      obtain ⟨rfl, rfl⟩ := ih (fun hmem => ha (List.mem_cons_of_mem _ hmem))
        (fun hmem => hc (List.mem_cons_of_mem _ hmem)) htail
      exact ⟨rfl, rfl⟩

/-- The end of a path within a namespace, behind `namespaces/`. -/
theorem Kind.toList_path_some (kind : Kind) (scope : String) :
    (kind.path (some scope)).toList =
      kind.apiRoot.toList ++ "namespaces".toList ++ '/' :: (scope.toList ++ '/' ::
        kind.plural.toList) := by
  have hsplit : "namespaces/".toList = "namespaces".toList ++ ['/'] := rfl
  have hslash : "/".toList = ['/'] := rfl
  simp only [Kind.path, String.toList_append, hsplit, hslash, List.append_assoc, List.cons_append,
    List.nil_append]

theorem Kind.toList_path_none (kind : Kind) :
    (kind.path none).toList = kind.apiRoot.toList ++ kind.plural.toList := by
  simp only [Kind.path, String.toList_append]

theorem Kind.slash_notMem_plural (kind : Kind) : '/' ∉ kind.plural.toList := by
  cases kind with
  | plain kind => cases kind <;> decide
  | _ => decide

theorem Kind.plural_ne_namespaces {kind : Kind} (h : kind.isClusterScoped = false) :
    kind.plural.toList ≠ "namespaces".toList := by
  cases kind with
  | plain kind => revert h; cases kind <;> decide
  | _ => decide

theorem ObjectKey.toList_path (key : ObjectKey) (kind : Kind) :
    (key.path kind).toList = (kind.path key.namespaceName?).toList ++ '/' :: key.name.toList := by
  have hslash : "/".toList = ['/'] := rfl
  simp only [ObjectKey.path, String.toList_append, hslash, List.append_assoc, List.cons_append,
    List.nil_append]

/-- Objects of one kind in one place are told apart by their names. -/
theorem ObjectKey.eq_of_path {key other : ObjectKey} {kind : Kind}
    (hscope : key.namespaceName? = other.namespaceName?) (h : key.path kind = other.path kind) :
    key = other := by
  obtain ⟨name, scope?⟩ := key
  obtain ⟨name', scope'?⟩ := other
  obtain rfl : scope? = scope'? := hscope
  have hlists := congrArg String.toList h
  rw [ObjectKey.toList_path, ObjectKey.toList_path, List.append_cancel_left_eq] at hlists
  obtain rfl : name = name' := String.toList_inj.1 (List.cons.inj hlists).2
  rfl

theorem Kind.mem_all (kind : Kind) : kind ∈ Kind.all := by
  cases kind with
  | plain kind => cases kind <;> decide
  | _ => decide

/-- No root of a group begins with that of another. -/
theorem Kind.group_eq_of_apiRoot :
    ∀ a ∈ Kind.all, ∀ b ∈ Kind.all, a.apiRoot.toList <+: b.apiRoot.toList → a.group = b.group := by
  decide +kernel

theorem ObjectKey.apiRoot_prefix (key : ObjectKey) (kind : Kind) :
    kind.apiRoot.toList <+: (key.path kind).toList := by
  rw [ObjectKey.toList_path]
  cases key.namespaceName? with
  | none =>
    rw [Kind.toList_path_none, List.append_assoc]
    exact List.prefix_append ..
  | some scope =>
    rw [Kind.toList_path_some, List.append_assoc, List.append_assoc]
    exact List.prefix_append ..

/-- Objects of different groups have different paths. -/
theorem ObjectKey.group_eq_of_path {key other : ObjectKey} {kind kind' : Kind}
    (h : key.path kind = other.path kind') : kind.group = kind'.group := by
  have hkey := key.apiRoot_prefix kind
  have hother := other.apiRoot_prefix kind'
  rw [← h] at hother
  rcases List.prefix_or_prefix_of_prefix hkey hother with hroot | hroot
  · exact Kind.group_eq_of_apiRoot kind kind.mem_all kind' kind'.mem_all hroot
  · exact (Kind.group_eq_of_apiRoot kind' kind'.mem_all kind kind.mem_all hroot).symm

theorem Kind.eq_of_plural :
    ∀ a ∈ Kind.all, ∀ b ∈ Kind.all, a.plural.toList = b.plural.toList → a = b := by
  decide +kernel

/-- Whether a key has no slash in it. -/
structure ObjectKey.IsSlashless (key : ObjectKey) : Prop where
  name : '/' ∉ key.name.toList
  scope : ∀ scope, key.namespaceName? = some scope → '/' ∉ scope.toList

theorem ObjectKey.apiRoot_eq_of_path {key other : ObjectKey} {kind kind' : Kind}
    (h : key.path kind = other.path kind') : kind.apiRoot = kind'.apiRoot := by
  simp only [Kind.apiRoot, Kind.apiVersion, ObjectKey.group_eq_of_path h]

/-- Outside of namespaces a path tells the kind of its object. -/
theorem ObjectKey.kind_eq_of_clusterWide {name name' : String} {kind kind' : Kind}
    (h : (clusterWide name).path kind = (clusterWide name').path kind') : kind = kind' := by
  have hroot := ObjectKey.apiRoot_eq_of_path h
  have hlists := congrArg String.toList h
  rw [ObjectKey.toList_path, ObjectKey.toList_path, clusterWide, clusterWide,
    Kind.toList_path_none, Kind.toList_path_none, hroot, List.append_assoc, List.append_assoc,
    List.append_cancel_left_eq] at hlists
  have hplural := (segment_inj kind.slash_notMem_plural kind'.slash_notMem_plural hlists).1
  exact Kind.eq_of_plural kind kind.mem_all kind' kind'.mem_all hplural

/-- In a namespace the path of an object whose name has no slash tells its kind and its key. -/
theorem ObjectKey.eq_of_inNamespace {scope scope' name name' : String} {kind kind' : Kind}
    (hname : '/' ∉ name.toList) (hname' : '/' ∉ name'.toList)
    (h : (inNamespace scope name).path kind = (inNamespace scope' name').path kind') :
    kind = kind' ∧ scope = scope' ∧ name = name' := by
  have hroot := ObjectKey.apiRoot_eq_of_path h
  have hlists := congrArg String.toList h
  rw [ObjectKey.toList_path, ObjectKey.toList_path, inNamespace, inNamespace,
    Kind.toList_path_some, Kind.toList_path_some, hroot] at hlists
  -- the names and the plurals are what stands behind the last two slashes
  have hreverse := congrArg List.reverse hlists
  simp only [List.reverse_append, List.reverse_cons, List.append_assoc, List.cons_append,
    List.nil_append] at hreverse
  have hends := segment_inj (by simpa using hname) (by simpa using hname') hreverse
  have hplural := segment_inj (by simpa using kind.slash_notMem_plural)
    (by simpa using kind'.slash_notMem_plural) hends.2
  obtain rfl := Kind.eq_of_plural kind kind.mem_all kind' kind'.mem_all
    (List.reverse_inj.1 hplural.1)
  refine ⟨rfl, ?_, String.toList_inj.1 (List.reverse_inj.1 hends.1)⟩
  exact String.toList_inj.1 (List.reverse_inj.1 (List.append_cancel_right hplural.2))

/-- An object outside of namespaces has the path of one in a namespace only if its name goes on
through the rest of that path. -/
theorem ObjectKey.name_of_path_inNamespace {name scope name' : String} {kind kind' : Kind}
    (h : (clusterWide name).path kind = (inNamespace scope name').path kind') :
    name.toList = scope.toList ++ '/' :: (kind'.plural.toList ++ '/' :: name'.toList) := by
  have hroot := ObjectKey.apiRoot_eq_of_path h
  have hlists := congrArg String.toList h
  rw [ObjectKey.toList_path, ObjectKey.toList_path, clusterWide, inNamespace,
    Kind.toList_path_none, Kind.toList_path_some, hroot, List.append_assoc, List.append_assoc,
    List.append_assoc, List.append_cancel_left_eq] at hlists
  have hname := (segment_inj kind.slash_notMem_plural (by decide) hlists).2
  simpa using hname

/-- Where keys have no slashes, a path tells the kind of its object. -/
theorem ObjectKey.kind_eq_of_path {key other : ObjectKey} {kind kind' : Kind}
    (hkey : key.IsSlashless) (hother : other.IsSlashless) (h : key.path kind = other.path kind') :
    kind = kind' := by
  obtain ⟨name, scope?⟩ := key
  obtain ⟨name', scope'?⟩ := other
  cases scope? with
  | none =>
    cases scope'? with
    | none => exact kind_eq_of_clusterWide h
    | some scope' =>
      have hname := name_of_path_inNamespace h
      exact absurd (hname ▸ by simp) hkey.name
  | some scope =>
    cases scope'? with
    | none =>
      have hname := name_of_path_inNamespace h.symm
      exact absurd (hname ▸ by simp) hother.name
    | some scope' => exact (eq_of_inNamespace hkey.name hother.name h).1

/-- Where keys have no slashes, a path tells the kind and the key of its object. -/
theorem ObjectKey.path_inj {key other : ObjectKey} {kind kind' : Kind} (hkey : key.IsSlashless)
    (hother : other.IsSlashless) (h : key.path kind = other.path kind') :
    kind = kind' ∧ key = other := by
  obtain rfl := kind_eq_of_path hkey hother h
  refine ⟨rfl, ?_⟩
  obtain ⟨name, scope?⟩ := key
  obtain ⟨name', scope'?⟩ := other
  cases scope? with
  | none =>
    cases scope'? with
    | none => exact eq_of_path rfl h
    | some scope' => exact absurd (name_of_path_inNamespace h ▸ by simp) hkey.name
  | some scope =>
    cases scope'? with
    | none => exact absurd (name_of_path_inNamespace h.symm ▸ by simp) hother.name
    | some scope' =>
      obtain ⟨_, rfl, rfl⟩ := eq_of_inNamespace hkey.name hother.name h
      rfl

/-- What stands right under a namespace has a key in that namespace. -/
theorem ObjectKey.namespaceName?_of_path (key : ObjectKey) {kind : Kind} {scope : String}
    {name : List Char} (hkind : kind.isClusterScoped = false) (hscope : '/' ∉ scope.toList)
    (hname : '/' ∉ name)
    (h : (key.path kind).toList = (listPrefix kind (some scope)).toList ++ name) :
    key.namespaceName? = some scope := by
  have hlist : (listPrefix kind (some scope)).toList ++ name =
      kind.apiRoot.toList ++ ("namespaces".toList ++ '/' :: (scope.toList ++ '/' ::
        (kind.plural.toList ++ '/' :: name))) := by
    have hslash : "/".toList = ['/'] := rfl
    simp only [listPrefix, String.toList_append, Kind.toList_path_some, hslash, List.append_assoc,
      List.cons_append, List.nil_append]
  rw [ObjectKey.toList_path, hlist] at h
  cases hspace : key.namespaceName? with
  | none =>
    rw [hspace, Kind.toList_path_none, List.append_assoc, List.append_cancel_left_eq] at h
    have hplural := segment_inj kind.slash_notMem_plural (by decide) h
    exact absurd hplural.1 (Kind.plural_ne_namespaces hkind)
  | some other =>
    rw [hspace, Kind.toList_path_some, List.append_assoc, List.append_assoc,
      List.append_cancel_left_eq, List.append_cancel_left_eq, List.cons_append,
      List.cons_eq_cons, List.append_assoc, List.cons_append] at h
    obtain ⟨_, h⟩ := h
    -- on the right there are only two slashes, so the other namespace has none
    have hcount := congrArg (List.count '/') h
    simp only [List.count_append, List.count_cons_self,
      List.count_eq_zero_of_not_mem kind.slash_notMem_plural,
      List.count_eq_zero_of_not_mem hscope, List.count_eq_zero_of_not_mem hname] at hcount
    have hother : '/' ∉ other.toList := List.count_eq_zero.1 (by omega)
    rw [String.toList_inj.1 (segment_inj hother hscope h).1]

theorem Kind.eq_of_path_some {kind : Kind} {scope other : String}
    (h : kind.path (some scope) = kind.path (some other)) : scope = other := by
  have hlists := congrArg String.toList h
  rw [Kind.toList_path_some, Kind.toList_path_some, List.append_cancel_left_eq] at hlists
  exact String.toList_inj.1 (List.append_cancel_right (List.cons.inj hlists).2)

/-- What has a name without a slash stands right under no other namespace than its own. -/
theorem ObjectKey.eq_of_path_listed (key : ObjectKey) {kind : Kind} {scope other : String}
    {name : List Char} (hkey : '/' ∉ key.name.toList) (hspace : key.namespaceName? = some scope)
    (hname : '/' ∉ name)
    (h : (key.path kind).toList = (listPrefix kind (some other)).toList ++ name) :
    scope = other := by
  have hslash : "/".toList = ['/'] := rfl
  rw [ObjectKey.toList_path, hspace, listPrefix, String.toList_append, hslash, List.append_assoc,
    List.singleton_append] at h
  -- the names are what stands behind the last slash
  have hlast := congrArg List.reverse h
  simp only [List.reverse_append, List.reverse_cons, List.append_assoc, List.singleton_append]
    at hlast
  have hpaths := (segment_inj (by simpa using hkey) (by simpa using hname) hlast).2
  exact Kind.eq_of_path_some (String.toList_inj.1 (List.reverse_inj.1 hpaths))

/-! ## Lists -/

namespace Cluster

variable {kind : Kind}

/-- A list holds what is stored under its prefix without another slash. -/
theorem mem_listed {cluster : Cluster} (h : cluster.Sound) {namespaceName? : Option String}
    {object : Resource kind} (hmem : object ∈ cluster.listed kind namespaceName?) :
    cluster.find? kind object.path = some object ∧
      ∃ name : List Char, '/' ∉ name ∧
        object.path.toList = (listPrefix kind namespaceName?).toList ++ name := by
  obtain ⟨⟨path, stored⟩, hstored, hlisted⟩ := List.mem_filterMap.1 hmem
  dsimp only at hlisted
  split at hlisted
  · next name hlist =>
    split at hlisted
    · simp at hlisted
    · next hslash =>
      have hget := (StringMap.mem_iff_get? h.sorted).1 hstored
      have hkept := h.kept hget
      obtain rfl := AnyResource.ofKind?_eq_some.1 hlisted
      obtain rfl : object.path = path := hkept.path_eq
      refine ⟨find?_eq_some.2 hget, name, by simpa using hslash, ?_⟩
      exact (List.append_eq_of_isPrefixOf?_eq_some hlist).symm
  · simp at hlisted

/-- What a list of a namespace holds lives in the namespace. -/
theorem namespaceName?_of_mem_listed {cluster : Cluster} (h : cluster.Sound) {scope : String}
    (hscope : '/' ∉ scope.toList) (hkind : kind.isClusterScoped = false) {object : Resource kind}
    (hmem : object ∈ cluster.listed kind (some scope)) :
    object.metadata.namespaceName? = some scope := by
  obtain ⟨_, name, hname, hpath⟩ := mem_listed h hmem
  exact ObjectKey.namespaceName?_of_path object.key hkind hscope hname hpath

end Cluster

end EdgeOperator
