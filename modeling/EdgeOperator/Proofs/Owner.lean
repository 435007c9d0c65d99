import EdgeOperator.Owner
import EdgeOperator.Route.Anchor

set_option autoImplicit false

/-! # Owners and anchors

An owner is read off the name, the namespace and the identity of an object
(`ofResource_eq_ok`), and controls whatever refers to that identity as its controller. -/

namespace EdgeOperator

namespace Owner

variable {kind : Kind}

theorem ofResource_eq_ok {r : Resource kind} {owner : Owner} :
    ofResource r = .ok owner ↔
      ∃ name scope uid, r.metadata.name? = some name ∧ r.metadata.namespaceName? = some scope ∧
        r.metadata.uid? = some uid ∧
        owner = ⟨name, scope, ⟨kind.apiVersion, none, some true, kind.name, name, uid⟩⟩ := by
  unfold ofResource
  constructor
  · intro h
    split at h
    · simp at h
    · simp at h
    · simp at h
    · next name scope uid hname hscope huid =>
      exact ⟨name, scope, uid, hname, hscope, huid, (Except.ok.inj h).symm⟩
  · rintro ⟨name, scope, uid, hname, hscope, huid, rfl⟩
    simp only [hname, hscope, huid]

/-- A resource that is no owner lacks a part of its identity. -/
theorem invalidConfig_of_ofResource {r : Resource kind} {e : OperatorError}
    (h : ofResource r = .error e) : ∃ text, e = .invalidConfig text := by
  unfold ofResource at h
  split at h
  · exact ⟨_, (Except.error.inj h).symm⟩
  · exact ⟨_, (Except.error.inj h).symm⟩
  · exact ⟨_, (Except.error.inj h).symm⟩
  · cases h

theorem namespaceName?_of_ofResource {r : Resource kind} {owner : Owner}
    (h : ofResource r = .ok owner) : r.metadata.namespaceName? = some owner.namespaceName := by
  obtain ⟨name, scope, uid, _, hscope, _, rfl⟩ := ofResource_eq_ok.1 h
  exact hscope

theorem name_of_ofResource {r : Resource kind} {owner : Owner} (h : ofResource r = .ok owner) :
    owner.name = r.metadata.displayName := by
  obtain ⟨name, scope, uid, hname, _, _, rfl⟩ := ofResource_eq_ok.1 h
  simp only [Metadata.displayName, hname]

end Owner

/-! ## The first anchor -/

namespace Anchor

theorem mem_of_least? {anchors : List (Resource .anchor)} {anchor : Resource .anchor}
    (h : least? anchors = some anchor) : anchor ∈ anchors := by
  induction anchors generalizing anchor with
  | nil => simp [least?] at h
  | cons head rest ih =>
    rw [least?] at h
    split at h
    · obtain rfl := Option.some.inj h
      exact List.mem_cons_self ..
    · next other hother =>
      obtain rfl := Option.some.inj h
      split
      · exact List.mem_cons_self ..
      · exact List.mem_cons_of_mem _ (ih hother)

theorem mem_of_first? {anchors : List (Resource .anchor)} {anchor : Resource .anchor}
    (h : first? anchors = some anchor) :
    anchor ∈ anchors ∧ anchor.metadata.isDeleted = false := by
  have hmem := List.mem_filter.1 (mem_of_least? h)
  exact ⟨hmem.1, by simpa using hmem.2⟩

end Anchor

end EdgeOperator
