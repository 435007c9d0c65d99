import EdgeOperator.Proofs.Cluster.Versions

set_option autoImplicit false

/-! # Calm clusters

Where no other writer waits and no fault pretends that an object is missing, a call does what it
says: it changes nothing, or it puts one object in its place or removes it (`Cluster.Effect`). The
objects of all other kinds are left as they are, under their paths and in lists
(`Cluster.IsCalm.leaves`). -/

namespace EdgeOperator

/-- The kind of object that a call may change. -/
def Request.writtenKind? : Request → Option Kind
  | .get _ _ | .list _ _ => none
  | .create kind _ | .replace kind _ | .delete kind _ => some kind

namespace Cluster

variable {kind other : Kind} {before middle after cluster : Cluster}

/-- Whether the cluster is in good order, no other writer waits and no fault hides an object. -/
structure IsCalm (cluster : Cluster) : Prop where
  sound : cluster.Sound
  isUndisturbed : ∀ path, cluster.IsUndisturbed path
  hidesNothing : cluster.HidesNothing

/-- Where no other writer waits, none waits with a change of keys. -/
theorem IsCalm.hasPoliteEdits (h : cluster.IsCalm) : cluster.HasPoliteEdits := by
  intro path edits hget edit hmem
  have hnone := h.isUndisturbed path
  unfold IsUndisturbed at hnone
  rw [hget] at hnone
  obtain rfl : edits = [] := hnone
  cases hmem

theorem IsCalm.serve (h : cluster.IsCalm) (request : Request) :
    (Cluster.serve request cluster).2.IsCalm where
  sound := h.sound.serve h.hasPoliteEdits request
  isUndisturbed path := (h.isUndisturbed path).serve request
  hidesNothing := h.hidesNothing.serve request

theorem IsCalm.run (h : cluster.IsCalm) {α : Type} (program : Program α) :
    (program.run Cluster.serve cluster).2.IsCalm :=
  program.run_keeps_along IsCalm (fun exchange _ _ hafter => hafter.serve exchange.request) h

theorem IsCalm.fail (h : cluster.IsCalm) {code : Nat} (hcode : code ≠ 404) (call : Call)
    (reason : String) (times : Nat) : (cluster.fail call code reason times).IsCalm where
  sound := h.sound.of_objects rfl le_rfl
  isUndisturbed := h.isUndisturbed
  hidesNothing := by
    intro fault hmem
    rcases List.mem_append.1 hmem with hmem | hmem
    · exact h.hidesNothing fault hmem
    · exact List.mem_singleton.1 hmem ▸ hcode

theorem IsCalm.clock (h : cluster.IsCalm) (now : Timestamp) :
    ({ cluster with now := now } : Cluster).IsCalm where
  sound := h.sound.of_objects rfl le_rfl
  isUndisturbed := h.isUndisturbed
  hidesNothing := h.hidesNothing

theorem isCalm_empty (now : Timestamp) : IsCalm { now := now } where
  sound := sound_empty now
  isUndisturbed _ := rfl
  hidesNothing := by simp [HidesNothing]

/-! ## What a call does to the objects -/

/-- The ways in which a call comes to what the cluster holds after it. -/
inductive Effect (cluster : Cluster) : Request → Cluster → Prop where
  | nothing {request : Request} {after : Cluster} (hobjects : after.objects = cluster.objects) :
      Effect cluster request after
  | created {kind : Kind} {object : Resource kind} {after : Cluster}
      (hnone : cluster.objects.get? object.path = none)
      (hobjects : after.objects =
        cluster.objects.set object.path ⟨kind, (cluster.created object).wholeSeconds⟩) :
      Effect cluster (.create kind object) after
  | replaced {kind : Kind} {object current : Resource kind} {after : Cluster}
      (hfind : cluster.find? kind object.path = some current)
      (hobjects : after.objects =
        cluster.objects.set object.path ⟨kind, (cluster.replaced current object).wholeSeconds⟩) :
      Effect cluster (.replace kind object) after
  | released {kind : Kind} {object current : Resource kind} {after : Cluster}
      (hfind : cluster.find? kind object.path = some current)
      (hempty : object.metadata.finalizers = [])
      (hobjects : after.objects = cluster.objects.erase object.path) :
      Effect cluster (.replace kind object) after
  | marked {kind : Kind} {key : ObjectKey} {current : Resource kind} {after : Cluster}
      (hfind : cluster.find? kind (key.path kind) = some current)
      (hobjects : after.objects =
        cluster.objects.set (key.path kind) ⟨kind, (cluster.marked current).wholeSeconds⟩) :
      Effect cluster (.delete kind key) after
  | removed {kind : Kind} {key : ObjectKey} {current : Resource kind} {after : Cluster}
      (hfind : cluster.find? kind (key.path kind) = some current)
      (hempty : current.metadata.finalizers = [])
      (hobjects : after.objects = cluster.objects.erase (key.path kind)) :
      Effect cluster (.delete kind key) after

theorem effect_create (cluster : Cluster) (object : Resource kind) :
    Effect cluster (.create kind object) (Cluster.serve (.create kind object) cluster).2 := by
  rcases serve_create cluster object with ⟨e, heq⟩ | ⟨hnone, heq⟩ <;> rw [heq]
  · exact .nothing rfl
  · exact .created hnone rfl

theorem IsCalm.effect (h : cluster.IsCalm) (request : Request) :
    Effect cluster request (Cluster.serve request cluster).2 := by
  cases request with
  | get kind key => exact .nothing (serve_get_objects ..)
  | list kind namespaceName? => exact .nothing (serve_list_objects ..)
  | create kind object => exact effect_create cluster object
  | replace kind object =>
    rcases serve_replace_undisturbed (h.isUndisturbed object.path) with
      ⟨e, heq⟩ | ⟨current, hfind, _, heq⟩ <;> rw [heq]
    · exact .nothing rfl
    · unfold settled
      split
      · next hgone =>
        exact .released hfind (List.isEmpty_iff.1 (Bool.and_eq_true_iff.1 hgone).2) rfl
      · exact .replaced hfind rfl
  | delete kind key =>
    rcases serve_delete cluster kind key with ⟨e, _, heq⟩ | heq <;> rw [heq]
    · exact .nothing rfl
    · rcases delete_cases (cluster.note (Request.delete kind key).call).2 kind key with
        ⟨_, heq⟩ | ⟨current, hfind, ⟨hempty, heq⟩ | ⟨_, heq⟩ | ⟨_, heq⟩⟩ <;> rw [heq]
      · exact .nothing rfl
      · exact .removed hfind (List.isEmpty_iff.1 hempty) rfl
      · exact .nothing rfl
      · exact .marked hfind rfl

/-! ## Objects of other kinds -/

/-- Whether the objects of a kind are the same, under their paths and in lists. -/
structure Leaves (kind : Kind) (before after : Cluster) : Prop where
  find?_eq : ∀ path, after.find? kind path = before.find? kind path
  listed_eq : ∀ namespaceName?, after.listed kind namespaceName? = before.listed kind namespaceName?

theorem leaves_of_objects (h : after.objects = before.objects) (kind : Kind) :
    Leaves kind before after where
  find?_eq path := find?_congr (congrArg (StringMap.get? · path) h)
  listed_eq namespaceName? := by simp only [listed, h]

theorem Leaves.trans (h : Leaves kind before middle) (h' : Leaves kind middle after) :
    Leaves kind before after where
  find?_eq path := (h'.find?_eq path).trans (h.find?_eq path)
  listed_eq namespaceName? := (h'.listed_eq namespaceName?).trans (h.listed_eq namespaceName?)

/-- An object of another kind appears under no look-up and in no list. -/
theorem ofKind?_of_find? {path : String} {stored : AnyResource}
    (h : before.objects.get? path = some stored) (hnone : before.find? kind path = none) :
    stored.ofKind? kind = none := by
  unfold find? at hnone
  rwa [h] at hnone

/-- A list passes over objects of other kinds. -/
theorem list_skips {namespaceName? : Option String} {path : String} {stored : AnyResource}
    (h : stored.ofKind? kind = none) :
    (match (listPrefix kind namespaceName?).toList.isPrefixOf? path.toList with
      | some name => if name.contains '/' then none else stored.ofKind? kind
      | none => none) = none := by
  split
  · rw [h, ite_self]
  · rfl

theorem leaves_of_set {path : String} {next : Resource other} (hne : other ≠ kind)
    (hnone : before.find? kind path = none)
    (hobjects : after.objects = before.objects.set path ⟨other, next⟩) :
    Leaves kind before after := by
  have hnext : (⟨other, next⟩ : AnyResource).ofKind? kind = none := dif_neg hne
  refine ⟨fun path' => ?_, fun namespaceName? => ?_⟩
  · unfold find?
    rw [hobjects, StringMap.get?_set]
    split
    · next heq =>
      subst heq
      exact hnext.trans hnone.symm
    · rfl
  · unfold listed
    rw [hobjects]
    exact StringMap.filterMap_set_of_none (list_skips hnext) fun old hold =>
      list_skips (ofKind?_of_find? hold hnone)

theorem leaves_of_erase {path : String} (hsorted : before.objects.IsSorted)
    (hnone : before.find? kind path = none)
    (hobjects : after.objects = before.objects.erase path) : Leaves kind before after := by
  refine ⟨fun path' => ?_, fun namespaceName? => ?_⟩
  · unfold find?
    rw [hobjects, StringMap.get?_erase]
    split
    · next heq =>
      subst heq
      exact hnone.symm
    · rfl
  · unfold listed
    rw [hobjects]
    exact StringMap.filterMap_erase_of_none hsorted fun old hold =>
      list_skips (ofKind?_of_find? hold hnone)

theorem find?_none_of_kind_ne {path : String} {object : Resource other}
    (hfind : cluster.find? other path = some object) (hne : other ≠ kind) :
    cluster.find? kind path = none := by
  unfold find?
  rw [find?_eq_some.1 hfind]
  exact dif_neg hne

/-- A call leaves the objects of all kinds but the one it writes. -/
theorem IsCalm.leaves (h : cluster.IsCalm) {request : Request}
    (hwritten : request.writtenKind? ≠ some kind) :
    Leaves kind cluster (Cluster.serve request cluster).2 := by
  have hne : ∀ {other}, request.writtenKind? = some other → other ≠ kind := by
    rintro other hother rfl
    exact hwritten hother
  cases h.effect request with
  | nothing hobjects => exact leaves_of_objects hobjects kind
  | created hnone hobjects => exact leaves_of_set (hne rfl) (find?_of_absent hnone) hobjects
  | replaced hfind hobjects =>
    exact leaves_of_set (hne rfl) (find?_none_of_kind_ne hfind (hne rfl)) hobjects
  | released hfind _ hobjects =>
    exact leaves_of_erase h.sound.sorted (find?_none_of_kind_ne hfind (hne rfl)) hobjects
  | marked hfind hobjects =>
    exact leaves_of_set (hne rfl) (find?_none_of_kind_ne hfind (hne rfl)) hobjects
  | removed hfind _ hobjects =>
    exact leaves_of_erase h.sound.sorted (find?_none_of_kind_ne hfind (hne rfl)) hobjects

/-! ## Servers -/

/-- What answers the calls that are made to a cluster. -/
abbrev Server : Type :=
  (request : Request) → Cluster → Except OperatorError request.Answer × Cluster

/-- Whether every call is answered as a calm cluster with the same objects does it. Which calls
fail, and what time it is, is left open. -/
def IsFaithful (server : Server) : Prop :=
  ∀ (request : Request) (cluster : Cluster), cluster.IsCalm →
    ∃ same : Cluster, same.IsCalm ∧ same.objects = cluster.objects ∧
      server request cluster = serve request same

theorem isFaithful_serve : IsFaithful serve :=
  fun _ cluster hcalm => ⟨cluster, hcalm, rfl, rfl⟩

namespace IsFaithful

variable {server : Server}

theorem calm (h : IsFaithful server) (hcalm : cluster.IsCalm) (request : Request) :
    (server request cluster).2.IsCalm := by
  obtain ⟨same, hsame, _, heq⟩ := h request cluster hcalm
  rw [heq]
  exact hsame.serve request

theorem leaves (h : IsFaithful server) (hcalm : cluster.IsCalm) {request : Request}
    (hwritten : request.writtenKind? ≠ some kind) :
    Leaves kind cluster (server request cluster).2 := by
  obtain ⟨same, hsame, hobjects, heq⟩ := h request cluster hcalm
  rw [heq]
  exact (leaves_of_objects hobjects kind).trans (hsame.leaves hwritten)

/-- What calls of a sort keep in calm clusters, a program keeps that makes no others. -/
theorem run_keeps (h : IsFaithful server) {α : Type} {program : Program α} {sort : Request → Prop}
    (hprogram : program.OnlyAsks sort) {keeps : Cluster → Prop}
    (hserve : ∀ request now, sort request → now.IsCalm → keeps now →
      keeps (server request now).2) (hcalm : cluster.IsCalm) (hkeeps : keeps cluster) :
    program.Ends server cluster fun _ after => after.IsCalm ∧ keeps after :=
  hprogram.run_keeps (fun after : Cluster => after.IsCalm ∧ keeps after)
    (fun request now hrequest ⟨hnow, hkept⟩ =>
      ⟨h.calm hnow request, hserve request now hrequest hnow hkept⟩) ⟨hcalm, hkeeps⟩

/-- A program that does not write a kind leaves its objects. -/
theorem run_leaves (h : IsFaithful server) {α : Type} {program : Program α} (hcalm : cluster.IsCalm)
    (hprogram : program.OnlyAsks fun request => request.writtenKind? ≠ some kind) :
    program.Ends server cluster fun _ after => after.IsCalm ∧ Leaves kind cluster after :=
  h.run_keeps hprogram (fun _ _ hrequest hnow hleaves => hleaves.trans (h.leaves hnow hrequest))
    hcalm (leaves_of_objects rfl kind)

end IsFaithful

end Cluster

end EdgeOperator
