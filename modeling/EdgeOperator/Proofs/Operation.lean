import EdgeOperator.Proofs.Ownership.Install

set_option autoImplicit false

/-! # The operator at work

What happens to a cluster over time is a list of events: passes of the operator, calls of users,
faults and the passing of time. Users create custom resources and change or delete them, but leave
their finalizers alone; what the operator has created they may delete, and change as long as it
keeps its owners (`Cluster.Allows`).

Whatever is created in this way is there no longer than the resource it was created for
(`Cluster.dependents_never_outlive_owner`). -/

namespace EdgeOperator

/-- What happens to a cluster. -/
inductive Event where
  | anchorPass (key : ObjectKey)
  | frontendPass (attempts : Nat) (key : ObjectKey)
  /-- A user makes a call. -/
  | call (request : Request)
  /-- The next calls of one form are made to fail. -/
  | fail (call : Call) (code : Nat) (reason : String) (times : Nat)
  | clock (now : Timestamp)

/-- The operator has duties to custom resources only. -/
theorem Duty.IsOperators.isDependent_eq {kind : Kind} {duty : Duty kind} (h : duty.IsOperators) :
    kind.isDependent = false := by
  cases h <;> rfl

namespace Cluster

/-! ## Runs -/

/-- The cluster after an event. -/
def undergo (cluster : Cluster) : Event → Cluster
  | .anchorPass key => ((Duty.anchor.pass key).run serve cluster).2
  | .frontendPass attempts key => (((Duty.frontend attempts).pass key).run serve cluster).2
  | .call request => (serve request cluster).2
  | .fail call code reason times => cluster.fail call code reason times
  | .clock now => { cluster with now := now }

/-- The cluster after events. -/
def after (cluster : Cluster) (events : List Event) : Cluster :=
  events.foldl undergo cluster

/-- Whether no resource of a kind has the identity that an object would get by its creation. -/
def IsFresh (cluster : Cluster) {kind : Kind} (object : Resource kind) : Prop :=
  ∀ path other, cluster.find? kind path = some other →
    other.metadata.uid? ≠ (cluster.created object).metadata.uid?

/-- Whether a user may put an object in the place of another. -/
def IsUserEdit {kind : Kind} (current object : Resource kind) : Prop :=
  if kind.isDependent then
    object.metadata.ownerReferences = current.metadata.ownerReferences
  else
    object.metadata.finalizers = current.metadata.finalizers ∧
      object.metadata.name? = current.metadata.name? ∧
        object.metadata.namespaceName? = current.metadata.namespaceName?

/-- Whether an event may happen: users create nothing but custom resources, each with an identity of
its own, and no fault says that an object is missing. -/
def Allows (cluster : Cluster) : Event → Prop
  | .call (.create kind object) => kind.isDependent = false ∧ cluster.IsFresh object
  | .call (.replace kind object) => ∀ current, cluster.find? kind object.path = some current →
    IsUserEdit current object
  | .call (.get _ _) | .call (.list _ _) | .call (.delete _ _) => True
  | .fail _ code _ _ => code ≠ 404
  | .anchorPass _ | .frontendPass _ _ | .clock _ => True

/-- Whether events may happen one after the other. -/
def Permits (cluster : Cluster) : List Event → Prop
  | [] => True
  | event :: rest => cluster.Allows event ∧ (cluster.undergo event).Permits rest

theorem after_append (cluster : Cluster) (events later : List Event) :
    cluster.after (events ++ later) = (cluster.after events).after later :=
  List.foldl_append ..

theorem permits_append {cluster : Cluster} {events later : List Event} :
    cluster.Permits (events ++ later) ↔
      cluster.Permits events ∧ (cluster.after events).Permits later := by
  induction events generalizing cluster with
  | nil => simp [Permits, after]
  | cons event rest ih => exact (and_congr_right fun _ => ih).trans and_assoc.symm

/-- What every event keeps, a run keeps. -/
theorem Permits.keeps (holds : Cluster → Prop)
    (hevent : ∀ (cluster : Cluster) (event : Event), cluster.Allows event → holds cluster →
      holds (cluster.undergo event))
    {cluster : Cluster} {events : List Event} (h : cluster.Permits events)
    (hstart : holds cluster) : holds (cluster.after events) := by
  induction events generalizing cluster with
  | nil => exact hstart
  | cons event rest ih => exact ih h.2 (hevent cluster event h.1 hstart)

variable {cluster : Cluster} {dependent : Kind} {request : Request}

/-! ## What users leave alone -/

theorem Allows.sparesMarks (h : cluster.Allows (.call request)) : request.SparesMarks cluster := by
  cases request with
  | replace kind object =>
    intro current hfind duty hduty hmark
    have hedit := h current hfind
    unfold IsUserEdit at hedit
    rw [if_neg (by simp [hduty.isDependent_eq])] at hedit
    exact ⟨hedit.1 ▸ hmark, hedit.2.1, hedit.2.2⟩
  | _ => trivial

theorem Allows.bringsNo (h : cluster.Allows (.call request))
    (hdependent : dependent.isDependent = true) : request.BringsNo dependent cluster := by
  cases request with
  | create kind object =>
    rintro rfl
    exact absurd (hdependent.symm.trans h.1) (by simp)
  | replace kind object =>
    rintro rfl current hfind
    have hedit := h current hfind
    unfold IsUserEdit at hedit
    rwa [if_pos hdependent] at hedit
  | _ => trivial

/-! ## What events keep -/

theorem isTended_empty (now : Timestamp) (kind : Kind) : IsTended { now := now } kind := by
  intro path object hfind
  simp [find?] at hfind

theorem IsCalm.undergo (h : cluster.IsCalm) {event : Event} (hallows : cluster.Allows event) :
    (cluster.undergo event).IsCalm := by
  cases event with
  | anchorPass key => exact h.run _
  | frontendPass attempts key => exact h.run _
  | call request => exact h.serve request
  | fail call code reason times => exact h.fail hallows call reason times
  | clock now => exact h.clock now

/-- Every event keeps objects tended if what is installed for frontends is tended. -/
theorem IsTended.undergo (h : cluster.IsTended dependent) (hcalm : cluster.IsCalm)
    (hdependent : dependent.isDependent = true) {event : Event} (hallows : cluster.Allows event)
    (hinstall : ∀ attempts key, event = .frontendPass attempts key →
      (Duty.frontend attempts).InstallsTended dependent) :
    (cluster.undergo event).IsTended dependent := by
  have hne : ∀ {kind : Kind} {duty : Duty kind}, duty.IsOperators → kind ≠ dependent := by
    rintro kind duty hduty rfl
    exact absurd (hdependent.symm.trans hduty.isDependent_eq) (by simp)
  cases event with
  | anchorPass key =>
    exact (Duty.pass_keepsTended .anchor (hne .anchor) (Duty.anchor_installsTended dependent) key
      hcalm h).2
  | frontendPass attempts key =>
    have hduty := Duty.IsOperators.frontend attempts
    exact (Duty.pass_keepsTended hduty (hne hduty) (hinstall attempts key rfl) key hcalm h).2
  | call request =>
    exact h.of_frames (hcalm.keepsMarked hallows.sparesMarks)
      (hcalm.bringsNo (hallows.bringsNo hdependent))
  | fail call code reason times =>
    exact h.of_frames (keepsMarked_of_objects rfl) (retains_of_objects rfl dependent)
  | clock now => exact h.of_frames (keepsMarked_of_objects rfl) (retains_of_objects rfl dependent)

/-! ## The main result -/

/-- Whether a custom resource with an identity is stored and carries the mark of the operator. -/
def HoldsMarked (cluster : Cluster) (uid : String) : Prop :=
  (∃ path anchor, cluster.find? .anchor path = some anchor ∧ anchor.metadata.uid? = some uid ∧
    Names.anchorFinalizer ∈ anchor.metadata.finalizers) ∨
  ∃ path frontend, cluster.find? .frontend path = some frontend ∧
    frontend.metadata.uid? = some uid ∧ Names.frontendFinalizer ∈ frontend.metadata.finalizers

theorem HasTender.holdsMarked {uid path : String} {kind : Kind}
    (h : cluster.HasTender uid kind path) : cluster.HoldsMarked uid := by
  obtain ⟨other, duty, hduty, owner, ⟨place, r, hfind, hmark, howner⟩, rfl, -⟩ := h
  obtain ⟨name, scope, uid, -, -, huid, rfl⟩ := Owner.ofResource_eq_ok.1 howner
  cases hduty with
  | anchor => exact Or.inl ⟨place, r, hfind, huid, hmark⟩
  | frontend attempts => exact Or.inr ⟨place, r, hfind, huid, hmark⟩

/-- In every run, an object of a plain kind that has a controller is stored together with that
resource, which carries its mark. -/
theorem dependents_never_outlive_owner {now : Timestamp} {events : List Event}
    (hpermits : Permits { now := now } events) {plain : PlainKind} {path : String}
    {object : Resource (.plain plain)}
    (hfind : (after { now := now } events).find? (.plain plain) path = some object)
    {reference : OwnerReference} (href : reference ∈ object.metadata.ownerReferences)
    (hcontroller : reference.controller? = some true) :
    (after { now := now } events).HoldsMarked reference.uid := by
  have hkept := hpermits.keeps (fun cluster => cluster.IsCalm ∧ cluster.IsTended (.plain plain))
    (fun _ _ hallows h => ⟨h.1.undergo hallows, h.2.undergo h.1 rfl hallows
      fun attempts _ _ => Duty.frontend_installsTended attempts plain⟩)
    ⟨isCalm_empty now, isTended_empty now _⟩
  exact (hkept.2 path object hfind reference href hcontroller).holdsMarked

/-! ## A frontend without an anchor

The pass for it fails for want of an anchor. The service that it has created is there all the same,
and so is the frontend with its mark. -/

/-- The time at which all of it happens. -/
def openingTime : Timestamp := ⟨2024, 1, 1, 0, 0, 0, 0⟩

/-- A frontend as a user creates it. -/
def shopFrontend : Resource .frontend where
  metadata := { name? := some "shop", namespaceName? := some "team", uid? := some "uid-shop" }
  content := { spec := { imageName := "web", port := 80 } }

/-- The key of the frontend. -/
def shopKey : ObjectKey :=
  .inNamespace "team" "shop"

/-- The frontend as the owner of its workload. -/
def shopOwner : Owner :=
  ⟨"shop", "team", ⟨Kind.frontend.apiVersion, none, some true, Kind.frontend.name, "shop",
    "uid-shop"⟩⟩

/-- The creation of the frontend, and a pass for it. -/
def openingEvents : List Event :=
  [.call (.create .frontend shopFrontend), .frontendPass 5 shopKey]

theorem find?_of_kind_notMem {cluster : Cluster} {kind : Kind}
    (h : kind ∉ cluster.objects.map (·.2.kind)) (path : String) :
    cluster.find? kind path = none := by
  cases hfind : cluster.find? kind path with
  | none => rfl
  | some object =>
    exact absurd (List.mem_map_of_mem (StringMap.mem_of_get? (find?_eq_some.1 hfind))) h

/-- The first resource of its kind has an identity of its own. -/
theorem isFresh_of_kind_notMem {cluster : Cluster} {kind : Kind}
    (h : kind ∉ cluster.objects.map (·.2.kind)) (object : Resource kind) :
    cluster.IsFresh object := by
  intro path other hfind
  exact absurd (hfind.symm.trans (find?_of_kind_notMem h path)) (by simp)

theorem shop_service_held :
    Permits { now := openingTime } openingEvents ∧
      ∃ service, (after { now := openingTime } openingEvents).find? (.plain .service)
          ((Workload.serviceKey shopOwner).path (.plain .service)) = some service ∧
        shopOwner.reference ∈ service.metadata.ownerReferences ∧
        (after { now := openingTime } openingEvents).HoldsMarked shopOwner.reference.uid := by
  have hpermits : Permits { now := openingTime } openingEvents :=
    ⟨⟨rfl, isFresh_of_kind_notMem (by simp) _⟩, trivial, trivial⟩
  obtain ⟨service, hfind, href⟩ : ∃ service,
      (after { now := openingTime } openingEvents).find? (.plain .service)
          ((Workload.serviceKey shopOwner).path (.plain .service)) = some service ∧
        shopOwner.reference ∈ service.metadata.ownerReferences :=
    ⟨_, rfl, List.mem_singleton_self _⟩
  exact ⟨hpermits, service, hfind, href, dependents_never_outlive_owner hpermits hfind href rfl⟩

end Cluster

end EdgeOperator
