import EdgeOperator.Proofs.Operation
import EdgeOperator.Proofs.Ownership.Adoption
import Mathlib.Data.List.Induction

set_option autoImplicit false

/-! # The routing ingress and its anchor

The routing ingress of a namespace belongs to an anchor, but the pass for a frontend creates it, and
that pass takes any anchor that is not deleted, whether it carries its mark or not. An anchor without
the mark goes as soon as a user deletes it, and the ingress stays behind
(`Cluster.routing_outlives_anchor`).

So every routing ingress is stored together with its anchor, and that with its mark, exactly in the
runs in which each pass that creates one finds the anchor marked
(`Cluster.routing_anchored_iff_adopted_by_marked`). -/

namespace EdgeOperator

open Program

namespace Cluster

/-- Whether every ingress that has a controller is stored together with that anchor, and the anchor
carries its mark. -/
def RoutingIsAnchored (cluster : Cluster) : Prop :=
  ∀ path ingress, cluster.find? .ingress path = some ingress →
    ∀ reference ∈ ingress.metadata.ownerReferences, reference.controller? = some true →
      ∃ place anchor, cluster.find? .anchor place = some anchor ∧
        anchor.metadata.uid? = some reference.uid ∧
          Names.anchorFinalizer ∈ anchor.metadata.finalizers

/-- Whether an anchor is the one for which a pass for a frontend would create a routing ingress. -/
def IsAnchorFor (cluster : Cluster) (key : ObjectKey) (anchor : Resource .anchor) : Prop :=
  ∃ frontend scope, cluster.find? .frontend (key.path .frontend) = some frontend ∧
    frontend.metadata.namespaceName? = some scope ∧
      Anchor.first? (cluster.listed .anchor (some scope)) = some anchor

/-- Whether a pass for a frontend creates no ingress, or does so for an anchor that carries its
mark. -/
def AdoptsByMarked (cluster : Cluster) (attempts : Nat) (key : ObjectKey) : Prop :=
  ∀ path, cluster.find? .ingress path = none →
    ((cluster.undergo (.frontendPass attempts key)).find? .ingress path).isSome = true →
      ∃ anchor, cluster.IsAnchorFor key anchor ∧
        Names.anchorFinalizer ∈ anchor.metadata.finalizers

theorem IsAnchorFor.unique {cluster : Cluster} {key : ObjectKey} {anchor anchor' : Resource .anchor}
    (h : cluster.IsAnchorFor key anchor) (h' : cluster.IsAnchorFor key anchor') :
    anchor = anchor' := by
  obtain ⟨frontend, scope, hfind, hscope, hfirst⟩ := h
  obtain ⟨frontend', scope', hfind', hscope', hfirst'⟩ := h'
  obtain rfl := Option.some.inj (hfind.symm.trans hfind')
  obtain rfl := Option.some.inj (hscope.symm.trans hscope')
  exact Option.some.inj (hfirst.symm.trans hfirst')

theorem IsAnchorFor.find? {cluster : Cluster} (hcalm : cluster.IsCalm) {key : ObjectKey}
    {anchor : Resource .anchor} (h : cluster.IsAnchorFor key anchor) :
    cluster.find? .anchor anchor.path = some anchor := by
  obtain ⟨_, _, _, _, hfirst⟩ := h
  exact (mem_listed hcalm.sound (Anchor.mem_of_first? hfirst).1).1

/-! ## Ingresses that are tended -/

variable {cluster : Cluster} {attempts : Nat} {key : ObjectKey}

/-- Only anchors tend ingresses. -/
theorem HasTender.anchor {uid path : String} (h : cluster.HasTender uid .ingress path) :
    ∃ owner, cluster.IsTending Duty.anchor owner ∧ owner.reference.uid = uid ∧
      routingPath owner.namespaceName = path := by
  obtain ⟨other, duty, hduty, owner, htending, huid, step, hstep, hkind, hpath⟩ := h
  cases hduty with
  | anchor =>
    refine ⟨owner, htending, huid, ?_⟩
    rcases List.mem_cons.1 hstep with rfl | hmem
    · exact hpath
    · obtain ⟨component, _, rfl⟩ := List.mem_map.1 hmem
      exact absurd hkind (by simp [Component.teardownStep])
  | frontend attempts =>
    have hplain : ∀ step ∈ owner.frontendTeardown, step.kind ≠ .ingress :=
      List.forall_mem_cons.2 ⟨by simp, List.forall_mem_singleton.2 (by simp)⟩
    exact absurd hkind (hplain step hstep)

theorem hasTender_of_anchor {owner : Owner} (h : cluster.IsTending Duty.anchor owner) :
    cluster.HasTender owner.reference.uid .ingress (routingPath owner.namespaceName) :=
  ⟨.anchor, Duty.anchor, .anchor, owner, h, rfl, _, List.mem_cons_self .., rfl, rfl⟩

theorem IsTended.routingIsAnchored (h : cluster.IsTended .ingress) : cluster.RoutingIsAnchored := by
  intro path ingress hfind reference href hcontroller
  obtain ⟨owner, ⟨place, anchor, hanchor, hmark, howner⟩, huid, _⟩ :=
    (h path ingress hfind reference href hcontroller).anchor
  obtain ⟨name, scope, uid, _, _, huid', rfl⟩ := Owner.ofResource_eq_ok.1 howner
  exact ⟨place, anchor, hanchor, huid'.trans (congrArg some huid), hmark⟩

/-- A pass for a frontend keeps ingresses tended if it adopts by marked anchors only. -/
theorem IsTended.frontendPass (h : cluster.IsTended .ingress) (hcalm : cluster.IsCalm)
    (hadopts : cluster.AdoptsByMarked attempts key) :
    (cluster.undergo (.frontendPass attempts key)).IsTended .ingress := by
  obtain ⟨_, hleaves⟩ := Duty.frontend_pass_leaves attempts key hcalm
  have htending : ∀ {owner}, cluster.IsTending Duty.anchor owner →
      (cluster.undergo (.frontendPass attempts key)).IsTending Duty.anchor owner := by
    intro owner ⟨place, anchor, hfind, hrest⟩
    exact ⟨place, anchor, (hleaves.find?_eq place).trans hfind, hrest⟩
  intro path ingress hfind reference href hcontroller
  -- an ingress with the owners it had keeps its tender
  have hold : ∀ old, cluster.find? .ingress path = some old →
      ingress.metadata.ownerReferences = old.metadata.ownerReferences →
        (cluster.undergo (.frontendPass attempts key)).HasTender reference.uid .ingress path := by
    intro old hold heq
    obtain ⟨owner, htends, huid, rfl⟩ :=
      (h path old hold reference (heq ▸ href) hcontroller).anchor
    exact huid ▸ hasTender_of_anchor (htending htends)
  rcases Duty.frontend_pass_adopts attempts key hcalm with
    hbrings | ⟨frontend, scope, hfrontend, hscope, hadopted⟩
  · obtain ⟨old, hfind', heq⟩ := hbrings path ingress hfind
    exact hold old hfind' heq
  rcases hadopted path ingress hfind with
    ⟨old, hfind', heq⟩ | ⟨hnone, anchor, owner, hfirst, howner, rfl, hreferences⟩
  · exact hold old hfind' heq
  · -- a new ingress has the marked anchor as its tender
    have hanchor : cluster.IsAnchorFor key anchor := ⟨frontend, scope, hfrontend, hscope, hfirst⟩
    obtain ⟨marked, hmarked, hmark⟩ := hadopts _ hnone (Option.isSome_iff_exists.2 ⟨ingress, hfind⟩)
    obtain rfl := hmarked.unique hanchor
    rw [hreferences] at href
    obtain rfl := List.mem_singleton.1 href
    exact hasTender_of_anchor (htending ⟨_, marked, hanchor.find? hcalm, hmark, howner⟩)

/-! ## Identities of anchors -/

/-- Whether anchors have different identities. -/
def HasDistinctAnchors (cluster : Cluster) : Prop :=
  ∀ path path' anchor anchor', cluster.find? .anchor path = some anchor →
    cluster.find? .anchor path' = some anchor' →
      anchor.metadata.uid? = anchor'.metadata.uid? → path = path'

theorem HasDistinctAnchors.of_retains {later : Cluster} (h : cluster.HasDistinctAnchors)
    (hretains : Retains Metadata.uid? .anchor cluster later) : later.HasDistinctAnchors := by
  intro path path' anchor anchor' hfind hfind' huid
  obtain ⟨old, hold, heq⟩ := hretains path anchor hfind
  obtain ⟨old', hold', heq'⟩ := hretains path' anchor' hfind'
  exact h path path' old old' hold hold' (heq.symm.trans (huid.trans heq'))

/-- Only the creation of an anchor brings in an identity. -/
theorem IsCalm.retainsUids (h : cluster.IsCalm) {request : Request}
    (hcreate : ∀ anchor, request ≠ .create .anchor anchor) :
    Retains Metadata.uid? .anchor cluster (Cluster.serve request cluster).2 :=
  h.retains hcreate (fun _ _ _ _ => rfl) fun _ => rfl

theorem HasDistinctAnchors.create (h : cluster.HasDistinctAnchors) {anchor : Resource .anchor}
    (hfresh : cluster.IsFresh anchor) :
    (serve (.create .anchor anchor) cluster).2.HasDistinctAnchors := by
  cases effect_create cluster anchor with
  | nothing hobjects => exact h.of_retains (retains_of_objects hobjects .anchor)
  | created _ hobjects =>
    intro path path' first second hfind hfind' huid
    rcases (find?_of_set hobjects ..).1 hfind with ⟨rfl, heq⟩ | ⟨_, hold⟩ <;>
      rcases (find?_of_set hobjects ..).1 hfind' with ⟨rfl, heq'⟩ | ⟨_, hold'⟩
    · rfl
    · cases heq
      exact absurd huid.symm (hfresh path' second hold')
    · cases heq'
      exact absurd huid (hfresh path first hold)
    · exact h path path' first second hold hold' huid

theorem HasDistinctAnchors.undergo (h : cluster.HasDistinctAnchors) (hcalm : cluster.IsCalm)
    {event : Event} (hallows : cluster.Allows event) :
    (cluster.undergo event).HasDistinctAnchors := by
  cases event with
  | anchorPass key =>
    have hpass : (Duty.anchor.pass key).OnlyAsks fun request =>
        ∀ anchor, request ≠ .create .anchor anchor := by
      refine Duty.pass_onlyAsks (fun _ _ => by simp) (fun _ _ _ => by simp) (fun _ => by simp)
        (fun owner read => ?_) key
      refine (ensureComponents_plants owner _).mono fun request hplants anchor heq => ?_
      exact hplants.writtenKind?_ne (by simp) (congrArg Request.writtenKind? heq)
    have hkept := hpass.run_keeps
      (fun after : Cluster => after.IsCalm ∧ Retains Metadata.uid? .anchor cluster after)
      (fun request after hrequest ⟨hafter, hretains⟩ =>
        ⟨hafter.serve request, hretains.trans (hafter.retainsUids hrequest)⟩)
      ⟨hcalm, retains_of_objects rfl .anchor⟩
    exact h.of_retains hkept.2
  | frontendPass attempts key =>
    exact h.of_retains (Duty.frontend_pass_leaves attempts key hcalm).2.retains
  | call request =>
    by_cases hcreate : ∃ anchor, request = .create .anchor anchor
    · obtain ⟨anchor, rfl⟩ := hcreate
      exact h.create hallows.2
    · exact h.of_retains (hcalm.retainsUids fun anchor heq => hcreate ⟨anchor, heq⟩)
  | fail call code reason times => exact h.of_retains (retains_of_objects rfl .anchor)
  | clock now => exact h.of_retains (retains_of_objects rfl .anchor)

/-! ## The main result -/

theorem invariants_of_permits {now : Timestamp} {events : List Event}
    (hpermits : Permits { now := now } events) :
    (after { now := now } events).IsCalm ∧ (after { now := now } events).HasDistinctAnchors := by
  refine hpermits.keeps (fun cluster => cluster.IsCalm ∧ cluster.HasDistinctAnchors)
    (fun _ _ hallows h => ⟨h.1.undergo hallows, h.2.undergo h.1 hallows⟩) ⟨isCalm_empty now, ?_⟩
  intro path path' anchor anchor' hfind
  simp [Cluster.find?] at hfind

/-- Where the ingresses are anchored after a pass, it has adopted by a marked anchor: no other anchor
has the identity that the new ingress refers to. -/
theorem RoutingIsAnchored.adoptsByMarked
    (h : (cluster.undergo (.frontendPass attempts key)).RoutingIsAnchored)
    (hcalm : cluster.IsCalm) (hdistinct : cluster.HasDistinctAnchors) :
    cluster.AdoptsByMarked attempts key := by
  intro path hnone hsome
  obtain ⟨ingress, hingress⟩ := Option.isSome_iff_exists.1 hsome
  have hnew : ∀ old, cluster.find? .ingress path ≠ some old := by simp [hnone]
  rcases Duty.frontend_pass_adopts attempts key hcalm with
    hbrings | ⟨frontend, scope, hfrontend, hscope, hadopted⟩
  · obtain ⟨old, hold, _⟩ := hbrings path ingress hingress
    exact absurd hold (hnew old)
  rcases hadopted path ingress hingress with
    ⟨old, hold, _⟩ | ⟨_, anchor, owner, hfirst, howner, rfl, hreferences⟩
  · exact absurd hold (hnew old)
  have hanchor : cluster.IsAnchorFor key anchor :=
    ⟨frontend, scope, hfrontend, hscope, hfirst⟩
  refine ⟨anchor, hanchor, ?_⟩
  obtain ⟨name, scope, uid, _, _, huid, rfl⟩ := Owner.ofResource_eq_ok.1 howner
  obtain ⟨place, marked, hmarked, huid', hmark⟩ := h _ ingress hingress _
    (hreferences ▸ List.mem_singleton_self _) rfl
  -- the pass has written no anchor, so this one was stored before it too
  obtain ⟨_, hleaves⟩ := Duty.frontend_pass_leaves attempts key hcalm
  have hmarked' := (hleaves.find?_eq place).symm.trans hmarked
  have hstored := hanchor.find? hcalm
  obtain rfl := hdistinct place _ marked anchor hmarked' hstored (huid'.trans huid.symm)
  obtain rfl := Option.some.inj (hmarked'.symm.trans hstored)
  exact hmark

/-- A run keeps every routing ingress together with its anchor, and that with its mark, if and only if
each pass for a frontend that creates such an ingress does so for an anchor with its mark. -/
theorem routing_anchored_iff_adopted_by_marked {now : Timestamp} {events : List Event}
    (hpermits : Permits { now := now } events) :
    (∀ earlier, earlier <+: events → (after { now := now } earlier).RoutingIsAnchored) ↔
      ∀ earlier attempts key, earlier ++ [.frontendPass attempts key] <+: events →
        (after { now := now } earlier).AdoptsByMarked attempts key := by
  have hinvariants : ∀ {earlier}, earlier <+: events →
      (after { now := now } earlier).IsCalm ∧
        (after { now := now } earlier).HasDistinctAnchors := by
    rintro earlier ⟨later, rfl⟩
    exact invariants_of_permits (permits_append.1 hpermits).1
  constructor
  · intro hanchored earlier attempts key hearlier
    obtain ⟨hcalm, hdistinct⟩ := hinvariants ((List.prefix_append ..).trans hearlier)
    have hafter := hanchored _ hearlier
    rw [after_append] at hafter
    exact RoutingIsAnchored.adoptsByMarked hafter hcalm hdistinct
  · intro hadopts earlier hearlier
    refine IsTended.routingIsAnchored ?_
    -- along the run: only the passes for frontends need the condition
    induction earlier using List.reverseRecOn with
    | nil => exact isTended_empty now .ingress
    | append_singleton earlier event ih =>
      have hfront := (List.prefix_append ..).trans hearlier
      have htended := ih hfront
      obtain ⟨hcalm, _⟩ := hinvariants hfront
      have hallows : (after { now := now } earlier).Allows event := by
        obtain ⟨later, rfl⟩ := hearlier
        exact (permits_append.1 (permits_append.1 hpermits).1).2.1
      rw [after_append]
      cases event with
      | frontendPass attempts key =>
        exact htended.frontendPass hcalm (hadopts earlier attempts key hearlier)
      | _ => exact htended.undergo hcalm rfl hallows fun _ _ heq => nomatch heq

/-! ## An anchor before and after its first pass

If the frontend comes first, the anchor goes with its deletion, and the ingress stays. If the pass for
the anchor comes first, the ingress is anchored. -/

/-- An anchor as a user creates it. -/
def gateAnchor : Resource .anchor where
  metadata := { name? := some "gate", namespaceName? := some "team", uid? := some "uid-gate" }
  content := {}

/-- The key of the anchor. -/
def gateKey : ObjectKey :=
  .inNamespace "team" "gate"

/-- The anchor and the frontend are created, the frontend gets a pass, and the anchor is deleted. -/
def strandingEvents : List Event :=
  [.call (.create .anchor gateAnchor), .call (.create .frontend shopFrontend),
    .frontendPass 5 shopKey, .call (.delete .anchor gateKey)]

/-- The anchor gets its pass before the frontend does. Something fails as soon as it is marked. -/
def settlingEvents : List Event :=
  [.call (.create .anchor gateAnchor), .call (.create .frontend shopFrontend),
    .fail ⟨.get, (ObjectKey.clusterWide "gate-ns").path (.plain .nameSpace)⟩ 500 "InternalError" 1,
    .anchorPass gateKey, .frontendPass 5 shopKey]

theorem gate_keeps_routing :
    Permits { now := openingTime } settlingEvents ∧
      ((after { now := openingTime } settlingEvents).find? .ingress
        (routingPath "team")).isSome = true ∧
      ∀ earlier, earlier <+: settlingEvents →
        (after { now := openingTime } earlier).RoutingIsAnchored := by
  have hpermits : Permits { now := openingTime } settlingEvents :=
    ⟨⟨rfl, isFresh_of_kind_notMem (by simp) _⟩, ⟨rfl, isFresh_of_kind_notMem (by decide) _⟩,
      (by decide : 500 ≠ 404), trivial, trivial, trivial⟩
  refine ⟨hpermits, rfl, (routing_anchored_iff_adopted_by_marked hpermits).2 ?_⟩
  rintro earlier attempts key ⟨later, heq⟩
  obtain ⟨rfl, rfl⟩ : earlier = settlingEvents.take 4 ∧ key = shopKey := by
    rcases earlier with _ | ⟨_, _ | ⟨_, _ | ⟨_, _ | ⟨_, _ | ⟨_, rest⟩⟩⟩⟩⟩ <;>
      first
      | cases heq <;> exact ⟨rfl, rfl⟩
      | simp [settlingEvents] at heq
  exact fun _ _ _ => ⟨_, ⟨_, _, rfl, rfl, rfl⟩, by decide⟩

theorem routing_outlives_anchor :
    Permits { now := openingTime } strandingEvents ∧
      ¬(after { now := openingTime } strandingEvents).RoutingIsAnchored := by
  refine ⟨⟨⟨rfl, isFresh_of_kind_notMem (by simp) _⟩, ⟨rfl, isFresh_of_kind_notMem (by decide) _⟩,
    trivial, trivial, trivial⟩, fun hanchored => ?_⟩
  have hkinds : Kind.anchor ∉
      (after { now := openingTime } strandingEvents).objects.map (·.2.kind) := by
    show Kind.anchor ∉ [.plain .service, .plain .deployment, .frontend, .ingress]
    decide
  obtain ⟨ingress, hfind, href⟩ : ∃ ingress,
      (after { now := openingTime } strandingEvents).find? .ingress (routingPath "team") =
          some ingress ∧
        (⟨Kind.anchor.apiVersion, none, some true, Kind.anchor.name, "gate", "uid-gate"⟩ :
          OwnerReference) ∈ ingress.metadata.ownerReferences :=
    ⟨_, rfl, List.mem_singleton_self _⟩
  obtain ⟨place, anchor, hanchor, _⟩ := hanchored _ ingress hfind _ href rfl
  exact absurd (hanchor.symm.trans (find?_of_kind_notMem hkinds place)) (by simp)

end Cluster

end EdgeOperator
