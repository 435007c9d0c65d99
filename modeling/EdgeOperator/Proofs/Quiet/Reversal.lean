import EdgeOperator.Proofs.Installation.Stack
import EdgeOperator.Proofs.Quiet.Teardown

set_option autoImplicit false

/-! # What the teardown of chores takes back

Chores were done for an owner who had nothing before, and the plan of its duty names their objects
against their order (`Duty.TakesBack`). Then the teardown deletes what the chores have created, the
last first. Whatever else was stored, under the paths of the chores too, was not the owner's and stays
(`Duty.TakesBack.undone`). -/

namespace EdgeOperator

open Program Cluster

variable {kind : Kind} {clock : Nat → Timestamp} {owner : Owner}

/-- The object of a chore as a plan names it. -/
def Chore.step (chore : Chore) : TeardownStep :=
  ⟨.plain chore.kind, chore.planned.key⟩

namespace Cluster

/-- Whether an owner controls nothing that is stored. -/
def HasNothingOf (cluster : Cluster) (owner : Owner) : Prop :=
  ∀ path object, cluster.objects.get? path = some object → owner.controls object.metadata = false

theorem HasNothingOf.owns_eq_false {cluster : Cluster} (h : cluster.HasNothingOf owner)
    (step : TeardownStep) : cluster.owns owner step = false := by
  refine eq_false_of_ne_true fun howns => ?_
  obtain ⟨current, hcurrent, hcontrols⟩ := owns_eq_true.1 howns
  exact absurd hcontrols (ne_true_of_eq_false (h _ _ (find?_eq_some.1 hcurrent)))

/-- Whether a cluster holds, besides what another one holds, just what chores have found missing
there, and the owner has that and nothing else of a plan. What is at the place of the resource and
what is spared is left open. -/
structure Adds (owner : Owner) (extra : List TeardownStep) (chores : List Chore) (place : String)
    (spared : List String) (first now : Cluster) : Prop where
  owns_extra : ∀ step ∈ extra, now.owns owner step = false
  owns_chore : ∀ chore ∈ chores, now.owns owner chore.step = first.lacks chore
  missing : ∀ chore ∈ chores, first.lacks chore = true → first.objects.get? chore.path = none
  not_spared : ∀ chore ∈ chores, chore.path ∉ spared
  kept : ∀ path, path ≠ place → path ∉ spared →
    now.objects.get? path = first.objects.get? path ∨
      ∃ chore ∈ chores, first.lacks chore = true ∧ chore.path = path

variable {first now cleared : Cluster} {extra : List TeardownStep} {chores : List Chore}
  {place : String} {spared : List String}

/-- What the owner has of the plan are the objects that were created, in the opposite order. -/
theorem Adds.filter_owns (h : Adds owner extra chores place spared first now) :
    (extra ++ (chores.map Chore.step).reverse).filter (now.owns owner) =
      ((chores.filter first.lacks).map Chore.step).reverse := by
  have hextra : extra.filter (now.owns owner) = [] :=
    List.filter_eq_nil_iff.2 fun step hmem => by simp [h.owns_extra step hmem]
  have hchores : chores.filter (now.owns owner ∘ Chore.step) = chores.filter first.lacks :=
    List.filter_congr h.owns_chore
  rw [List.filter_append, hextra, List.nil_append, List.filter_reverse, List.filter_map, hchores]

/-- When all of that is deleted, the cluster holds what the other one holds. -/
theorem Adds.restored (h : Adds owner extra chores place spared first now)
    {deleted : List TeardownStep}
    (hcleared : Cleared owner (extra ++ (chores.map Chore.step).reverse) now deleted cleared) :
    (∀ path, path ≠ place → path ∉ spared →
      cleared.objects.get? path = first.objects.get? path) ∧
      ∀ path, path ∈ spared → cleared.objects.get? path = now.objects.get? path := by
  -- what the owner has of the plan was created by a chore
  have hchore : ∀ step ∈ extra ++ (chores.map Chore.step).reverse, now.owns owner step = true →
      ∃ chore ∈ chores, first.lacks chore = true ∧ chore.step = step := by
    intro step hmem howns
    rcases List.mem_append.1 hmem with hmem | hmem
    · rw [h.owns_extra step hmem] at howns
      cases howns
    · obtain ⟨chore, hchore, rfl⟩ := List.mem_map.1 (List.mem_reverse.1 hmem)
      exact ⟨chore, hchore, (h.owns_chore chore hchore).symm.trans howns, rfl⟩
  refine ⟨fun path hplace hspared => ?_, fun path hspared => hcleared.kept path ?_⟩
  · by_cases hlacked : ∃ chore ∈ chores, first.lacks chore = true ∧ chore.path = path
    · obtain ⟨chore, hmem, hlacks, rfl⟩ := hlacked
      have hplan : chore.step ∈ extra ++ (chores.map Chore.step).reverse :=
        List.mem_append_right _ (List.mem_reverse.2 (List.mem_map_of_mem hmem))
      have hgone := hcleared.gone chore.step hplan ((h.owns_chore chore hmem).trans hlacks)
      exact hgone.trans (h.missing chore hmem hlacks).symm
    · rw [hcleared.kept path, (h.kept path hplace hspared).resolve_right hlacked]
      rintro step hstep howns rfl
      obtain ⟨chore, hmem, hlacks, rfl⟩ := hchore step hstep howns
      exact hlacked ⟨chore, hmem, hlacks, rfl⟩
  · rintro step hstep howns rfl
    obtain ⟨chore, hmem, _, rfl⟩ := hchore step hstep howns
    exact h.not_spared chore hmem hspared

end Cluster

/-! ## What plans take back -/

/-- Whether the plan of a duty takes chores back: it names their objects against their order, each
of them is planned for the owner, and nothing will hold it. -/
structure Duty.TakesBack (duty : Duty kind) (owner : Owner) (extra : List TeardownStep)
    (chores : List Chore) : Prop where
  plan_eq : duty.teardownPlan owner = extra ++ (chores.map Chore.step).reverse
  distinct : (duty.teardownPlan owner).Pairwise fun step other =>
    step.kind = other.kind → step.path ≠ other.path
  controlled : ∀ chore ∈ chores, owner.controls chore.planned.metadata = true
  live : ∀ chore ∈ chores, chore.planned.metadata.isDeleted = false
  unheld : ∀ chore ∈ chores, chore.planned.metadata.finalizers = []

/-- Who was made the only owner of an object shares its control with those of the same identity. -/
theorem Owner.controls_iff_of_ownerReferences {object : Resource kind} {m : Metadata}
    {maker : Owner} (hmaker : Owner.ofResource object = .ok maker)
    (hreferences : m.ownerReferences = [maker.reference]) :
    owner.controls m = true ↔ owner.reference.uid = maker.reference.uid := by
  obtain ⟨name, scope, uid, _, _, _, rfl⟩ := Owner.ofResource_eq_ok.1 hmaker
  unfold Owner.controls
  rw [hreferences]
  simpa using eq_comm

theorem Owner.controls_of_ownerReferences {object : Resource kind} {m : Metadata}
    (howner : Owner.ofResource object = .ok owner)
    (hreferences : m.ownerReferences = [owner.reference]) : owner.controls m = true :=
  (controls_iff_of_ownerReferences howner hreferences).2 rfl

theorem Duty.anchor_takesBack {object : Resource kind}
    (howner : Owner.ofResource object = .ok owner) :
    anchor.TakesBack owner [⟨.ingress, routingKey owner.namespaceName⟩]
      (Component.creationOrder.map (Chore.ofComponent owner)) := by
  have hstep : ∀ component : Component,
      (Chore.ofComponent owner component).step = component.teardownStep owner :=
    fun component => congrArg (TeardownStep.mk _) (component.key_blueprint owner)
  have hplan : anchor.teardownPlan owner = [⟨.ingress, routingKey owner.namespaceName⟩] ++
      ((Component.creationOrder.map (Chore.ofComponent owner)).map Chore.step).reverse := by
    have hsteps : Chore.step ∘ Chore.ofComponent owner = (·.teardownStep owner) := funext hstep
    rw [List.map_map, hsteps, ← List.map_reverse]
    rfl
  refine ⟨hplan, ?_, ?_, ?_, ?_⟩
  · refine List.pairwise_cons.2 ⟨fun step hmem heq => ?_, ?_⟩
    · obtain ⟨component, _, rfl⟩ := List.mem_map.1 hmem
      cases heq
    · refine List.pairwise_map.2 ((List.nodup_reverse.2 Component.nodup_creationOrder).imp ?_)
      intro component other hne hkind
      exact Component.path_ne_of_kind_eq owner (Kind.plain.inj hkind) hne
  all_goals
    intro chore hmem
    obtain ⟨component, _, rfl⟩ := List.mem_map.1 hmem
  · exact Owner.controls_of_ownerReferences howner (component.ownerReferences_blueprint owner)
  · cases component <;> rfl
  · cases component <;> rfl

theorem Duty.frontend_takesBack {object : Resource kind}
    (howner : Owner.ofResource object = .ok owner) (attempts : Nat) (spec : FrontendSpec) :
    (frontend attempts).TakesBack owner [] (Chore.ofWorkload owner spec) := by
  refine ⟨rfl, ?_, ?_, ?_, ?_⟩
  · change (owner.frontendTeardown).Pairwise _
    simp [Owner.frontendTeardown]
  all_goals
    intro chore hmem
    simp only [Chore.ofWorkload, List.mem_cons, List.not_mem_nil, or_false] at hmem
  · rcases hmem with rfl | rfl <;> exact Owner.controls_of_ownerReferences howner rfl
  · rcases hmem with rfl | rfl <;> rfl
  · rcases hmem with rfl | rfl <;> rfl

/-! ## Deletion and second pass -/

namespace Cluster

/-- Whether a call goes well, and what holds then. -/
def Succeeds (server : Server) (request : Request) (cluster : Cluster) (post : Cluster → Prop) :
    Prop :=
  ∃ answer after, server request cluster = (.ok answer, after) ∧ post after

theorem Succeeds.mono {server : Server} {request : Request} {cluster : Cluster}
    {post weaker : Cluster → Prop} (h : Succeeds server request cluster post)
    (himp : ∀ after, post after → weaker after) : Succeeds server request cluster weaker := by
  obtain ⟨answer, after, hserver, hpost⟩ := h
  exact ⟨answer, after, hserver, himp after hpost⟩

variable {place : String} {cell : AnyResource} {first now condemned : Cluster}
  {chores : List Chore} {chore : Chore} {exchanges : List Exchange}

/-- What a chore has created is as it was planned. -/
theorem Furnished.outline_eq (h : Furnished place cell first chores exchanges now)
    (hmem : chore ∈ chores.filter first.lacks) {object : Resource (.plain chore.kind)}
    (hfind : now.find? (.plain chore.kind) chore.path = some object) :
    object.outline = chore.planned.wholeSeconds.outline := by
  obtain ⟨stored, hget, houtline⟩ := h.built chore hmem
  obtain rfl := Option.some.inj (hget.symm.trans (find?_eq_some.1 hfind))
  exact eq_of_heq (AnyResource.mk.inj houtline).2

/-- Of the objects of its chores an owner who had nothing has just those that were created. -/
theorem Furnished.owns_chore (h : Furnished place cell first chores exchanges now)
    (hplace : first.objects.get? place = none) (hnothing : first.HasNothingOf owner)
    (hmem : chore ∈ chores) (hcontrols : owner.controls chore.planned.metadata = true)
    (hsame : condemned.objects.get? chore.path = now.objects.get? chore.path) :
    condemned.owns owner chore.step = first.lacks chore := by
  obtain ⟨object, hobject⟩ := h.present (find?_of_absent hplace) hmem
  have hfind : condemned.find? chore.step.kind chore.step.path = some object :=
    (find?_congr hsame).trans hobject
  rw [owns_of_find? hfind]
  change owner.controls object.metadata = first.lacks chore
  -- a created object is the owner's; one that was there already is not, since the owner had nothing
  cases hlacks : first.lacks chore with
  | true =>
    have houtline := h.outline_eq (List.mem_filter.2 ⟨hmem, hlacks⟩) hobject
    change owner.controls object.outline.metadata = true
    rw [houtline]
    exact hcontrols
  | false =>
    have hfirst : (first.find? (.plain chore.kind) chore.path).isSome = true := by
      simpa [lacks] using hlacks
    obtain ⟨stored, hstored⟩ := Option.isSome_iff_exists.1 hfirst
    have hkept := h.kept (h.path_ne hobject) (find?_eq_some.1 hstored)
    obtain rfl : stored = object := Option.some.inj ((find?_eq_some.2 hkept).symm.trans hobject)
    exact hnothing _ _ (find?_eq_some.1 hstored)

/-- Chores are not about the place of the resource. -/
theorem Furnished.path_ne_place (h : Furnished place cell first chores exchanges now)
    (hplace : first.objects.get? place = none) (hmem : chore ∈ chores) : chore.path ≠ place := by
  obtain ⟨object, hobject⟩ := h.present (find?_of_absent hplace) hmem
  exact h.path_ne hobject

/-- What is there when all chores are done is what was there and what they have created. -/
theorem Furnished.adds (h : Furnished place cell first chores exchanges now)
    (hplace : first.objects.get? place = none) (hnothing : first.HasNothingOf owner)
    (hcontrolled : ∀ chore ∈ chores, owner.controls chore.planned.metadata = true)
    {extra : List TeardownStep} {spared : List String}
    (hspared : ∀ chore ∈ chores, chore.path ∉ spared)
    (hextra : ∀ step ∈ extra, condemned.owns owner step = false)
    (hothers : ∀ path, path ≠ place → path ∉ spared →
      condemned.objects.get? path = now.objects.get? path) :
    Adds owner extra chores place spared first condemned := by
  refine ⟨hextra, fun chore hmem => ?_, fun chore hmem hlacks => ?_, hspared,
    fun path hne hpath => ?_⟩
  · exact h.owns_chore hplace hnothing hmem (hcontrolled chore hmem)
      (hothers _ (h.path_ne_place hplace hmem) (hspared chore hmem))
  · exact h.missing (List.mem_filter.2 ⟨hmem, hlacks⟩)
  · rw [hothers path hne hpath]
    cases hfirst : first.objects.get? path with
    | some stored => exact Or.inl (h.kept hne hfirst)
    | none =>
      cases hnow : now.objects.get? path with
      | none => exact Or.inl rfl
      | some stored =>
        obtain ⟨chore, hmem, rfl, _⟩ := h.added hne hfirst hnow
        obtain ⟨hmem, hlacks⟩ := List.mem_filter.1 hmem
        exact Or.inr ⟨chore, hmem, hlacks, rfl⟩

/-- Nothing holds back what chores have created for an owner. -/
theorem Furnished.letsRemove (h : Furnished place cell first chores exchanges now)
    (hmem : chore ∈ chores.filter first.lacks)
    (hlive : chore.planned.metadata.isDeleted = false)
    (hunheld : chore.planned.metadata.finalizers = [])
    (hsame : condemned.objects.get? chore.path = now.objects.get? chore.path) :
    condemned.LetsRemove owner chore.step := by
  intro (object : Resource (.plain chore.kind)) hobject _
  have houtline := h.outline_eq hmem ((find?_congr hsame).symm.trans hobject)
  constructor
  · change object.outline.metadata.isDeleted = false
    rw [houtline, ← hlive]
    exact Option.isSome_map
  · change object.outline.metadata.finalizers = []
    rw [houtline]
    exact hunheld

end Cluster

namespace Duty

/-- Whether a resource is created and gets a pass, and what holds of the pass. -/
def Arrives (duty : Duty kind) (clock : Nat → Timestamp) (fresh : Resource kind) (cluster : Cluster)
    (post : List Exchange → Except OperatorError PassOutcome → Cluster → Prop) : Prop :=
  Succeeds (serveAt clock) (.create kind fresh) cluster fun born =>
    (duty.pass fresh.key).Unfolds (serveAt clock) born post

/-- Whether a resource is deleted and the pass that follows tears down, and what holds then. -/
def Departs (duty : Duty kind) (clock : Nat → Timestamp) (key : ObjectKey) (cluster : Cluster)
    (post : List Exchange → Cluster → Prop) : Prop :=
  Succeeds (serveAt clock) (.delete kind key) cluster fun condemned =>
    (duty.pass key).Unfolds (serveAt clock) condemned fun removing outcome after =>
      outcome = .ok .tornDown ∧ post removing after

theorem Departs.mono {duty : Duty kind} {key : ObjectKey} {cluster : Cluster}
    {post weaker : List Exchange → Cluster → Prop} (h : duty.Departs clock key cluster post)
    (himp : ∀ removing after, post removing after → weaker removing after) :
    duty.Departs clock key cluster weaker :=
  Succeeds.mono h fun _ hpass => Unfolds.mono hpass fun removing _ after ⟨hdone, hpost⟩ =>
    ⟨hdone, himp removing after hpost⟩

variable {duty : Duty kind} {key : ObjectKey} {current : Resource kind}
  {first equipped installed condemned : Cluster} {extra : List TeardownStep} {chores : List Chore}
  {exchanges : List Exchange} {spared : List String}

/-- Whether chores are done for a resource that lives and that nothing but its mark holds. -/
structure Attends (duty : Duty kind) (owner : Owner) (place : String) (first : Cluster)
    (done : List Chore) (exchanges : List Exchange) (now : Cluster) (current : Resource kind) :
    Prop where
  furnished : Furnished place ⟨kind, current⟩ first done exchanges now
  live : current.metadata.isDeleted = false
  finalizers_eq : current.metadata.finalizers = [duty.mark]
  owner_eq : Owner.ofResource current = .ok owner

/-- Whether a cluster is as another one with the deletion of a resource asked for, which nothing but
its mark keeps from going. -/
structure Condemns (duty : Duty kind) (owner : Owner) (place : String) (before after : Cluster) :
    Prop where
  quiet : after.IsQuiet
  others : ∀ path, path ≠ place → after.objects.get? path = before.objects.get? path
  leaves : ∀ other, other ≠ kind → Leaves other before after
  condemned : ∃ object, after.find? kind place = some object ∧
    object.metadata.isDeleted = true ∧ object.metadata.finalizers = [duty.mark] ∧
      Owner.ofResource object = .ok owner

theorem Attends.delete (h : duty.Attends owner (key.path kind) first chores exchanges equipped current)
    (hquiet : installed.IsQuiet)
    (hsame : installed.objects.get? (key.path kind) = equipped.objects.get? (key.path kind))
    {post : Cluster → Prop}
    (hpost : ∀ condemned, duty.Condemns owner (key.path kind) installed condemned → post condemned) :
    Succeeds (serveAt clock) (.delete kind key) installed post := by
  have hheld : installed.find? kind (key.path kind) = some current :=
    find?_eq_some.2 (hsame.trans h.furnished.held)
  obtain ⟨asked, condemned, hdelete, hcondemned, hobjects⟩ := hquiet.serve_delete clock hheld
  simp only [h.finalizers_eq, h.live, List.isEmpty_cons, Bool.false_eq_true, if_false] at hobjects
  refine ⟨(), condemned, hdelete, hpost condemned ⟨hcondemned, fun path hne => ?_,
    fun other hother => leaves_of_set hother.symm (find?_none_of_kind_ne hheld hother.symm) hobjects,
    (asked.marked current).wholeSeconds, ?_, rfl, h.finalizers_eq, h.owner_eq⟩⟩
  · rw [hobjects, StringMap.get?_set, if_neg hne.symm]
  · exact (find?_of_set hobjects ..).2 (Or.inl ⟨rfl, rfl⟩)

/-- Nothing holds back what the owner has of the plan. -/
theorem TakesBack.letsRemove (h : duty.TakesBack owner extra chores) {place : String}
    {cell : AnyResource} (hfree : first.objects.get? place = none)
    (hfurnished : Furnished place cell first chores exchanges equipped)
    (hadds : Adds owner extra chores place spared first condemned)
    (hsame : ∀ path, path ≠ place → path ∉ spared →
      condemned.objects.get? path = equipped.objects.get? path) :
    ∀ step ∈ duty.teardownPlan owner, condemned.LetsRemove owner step := by
  rw [h.plan_eq]
  intro step hmem object hobject hcontrols
  have howns := owns_eq_true.2 ⟨object, hobject, hcontrols⟩
  rcases List.mem_append.1 hmem with hmem | hmem
  · exact absurd howns (by simp [hadds.owns_extra step hmem])
  · obtain ⟨chore, hchore, rfl⟩ := List.mem_map.1 (List.mem_reverse.1 hmem)
    have hlacks := (hadds.owns_chore chore hchore).symm.trans howns
    have hpath := hsame _ (hfurnished.path_ne_place hfree hchore) (hadds.not_spared chore hchore)
    exact hfurnished.letsRemove (List.mem_filter.2 ⟨hchore, hlacks⟩) (h.live chore hchore)
      (h.unheld chore hchore) hpath object hobject hcontrols

/-- A resource whose chores are done can be deleted, and the pass that follows deletes what they have
created and leaves the rest. -/
theorem TakesBack.undone (h : duty.TakesBack owner extra chores) (hduty : duty.IsOperators)
    (hfree : first.objects.get? (key.path kind) = none) (hnothing : first.HasNothingOf owner)
    (hattends : duty.Attends owner (key.path kind) first chores exchanges equipped current)
    (hquiet : installed.IsQuiet) (hplace : key.path kind ∉ spared)
    (hspared : ∀ chore ∈ chores, chore.path ∉ spared)
    (hothers : ∀ path, path ∉ spared →
      installed.objects.get? path = equipped.objects.get? path)
    (hextra : ∀ step ∈ extra, installed.owns owner step = false) :
    duty.Departs clock key installed fun removing after =>
      after.IsQuiet ∧ deletions removing = ((made exchanges).map AnyResource.step).reverse ∧
        (∀ path, path ∉ spared → after.objects.get? path = first.objects.get? path) ∧
        ∀ path, path ∈ spared → after.objects.get? path = installed.objects.get? path := by
  have hfurnished := hattends.furnished
  refine hattends.delete hquiet (hothers _ hplace) fun condemned hcondemns => ?_
  obtain ⟨object, hfind, hdeleted, hmark, howner⟩ := hcondemns.condemned
  have hsame : ∀ path, path ≠ key.path kind → path ∉ spared →
      condemned.objects.get? path = equipped.objects.get? path :=
    fun path hne hpath => (hcondemns.others path hne).trans (hothers path hpath)
  have hstill : ∀ step ∈ extra, condemned.owns owner step = false := by
    intro step hmem
    have hne := hduty.kind_ne owner step (h.plan_eq ▸ List.mem_append_left _ hmem)
    rw [owns_of_find? ((hcondemns.leaves step.kind hne).find?_eq step.path)]
    exact hextra step hmem
  have hadds := hfurnished.adds hfree hnothing h.controlled hspared hstill hsame
  have hpass : (duty.pass key).Unfolds (serveAt clock) condemned _ :=
    pass_dismantles hduty hcondemns.quiet hfind hdeleted hmark howner h.distinct
      (h.letsRemove hfree hfurnished hadds hsame)
  refine hpass.mono ?_
  rintro removing result after ⟨hok, cleared, hcleared, hafter, hobjects⟩
  rw [h.plan_eq] at hcleared
  obtain ⟨hrestored, hkept⟩ := hadds.restored hcleared
  have herased : ∀ path, after.objects.get? path =
      if key.path kind = path then none else cleared.objects.get? path := by
    intro path
    rw [hobjects]
    exact StringMap.get?_erase ..
  refine ⟨hok, hafter, ?_, fun path hpath => ?_, fun path hpath => ?_⟩
  · -- the owner has of the plan what the chores have created
    rw [hcleared.deleted_eq, hadds.filter_owns, hfurnished.made_eq, List.map_map]
    rfl
  · rw [herased]
    split
    · next heq => rw [← heq, hfree]
    · next hne => exact hrestored path (Ne.symm hne) hpath
  · have hne : key.path kind ≠ path := fun heq => hplace (heq ▸ hpath)
    rw [herased, if_neg hne, hkept path hpath, hcondemns.others path hne.symm]

end Duty

end EdgeOperator
