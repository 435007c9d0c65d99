import EdgeOperator.Proofs.Ownership.Install
import EdgeOperator.Proofs.Route.Attempts

set_option autoImplicit false

/-! # Whom a routing ingress belongs to

The pass for a frontend creates the routing ingress of a namespace on behalf of an anchor: the first
one of the namespace, as the pass found it. It writes no anchor itself, so the anchors are the same
before the pass, at the creation and after the pass. Ingresses that were there before keep their
owners (`Duty.frontend_pass_adopts`). -/

namespace EdgeOperator

open Program

namespace Cluster

variable {scope : String} {before middle after cluster : Cluster}

/-! ## Ingresses and their owners -/

/-- Whether an ingress was not there and belongs to the first anchor of a namespace. -/
def IsAdopted (before : Cluster) (scope path : String) (ingress : Resource .ingress) : Prop :=
  before.find? .ingress path = none ∧
    ∃ anchor owner, Anchor.first? (before.listed .anchor (some scope)) = some anchor ∧
      Owner.ofResource anchor = .ok owner ∧ routingPath owner.namespaceName = path ∧
        ingress.metadata.ownerReferences = [owner.reference]

/-- Whether all ingresses have the owners they had, or are adopted by the first anchor of a
namespace. -/
def Adopts (scope : String) (before after : Cluster) : Prop :=
  ∀ path ingress, after.find? .ingress path = some ingress →
    (∃ old, before.find? .ingress path = some old ∧
      ingress.metadata.ownerReferences = old.metadata.ownerReferences) ∨
    before.IsAdopted scope path ingress

/-- The same for the namespace of a frontend. -/
def AdoptsFor (key : ObjectKey) (before after : Cluster) : Prop :=
  BringsNo .ingress before after ∨ ∃ object scope,
    before.find? .frontend (key.path .frontend) = some object ∧
      object.metadata.namespaceName? = some scope ∧ Adopts scope before after

theorem adopts_of_bringsNo (h : BringsNo .ingress before after) : Adopts scope before after :=
  fun path ingress hfind => Or.inl (h path ingress hfind)

theorem Leaves.retains {α : Type} {view : Metadata → α} {kind : Kind}
    (h : Leaves kind before after) : Retains view kind before after := by
  intro path object hfind
  exact ⟨object, (h.find?_eq path).symm.trans hfind, rfl⟩

theorem Adopts.after_leaves (h : Adopts scope middle after)
    (hingress : Leaves .ingress before middle) (hanchor : Leaves .anchor before middle) :
    Adopts scope before after := by
  intro path ingress hfind
  rcases h path ingress hfind with ⟨old, hold, heq⟩ | ⟨hnone, anchor, owner, hfirst, hrest⟩
  · exact Or.inl ⟨old, (hingress.find?_eq path).symm.trans hold, heq⟩
  · refine Or.inr ⟨(hingress.find?_eq path).symm.trans hnone, anchor, owner, ?_, hrest⟩
    rwa [← hanchor.listed_eq]

/-- What the merge of a route leaves: an ingress that it has created is adopted. -/
theorem adopts_of_routed {task : RouteTask} (hsound : before.Sound)
    (h : task.IsRouted before after) : Adopts task.frontend.namespaceName before after := by
  intro path ingress hfind
  have hentry : task.routed before before.outline path = some ⟨.ingress, ingress.outline⟩ :=
    h.outline_eq ▸ outline_of_find? hfind
  have hold : before.outline path = some ⟨.ingress, ingress.outline⟩ →
      ∃ old, before.find? .ingress path = some old ∧
        ingress.metadata.ownerReferences = old.metadata.ownerReferences := by
    intro houtline
    obtain ⟨old, hstored, heq⟩ := find?_of_outline houtline
    exact ⟨old, hstored, congrArg (·.metadata.ownerReferences) heq.symm⟩
  unfold RouteTask.routed at hentry
  cases hwrite : task.write? before with
  | none =>
    rw [hwrite] at hentry
    exact Or.inl (hold hentry)
  | some written =>
    obtain ⟨place, written?⟩ := written
    rw [hwrite] at hentry
    by_cases hplace : path = place
    · subst hplace
      replace hentry := (Function.update_self ..).symm.trans hentry
      rcases RouteTask.write?_cases hwrite with
        ⟨read, hread, rfl, rfl⟩ | ⟨hnone, anchor, owner, hfirst, howner, rfl, rfl⟩
      · have hpath : (task.update read).path = task.key.path .ingress :=
          (hsound.kept (find?_eq_some.1 hread)).path_eq
        exact Or.inl ⟨read, hpath ▸ hread, Resource.ownerReferences_of_written? hentry⟩
      · exact Or.inr ⟨h.created hnone _ _ hwrite, anchor, owner, hfirst, howner, rfl,
          Resource.ownerReferences_of_written? hentry⟩
    · exact Or.inl (hold ((Function.update_of_ne hplace ..).symm.trans hentry))

end Cluster

/-! ## Passes for frontends -/

variable {cluster : Cluster}

theorem Request.Plants.writtenKind?_ne {owner : Owner} {plan : List TeardownStep} {kind : Kind}
    {request : Request} (h : request.Plants owner plan) (hkind : ∀ plain, kind ≠ .plain plain) :
    request.writtenKind? ≠ some kind := by
  cases h with
  | look other key => simp [writtenKind?]
  | @create plain object key _ _ _ => exact fun heq => hkind plain (Option.some.inj heq).symm

theorem Request.Routes.writtenKind?_ne {kind : Kind} {request : Request} (h : request.Routes)
    (hkind : kind ≠ .ingress) : request.writtenKind? ≠ some kind := by
  cases h with
  | look other key => simp [writtenKind?]
  | list other namespaceName? => simp [writtenKind?]
  | create object => exact fun heq => hkind (Option.some.inj heq).symm
  | replace object => exact fun heq => hkind (Option.some.inj heq).symm

/-- What plants objects of plain kinds leaves ingresses and anchors. -/
theorem run_leaves_of_plants {α : Type} {program : Program α} {owner : Owner}
    {plan : List TeardownStep} (hcalm : cluster.IsCalm)
    (hprogram : program.OnlyAsks (Request.Plants owner plan)) :
    program.Ends Cluster.serve cluster fun _ after => after.IsCalm ∧
      Cluster.Leaves .ingress cluster after ∧ Cluster.Leaves .anchor cluster after := by
  have hingress := Cluster.isFaithful_serve.run_leaves hcalm (hprogram.mono fun _ hplants =>
    hplants.writtenKind?_ne (by simp : ∀ plain, Kind.ingress ≠ .plain plain))
  have hanchor := Cluster.isFaithful_serve.run_leaves hcalm (hprogram.mono fun _ hplants =>
    hplants.writtenKind?_ne (by simp : ∀ plain, Kind.anchor ≠ .plain plain))
  exact ⟨hingress.1, hingress.2, hanchor.2⟩

namespace Duty

/-- However many attempts at a route are made, an ingress that they create is adopted. -/
theorem retryRoute_adopts (task : RouteTask) (total left : Nat) (hcalm : cluster.IsCalm) :
    (retryRoute task.frontend task.spec total left).Ends Cluster.serve cluster fun _ after =>
      Cluster.Adopts task.frontend.namespaceName cluster after := by
  refine (task.retryRoute_routed Cluster.isFaithful_serve total left hcalm).mono ?_
  rintro result after ⟨_, h⟩
  cases result with
  | ok _ => exact Cluster.adopts_of_routed hcalm.sound h
  | error e => exact Cluster.adopts_of_bringsNo (Cluster.retains_of_objects h .ingress)

theorem frontend_install_adopts (attempts : Nat) (owner : Owner) (read : Resource .frontend)
    (hcalm : cluster.IsCalm) :
    ((frontend attempts).install owner read).Ends Cluster.serve cluster fun _ after =>
      Cluster.Adopts owner.namespaceName cluster after := by
  let spec : FrontendSpec := FrontendContent.spec read.content
  refine Ends.bind (run_leaves_of_plants hcalm (ensureService_plants owner spec)) ?_
    fun e middle ⟨_, hingress, _⟩ => Cluster.adopts_of_bringsNo hingress.retains
  rintro _ first ⟨hfirst, hingress, hanchor⟩
  refine Ends.bind (run_leaves_of_plants hfirst (ensureDeployment_plants owner spec)) ?_
    fun e middle ⟨_, hingress', _⟩ =>
      Cluster.adopts_of_bringsNo (hingress.trans hingress').retains
  rintro _ second ⟨hsecond, hingress', hanchor'⟩
  -- the anchors and ingresses that the attempts meet are those from before the installation
  have hadopts : ∀ after, Cluster.Adopts owner.namespaceName second after →
      Cluster.Adopts owner.namespaceName cluster after :=
    fun _ h => h.after_leaves (hingress.trans hingress') (hanchor.trans hanchor')
  exact Ends.bind (retryRoute_adopts ⟨owner, spec, attempts⟩ attempts attempts hsecond)
    (fun _ after h => hadopts after h) fun _ after h => hadopts after h

theorem frontend_settle_adopts (attempts : Nat) {key : ObjectKey} {before : Cluster}
    {stored object : Resource .frontend}
    (hfind : before.find? .frontend (key.path .frontend) = some object)
    (hsame : Owner.ofResource stored = Owner.ofResource object)
    (hingress : Cluster.Leaves .ingress before cluster)
    (hanchor : Cluster.Leaves .anchor before cluster) (hcalm : cluster.IsCalm) :
    ((frontend attempts).settle stored object).Ends Cluster.serve cluster fun _ after =>
      Cluster.AdoptsFor key before after := by
  unfold settle
  rw [hsame]
  cases howner : Owner.ofResource object with
  | error e => exact Or.inl hingress.retains
  | ok owner =>
    have hadopts : ∀ after, Cluster.Adopts owner.namespaceName cluster after →
        Cluster.AdoptsFor key before after := by
      intro after h
      exact Or.inr ⟨object, _, hfind, Owner.namespaceName?_of_ofResource howner,
        h.after_leaves hingress hanchor⟩
    exact (frontend_install_adopts attempts owner object hcalm).bind
      (fun _ after h => hadopts after h) fun _ after h => hadopts after h

/-- The plan for a frontend names objects of plain kinds only. -/
theorem writtenKind?_ne_of_frontendTeardown {kind : Kind} (hkind : ∀ plain, kind ≠ .plain plain)
    (owner : Owner) : ∀ step ∈ owner.frontendTeardown,
      (Request.delete step.kind step.key).writtenKind? ≠ some kind :=
  List.forall_mem_cons.2 ⟨fun heq => hkind _ (Option.some.inj heq).symm,
    List.forall_mem_singleton.2 fun heq => hkind _ (Option.some.inj heq).symm⟩

/-- A pass for a frontend leaves ingresses with their owners, and one that it creates is adopted by
the first anchor in the namespace of the frontend. -/
theorem frontend_pass_adopts (attempts : Nat) (key : ObjectKey) (hcalm : cluster.IsCalm) :
    ((frontend attempts).pass key).Ends Cluster.serve cluster fun _ after =>
      Cluster.AdoptsFor key cluster after := by
  have hlooked := hcalm.serve (.get .frontend key)
  have hobjects : (Cluster.serve (.get .frontend key) cluster).2.objects = cluster.objects := by
    rw [Cluster.serve_get_objects]
  have hleft := Cluster.leaves_of_objects hobjects
  rw [pass_eq, ends_bind, ends_perform]
  rcases hanswer : (Cluster.serve (.get .frontend key) cluster).1 with e | _ | object
  · exact Or.inl (hleft .ingress).retains
  · exact Or.inl (hleft .ingress).retains
  have hfind := Cluster.find?_of_serve_get hanswer
  dsimp only [serveFound]
  cases hstage : object.metadata.lifeStage (frontend attempts).mark with
  | released => exact Or.inl (hleft .ingress).retains
  | tearingDown =>
    -- the plan for a frontend names no ingress: the route stays behind
    have hdismantle : ((frontend attempts).dismantle object).OnlyAsks fun request =>
        request.writtenKind? ≠ some .ingress :=
      dismantle_onlyAsks (fun _ _ => by simp [Request.writtenKind?])
        (writtenKind?_ne_of_frontendTeardown (by simp))
        (by simp [Request.writtenKind?])
    exact (Cluster.isFaithful_serve.run_leaves hlooked hdismantle).mono fun _ after ⟨_, hrest⟩ =>
      Or.inl ((hleft .ingress).trans hrest).retains
  | unmarked =>
    have hregister : (register object (frontend attempts).mark).OnlyAsks fun request =>
        ∀ kind, kind ≠ .frontend → request.writtenKind? ≠ some kind :=
      .perform fun kind hkind heq => hkind (Option.some.inj heq).symm
    have hingress := Cluster.isFaithful_serve.run_leaves hlooked
      (hregister.mono fun _ h => h .ingress (by simp))
    have hanchor := Cluster.isFaithful_serve.run_leaves hlooked
      (hregister.mono fun _ h => h .anchor (by simp))
    have htends := register_tends hlooked (((hleft .frontend).find?_eq _).trans hfind) hstage
    refine ((hingress.and hanchor).and htends).bind ?_ ?_
    · rintro stored middle ⟨⟨⟨hmiddle, hingress⟩, ⟨_, hanchor⟩⟩, _, hstored⟩
      exact frontend_settle_adopts attempts hfind (hstored stored rfl).1
        ((hleft .ingress).trans hingress) ((hleft .anchor).trans hanchor) hmiddle
    · exact fun e middle ⟨⟨⟨_, hingress⟩, _⟩, _⟩ =>
        Or.inl ((hleft .ingress).trans hingress).retains
  | marked =>
    exact frontend_settle_adopts attempts hfind rfl (hleft .ingress) (hleft .anchor) hlooked

/-- A pass for a frontend writes no anchor. -/
theorem frontend_pass_leaves (attempts : Nat) (key : ObjectKey) (hcalm : cluster.IsCalm) :
    ((frontend attempts).pass key).Ends Cluster.serve cluster fun _ after =>
      after.IsCalm ∧ Cluster.Leaves .anchor cluster after := by
  refine Cluster.isFaithful_serve.run_leaves hcalm
    (pass_onlyAsks (fun _ _ => by simp [Request.writtenKind?])
      (writtenKind?_ne_of_frontendTeardown (by simp)) (fun _ => by simp [Request.writtenKind?])
      (fun owner read => ?_) key)
  exact (frontend_install_onlyAsks attempts owner read).mono fun request hrequest =>
    hrequest.elim (·.writtenKind?_ne (by simp)) (·.writtenKind?_ne (by simp))

end Duty

end EdgeOperator
