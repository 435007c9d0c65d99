import EdgeOperator.Proofs.Recovery.Installing
import EdgeOperator.Proofs.Recovery.Undoing
import EdgeOperator.Proofs.Route.Attempts

set_option autoImplicit false

/-! # Failed passes change no end

A pass can be cut off at any of its calls, and the next one starts from what it has left. From where
the first one starts, all that can come about lies on one way: a pass that fails stays on it, and a
pass that goes well comes to its end, which is the same for all (`Duty.Leads`). There is such a way
for each stage in the life of a resource (`Duty.exists_leads`), so passes that fail change neither
what the one that goes well comes to, nor what the cluster holds then (`Duty.retries_end_alike`). -/

namespace EdgeOperator

open Program Cluster

namespace Duty

variable {kind : Kind} {duty : Duty kind} {key : ObjectKey} {object : Resource kind} {owner : Owner}
  {chores : List Chore} {first now : Cluster} {place : String} {cell : AnyResource}
  {server : Cluster.Server}

/-! ## Installations -/

/-- Whether an installation that is cut off is underway with certain chores, and one that goes well
leaves these outlines with a finish. -/
def Installs (duty : Duty kind) (owner : Owner) (object : Resource kind) (chores : List Chore)
    (finish : Cluster → (String → Option AnyResource) → String → Option AnyResource) : Prop :=
  ∀ (server : Cluster.Server) (place : String) (cell : AnyResource) (first now : Cluster),
    IsFaithful server → Underway kind place cell chores first now →
      (duty.install owner object).Ends server now fun result after =>
        match result with
        | .error _ => Underway kind place cell chores first after
        | .ok _ => after.outline =
          finish first (Function.update (first.furnished chores) place (some cell.outline))

theorem ensureComponents_underway (hserver : IsFaithful server) (done : List Chore)
    {components : List Component}
    (h : Underway kind place cell (done ++ components.map (Chore.ofComponent owner)) first now)
    (hdone : ∀ earlier ∈ done, now.outline earlier.path ≠ none) :
    (ensureComponents owner components).Ends server now fun result after =>
      Underway kind place cell (done ++ components.map (Chore.ofComponent owner)) first after ∧
        (result = .ok () → ∀ chore ∈ done ++ components.map (Chore.ofComponent owner),
          after.outline chore.path ≠ none) := by
  induction components generalizing done now with
  | nil =>
    refine ends_pure.2 ⟨h, fun _ => ?_⟩
    rwa [List.map_nil, List.append_nil]
  | cons component rest ih =>
    have hstep : (component.ensure owner).Ends server now fun result after =>
        Underway kind place cell (done ++ (component :: rest).map (Chore.ofComponent owner)) first
          after ∧ ∀ outcome, result = .ok outcome →
            ∀ earlier ∈ done ++ [Chore.ofComponent owner component],
              after.outline earlier.path ≠ none := by
      have hensure := h.ensure hserver done rfl hdone
      refine Ends.bind (component.key_blueprint owner ▸ hensure) ?_ ?_
      · exact fun ensured after ⟨hunderway, hstored⟩ =>
          ends_pure.2 ⟨hunderway, fun _ _ => hstored ensured rfl⟩
      · exact fun e after ⟨hunderway, _⟩ => ⟨hunderway, by simp⟩
    have hsplit : done ++ (component :: rest).map (Chore.ofComponent owner) =
        done ++ [Chore.ofComponent owner component] ++ rest.map (Chore.ofComponent owner) := by
      simp
    refine hstep.bind ?_ fun e after ⟨hunderway, _⟩ => ⟨hunderway, by simp⟩
    rintro outcome middle ⟨hunderway, hstored⟩
    rw [hsplit] at hunderway ⊢
    exact ih _ hunderway (hstored outcome rfl)

/-- An anchor gets the components of its stack, and no more than that. -/
theorem anchor_installs (owner : Owner) (object : Resource .anchor) :
    anchor.Installs owner object (Component.creationOrder.map (Chore.ofComponent owner))
      fun _ outlines => outlines := by
  intro server place cell first now hserver h
  refine (ensureComponents_underway hserver [] h (by simp)).mono ?_
  rintro result after ⟨hunderway, hdone⟩
  cases result with
  | error e => exact hunderway
  | ok _ => exact hunderway.outline_eq (hdone rfl)

/-- A frontend gets its workload, and its route is merged in. -/
theorem frontend_installs (attempts : Nat) (owner : Owner) (object : Resource .frontend) :
    (frontend attempts).Installs owner object
      (Chore.ofWorkload owner (FrontendContent.spec object.content))
      (RouteTask.mk owner (FrontendContent.spec object.content) attempts).routed := by
  intro server place cell first now hserver h
  let task : RouteTask := ⟨owner, FrontendContent.spec object.content, attempts⟩
  refine Ends.bind (h.ensure hserver [] rfl (by simp)) ?_ fun e _ ⟨h, _⟩ => h
  rintro service second ⟨hsecond, hservice⟩
  refine Ends.bind (hsecond.ensure hserver [_] rfl (hservice service rfl)) ?_ fun e _ ⟨h, _⟩ => h
  rintro deployment third ⟨hthird, hdone⟩
  refine Ends.bind (task.retryRoute_routed hserver attempts attempts hthird.calm) ?_ ?_
  · rintro _ after ⟨_, hrouted⟩
    -- the ingresses and anchors are those from the start, and with them what the merge writes
    have hsame : task.routed third = task.routed first :=
      RouteTask.routed_congr (hthird.leaves .ingress (by simp) (by simp))
        (hthird.leaves .anchor (by simp) (by simp))
    refine ends_pure.2 ?_
    rw [hrouted.outline_eq, hsame, hthird.outline_eq (hdone deployment rfl)]
  · exact fun e after ⟨hcalm, hobjects⟩ => hthird.of_objects hcalm hobjects

/-- What is installed depends on what the resource asks for, and not on its metadata. -/
theorem IsOperators.install_congr (h : duty.IsOperators) {read other : Resource kind}
    (hcontent : read.content = other.content) :
    duty.install owner read = duty.install owner other := by
  obtain ⟨_, content⟩ := read
  obtain ⟨_, content'⟩ := other
  obtain rfl : content = content' := hcontent
  cases h <;> rfl

theorem IsOperators.exists_installs (h : duty.IsOperators) (object : Resource kind) :
    ∃ chores finish, ∀ owner, Owner.ofResource object = .ok owner →
      duty.Installs owner object chores finish := by
  cases howner : Owner.ofResource object with
  | error e => exact ⟨[], fun _ outlines => outlines, fun _ heq => nomatch heq⟩
  | ok owner =>
    have hinstalls : ∃ chores finish, duty.Installs owner object chores finish := by
      cases h with
      | anchor => exact ⟨_, _, anchor_installs owner object⟩
      | frontend attempts => exact ⟨_, _, frontend_installs attempts owner object⟩
    obtain ⟨chores, finish, hinstalls⟩ := hinstalls
    exact ⟨chores, finish, fun _ heq => Except.ok.inj heq ▸ hinstalls⟩

/-! ## The look at the resource -/

/-- A pass whose look fails has changed nothing; any other goes on with what is stored. -/
theorem ends_pass (hserver : IsFaithful server) (hcalm : now.IsCalm)
    {post : Except OperatorError PassOutcome → Cluster → Prop}
    (hfailed : ∀ e after, after.IsCalm → after.objects = now.objects → post (.error e) after)
    (hlooked : ∀ looked : Cluster, looked.IsCalm → looked.objects = now.objects →
      (duty.serveFound (now.find? kind (key.path kind))).Ends server looked post) :
    (duty.pass key).Ends server now post := by
  obtain ⟨hobjects, hlook⟩ := hserver.get_cases hcalm kind key
  have hcalm' := hserver.calm hcalm (.get kind key)
  rw [pass_eq, ends_bind, ends_perform]
  rcases hlook with ⟨e, hlook⟩ | hlook <;> rw [hlook]
  · exact hfailed e _ hcalm' hobjects
  · exact hlooked _ hcalm' hobjects

/-! ## Passes on a resource that lives -/

/-- A resource with its mark. -/
def marked (duty : Duty kind) (object : Resource kind) : Resource kind :=
  { object with metadata := object.metadata.addMark duty.mark }

/-- A resource as an installation finds it. -/
def claimed (duty : Duty kind) (object : Resource kind) : Resource kind :=
  if object.metadata.lifeStage duty.mark = .unmarked then duty.marked object else object

/-- Whether a cluster has come from another by passes for a resource that lives. -/
def LivesOn (duty : Duty kind) (object : Resource kind) (place : String) (chores : List Chore)
    (first now : Cluster) : Prop :=
  ∃ current : Resource kind, Underway kind place ⟨kind, current⟩ chores first now ∧
    (current.unversioned = object.unversioned ∨
      current.unversioned = (duty.claimed object).unversioned)

/-- The outlines that a pass leaves at its end. -/
def settledOutline (duty : Duty kind) (object : Resource kind) (place : String)
    (chores : List Chore)
    (finish : Cluster → (String → Option AnyResource) → String → Option AnyResource)
    (first : Cluster) : String → Option AnyResource :=
  finish first (Function.update (first.furnished chores) place
    (some ⟨kind, (duty.claimed object).outline⟩))

variable {finish : Cluster → (String → Option AnyResource) → String → Option AnyResource}

theorem lifeStage_of_unversioned {read other : Resource kind} {mark : String}
    (h : read.unversioned = other.unversioned) :
    read.metadata.lifeStage mark = other.metadata.lifeStage mark := by
  change read.unversioned.metadata.lifeStage mark = other.unversioned.metadata.lifeStage mark
  rw [h]

theorem ofResource_of_unversioned {read other : Resource kind}
    (h : read.unversioned = other.unversioned) :
    Owner.ofResource read = Owner.ofResource other := by
  change Owner.ofResource read.unversioned = Owner.ofResource other.unversioned
  rw [h]

theorem content_of_unversioned {read other : Resource kind}
    (h : read.unversioned = other.unversioned) : read.content = other.content := by
  change read.unversioned.content = other.unversioned.content
  rw [h]

theorem marked_unversioned {read other : Resource kind} (h : read.unversioned = other.unversioned) :
    (duty.marked read).unversioned = (duty.marked other).unversioned := by
  change (duty.marked read.unversioned).unversioned = (duty.marked other.unversioned).unversioned
  rw [h]

theorem marked_wholeSeconds {read : Resource kind} (h : read.wholeSeconds = read) :
    (duty.marked read).wholeSeconds = duty.marked read := by
  change duty.marked read.wholeSeconds = duty.marked read
  rw [h]

theorem ofResource_claimed (duty : Duty kind) (object : Resource kind) :
    Owner.ofResource (duty.claimed object) = Owner.ofResource object := by
  unfold claimed
  split <;> rfl

theorem content_claimed (duty : Duty kind) (object : Resource kind) :
    (duty.claimed object).content = object.content := by
  unfold claimed
  split <;> rfl

/-- On its way a resource that lives is as it was at the start and without its mark, or it is
claimed. -/
theorem stage_cases (hlive : object.metadata.isDeleted = false) {current : Resource kind}
    (h : current.unversioned = object.unversioned ∨
      current.unversioned = (duty.claimed object).unversioned) :
    (current.metadata.lifeStage duty.mark = .unmarked ∧ current.unversioned = object.unversioned ∧
      duty.claimed object = duty.marked object) ∨
    (current.metadata.lifeStage duty.mark = .marked ∧
      current.unversioned = (duty.claimed object).unversioned) := by
  by_cases hmark : duty.mark ∈ object.metadata.finalizers
  · have hstage := Metadata.lifeStage_eq_marked.2 ⟨hlive, hmark⟩
    have hclaimed : duty.claimed object = object := if_neg (by simp [hstage])
    rw [hclaimed, or_self] at h
    exact Or.inr ⟨(lifeStage_of_unversioned h).trans hstage, by rwa [hclaimed]⟩
  · have hstage := Metadata.lifeStage_eq_unmarked.2 ⟨hlive, hmark⟩
    have hclaimed : duty.claimed object = duty.marked object := if_pos hstage
    rcases h with h | h
    · exact Or.inl ⟨(lifeStage_of_unversioned h).trans hstage, h, hclaimed⟩
    · refine Or.inr ⟨(lifeStage_of_unversioned h).trans ?_, h⟩
      rw [hclaimed]
      have hmarked : duty.mark ∈ object.metadata.finalizers ++ [duty.mark] :=
        List.mem_append_right _ (List.mem_singleton_self _)
      exact Metadata.lifeStage_eq_marked.2 ⟨hlive, hmarked⟩

theorem settle_livesOn (hserver : IsFaithful server) (hduty : duty.IsOperators)
    (hinstalls : ∀ owner, Owner.ofResource object = .ok owner →
      duty.Installs owner object chores finish)
    {current stored read : Resource kind}
    (h : Underway kind place ⟨kind, current⟩ chores first now)
    (hclaimed : current.unversioned = (duty.claimed object).unversioned)
    (howner : Owner.ofResource stored = Owner.ofResource object)
    (hread : read.content = object.content) :
    (duty.settle stored read).Ends server now fun result after =>
      match result with
      | .error _ => duty.LivesOn object place chores first after
      | .ok outcome => outcome = .reconciled ∧
        after.outline = duty.settledOutline object place chores finish first := by
  unfold settle
  rw [howner]
  cases hobject : Owner.ofResource object with
  | error e => exact ends_fail.2 ⟨current, h, Or.inr hclaimed⟩
  | ok owner =>
    dsimp only
    rw [hduty.install_congr hread]
    refine (hinstalls owner hobject server place _ first now hserver h).bind ?_ ?_
    · intro _ after hafter
      refine ends_pure.2 ⟨rfl, hafter.trans ?_⟩
      unfold settledOutline
      rw [← Resource.outline_eq_of_unversioned hclaimed]
      rfl
    · exact fun e after hafter => ⟨current, hafter, Or.inr hclaimed⟩

/-- A registration that fails changes nothing; any other leaves the resource with its mark. -/
theorem register_underway (hserver : IsFaithful server) {current : Resource kind}
    (h : Underway kind (key.path kind) ⟨kind, current⟩ chores first now)
    (hstage : current.metadata.lifeStage duty.mark = .unmarked) :
    (register current duty.mark).Ends server now fun result after =>
      match result with
      | .error _ => Underway kind (key.path kind) ⟨kind, current⟩ chores first after
      | .ok stored => Owner.ofResource stored = Owner.ofResource current ∧
        ∃ next : Resource kind, next.unversioned = (duty.marked current).unversioned ∧
          Underway kind (key.path kind) ⟨kind, next⟩ chores first after := by
  have hkept := h.calm.sound.kept h.held
  have hpath : (duty.marked current).path = key.path kind := hkept.path_eq
  have hlive : (duty.marked current).metadata.isDeleted = false :=
    (Metadata.lifeStage_eq_unmarked.1 hstage).1
  have hread : now.find? kind (duty.marked current).path = some current :=
    hpath ▸ find?_eq_some.2 h.held
  have hcalm := hserver.calm h.calm (.replace kind (duty.marked current))
  have hregister : register current duty.mark =
      perform (.replace kind (duty.marked current)) := rfl
  rw [hregister, ends_perform]
  rcases hserver.replace_cases h.calm hread ⟨rfl, rfl, rfl⟩ with
    ⟨e, hanswer, hafter⟩ | ⟨version, hanswer, hafter⟩ <;> rw [hanswer]
  · exact h.of_objects hcalm hafter
  · rw [hlive, Bool.false_and, if_neg Bool.false_ne_true, hpath] at hafter
    have hleaves : ∀ other, other ≠ kind →
        Leaves other now (server (.replace kind (duty.marked current)) now).2 :=
      fun other hother => hserver.leaves h.calm fun heq => hother (Option.some.inj heq).symm
    refine ⟨rfl, _, ?_, h.rewrite hcalm hleaves hafter⟩
    change (duty.marked current).wholeSeconds.unversioned = _
    rw [marked_wholeSeconds hkept.whole]

/-- A pass on a resource that lives stays on its way, or everything is in place. -/
theorem pass_livesOn (hserver : IsFaithful server) (hduty : duty.IsOperators)
    (hinstalls : ∀ owner, Owner.ofResource object = .ok owner →
      duty.Installs owner object chores finish)
    (hlive : object.metadata.isDeleted = false)
    (h : duty.LivesOn object (key.path kind) chores first now) :
    (duty.pass key).Ends server now fun result after =>
      match result with
      | .error _ => duty.LivesOn object (key.path kind) chores first after
      | .ok outcome => outcome = .reconciled ∧
        after.outline = duty.settledOutline object (key.path kind) chores finish first := by
  obtain ⟨current, hunderway, hcurrent⟩ := h
  refine ends_pass hserver hunderway.calm
    (fun e after hcalm hobjects => ⟨current, hunderway.of_objects hcalm hobjects, hcurrent⟩) ?_
  intro looked hcalm hobjects
  have hlooked := hunderway.of_objects hcalm hobjects
  rw [find?_eq_some.2 hunderway.held]
  unfold serveFound
  dsimp only
  rcases stage_cases hlive hcurrent with ⟨hstage, hsame, hclaimed⟩ | ⟨hstage, hclaimed⟩ <;>
    rw [hstage] <;> dsimp only
  · refine (register_underway hserver hlooked hstage).bind ?_ ?_
    · rintro stored middle ⟨howner, next, hnext, hmiddle⟩
      refine settle_livesOn hserver hduty hinstalls hmiddle ?_ ?_ (content_of_unversioned hsame)
      · rw [hnext, hclaimed]
        exact marked_unversioned hsame
      · exact howner.trans (ofResource_of_unversioned hsame)
    · exact fun e middle hmiddle => ⟨current, hmiddle, hcurrent⟩
  · exact settle_livesOn hserver hduty hinstalls hlooked hclaimed
      ((ofResource_of_unversioned hclaimed).trans (duty.ofResource_claimed object))
      ((content_of_unversioned hclaimed).trans (duty.content_claimed object))

/-! ## Passes on a resource that is to go -/

/-- The plan names no object of the kind of the resource, so that is still there as it was. -/
theorem find?_of_undoing (hduty : duty.IsOperators)
    (hfind : first.find? kind (key.path kind) = some object)
    (h : Undoing owner (duty.teardownPlan owner) first now) :
    now.find? kind (key.path kind) = some object := by
  refine find?_eq_some.2 (h.get?_of_not_due (find?_eq_some.1 hfind) ?_)
  rintro ⟨_, step, hstep, hkind, _⟩
  exact hduty.kind_ne owner step hstep hkind

/-- A release that fails changes nothing; any other takes the mark off. -/
theorem release_outline (hserver : IsFaithful server) (hcalm : now.IsCalm)
    (hfind : now.find? kind (key.path kind) = some object) :
    (release object duty.mark).Ends server now fun result after =>
      match result with
      | .error _ => after.IsCalm ∧ after.objects = now.objects
      | .ok _ => after.outline =
        Function.update now.outline (key.path kind) (duty.unmarked object).written? := by
  have hpath : (duty.unmarked object).path = key.path kind :=
    (hcalm.sound.kept (find?_eq_some.1 hfind)).path_eq
  have hread : now.find? kind (duty.unmarked object).path = some object := hpath ▸ hfind
  have hrelease : release object duty.mark = perform (.replace kind (duty.unmarked object)) := rfl
  rw [hrelease, ends_perform]
  cases hanswer : (server (.replace kind (duty.unmarked object)) now).1 with
  | error e =>
    refine ⟨hserver.calm hcalm _, ?_⟩
    rcases hserver.replace_cases hcalm hread ⟨rfl, rfl, rfl⟩ with ⟨_, _, hafter⟩ | ⟨_, hok, _⟩
    · exact hafter
    · exact absurd (hok.symm.trans hanswer) (by simp)
  | ok stored =>
    dsimp only
    rw [hserver.outline_of_replace hcalm hread ⟨rfl, rfl, rfl⟩ hanswer, hpath]

/-- A pass on a resource that is to go removes nothing but what is due, or all of that and the mark.
-/
theorem pass_undoing (hserver : IsFaithful server) (hduty : duty.IsOperators)
    (hfind : first.find? kind (key.path kind) = some object)
    (hstage : object.metadata.lifeStage duty.mark = .tearingDown)
    (howner : Owner.ofResource object = .ok owner) (hcalm : now.IsCalm)
    (h : Undoing owner (duty.teardownPlan owner) first now) :
    (duty.pass key).Ends server now fun result after =>
      match result with
      | .error _ => after.IsCalm ∧ Undoing owner (duty.teardownPlan owner) first after
      | .ok outcome => outcome = .tornDown ∧
        after.outline = Function.update (first.undone owner (duty.teardownPlan owner))
          (key.path kind) (duty.unmarked object).written? := by
  refine ends_pass hserver hcalm
    (fun e after hcalm hobjects => ⟨hcalm, h.trans (undoing_of_objects hobjects)⟩) ?_
  intro looked hlookedCalm hobjects
  have hlooked := h.trans (undoing_of_objects hobjects)
  rw [find?_of_undoing hduty hfind h]
  simp only [serveFound, hstage, dismantle, howner]
  refine ((teardown_settles hserver _ hlookedCalm).and
    (teardown_undoing hserver (List.Subset.refl _) hlookedCalm)).bind ?_ ?_
  · rintro _ middle ⟨⟨hspared, hsettled⟩, hundoing⟩
    have hmiddle := hlooked.trans hundoing
    refine (release_outline hserver hspared.calm (find?_of_undoing hduty hfind hmiddle)).bind ?_ ?_
    · intro _ after hafter
      refine ends_pure.2 ⟨rfl, ?_⟩
      rw [hafter, hmiddle.outline_eq (hsettled rfl)]
    · rintro e after ⟨hafter, hsame⟩
      exact ⟨hafter, hmiddle.trans (undoing_of_objects hsame)⟩
  · rintro e middle ⟨⟨hspared, _⟩, hundoing⟩
    exact ⟨hspared.calm, hlooked.trans hundoing⟩

/-! ## Ways -/

/-- Whether passes have a way: those that fail stay on it, and those that go well have one end. -/
def Leads (duty : Duty kind) (key : ObjectKey) (way : Cluster → Prop) (outcome : PassOutcome)
    (goal : String → Option AnyResource) : Prop :=
  ∀ (server : Cluster.Server) (now : Cluster), IsFaithful server → way now →
      (duty.pass key).Ends server now fun result after =>
        match result with
        | .error _ => way after
        | .ok reached => reached = outcome ∧ after.outline = goal

/-- A pass that has nothing to do changes nothing. -/
theorem leads_of_done {result : Except OperatorError PassOutcome}
    (hdone : duty.serveFound (first.find? kind (key.path kind)) = .done result) :
    duty.Leads key (fun now => now.IsCalm ∧ now.objects = first.objects)
      (result.toOption.getD .removed) first.outline := by
  rintro server now hserver ⟨hcalm, hobjects⟩
  refine ends_pass hserver hcalm
    (fun e after hafter hsame => ⟨hafter, hsame.trans hobjects⟩) ?_
  intro looked hlooked hsame
  rw [(leaves_of_objects hobjects kind).find?_eq, hdone]
  cases result with
  | error e => exact ⟨hlooked, hsame.trans hobjects⟩
  | ok reached => exact ⟨rfl, outline_of_objects (hsame.trans hobjects)⟩

/-- From every cluster in good order passes have a way. -/
theorem exists_leads (hduty : duty.IsOperators) (key : ObjectKey) (first : Cluster) :
    ∃ way outcome goal, (∀ now : Cluster, now.IsCalm → now.objects = first.objects → way now) ∧
      duty.Leads key way outcome goal := by
  have hidle : ∀ {result}, duty.serveFound (first.find? kind (key.path kind)) = .done result →
      ∃ way outcome goal, (∀ now : Cluster, now.IsCalm → now.objects = first.objects → way now) ∧
        duty.Leads key way outcome goal :=
    fun hdone => ⟨_, _, _, fun _ hcalm hobjects => ⟨hcalm, hobjects⟩, leads_of_done hdone⟩
  cases hfind : first.find? kind (key.path kind) with
  | none => exact hidle (congrArg duty.serveFound hfind)
  | some object =>
    have hfound : duty.serveFound (first.find? kind (key.path kind)) =
        duty.serveFound (some object) := congrArg duty.serveFound hfind
    have hlives : object.metadata.isDeleted = false →
        ∃ way outcome goal, (∀ now : Cluster, now.IsCalm → now.objects = first.objects → way now) ∧
          duty.Leads key way outcome goal := by
      intro hlive
      obtain ⟨chores, finish, hinstalls⟩ := hduty.exists_installs object
      refine ⟨duty.LivesOn object (key.path kind) chores first, .reconciled, _, ?_,
        fun server now hserver h => pass_livesOn hserver hduty hinstalls hlive h⟩
      exact fun now hcalm hobjects => ⟨object,
        underway_of_objects hcalm (find?_eq_some.1 hfind) hobjects, Or.inl rfl⟩
    cases hstage : object.metadata.lifeStage duty.mark with
    | released =>
      have hdone : duty.serveFound (some object) = .done (.ok .removed) := by
        simp only [serveFound, hstage]
        rfl
      exact hidle (hfound.trans hdone)
    | tearingDown =>
      cases howner : Owner.ofResource object with
      | error e =>
        have hdone : duty.serveFound (some object) = .done (.error e) := by
          simp only [serveFound, hstage, dismantle, howner]
          rfl
        exact hidle (hfound.trans hdone)
      | ok owner =>
        have hleads : duty.Leads key
            (fun now => now.IsCalm ∧ Undoing owner (duty.teardownPlan owner) first now)
            .tornDown _ :=
          fun server now hserver hway =>
            pass_undoing hserver hduty hfind hstage howner hway.1 hway.2
        exact ⟨_, _, _, fun now hcalm hobjects => ⟨hcalm, undoing_of_objects hobjects⟩, hleads⟩
    | unmarked => exact hlives (Metadata.lifeStage_eq_unmarked.1 hstage).1
    | marked => exact hlives (Metadata.lifeStage_eq_marked.1 hstage).1

/-! ## The main result -/

/-- Whether passes for a resource that all fail but the last lead from a cluster to another. Before
each call any faults may be arranged but such as hide an object, and time may pass. -/
inductive RetriesTo (duty : Duty kind) (key : ObjectKey) :
    Cluster → PassOutcome → Cluster → Prop where
  | passed {script : Nat → Arrangement} {before after : Cluster} {outcome : PassOutcome}
      (hhides : ∀ n, (script n).HidesNothing)
      (hrun : (duty.pass key).run (serveAmid script) before = (.ok outcome, after)) :
      RetriesTo duty key before outcome after
  | failed {script : Nat → Arrangement} {before middle after : Cluster} {outcome : PassOutcome}
      {e : OperatorError} (hhides : ∀ n, (script n).HidesNothing)
      (hrun : (duty.pass key).run (serveAmid script) before = (.error e, middle))
      (hrest : RetriesTo duty key middle outcome after) :
      RetriesTo duty key before outcome after

variable {before after goal cluster : Cluster} {outcome reached : PassOutcome}

theorem Leads.passed {way : Cluster → Prop} {outlines : String → Option AnyResource}
    (h : duty.Leads key way outcome outlines) (hserver : IsFaithful server) (hway : way before)
    (hrun : (duty.pass key).run server before = (.ok reached, after)) :
    reached = outcome ∧ after.outline = outlines := by
  have hends := h server before hserver hway
  unfold Ends at hends
  rwa [hrun] at hends

theorem Leads.retries {way : Cluster → Prop} {outlines : String → Option AnyResource}
    (h : duty.Leads key way outcome outlines) (hway : way before)
    (hretries : duty.RetriesTo key before reached after) :
    reached = outcome ∧ after.outline = outlines := by
  induction hretries with
  | passed hhides hrun => exact h.passed (isFaithful_serveAmid hhides) hway hrun
  | failed hhides hrun _ ih =>
    refine ih ?_
    have hends := h _ _ (isFaithful_serveAmid hhides) hway
    unfold Ends at hends
    rwa [hrun] at hends

/-- Passes that fail change no end: a pass that goes well after any number of them comes to what a
pass without faults would have come to at once, and the cluster holds the same objects under the
same paths, but for the identities, versions and times of creation that the API server gives out. -/
theorem retries_end_alike (hreachable : cluster.Reachable)
    (hundisturbed : ∀ path, cluster.IsUndisturbed path) (hhides : cluster.HidesNothing)
    (hduty : duty.IsOperators) {clock : Nat → Timestamp}
    (hpass : (duty.pass key).run (serveAmid fun n => ⟨[], clock n⟩) { cluster with faults := [] } =
      (.ok outcome, goal))
    (hretries : duty.RetriesTo key cluster reached after) :
    reached = outcome ∧ after.outline = goal.outline := by
  obtain ⟨way, last, outlines, hstart, hleads⟩ := exists_leads hduty key cluster
  have hcalm : cluster.IsCalm := ⟨hreachable.sound, hundisturbed, hhides⟩
  have hfaultless : ({ cluster with faults := [] } : Cluster).IsCalm :=
    ⟨hcalm.sound.of_objects rfl le_rfl, hundisturbed, fun _ hmem => nomatch hmem⟩
  have hserver : IsFaithful (serveAmid fun n => ⟨[], clock n⟩) :=
    isFaithful_serveAmid fun _ _ hmem => nomatch hmem
  obtain ⟨rfl, hgoal⟩ := hleads.passed hserver (hstart _ hfaultless rfl) hpass
  obtain ⟨rfl, hafter⟩ := hleads.retries (hstart _ hcalm rfl) hretries
  exact ⟨rfl, hafter.trans hgoal.symm⟩

/-! The teardown of a frontend is cut off after the deletion of its service: the look whether that
is gone fails. The next pass finds no service and takes the mark off. -/

/-- The time of all calls, and the fault that is arranged for the fifth. -/
def cutOff (n : Nat) : Arrangement where
  faults :=
    if n = 4 then
      [⟨⟨.get, (ObjectKey.inNamespace "team" "shop-frontend-svc").path (.plain .service)⟩, 500,
        "InternalError", 1⟩]
    else []
  now := partingTime

theorem cutOff_hidesNothing (n : Nat) : (cutOff n).HidesNothing := by
  intro fault hmem
  unfold cutOff at hmem
  split at hmem
  · obtain rfl := List.mem_singleton.1 hmem
    decide
  · cases hmem

/-- What the first pass leaves. -/
def cutOffCluster : Cluster :=
  (((frontend 5).pass partingKey).run (serveAmid cutOff) partingCluster).2

theorem cut_off_teardown_ends_alike :
    partingCluster.Reachable ∧ (∀ path, partingCluster.IsUndisturbed path) ∧
      partingCluster.HidesNothing ∧ (frontend 5).IsOperators ∧
      ∃ goal after,
        ((frontend 5).pass partingKey).run (serveAmid fun _ => ⟨[], partingTime⟩)
          { partingCluster with faults := [] } = (.ok .tornDown, goal) ∧
        ((frontend 5).pass partingKey).run (serveAmid cutOff) partingCluster =
          (.error (refused 500 "InternalError"), cutOffCluster) ∧
        (frontend 5).RetriesTo partingKey partingCluster .tornDown after ∧
        after.outline = goal.outline := by
  have hundisturbed : ∀ path, partingCluster.IsUndisturbed path := fun _ => rfl
  have hhides : partingCluster.HidesNothing := fun _ hmem => nomatch hmem
  have hcalm : ∀ n : Nat, ((fun _ => ⟨[], partingTime⟩ : Nat → Arrangement) n).HidesNothing :=
    fun _ _ hmem => nomatch hmem
  have hgoal : (((frontend 5).pass partingKey).run (serveAmid fun _ => ⟨[], partingTime⟩)
      { partingCluster with faults := [] }).1 = .ok .tornDown := rfl
  have hfailed : (((frontend 5).pass partingKey).run (serveAmid cutOff) partingCluster).1 =
      .error (refused 500 "InternalError") := rfl
  have hpassed : (((frontend 5).pass partingKey).run (serveAmid fun _ => ⟨[], partingTime⟩)
      cutOffCluster).1 = .ok .tornDown := rfl
  have hretries : (frontend 5).RetriesTo partingKey partingCluster .tornDown _ :=
    .failed cutOff_hidesNothing (Prod.ext hfailed rfl) (.passed hcalm (Prod.ext hpassed rfl))
  exact ⟨partingCluster_reachable, hundisturbed, hhides, .frontend 5, _, _, Prod.ext hgoal rfl,
    Prod.ext hfailed rfl, hretries, (retries_end_alike partingCluster_reachable hundisturbed hhides
      (.frontend 5) (Prod.ext hgoal rfl) hretries).2⟩

end Duty

end EdgeOperator
