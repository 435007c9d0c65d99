import EdgeOperator.Proofs.Installation.Pass
import EdgeOperator.Proofs.Installation.Routing

set_option autoImplicit false

/-! # A frontend gets its workload and its route

A pass for a frontend that lives creates its service and its deployment where they are missing, and
merges its route into the routing ingress of its namespace. All else that was stored stays as it was,
and nothing else comes in (`Duty.frontend_installed_in_order`). -/

namespace EdgeOperator

open Program Cluster

namespace RouteTask

variable {task : RouteTask} {script : Nat → Arrangement} {first now after : Cluster}
  {place : String} {cell : AnyResource} {done : List Chore} {earlier exchanges : List Exchange}

/-! ## Installations -/

/-- The objects of the workload. -/
def chores (task : RouteTask) : List Chore :=
  Chore.ofWorkload task.frontend task.spec

/-- The objects that a frontend may get, in the order of their creation. -/
def planned (task : RouteTask) (cluster : Cluster) : List AnyResource :=
  task.chores.map Chore.object ++ (task.planned? cluster).toList.map (AnyResource.mk .ingress)

/-- What an installation for a frontend comes to: it stops at the workload, or it goes on to the
route. -/
inductive Equips (task : RouteTask) (place : String) (cell : AnyResource) (first : Cluster) :
    List Exchange → Except OperatorError Unit → Cluster → Prop where
  | halted {exchanges : List Exchange} {e : OperatorError} {after : Cluster} {done : List Chore}
      (hdone : done <+: task.chores) (hfurnished : Furnished place cell first done exchanges after)
      (hrefused : ∃ code reason, e = refused code reason) :
      Equips task place cell first exchanges (.error e) after
  | unrouted {exchanges later : List Exchange} {e : OperatorError} {now after : Cluster}
      (hfurnished : Furnished place cell first task.chores exchanges now)
      (hfails : task.Fails now later e after) :
      Equips task place cell first (exchanges ++ later) (.error e) after
  | routed {exchanges later : List Exchange} {now after : Cluster}
      (hfurnished : Furnished place cell first task.chores exchanges now)
      (hsettles : task.Settles now later after) :
      Equips task place cell first (exchanges ++ later) (.ok ()) after

theorem install_equips (hscript : ∀ n, (script n).IsTruthful)
    (hscope : '/' ∉ task.frontend.namespaceName.toList) (hfair : task.IsFair now)
    {object : Resource .frontend}
    (hspec : FrontendContent.spec object.content = task.spec)
    (h : Furnished place cell first [] earlier now) :
    ((Duty.frontend task.attempts).install task.frontend object).Unfolds (serveAmid script) now
      fun exchanges => task.Equips place cell first (earlier ++ exchanges) := by
  have hkeeps : ∀ request now, task.IsFair now → task.IsFair (serveAmid script request now).2 :=
    fun request now h => h.serveAmid hscript request
  unfold Duty.frontend
  dsimp only
  rw [hspec]
  let service : Chore := ⟨.service, (Workload.service task.frontend task.spec).toResource⟩
  let deployment : Chore := ⟨.deployment, (Workload.deployment task.frontend task.spec).toResource⟩
  have hservice : ∀ chore ∈ ([] : List Chore), chore.kind = service.kind →
      chore.path ≠ service.path := by simp
  have hdeployment : ∀ chore ∈ [service], chore.kind = deployment.kind →
      chore.path ≠ deployment.path := by simp [service, deployment]
  refine Unfolds.bind ((h.ensure hservice).keeping hkeeps hfair) ?_ ?_
  · rintro exchanges ensured second ⟨hsecond, hfair⟩
    refine Unfolds.bind ((hsecond.ensure hdeployment).keeping hkeeps hfair) ?_ ?_
    · rintro exchanges ensured third ⟨hthird, hfair⟩
      have hroute := retryRoute_unfolds hscript hscope task.attempts task.attempts hfair
      refine Unfolds.bind hroute ?_ ?_
      · intro later outcome after hsettles
        refine unfolds_pure.2 ?_
        have hrouted : task.Equips place cell first _ (.ok ()) after := .routed hthird hsettles
        simpa [List.append_assoc] using hrouted
      · intro later e after hfails
        have hunrouted : task.Equips place cell first _ (.error e) after := .unrouted hthird hfails
        simpa [List.append_assoc] using hunrouted
    · rintro exchanges e third ⟨⟨hthird, hrefused⟩, _⟩
      have hhalted : task.Equips place cell first _ (.error e) third :=
        .halted (List.prefix_append [service] [deployment]) hthird hrefused
      simpa [List.append_assoc] using hhalted
  · rintro exchanges e second ⟨⟨hsecond, hrefused⟩, _⟩
    exact .halted List.nil_prefix hsecond hrefused

/-! ## What comes in -/

/-- Whether nothing has changed since the workload was in place but the routing ingress, and that is
the one that was planned if there was none. -/
structure Follows (task : RouteTask) (now : Cluster) (later : List Exchange) (after : Cluster) :
    Prop where
  others : ∀ path, path ≠ task.place → after.objects.get? path = now.objects.get? path
  made_sublist : (made later).Sublist ((task.planned? now).toList.map (AnyResource.mk .ingress))
  missing : ∀ object ∈ made later,
    object.path = task.place ∧ now.objects.get? task.place = none
  added : now.objects.get? task.place = none → ∀ object,
    after.objects.get? task.place = some object →
      ∃ planned ∈ made later, planned.path = task.place ∧ object.outline = planned.outline

variable {later : List Exchange}

theorem follows_refl (cluster : Cluster) : task.Follows cluster [] cluster where
  others _ _ := rfl
  made_sublist := List.nil_sublist _
  missing := by simp [made]
  added hnone object hget := by
    rw [hnone] at hget
    cases hget

theorem Fails.follows {e : OperatorError} (h : task.Fails now later e after) :
    task.Follows now later after where
  others := h.spares.others
  made_sublist := h.made_eq ▸ List.nil_sublist _
  missing := by simp [h.made_eq]
  added hnone object hget := by
    rw [h.spares.absent_iff.2 hnone] at hget
    cases hget

theorem Settles.follows (h : task.Settles now later after)
    (hpath : ∀ planned, task.planned? now = some planned → planned.path = task.place) :
    task.Follows now later after := by
  cases h with
  | merged hmade hstored hothers hfind hserved =>
    refine ⟨hothers, hmade ▸ List.nil_sublist _, by simp [hmade], ?_⟩
    exact fun hnone => absurd hnone hstored
  | @created planned next hplanned hmade hnone hothers hfind hnext =>
    refine ⟨hothers, ?_, ?_, ?_⟩
    · rw [hmade, hplanned]
      exact List.Sublist.refl _
    · rw [hmade]
      exact List.forall_mem_singleton.2 ⟨hpath planned hplanned, hnone⟩
    · intro _ object hget
      obtain rfl := Option.some.inj ((find?_eq_some.1 hfind).symm.trans hget)
      refine ⟨⟨.ingress, planned⟩, by simp [hmade], hpath planned hplanned, ?_⟩
      exact congrArg (AnyResource.mk .ingress) hnext
  | released hmade hstored hothers hdead =>
    refine ⟨hothers, hmade ▸ List.nil_sublist _, by simp [hmade], ?_⟩
    exact fun hnone => absurd hnone hstored

/-- The workload is not stored under the path of the routing ingress. -/
theorem path_ne_place {chore : Chore} (hmem : chore ∈ task.chores) : chore.path ≠ task.place := by
  intro heq
  have hgroup : (Kind.plain chore.kind).group = Kind.ingress.group := ObjectKey.group_eq_of_path heq
  simp only [chores, Chore.ofWorkload, List.mem_cons, List.not_mem_nil, or_false] at hmem
  rcases hmem with rfl | rfl
  · exact absurd hgroup (by simp [Kind.group, PlainKind.group])
  · exact absurd hgroup (by simp [Kind.group, PlainKind.group])

/-- A blueprint has no times, so it is stored as it is. -/
theorem outline_of_mem_chores {chore : Chore} (hmem : chore ∈ task.chores) :
    chore.outline = chore.object.outline := by
  simp only [chores, Chore.ofWorkload, List.mem_cons, List.not_mem_nil, or_false] at hmem
  rcases hmem with rfl | rfl <;> rfl

/-- Whether nothing was changed but a frontend and the routing ingress, and nothing has come in but
what was planned and missing. -/
structure Brings (task : RouteTask) (place : String) (first : Cluster) (exchanges : List Exchange)
    (after : Cluster) : Prop where
  kept : ∀ path object, path ≠ place → path ≠ task.place →
    first.objects.get? path = some object → after.objects.get? path = some object
  made_sublist : (made exchanges).Sublist (task.planned first)
  missing : ∀ object ∈ made exchanges, first.objects.get? object.path = none
  added : ∀ path object, first.objects.get? path = none → after.objects.get? path = some object →
    ∃ planned ∈ made exchanges, planned.path = path ∧ object.outline = planned.outline

theorem Follows.brings (h : task.Follows now later after) (hcell : cell.kind = .frontend)
    (hplace : first.objects.get? place ≠ none) (hne : task.place ≠ place)
    (hdone : done <+: task.chores)
    (hfurnished : Furnished place cell first done exchanges now) :
    task.Brings place first (exchanges ++ later) after := by
  have hanchors := hfurnished.leaves .anchor (by simp [hcell]) (by simp)
  have hchores : ∀ chore ∈ done.filter first.lacks, chore ∈ task.chores :=
    fun chore hmem => hdone.subset (List.mem_filter.1 hmem).1
  have hmade : ∀ chore ∈ done.filter first.lacks, chore.object ∈ made exchanges := by
    rw [hfurnished.made_eq]
    exact fun chore hmem => List.mem_map_of_mem hmem
  constructor
  · intro path object hpath hroute hget
    rw [h.others path hroute]
    exact hfurnished.kept hpath hget
  · rw [made_append, hfurnished.made_eq]
    refine List.Sublist.append ?_ ?_
    · exact (List.filter_sublist.trans hdone.sublist).map Chore.object
    · exact planned?_congr hanchors ▸ h.made_sublist
  · rw [made_append, hfurnished.made_eq]
    intro object hmem
    rcases List.mem_append.1 hmem with hmem | hmem
    · obtain ⟨chore, hchore, rfl⟩ := List.mem_map.1 hmem
      exact hfurnished.missing hchore
    · obtain ⟨hpath, hnone⟩ := h.missing object hmem
      rw [hpath]
      exact hfurnished.absent hne hnone
  · intro path object hnone hget
    have hpath : path ≠ place := fun heq => hplace (heq ▸ hnone)
    rw [made_append]
    by_cases hroute : path = task.place
    · subst hroute
      have hnow : now.objects.get? task.place = none := by
        cases hstored : now.objects.get? task.place with
        | none => rfl
        | some stored =>
          obtain ⟨chore, hmem, heq, _⟩ := hfurnished.added hpath hnone hstored
          exact absurd heq (path_ne_place (hchores chore hmem))
      obtain ⟨planned, hmem, hplanned⟩ := h.added hnow object hget
      exact ⟨planned, List.mem_append_right _ hmem, hplanned⟩
    · rw [h.others path hroute] at hget
      obtain ⟨chore, hmem, heq, houtline⟩ := hfurnished.added hpath hnone hget
      refine ⟨chore.object, List.mem_append_left _ (hmade chore hmem), heq, ?_⟩
      rw [houtline, outline_of_mem_chores (hchores chore hmem)]

/-- Whether a pass for a frontend has changed and brought in nothing but what it should, in order,
and has done all of it if it says so. -/
structure Installs (task : RouteTask) (place : String) (first : Cluster)
    (exchanges : List Exchange) (result : Except OperatorError PassOutcome) (after : Cluster) :
    Prop where
  brings : task.Brings place first exchanges after
  path_planned : ∀ planned, task.planned? first = some planned → planned.path = task.place
  in_order : (writes exchanges).Sublist
    (.frontend :: .plain .service :: .plain .deployment :: List.replicate task.attempts .ingress)
  equipped : (result = .ok .reconciled ∨ ∃ scope, result = .error (.missingAnchor scope)) →
    ∀ chore ∈ task.chores, ∃ object, after.find? (.plain chore.kind) chore.path = some object
  routed : result = .ok .reconciled → ∃ ingress,
    after.find? .ingress task.place = some ingress ∧ task.IsServedBy ingress
  unanchored : ∀ scope, result = .error (.missingAnchor scope) →
    after.find? .ingress task.place = none ∧
      Anchor.first? (first.listed .anchor (some task.frontend.namespaceName)) = none

theorem Lives.of_furnished (h : task.Lives first) (hcell : cell.kind = .frontend)
    (hfurnished : Furnished place cell first done exchanges now) : task.Lives now := by
  intro ingress hfind
  have hleaves := hfurnished.leaves .ingress (by simp [hcell]) (by simp)
  exact h ingress ((hleaves.find?_eq _).symm.trans hfind)

/-- However the route was settled, it is served, if the ingress was not to go. -/
theorem Settles.isServed (h : task.Settles now later after) (hlives : task.Lives now) :
    ∃ ingress, after.find? .ingress task.place = some ingress ∧ task.IsServedBy ingress := by
  cases h with
  | merged hmade hstored hothers hfind hserved => exact ⟨_, hfind, hserved⟩
  | @created planned next hplanned hmade hnone hothers hfind hnext =>
    refine ⟨next, hfind, ?_⟩
    obtain ⟨anchor, _, hplanned⟩ := Option.bind_eq_some_iff.1 hplanned
    obtain ⟨owner, _, rfl⟩ := Option.map_eq_some_iff.1 hplanned
    have hcontent := congrArg Resource.content hnext
    have hroutes : IngressContent.routes next.content = [task.spec.route task.frontend] :=
      congrArg IngressContent.routes hcontent
    unfold IsServedBy
    rw [hroutes]
    simp [backendOf?, FrontendSpec.route, IngressPath.route, pattern, backend]
  | released hmade hstored hothers hdead => exact absurd hlives hdead

/-- The workload is there, whatever has become of the routing ingress. -/
theorem present_of_others
    (hothers : ∀ path, path ≠ task.place → after.objects.get? path = now.objects.get? path)
    (hplace : ∀ plain, first.find? (.plain plain) place = none)
    (hfurnished : Furnished place cell first task.chores exchanges now) :
    ∀ chore ∈ task.chores, ∃ object,
      after.find? (.plain chore.kind) chore.path = some object := by
  intro chore hmem
  obtain ⟨object, hfind⟩ := hfurnished.present (hplace chore.kind) hmem
  exact ⟨object, (find?_congr (hothers chore.path (path_ne_place hmem))).trans hfind⟩

theorem install_writes (task : RouteTask) {object : Resource .frontend}
    (hspec : FrontendContent.spec object.content = task.spec) :
    ((Duty.frontend task.attempts).install task.frontend object).Writes
      (.plain .service :: .plain .deployment :: List.replicate task.attempts .ingress) := by
  unfold Duty.frontend
  dsimp only
  rw [hspec]
  refine (ensure_writes _ _).bind fun service => (ensure_writes _ _).bind fun deployment => ?_
  rw [← List.append_nil (List.replicate _ _)]
  exact (task.retryRoute_writes _ _).bind fun outcome => writes_done _

/-- What an installation has come to when a pass passes it on. -/
theorem Equips.installs {result : Except OperatorError Unit} {object : Resource .frontend}
    (h : task.Equips place ⟨.frontend, object⟩ first exchanges result after)
    (hplace : ∃ held, first.find? .frontend place = some held) (hne : task.place ≠ place)
    (hlives : task.Lives first)
    (hpath : ∀ planned, task.planned? first = some planned → planned.path = task.place)
    (hwrites : (writes exchanges).Sublist
      (.frontend :: .plain .service :: .plain .deployment ::
        List.replicate task.attempts .ingress)) :
    task.Installs place first exchanges (result.map fun _ => .reconciled) after := by
  obtain ⟨held, hheld⟩ := hplace
  have hget : first.objects.get? place ≠ none := by simp [find?_eq_some.1 hheld]
  have hplain : ∀ plain, first.find? (.plain plain) place = none :=
    fun plain => find?_none_of_kind_ne hheld (by simp)
  have hplanned : ∀ {done now workload},
      Furnished place ⟨.frontend, object⟩ first done workload now →
        task.planned? now = task.planned? first :=
    fun hfurnished => planned?_congr (hfurnished.leaves .anchor (by simp) (by simp))
  cases h with
  | halted hdone hfurnished hrefused =>
    obtain ⟨code, reason, rfl⟩ := hrefused
    have hbrings := (follows_refl after).brings rfl hget hne hdone hfurnished
    rw [List.append_nil] at hbrings
    exact ⟨hbrings, hpath, hwrites, by simp [Except.map, refused], by simp [Except.map],
      by simp [Except.map, refused]⟩
  | unrouted hfurnished hfails =>
    refine ⟨hfails.follows.brings rfl hget hne (List.prefix_refl _) hfurnished, hpath, hwrites,
      fun _ => present_of_others hfails.spares.others hplain hfurnished, by simp [Except.map], ?_⟩
    intro scope heq
    obtain rfl := Except.error.inj heq
    rw [← (hfurnished.leaves .anchor (by simp) (by simp)).listed_eq]
    exact hfails.missing scope rfl
  | routed hfurnished hsettles =>
    have hfollows := hsettles.follows fun planned heq =>
      hpath planned ((hplanned hfurnished).symm.trans heq)
    exact ⟨hfollows.brings rfl hget hne (List.prefix_refl _) hfurnished, hpath, hwrites,
      fun _ => present_of_others hsettles.others hplain hfurnished,
      fun _ => hsettles.isServed (hlives.of_furnished rfl hfurnished),
      by simp [Except.map]⟩

/-- An installation leaves the frontend as it was claimed. -/
theorem Equips.held {result : Except OperatorError Unit}
    (h : task.Equips place cell first exchanges result after) (hne : task.place ≠ place) :
    after.objects.get? place = some cell := by
  cases h with
  | halted hdone hfurnished hrefused => exact hfurnished.held
  | unrouted hfurnished hfails => exact (hfails.spares.others place hne.symm).trans hfurnished.held
  | routed hfurnished hsettles => exact (hsettles.others place hne.symm).trans hfurnished.held

/-- An installation that goes well has the workload in place and the route settled. -/
theorem Equips.settled (h : task.Equips place cell first exchanges (.ok ()) after) :
    ∃ building routing now, Furnished place cell first task.chores building now ∧
      task.Settles now routing after := by
  cases h with
  | routed hfurnished hsettles => exact ⟨_, _, _, hfurnished, hsettles⟩

end RouteTask

/-! ## The main result -/

/-- Whether the routing ingress of a namespace lives, if it is there, and whoever waits for its
replacement lets it live. -/
structure Cluster.KeepsRouting (cluster : Cluster) (scope : String) : Prop where
  lives : ∀ ingress, cluster.find? .ingress (routingPath scope) = some ingress →
    ingress.metadata.isDeleted = false
  waiting : cluster.AllWaiting fun path edit => path = routingPath scope → edit.KeepsAlive

namespace Duty

variable {object : Resource .frontend} {key : ObjectKey} {cluster : Cluster}

theorem ComesToNothing.installs {task : RouteTask} {place : String} {exchanges : List Exchange}
    {result : Except OperatorError PassOutcome} {after : Cluster}
    (h : ComesToNothing object place cluster exchanges result after)
    (hplace : cluster.find? .frontend place = some object)
    (hpath : ∀ planned, task.planned? cluster = some planned → planned.path = task.place) :
    task.Installs place cluster exchanges result after := by
  have hmissing : ∀ scope, result ≠ .error (.missingAnchor scope) := by
    intro scope
    rcases h.result_cases with rfl | ⟨code, reason, rfl⟩ <;> simp [refused]
  refine ⟨⟨?_, ?_, ?_, ?_⟩, hpath, ?_, ?_, ?_, fun scope heq => absurd heq (hmissing scope)⟩
  · exact fun path stored hne _ hget => (h.others path hne).trans hget
  · exact h.made_eq ▸ List.nil_sublist _
  · simp [h.made_eq]
  · intro path stored hnone hget
    have hne : path ≠ place := by
      rintro rfl
      exact absurd (hnone.symm.trans (find?_eq_some.1 hplace)) (by simp)
    rw [h.others path hne, hnone] at hget
    cases hget
  · exact h.writes_sublist.trans (by simp)
  · rintro (hok | ⟨scope, heq⟩)
    · exact absurd hok h.ne_reconciled
    · exact absurd heq (hmissing scope)
  · exact fun hok => absurd hok h.ne_reconciled

/-- A pass for a frontend that lives, from whatever is stored and whatever fails as long as no
failure hides an object, changes no object that was there but the frontend, and that only by its
mark, and the routing ingress of its namespace. What comes in was planned and missing: the service,
then the deployment, then the ingress. If the pass reconciles, all three are in place and the route
is served; if it misses an anchor, the workload is in place, and there is neither an ingress nor an
anchor that lives.

A frontend that could not be marked may have been edited by a writer who waited for that. -/
theorem frontend_installed_in_order (hreachable : cluster.Reachable)
    (htruthful : cluster.IsTruthful) {script : Nat → Arrangement}
    (hscript : ∀ n, (script n).IsTruthful) (attempts : Nat)
    (hfind : cluster.find? .frontend (key.path .frontend) = some object)
    (hstage : object.metadata.lifeStage (frontend attempts).mark = .unmarked ∨
      object.metadata.lifeStage (frontend attempts).mark = .marked)
    (hrouting : ∀ owner, Owner.ofResource object = .ok owner →
      '/' ∉ owner.namespaceName.toList ∧ cluster.KeepsRouting owner.namespaceName) :
    ((frontend attempts).pass key).Unfolds (serveAmid script) cluster fun exchanges result after =>
      (ComesToNothing object (key.path .frontend) cluster exchanges result after ∨
        ∃ current, after.find? .frontend (key.path .frontend) = some current ∧
          (frontend attempts).IsClaimOf object current) ∧
      (∀ owner, Owner.ofResource object = .ok owner →
        RouteTask.Installs ⟨owner, FrontendContent.spec object.content, attempts⟩
          (key.path .frontend) cluster exchanges result after) ∧
      ∀ e, Owner.ofResource object = .error e → made exchanges = [] ∧ result ≠ .ok .reconciled ∧
        ∀ path, path ≠ key.path .frontend →
          after.objects.get? path = cluster.objects.get? path := by
  have hlive : object.metadata.isDeleted = false :=
    hstage.elim (fun h => (Metadata.lifeStage_eq_unmarked.1 h).1)
      fun h => (Metadata.lifeStage_eq_marked.1 h).1
  cases howner : Owner.ofResource object with
  | error e =>
    refine (unfolds_pass_of_no_owner hreachable script hfind hlive howner).mono ?_
    rintro exchanges result after ⟨hclaimed, hrest⟩
    exact ⟨hclaimed, fun _ heq => (nomatch heq), fun _ _ => hrest⟩
  | ok owner =>
    obtain ⟨hscope, hkeeps⟩ := hrouting owner howner
    let task : RouteTask := ⟨owner, FrontendContent.spec object.content, attempts⟩
    have hfair : task.IsFair cluster := ⟨hreachable, htruthful, hkeeps.waiting⟩
    have hpath : ∀ planned, task.planned? cluster = some planned → planned.path = task.place :=
      fun planned heq => RouteTask.path_of_planned? hreachable.sound hscope heq
    have hne : task.place ≠ key.path .frontend := routingPath_ne_frontend _ key
    refine unfolds_pass (fun request _ h => h.serveAmid hscript request) (fun _ h => h.reachable)
      hfair hfind hlive ?_ ?_
    · intro exchanges result after hnothing
      refine ⟨Or.inl hnothing, fun other heq => ?_, fun _ heq => nomatch heq⟩
      obtain rfl := Except.ok.inj heq
      exact hnothing.installs hfind hpath
    · intro exchanges middle stored hmade hwrites hmiddle hclaims hstored
      obtain ⟨current, hclaim, hfurnished⟩ := hclaims.furnished (.frontend attempts) hmade
      refine settle_unfolds (hstored.trans howner) ?_
      have hequips := RouteTask.install_equips hscript hscope hmiddle rfl hfurnished
      refine ((task.install_writes rfl).unfolds hequips).mono ?_
      rintro later result after ⟨hafter, hlater⟩
      refine ⟨Or.inr ⟨current, find?_eq_some.2 (hafter.held hne), hclaim⟩, fun other heq => ?_,
        fun _ heq => nomatch heq⟩
      obtain rfl := Except.ok.inj heq
      refine hafter.installs ⟨object, hfind⟩ hne hkeeps.lives hpath ?_
      rw [writes_append]
      exact hwrites.append hlater

/-! ## A frontend whose service is there already

The service belongs to somebody else and stays. The deployment is created, and the route is merged in
at the second attempt, since a label is put on the ingress before the first. Where such a label is
put on the frontend before its registration, that fails, and the frontend stays with its label. Where
the deletion of the ingress is asked for before the first attempt, the second releases it. -/

/-- The time at which all of it happens. -/
def exposingTime : Timestamp :=
  ⟨2024, 1, 1, 0, 0, 0, 0⟩

/-- A frontend that was not looked at yet. -/
def exposedFrontend : Resource .frontend where
  metadata :=
    { name? := some "shop"
      namespaceName? := some "team"
      uid? := some "uid-shop"
      creationTimestamp? := some exposingTime
      resourceVersion? := some "1" }
  content := { spec := { imageName := "web", port := 80 } }

/-- The key of the frontend. -/
def exposedKey : ObjectKey :=
  .inNamespace "team" "shop"

/-- The frontend as an owner. -/
def exposedOwner : Owner :=
  ⟨"shop", "team",
    ⟨Kind.frontend.apiVersion, none, some true, Kind.frontend.name, "shop", "uid-shop"⟩⟩

/-- The service that somebody else has created. -/
def foreignService : Resource (.plain .service) where
  metadata := { name? := some "shop-frontend-svc", namespaceName? := some "team" }
  content := []

/-- A routing ingress without routes. -/
def emptyRouting : Resource .ingress where
  metadata := { name? := some (Names.routingIngress "team"), namespaceName? := some "team" }
  content := {}

/-- The edit of a writer who puts a label on an object. -/
def touch : Edit :=
  fun _ object =>
    { object with metadata := { object.metadata with labels? := some [("touched", "yes")] } }

/-- The edit of a writer who asks for the deletion of an object. -/
def revoke : Edit :=
  fun _ object =>
    { object with metadata := { object.metadata with deletionTimestamp? := some exposingTime } }

/-- A cluster with the frontend, the service and the ingress. -/
def exposingCluster : Cluster :=
  (((Cluster.create { now := exposingTime } exposedFrontend).2.create foreignService).2.create
    emptyRouting).2

theorem exposingCluster_reachable : exposingCluster.Reachable :=
  .seed _ (.seed _ (.seed _ (.empty _)))

/-- The cluster with a writer who waits to touch the ingress. -/
def touchedCluster : Cluster :=
  exposingCluster.beforeReplace (routingPath "team") touch

theorem touchedCluster_keepsRouting : touchedCluster.KeepsRouting "team" := by
  constructor
  · intro ingress hfind
    have hstored : touchedCluster.find? .ingress (routingPath "team") =
      some ((Cluster.created { now := exposingTime, revision := 2 } emptyRouting).wholeSeconds) := rfl
    obtain rfl := Option.some.inj (hstored.symm.trans hfind)
    rfl
  · rintro path edits hget edit hmem rfl
    have hwaiting : touchedCluster.edits.get? (routingPath "team") = some [touch] := rfl
    obtain rfl := Option.some.inj (hwaiting.symm.trans hget)
    obtain rfl := List.mem_singleton.1 hmem
    exact fun _ hlive => hlive

theorem exposed_frontend_installed_in_order :
    (touchedCluster.Reachable ∧ touchedCluster.IsTruthful ∧
      touchedCluster.find? .frontend (exposedKey.path .frontend) = some exposedFrontend ∧
      exposedFrontend.metadata.lifeStage (frontend 5).mark = .unmarked ∧
      touchedCluster.KeepsRouting "team") ∧
    ((frontend 5).pass exposedKey).Unfolds (serveAmid fun _ => ⟨[], exposingTime⟩) touchedCluster
      fun exchanges result after =>
        result = .ok .reconciled ∧
        (made exchanges).map AnyResource.path = ["/apis/apps/v1/namespaces/team/deployments/shop"] ∧
        RouteTask.Installs ⟨exposedOwner, { imageName := "web", port := 80 }, 5⟩
          (exposedKey.path .frontend) touchedCluster exchanges result after := by
  have hreachable : touchedCluster.Reachable :=
    .beforeReplace _ (fun _ _ => rfl) exposingCluster_reachable
  have htruthful : touchedCluster.IsTruthful := fun _ hmem => nomatch hmem
  have hscript : ∀ n : Nat, ((fun _ => ⟨[], exposingTime⟩ : Nat → Arrangement) n).IsTruthful :=
    fun _ _ hmem => nomatch hmem
  have hfind : touchedCluster.find? .frontend (exposedKey.path .frontend) =
    some exposedFrontend := rfl
  have hstage : exposedFrontend.metadata.lifeStage (frontend 5).mark = .unmarked := by decide
  have hrouting : ∀ owner, Owner.ofResource exposedFrontend = .ok owner →
      '/' ∉ owner.namespaceName.toList ∧ touchedCluster.KeepsRouting owner.namespaceName := by
    intro owner howner
    obtain rfl : exposedOwner = owner := Except.ok.inj howner
    exact ⟨by decide, touchedCluster_keepsRouting⟩
  have hinstalled := frontend_installed_in_order hreachable htruthful hscript 5 hfind (.inl hstage)
    hrouting
  exact ⟨⟨hreachable, htruthful, hfind, hstage, touchedCluster_keepsRouting⟩, rfl, rfl,
    hinstalled.2.1 exposedOwner rfl⟩

/-- The cluster with a writer who waits to touch the frontend. -/
def contestedExposure : Cluster :=
  exposingCluster.beforeReplace (exposedKey.path .frontend) touch

/-- The cluster with a writer who waits to have the ingress deleted. -/
def revokedExposure : Cluster :=
  exposingCluster.beforeReplace (routingPath "team") revoke

/-- A pass may leave the frontend changed by more than its mark, and it may reconcile and leave no
ingress: other writers are let in by its replacements. -/
theorem contested_passes_leave_edits :
    (contestedExposure.Reachable ∧ contestedExposure.IsTruthful ∧
      contestedExposure.KeepsRouting "team" ∧
      contestedExposure.find? .frontend (exposedKey.path .frontend) = some exposedFrontend ∧
      exposedFrontend.metadata.lifeStage (frontend 5).mark = .unmarked ∧
      ∃ current, (((frontend 5).pass exposedKey).run Cluster.serve contestedExposure).2.find?
          .frontend (exposedKey.path .frontend) = some current ∧
        current.unversioned ≠ exposedFrontend.unversioned ∧
        current.unversioned ≠ ((frontend 5).marked exposedFrontend).unversioned) ∧
    revokedExposure.Reachable ∧ revokedExposure.IsTruthful ∧
      revokedExposure.find? .frontend (exposedKey.path .frontend) = some exposedFrontend ∧
      (∃ ingress, revokedExposure.find? .ingress (routingPath "team") = some ingress ∧
        ingress.metadata.isDeleted = false) ∧
      (((frontend 5).pass exposedKey).run Cluster.serve revokedExposure).1 = .ok .reconciled ∧
      (((frontend 5).pass exposedKey).run Cluster.serve revokedExposure).2.find? .ingress
        (routingPath "team") = none := by
  have hcontested : contestedExposure.Reachable :=
    .beforeReplace _ (fun _ _ => rfl) exposingCluster_reachable
  have hrevoked : revokedExposure.Reachable :=
    .beforeReplace _ (fun _ _ => rfl) exposingCluster_reachable
  have hkeeps : contestedExposure.KeepsRouting "team" := by
    refine ⟨touchedCluster_keepsRouting.lives, ?_⟩
    rintro path edits hget edit hmem rfl
    have hnobody : contestedExposure.edits.get? (routingPath "team") = none := rfl
    rw [hnobody] at hget
    cases hget
  refine ⟨⟨hcontested, fun _ hmem => (nomatch hmem), hkeeps, rfl, by decide, _, rfl, ?_, ?_⟩,
    hrevoked, fun _ hmem => (nomatch hmem), rfl, ⟨_, rfl, rfl⟩, rfl, rfl⟩
  all_goals
    intro heq
    have hlabels : some [("touched", "yes")] = none :=
      congrArg (fun r : Resource .frontend => r.metadata.labels?) heq
    cases hlabels

end Duty

end EdgeOperator
