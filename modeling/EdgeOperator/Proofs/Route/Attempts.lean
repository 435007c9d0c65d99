import EdgeOperator.Proofs.Cluster.Faithful
import EdgeOperator.Proofs.Route.Upkeep

set_option autoImplicit false

/-! # Routes that are merged in after failures

An attempt at a route that fails changes nothing, so whatever comes before it, the one that goes
well merges the route into what was there at the start (`RouteTask.retryRoute_routed`). -/

namespace EdgeOperator

open Program

namespace RouteTask

open Cluster

/-! ## What the merge of a route writes -/

/-- What the merge of the route writes: the path, and the outline that is there then. -/
def write? (task : RouteTask) (cluster : Cluster) : Option (String × Option AnyResource) :=
  match cluster.find? .ingress (task.key.path .ingress) with
  | some ingress =>
    if (task.merged ingress).changed then
      some ((task.update ingress).path, (task.update ingress).written?)
    else none
  | none =>
    match Anchor.first? (cluster.listed .anchor (some task.frontend.namespaceName)) with
    | none => none
    | some anchor =>
      match Owner.ofResource anchor with
      | .error _ => none
      | .ok owner =>
        let created := routingIngress owner (task.spec.route task.frontend)
        some (created.path, created.written?)

/-- Outlines with what the merge of the route writes. -/
def routed (task : RouteTask) (cluster : Cluster) (outlines : String → Option AnyResource) :
    String → Option AnyResource :=
  match task.write? cluster with
  | none => outlines
  | some (path, written?) => Function.update outlines path written?

variable {task : RouteTask} {before after cluster : Cluster} {server : Cluster.Server}

theorem write?_cases {path : String} {written? : Option AnyResource}
    (h : task.write? cluster = some (path, written?)) :
    (∃ read, cluster.find? .ingress (task.key.path .ingress) = some read ∧
      path = (task.update read).path ∧ written? = (task.update read).written?) ∨
    cluster.find? .ingress (task.key.path .ingress) = none ∧ ∃ anchor owner,
      Anchor.first? (cluster.listed .anchor (some task.frontend.namespaceName)) = some anchor ∧
        Owner.ofResource anchor = .ok owner ∧
        path = (routingIngress owner (task.spec.route task.frontend)).path ∧
        written? = (routingIngress owner (task.spec.route task.frontend)).written? := by
  unfold write? at h
  split at h
  · next read hfind =>
    split at h
    · cases h
      exact Or.inl ⟨read, hfind, rfl, rfl⟩
    · cases h
  · next hnone =>
    split at h
    · cases h
    · next anchor hfirst =>
      split at h
      · cases h
      · next owner howner =>
        cases h
        exact Or.inr ⟨hnone, anchor, owner, hfirst, howner, rfl, rfl⟩

theorem write?_congr (hingress : Leaves .ingress before after)
    (hanchor : Leaves .anchor before after) : task.write? after = task.write? before := by
  unfold write?
  rw [hingress.find?_eq, hanchor.listed_eq]

theorem routed_congr (hingress : Leaves .ingress before after)
    (hanchor : Leaves .anchor before after) : task.routed after = task.routed before := by
  unfold routed
  rw [write?_congr hingress hanchor]

/-- Whether the route is merged into what was there before: into the ingress, or else into one that
was created where there was none. -/
structure IsRouted (task : RouteTask) (before after : Cluster) : Prop where
  outline_eq : after.outline = task.routed before before.outline
  created : before.find? .ingress (task.key.path .ingress) = none →
    ∀ path written?, task.write? before = some (path, written?) →
      before.find? .ingress path = none

/-! ## Attempts -/

/-- What an attempt at the route comes to: the route is merged in, or nothing is changed. -/
structure Attempted (task : RouteTask) (before : Cluster)
    (result : Except OperatorError RouteAttempt) (after : Cluster) : Prop where
  calm : after.IsCalm
  settled : ∀ outcome, result = .ok (.settled outcome) → task.IsRouted before after
  unsettled : (∀ outcome, result ≠ .ok (.settled outcome)) → after.objects = before.objects

theorem IsRouted.after_objects {middle : Cluster} (h : task.IsRouted middle after)
    (hobjects : middle.objects = before.objects) : task.IsRouted before after := by
  have hingress := leaves_of_objects hobjects .ingress
  have hanchor := leaves_of_objects hobjects .anchor
  constructor
  · rw [h.outline_eq, routed_congr hingress hanchor, outline_of_objects hobjects]
  · intro hnone path written? hwrite
    rw [← hingress.find?_eq]
    refine h.created ((hingress.find?_eq _).trans hnone) path written? ?_
    rwa [write?_congr hingress hanchor]

theorem Attempted.after_objects {middle : Cluster} {result : Except OperatorError RouteAttempt}
    (h : task.Attempted middle result after) (hobjects : middle.objects = before.objects) :
    task.Attempted before result after where
  calm := h.calm
  settled outcome heq := (h.settled outcome heq).after_objects hobjects
  unsettled hresult := (h.unsettled hresult).trans hobjects

theorem attempted_of_objects (hcalm : after.IsCalm) (hobjects : after.objects = before.objects)
    {result : Except OperatorError RouteAttempt}
    (hresult : ∀ outcome, result ≠ .ok (.settled outcome)) : task.Attempted before result after :=
  ⟨hcalm, fun outcome heq => absurd heq (hresult outcome), fun _ => hobjects⟩

/-- The write of an ingress is the end of an attempt; one that fails has changed nothing. -/
theorem ofWrite_attempted (hcalm : after.IsCalm) (outcome : Outcome)
    {answer : Except OperatorError (Resource .ingress)}
    (herror : ∀ e, answer = .error e → after.objects = before.objects)
    (hok : ∀ stored, answer = .ok stored → task.IsRouted before after) :
    (RouteAttempt.ofWrite outcome answer).Ends server after (task.Attempted before) := by
  cases answer with
  | ok stored =>
    exact ends_pure.2
      ⟨hcalm, fun _ _ => hok stored rfl, fun hresult => absurd rfl (hresult outcome)⟩
  | error e =>
    have hobjects := herror e rfl
    rcases RouteAttempt.ofWrite_error outcome e with heq | heq <;> rw [heq]
    · exact ends_pure.2 (attempted_of_objects hcalm hobjects (by simp))
    · exact ends_fail.2 (attempted_of_objects hcalm hobjects (by simp))

theorem createRouting_attempted (hserver : IsFaithful server) (hcalm : cluster.IsCalm)
    (hnone : cluster.find? .ingress (task.key.path .ingress) = none) :
    (createRouting task.frontend task.spec).Ends server cluster (task.Attempted cluster) := by
  obtain ⟨hobjects, hlist⟩ :=
    hserver.list_cases hcalm .anchor (some task.frontend.namespaceName)
  have hlisted := hserver.calm hcalm (.list .anchor (some task.frontend.namespaceName))
  have hunchanged : ∀ e : OperatorError, task.Attempted cluster (.error e)
      (server (.list .anchor (some task.frontend.namespaceName)) cluster).2 :=
    fun e => attempted_of_objects hlisted hobjects (by simp)
  refine ends_bind.2 (ends_bind.2 (ends_perform.2 ?_))
  rcases hlist with ⟨e, hlist⟩ | hlist <;> rw [hlist]
  · exact hunchanged e
  dsimp only
  cases hfirst : Anchor.first? (cluster.listed .anchor (some task.frontend.namespaceName)) with
  | none => exact hunchanged _
  | some anchor =>
    refine ends_pure.2 ?_
    dsimp only
    cases howner : Owner.ofResource anchor with
    | error e => exact hunchanged e
    | ok owner =>
      refine ends_bind.2 (ends_attempt.2 ?_)
      refine ofWrite_attempted (hserver.calm hlisted _) .created (fun e herror => ?_)
        fun stored hok => ?_
      all_goals
        rcases hserver.create_cases hlisted
            (routingIngress owner (task.spec.route task.frontend)) with
          ⟨_, hanswer, hafter⟩ | ⟨habsent, _, next, hanswer, hafter, hnext⟩
      · exact hafter.trans hobjects
      · rw [hanswer] at herror
        cases herror
      · rw [hanswer] at hok
        cases hok
      · have hwrite : task.write? cluster =
            some ((routingIngress owner (task.spec.route task.frontend)).path,
              (routingIngress owner (task.spec.route task.frontend)).written?) := by
          simp only [write?, hnone, hfirst, howner]
        refine ⟨?_, fun _ path _ heq => ?_⟩
        · rw [routed, hwrite, outline_of_set hafter, hnext, outline_of_objects hobjects]
          rfl
        · obtain ⟨rfl, _⟩ := Prod.mk.inj (Option.some.inj (hwrite.symm.trans heq))
          exact find?_of_absent (hobjects ▸ habsent)

theorem updateRouting_attempted (hserver : IsFaithful server) (hcalm : cluster.IsCalm)
    {ingress : Resource .ingress}
    (hfind : cluster.find? .ingress (task.key.path .ingress) = some ingress) :
    (updateRouting task.frontend task.spec ingress).Ends server cluster
      (task.Attempted cluster) := by
  have hpath : (task.update ingress).path = task.key.path .ingress :=
    (hcalm.sound.kept (find?_eq_some.1 hfind)).path_eq
  have hwrite : task.write? cluster =
      if (task.merged ingress).changed then
        some ((task.update ingress).path, (task.update ingress).written?)
      else none := by
    unfold write?
    rw [hfind]
  have hrevision : (task.update ingress).IsRevisionOf ingress := ⟨rfl, rfl, rfl⟩
  have hread : cluster.find? .ingress (task.update ingress).path = some ingress := hpath ▸ hfind
  unfold updateRouting
  dsimp only
  split
  · next hchanged =>
    replace hwrite := hwrite.trans (if_pos hchanged)
    refine ends_bind.2 (ends_attempt.2 ?_)
    refine ofWrite_attempted (hserver.calm hcalm _) .updated (fun e herror => ?_)
      fun stored hok => ?_
    · rcases hserver.replace_cases hcalm hread hrevision with ⟨_, _, hafter⟩ | ⟨_, hanswer, _⟩
      · exact hafter
      · exact absurd (hanswer.symm.trans herror) (by simp)
    · refine ⟨?_, fun hnone => absurd (hfind.symm.trans hnone) (by simp)⟩
      rw [routed, hwrite]
      exact hserver.outline_of_replace hcalm hread hrevision hok
  · next hchanged =>
    replace hwrite := hwrite.trans (if_neg hchanged)
    refine ends_pure.2 ⟨hcalm, fun _ _ => ⟨?_, fun hnone => ?_⟩, fun hresult =>
      absurd rfl (hresult _)⟩
    · rw [routed, hwrite]
    · exact absurd (hfind.symm.trans hnone) (by simp)

theorem attemptRoute_attempted (hserver : IsFaithful server) (hcalm : cluster.IsCalm) :
    (attemptRoute task.frontend task.spec).Ends server cluster (task.Attempted cluster) := by
  obtain ⟨hobjects, hlook⟩ :=
    hserver.get_cases hcalm .ingress (routingKey task.frontend.namespaceName)
  have hlooked := hserver.calm hcalm (.get .ingress (routingKey task.frontend.namespaceName))
  have hsame := (leaves_of_objects hobjects .ingress).find?_eq (task.key.path .ingress)
  refine ends_bind.2 (ends_perform.2 ?_)
  rcases hlook with ⟨e, hlook⟩ | hlook <;> rw [hlook]
  · exact attempted_of_objects hlooked hobjects (by simp)
  cases hfind : cluster.find? .ingress
    ((routingKey task.frontend.namespaceName).path .ingress) with
  | none =>
    exact (createRouting_attempted hserver hlooked (hsame.trans hfind)).mono
      fun _ _ h => h.after_objects hobjects
  | some ingress =>
    exact (updateRouting_attempted hserver hlooked (hsame.trans hfind)).mono
      fun _ _ h => h.after_objects hobjects

/-- However many attempts it takes, the route is merged into what was there before, or nothing is
changed. -/
theorem retryRoute_routed (hserver : IsFaithful server) (total left : Nat)
    (hcalm : cluster.IsCalm) :
    (retryRoute task.frontend task.spec total left).Ends server cluster fun result after =>
      after.IsCalm ∧ match result with
        | .ok _ => task.IsRouted cluster after
        | .error _ => after.objects = cluster.objects := by
  induction left generalizing cluster with
  | zero => exact ends_fail.2 ⟨hcalm, rfl⟩
  | succ left ih =>
    refine (attemptRoute_attempted hserver hcalm).bind ?_ ?_
    · intro attempt middle hattempted
      cases attempt with
      | settled outcome => exact ends_pure.2 ⟨hattempted.calm, hattempted.settled outcome rfl⟩
      | overtaken =>
        -- the next attempt finds the cluster as this one did
        have hobjects := hattempted.unsettled (by simp)
        refine (ih hattempted.calm).mono fun result after ⟨hafter, hrest⟩ => ⟨hafter, ?_⟩
        cases result with
        | ok _ => exact hrest.after_objects hobjects
        | error e => exact hrest.trans hobjects
    · exact fun e middle hattempted => ⟨hattempted.calm, hattempted.unsettled (by simp)⟩

end RouteTask

end EdgeOperator
