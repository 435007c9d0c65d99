import EdgeOperator.Proofs.Teardown
import EdgeOperator.Proofs.World

set_option autoImplicit false

/-! # Teardown among other writers

A teardown looks at an object and deletes it in a call of its own, and a deletion does not say which
object it is meant for. So another party may come in between and put an object of its own there,
and the deletion strikes that (`stranger_deleted`).

Nothing else goes wrong: a teardown deletes an object that its owner does not control just where
such a creation or replacement has overtaken it (`deletes_own_iff_not_overtaken`). -/

namespace EdgeOperator

namespace Cluster

/-- Whether the object of a kind under a path is one that the owner does not control. -/
def HoldsStranger (cluster : Cluster) (owner : Owner) (kind : Kind) (path : String) : Prop :=
  ∃ current, cluster.find? kind path = some current ∧ owner.controls current.metadata = false

/-- Only a creation or a replacement brings an object that the owner does not control. -/
theorem writes_of_holdsStranger {cluster : Cluster} {owner : Owner} {kind : Kind} {path : String}
    {request : Request} (hbefore : ¬ cluster.HoldsStranger owner kind path)
    (hafter : (serve request cluster).2.HoldsStranger owner kind path) :
    request.target? = some path ∧ ∃ (other : Kind) (object : Resource other),
      request = .create other object ∨ request = .replace other object := by
  have htarget : request.target? = some path := by
    by_contra hne
    obtain ⟨current, hfind, hcontrols⟩ := hafter
    exact hbefore ⟨current, (find?_congr (get?_serve_of_ne hne)) ▸ hfind, hcontrols⟩
  refine ⟨htarget, ?_⟩
  cases request with
  | create other object => exact ⟨other, object, Or.inl rfl⟩
  | replace other object => exact ⟨other, object, Or.inr rfl⟩
  | get other key | list other namespaceName? => cases htarget
  | delete other key =>
    -- a deletion takes the object away or leaves it with its owners
    have hpath : key.path other = path := Option.some.inj htarget
    obtain ⟨current, hfind, hcontrols⟩ := hafter
    refine absurd ?_ hbefore
    rcases serve_delete cluster other key with ⟨e, _, heq⟩ | heq
    · rw [heq] at hfind
      exact ⟨current, hfind, hcontrols⟩
    rcases delete_cases (cluster.note (Request.delete other key).call).2 other key with
      ⟨_, hdelete⟩ | ⟨stored, hstored, ⟨_, hdelete⟩ | ⟨_, hdelete⟩ | ⟨_, hdelete⟩⟩ <;>
      rw [heq, hdelete] at hfind
    · exact ⟨current, hfind, hcontrols⟩
    · exact absurd hpath ((find?_of_erase rfl ..).1 hfind).1
    · exact ⟨current, hfind, hcontrols⟩
    · rcases (find?_of_set rfl ..).1 hfind with ⟨_, hmarked⟩ | ⟨hne, _⟩
      · cases hmarked
        exact ⟨stored, hpath ▸ hstored, hcontrols⟩
      · exact absurd hpath hne

end Cluster

namespace World

/-- Whether the next call of the process deletes an object to some effect: afterwards the object is
gone or marked. -/
structure Strikes (world : World Unit Unit) (kind : Kind) (key : ObjectKey)
    (current : Resource kind) : Prop where
  next : ∃ rest, (world.processes ()).program = .call (.delete kind key) rest
  found : world.cluster.find? kind (key.path kind) = some current
  effect : (world.turn (.process ())).cluster.find? kind (key.path kind) ≠ some current

/-- Whether a process deletes nothing but what the owner controls at that moment. -/
def DeletesOwn (world : World Unit Unit) (owner : Owner) (turns : List (Turn Unit)) : Prop :=
  ∀ earlier later, turns = earlier ++ .process () :: later →
    ∀ kind key current, (world.after earlier).Strikes kind key current →
      owner.controls current.metadata = true

/-- Whether in the course of some turns another party has created or replaced an object so that the
owner does not control it, and the owner did not come to control it again. -/
def IsOvertaken (world : World Unit Unit) (owner : Owner) (kind : Kind) (key : ObjectKey)
    (turns : List (Turn Unit)) : Prop :=
  ∃ earlier request later, turns = earlier ++ .other request :: later ∧
    (∃ (other : Kind) (object : Resource other), object.path = key.path kind ∧
      (request = .create other object ∨ request = .replace other object)) ∧
    ¬ (world.after earlier).cluster.HoldsStranger owner kind (key.path kind) ∧
    ∀ front, front <+: later →
      (world.after (earlier ++ .other request :: front)).cluster.HoldsStranger owner kind
        (key.path kind)

/-- One teardown on a cluster that others write to as well. -/
abbrev parting (cluster : Cluster) (owner : Owner) (plan : List TeardownStep) : World Unit Unit :=
  start cluster fun _ => teardown owner plan

variable {cluster : Cluster} {owner : Owner} {plan : List TeardownStep}
  {turns : List (Turn Unit)} {kind : Kind} {key : ObjectKey}

/-- A teardown that is about to delete an object has looked at it in its turn before, and the owner
controlled it then. -/
theorem looked_at {rest}
    (hprogram : (((parting cluster owner plan).after turns).processes ()).program =
      .call (.delete kind key) rest) :
    ∃ earlier since, turns = earlier ++ .process () :: since ∧ .process () ∉ since ∧
      ¬ (((parting cluster owner plan).after earlier).turn (.process ())).cluster.HoldsStranger
        owner kind (key.path kind) := by
  obtain ⟨exchanges, result, hrest⟩ := (rest (.error (.timeout 0))).exists_yields
  have hcall : (((parting cluster owner plan).after turns).processes ()).program.Yields
      (⟨.delete kind key, .error (.timeout 0)⟩ :: exchanges) result := by
    rw [hprogram]
    exact .call _ hrest
  have hwalk := walk_of_yields
    (yields_history_append (fun _ => teardown owner plan) hcall)
  obtain ⟨seen, hlast, hcontrols, _⟩ := hwalk.looks_first rfl
  obtain ⟨earlier, since, rfl, hsince, ⟨_, hlook⟩, hanswer⟩ := exists_last_call hprogram hlast
  refine ⟨earlier, since, rfl, hsince, ?_⟩
  have hfound : (((parting cluster owner plan).after earlier).turn (.process ())).cluster.find? kind
      (key.path kind) = some seen := by
    rw [turn_process_of_call hlook, called_cluster, Cluster.serve_get_snd, Cluster.note_find?]
    exact Cluster.find?_of_serve_get hanswer
  rintro ⟨current, hfind, hforeign⟩
  obtain rfl := Option.some.inj (hfound.symm.trans hfind)
  rw [hcontrols] at hforeign
  cases hforeign

/-- Where the owner does not control an object any more, another party has written it. -/
theorem isOvertaken_of_holdsStranger {world : World Unit Unit} (hturns : .process () ∉ turns)
    (hbefore : ¬ world.cluster.HoldsStranger owner kind (key.path kind))
    (hafter : (world.after turns).cluster.HoldsStranger owner kind (key.path kind)) :
    world.IsOvertaken owner kind key turns := by
  obtain ⟨earlier, turn, later, rfl, hclear, hstays⟩ := exists_last_turn
    (fun world => world.cluster.HoldsStranger owner kind (key.path kind)) hbefore hafter
  have hholds := hstays [] List.nil_prefix
  rw [after_concat] at hholds
  cases turn with
  | process i => exact absurd (by simp) hturns
  | clock now => exact absurd hholds hclear
  | other request =>
    refine ⟨earlier, request, later, rfl, ?_, hclear, hstays⟩
    obtain ⟨htarget, other, object, rfl | rfl⟩ := Cluster.writes_of_holdsStranger hclear hholds
    · exact ⟨other, object, Option.some.inj htarget, Or.inl rfl⟩
    · exact ⟨other, object, Option.some.inj htarget, Or.inr rfl⟩

/-- A teardown deletes nothing but what its owner controls at that moment, just where no deletion is
overtaken since the look that led to it. -/
theorem deletes_own_iff_not_overtaken (cluster : Cluster) (owner : Owner) (plan : List TeardownStep)
    (turns : List (Turn Unit)) :
    (parting cluster owner plan).DeletesOwn owner turns ↔
      ∀ earlier since later, turns = earlier ++ .process () :: (since ++ .process () :: later) →
        .process () ∉ since →
        let looked := ((parting cluster owner plan).after earlier).turn (.process ())
        ∀ kind key current, (looked.after since).Strikes kind key current →
          ¬ looked.IsOvertaken owner kind key since := by
  constructor
  · intro howns earlier since later hturns _ looked kind key current hstrikes hovertaken
    have hcontrols := howns (earlier ++ .process () :: since) later (by rw [hturns]; simp) kind key
      current (by rw [after_append]; exact hstrikes)
    obtain ⟨_, _, back, rfl, _, _, hstays⟩ := hovertaken
    obtain ⟨stored, hfind, hforeign⟩ := hstays back (List.prefix_refl _)
    obtain rfl := Option.some.inj (hstrikes.found.symm.trans hfind)
    rw [hcontrols] at hforeign
    cases hforeign
  · intro hnot front later hturns kind key current hstrikes
    obtain ⟨rest, hprogram⟩ := hstrikes.next
    obtain ⟨earlier, since, rfl, hsince, hclear⟩ := looked_at hprogram
    rw [after_append] at hstrikes
    by_contra hforeign
    refine hnot earlier since later (by rw [hturns]; simp) hsince kind key current hstrikes ?_
    exact isOvertaken_of_holdsStranger hsince hclear
      ⟨current, hstrikes.found, by simpa using hforeign⟩

/-! A teardown finds the deployment of its frontend; before it deletes that, another party deletes
it and creates one of its own under the same name. -/

/-- A frontend that is torn down. -/
def besetFrontend : Owner where
  name := "shop"
  namespaceName := "team"
  reference := ⟨Kind.frontend.apiVersion, none, some true, Kind.frontend.name, "shop", "uid-shop"⟩

/-- A deployment under the name that the frontend's has, with a controller. -/
def deploymentOf (uid : String) : Resource (.plain .deployment) where
  metadata :=
    { name? := some (Workload.deploymentKey besetFrontend).name
      namespaceName? := some "team"
      ownerReferences? := some [{ besetFrontend.reference with uid := uid }] }
  content := []

/-- A cluster that holds the deployment of the frontend. -/
def besetCluster : Cluster :=
  (Cluster.create { now := ⟨2024, 1, 1, 0, 0, 0, 0⟩ } (deploymentOf "uid-shop")).2

/-- The turns of the other party, between two of the teardown. -/
def strangerTurns : List (Turn Unit) :=
  [.process (),
    .other (.delete (.plain .deployment) (Workload.deploymentKey besetFrontend)),
    .other (.create (.plain .deployment) (deploymentOf "uid-other")),
    .process ()]

theorem stranger_deleted :
    besetCluster.Reachable ∧
      ¬ (parting besetCluster besetFrontend besetFrontend.frontendTeardown).DeletesOwn
        besetFrontend strangerTurns := by
  refine ⟨.seed _ (.empty _), fun howns => ?_⟩
  have hcontrols := howns
    [.process (),
      .other (.delete (.plain .deployment) (Workload.deploymentKey besetFrontend)),
      .other (.create (.plain .deployment) (deploymentOf "uid-other"))] [] rfl
    (.plain .deployment) (Workload.deploymentKey besetFrontend) _ ⟨⟨_, rfl⟩, rfl, nofun⟩
  exact absurd hcontrols (by decide)

end World

end EdgeOperator
