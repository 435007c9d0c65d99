import EdgeOperator.Ensure
import EdgeOperator.Proofs.World

set_option autoImplicit false

/-! # Racing for a creation

Any number of runs of `ensure` have an object in place under one key, each an object of its own. A
run looks the object up, creates it if it is missing, and looks it up again if the creation came too
late, so between any two of its calls others may have come further.

`Contender` tells where a run stands from what is stored. Only one creation can meet an empty key;
the run that made it is the winner, and all others end with its object (`race_has_one_winner`). -/

namespace EdgeOperator

variable {kind : Kind}

/-- Whether an exchange has created an object. -/
def Exchange.hasCreated : Exchange → Bool
  | ⟨.create _ _, .ok _⟩ => true
  | _ => false

/-- What `ensure` does once it has found nothing. -/
def createOrAdopt (key : ObjectKey) (planned : Resource kind) : Program (Ensured kind) := do
  match ← Program.attempt (.create kind planned) with
  | .ok object => return ⟨object, .created, true⟩
  | .error e => if e.failure = .alreadyExists then adopt kind key e else .fail e

/-- Where a run of `ensure` stands while one object at most is stored, and whether that object is
its own. -/
inductive Contender (key : ObjectKey) (planned : Resource kind) (stored? : Option (Resource kind)) :
    Bool → Process (Ensured kind) → Prop where
  | looking : Contender key planned stored? false ⟨ensure key planned, []⟩
  | found {object : Resource kind} (hstored : stored? = some object) :
      Contender key planned stored? false
        ⟨pure ⟨object, .alreadySatisfied, false⟩, [⟨.get kind key, .ok (some object)⟩]⟩
  | creating :
      Contender key planned stored? false
        ⟨createOrAdopt key planned, [⟨.get kind key, .ok none⟩]⟩
  | beaten {object : Resource kind} (hstored : stored? = some object) :
      Contender key planned stored? false
        ⟨adopt kind key (refused 409 "AlreadyExists"),
          [⟨.get kind key, .ok none⟩,
            ⟨.create kind planned, .error (refused 409 "AlreadyExists")⟩]⟩
  | adopted {object : Resource kind} (hstored : stored? = some object) :
      Contender key planned stored? false
        ⟨pure ⟨object, .alreadySatisfied, true⟩,
          [⟨.get kind key, .ok none⟩,
            ⟨.create kind planned, .error (refused 409 "AlreadyExists")⟩,
            ⟨.get kind key, .ok (some object)⟩]⟩
  | won {object : Resource kind} (hstored : stored? = some object.wholeSeconds) :
      Contender key planned stored? true
        ⟨pure ⟨object, .created, true⟩,
          [⟨.get kind key, .ok none⟩, ⟨.create kind planned, .ok object⟩]⟩

namespace Contender

variable {key : ObjectKey} {planned : Resource kind} {isWinner : Bool}
  {process : Process (Ensured kind)}

/-- As long as nothing is stored nobody has won, and whatever is stored next is new to all. -/
theorem of_none (h : Contender key planned none isWinner process)
    (stored? : Option (Resource kind)) :
    isWinner = false ∧ Contender key planned stored? false process := by
  cases h with
  | looking => exact ⟨rfl, .looking⟩
  | creating => exact ⟨rfl, .creating⟩
  | found hstored | beaten hstored | adopted hstored | won hstored => cases hstored

/-- The next call of a run leaves what is stored, or it creates the object and wins. -/
theorem step {stored? : Option (Resource kind)} (h : Contender key planned stored? isWinner process)
    {cluster : Cluster} (hfaultless : cluster.IsFaultless) (hpath : planned.path = key.path kind)
    (hstored : cluster.objects.get? (key.path kind) = stored?.map (AnyResource.mk kind))
    {request : Request} {next : Except OperatorError request.Answer → Program (Ensured kind)}
    (hprogram : process.program = .call request next) :
    ((Cluster.serve request cluster).2.objects.get? (key.path kind) =
        stored?.map (AnyResource.mk kind) ∧
      Contender key planned stored? isWinner
        ⟨next (Cluster.serve request cluster).1,
          process.history ++ [⟨request, (Cluster.serve request cluster).1⟩]⟩) ∨
    stored? = none ∧ ∃ object,
      (Cluster.serve request cluster).2.objects.get? (key.path kind) = some ⟨kind, object⟩ ∧
      Contender key planned (some object) true
        ⟨next (Cluster.serve request cluster).1,
          process.history ++ [⟨request, (Cluster.serve request cluster).1⟩]⟩ := by
  have hfind : cluster.find? kind (key.path kind) = stored? := by
    cases stored? with
    | none => simp only [Cluster.find?, hstored, Option.map_none, Option.bind_none]
    | some object => exact Cluster.find?_eq_some.2 hstored
  have hget : (Cluster.serve (.get kind key) cluster).1 = .ok stored? := by
    rw [hfaultless.serve_eq, ← hfind]
    rfl
  cases h with
  | looking =>
    cases hprogram
    refine Or.inl ⟨by rw [Cluster.serve_get_objects, hstored], ?_⟩
    rw [hget]
    cases stored? with
    | none => exact .creating
    | some object => exact .found rfl
  | creating =>
    cases hprogram
    let noted := (cluster.note (Request.create kind planned).call).2
    cases stored? with
    | none =>
      have habsent : noted.objects.get? planned.path = none := hpath ▸ hstored
      have hserve : Cluster.serve (.create kind planned) cluster =
          (.ok (noted.created planned), noted.put planned.path (noted.created planned)) :=
        (hfaultless.serve_eq _).trans (Cluster.create_of_absent habsent)
      refine Or.inr ⟨rfl, (noted.created planned).wholeSeconds, ?_, ?_⟩
      · rw [hserve, hpath]
        exact (StringMap.get?_set ..).trans (if_pos rfl)
      · rw [hserve]
        exact .won rfl
    | some object =>
      have hpresent : noted.objects.get? planned.path = some ⟨kind, object⟩ := hpath ▸ hstored
      have hserve : Cluster.serve (.create kind planned) cluster =
          (.error (refused 409 "AlreadyExists"), noted) :=
        (hfaultless.serve_eq _).trans (Cluster.create_of_present hpresent)
      rw [hserve]
      exact Or.inl ⟨hstored, .beaten rfl⟩
  | beaten hobject =>
    cases hprogram
    refine Or.inl ⟨by rw [Cluster.serve_get_objects, hstored], ?_⟩
    subst hobject
    rw [hget]
    exact .adopted rfl
  | found hobject | adopted hobject | won hobject => cases hprogram

/-- A run that has made three calls has come to a good end. -/
theorem ended_or_length_lt {stored? : Option (Resource kind)}
    (h : Contender key planned stored? isWinner process) :
    (∃ ensured, process.program = .done (.ok ensured)) ∨ process.history.length < 3 := by
  cases h with
  | found _ | adopted _ | won _ => exact Or.inl ⟨_, rfl⟩
  | looking | creating | beaten _ => exact Or.inr (by simp)

theorem ended_of_won {stored? : Option (Resource kind)}
    (h : Contender key planned stored? true process) :
    ∃ ensured, process.program = .done (.ok ensured) := by
  cases h
  exact ⟨_, rfl⟩

/-- A run ends with the object that is stored. -/
theorem of_done {stored? : Option (Resource kind)}
    (h : Contender key planned stored? isWinner process)
    {result : Except OperatorError (Ensured kind)} (hprogram : process.program = .done result) :
    ∃ ensured stored, result = .ok ensured ∧ stored? = some stored ∧
      ensured.object.wholeSeconds = stored.wholeSeconds ∧
      ensured.outcome = if isWinner then .created else .alreadySatisfied := by
  cases h with
  | looking | creating | beaten _ => cases hprogram
  | found hstored | adopted hstored =>
    cases hprogram
    exact ⟨_, _, rfl, hstored, rfl, rfl⟩
  | won hstored =>
    cases hprogram
    exact ⟨_, _, rfl, hstored, (Resource.wholeSeconds_idem _).symm, rfl⟩

/-- The winner has created one object, all others none. -/
theorem countP_hasCreated {stored? : Option (Resource kind)}
    (h : Contender key planned stored? isWinner process) :
    process.history.countP Exchange.hasCreated = if isWinner then 1 else 0 := by
  cases h <;> rfl

end Contender

namespace World

variable {ι : Type} [DecidableEq ι]

/-- Whether every process is a run of `ensure` on one key that stands where the others allow it to,
and which of them has created the object. -/
structure Race (world : World ι (Ensured kind)) (key : ObjectKey) (planned : ι → Resource kind)
    (stored? : Option (Resource kind)) (winner? : Option ι) : Prop where
  faultless : world.cluster.IsFaultless
  stored : world.cluster.objects.get? (key.path kind) = stored?.map (AnyResource.mk kind)
  contender : ∀ i, Contender key (planned i) stored? (winner? = some i) (world.processes i)

variable {key : ObjectKey} {planned : ι → Resource kind} {world : World ι (Ensured kind)}
  {stored? : Option (Resource kind)} {winner? : Option ι}

theorem race_start {cluster : Cluster} (hfaultless : cluster.IsFaultless)
    (hstored : cluster.objects.get? (key.path kind) = stored?.map (AnyResource.mk kind)) :
    (start cluster fun i => ensure key (planned i)).Race key planned stored? none :=
  ⟨hfaultless, hstored, fun _ => .looking⟩

/-- A run that makes a call leaves the race as it is, or it wins. -/
theorem Race.called (h : world.Race key planned stored? winner?)
    (hpath : ∀ i, (planned i).path = key.path kind) {i : ι} {request : Request} {next}
    (hprogram : (world.processes i).program = .call request next) :
    (world.called i request next).Race key planned stored? winner? ∨
      stored? = none ∧ ∃ object,
        (world.called i request next).Race key planned (some object) (some i) := by
  have hfaultless := h.faultless.serve request
  rcases (h.contender i).step h.faultless (hpath i) h.stored hprogram with
    ⟨hstored, hcontender⟩ | ⟨rfl, object, hstored, hcontender⟩
  · refine Or.inl ⟨hfaultless, hstored, fun j => ?_⟩
    by_cases hj : j = i
    · subst hj
      rwa [called_processes_self]
    · rw [called_processes_of_ne world hj]
      exact h.contender j
  · refine Or.inr ⟨rfl, object, hfaultless, hstored, fun j => ?_⟩
    by_cases hj : j = i
    · subst hj
      rw [called_processes_self, decide_eq_true rfl]
      exact hcontender
    · rw [called_processes_of_ne world hj,
        decide_eq_false fun heq => hj (Option.some.inj heq).symm]
      exact ((h.contender j).of_none (some object)).2

/-- A turn leaves the race as it is, or it is that of the winner. -/
theorem Race.turn (h : world.Race key planned stored? winner?)
    (hpath : ∀ i, (planned i).path = key.path kind) {turn : Turn ι}
    (halone : ∀ request, turn = .other request → request.target? ≠ some (key.path kind)) :
    (world.turn turn).Race key planned stored? winner? ∨
      stored? = none ∧ ∃ object winner,
        (world.turn turn).Race key planned (some object) (some winner) := by
  cases turn with
  | process i =>
    cases hprogram : (world.processes i).program with
    | done result =>
      rw [turn_process_of_done hprogram]
      exact Or.inl h
    | call request next =>
      rw [turn_process_of_call hprogram]
      rcases h.called hpath hprogram with hrace | ⟨hnone, object, hrace⟩
      · exact Or.inl hrace
      · exact Or.inr ⟨hnone, object, i, hrace⟩
  | other request =>
    have hstored := (Cluster.get?_serve_of_ne (halone request rfl)).trans h.stored
    exact Or.inl ⟨h.faultless.serve request, hstored, h.contender⟩
  | clock now => exact Or.inl ⟨h.faultless, h.stored, h.contender⟩

/-- What has come of a race: whoever has ended has the stored object, and only the winner, if there
is one, has created it. -/
structure RaceResult (world : World ι (Ensured kind)) (key : ObjectKey)
    (stored? : Option (Resource kind)) (winner? : Option ι) : Prop where
  stored : world.cluster.objects.get? (key.path kind) = stored?.map (AnyResource.mk kind)
  returned : ∀ i result, (world.processes i).program = .done result →
    ∃ ensured stored, result = .ok ensured ∧ stored? = some stored ∧
      ensured.object.wholeSeconds = stored.wholeSeconds ∧
      ensured.outcome = if winner? = some i then .created else .alreadySatisfied
  creations : ∀ i, (world.processes i).history.countP Exchange.hasCreated =
    if winner? = some i then 1 else 0
  winner_ended : ∀ i, winner? = some i → world.Ended i

theorem Race.result (h : world.Race key planned stored? winner?) :
    world.RaceResult key stored? winner? where
  stored := h.stored
  returned i result hprogram := by simpa using (h.contender i).of_done hprogram
  creations i := by simpa using (h.contender i).countP_hasCreated
  winner_ended i hwinner := by
    have hcontender := h.contender i
    rw [decide_eq_true hwinner] at hcontender
    exact hcontender.ended_of_won

/-- However the calls of any number of runs of `ensure` on one key are interleaved, all of them end
well after three turns of their own, and with one object.

If nothing was stored at first, the object is that of the one run that has created it; if an object
was stored, no run has created any, and it is still there. -/
theorem race_has_one_winner {cluster : Cluster} (hfaultless : cluster.IsFaultless)
    {first? : Option (Resource kind)}
    (hfirst : cluster.objects.get? (key.path kind) = first?.map (AnyResource.mk kind))
    (hpath : ∀ i, (planned i).path = key.path kind) {turns : List (Turn ι)}
    (halone : ∀ request, .other request ∈ turns → request.target? ≠ some (key.path kind)) :
    let world := (start cluster fun i => ensure key (planned i)).after turns
    (∀ i, 3 ≤ turnsOf i turns → world.Ended i) ∧
      ∃ stored? winner?, world.RaceResult key stored? winner? ∧
        (first? = none → (∃ i, world.Ended i) → ∃ winner, winner? = some winner) ∧
        (∀ object, first? = some object → stored? = some object ∧ winner? = none) := by
  intro world
  obtain ⟨stored?, winner?, hrace, hdecided⟩ : ∃ stored? winner?,
      world.Race key planned stored? winner? ∧
        (stored? = first? ∧ winner? = none ∨ first? = none ∧ ∃ i, winner? = some i) := by
    refine after_keeps
      (fun world => ∃ stored? winner?, world.Race key planned stored? winner? ∧
        (stored? = first? ∧ winner? = none ∨ first? = none ∧ ∃ i, winner? = some i))
      (fun world turn hmem ⟨stored?, winner?, hrace, hdecided⟩ => ?_)
      ⟨first?, none, race_start hfaultless hfirst, Or.inl ⟨rfl, rfl⟩⟩
    rcases hrace.turn hpath (fun request heq => halone request (heq ▸ hmem)) with
      hrace | ⟨rfl, object, winner, hrace⟩
    · exact ⟨stored?, winner?, hrace, hdecided⟩
    · have hnone : first? = none := hdecided.elim (fun h => h.1.symm) fun h => h.1
      exact ⟨some object, some winner, hrace, Or.inr ⟨hnone, winner, rfl⟩⟩
  refine ⟨fun i hturns => ?_, stored?, winner?, hrace.result, ?_, ?_⟩
  · rcases (hrace.contender i).ended_or_length_lt with hended | hlength
    · exact hended
    · -- a run that has not ended has made a call in each of its turns
      rcases done_or_length_history (start cluster fun i => ensure key (planned i)) i turns with
        ⟨result, hprogram⟩ | hturned
      · obtain ⟨ensured, _, rfl, _⟩ := hrace.result.returned i result hprogram
        exact ⟨ensured, hprogram⟩
      · change (world.processes i).history.length = 0 + turnsOf i turns at hturned
        omega
  · rintro hnone ⟨i, ensured, hprogram⟩
    obtain ⟨_, stored, _, hstored, _⟩ := hrace.result.returned i _ hprogram
    rcases hdecided with ⟨hfirst, _⟩ | ⟨_, hwinner⟩
    · rw [hfirst, hnone] at hstored
      cases hstored
    · exact hwinner
  · rintro object hsome
    rcases hdecided with ⟨hstored, hwinner⟩ | ⟨hnone, _⟩
    · exact ⟨hstored.trans hsome, hwinner⟩
    · rw [hnone] at hsome
      cases hsome

/-! Two runs that both find nothing: the second creation is refused, so its run ends with the object
of the first. -/

/-- The objects that two writers would have under one key. -/
def rivalPlan (isFirst : Bool) : Resource (.plain .configMap) where
  metadata := { name? := some "settings", namespaceName? := some "team" }
  content := [("data", .obj [("writer", .str (if isFirst then "first" else "second"))])]

/-- A cluster that holds nothing. -/
def bareCluster : Cluster where
  now := ⟨2024, 1, 1, 0, 0, 0, 0⟩

/-- Turns in which both runs look before one of them creates its object. -/
def rivalTurns : List (Turn Bool) :=
  [true, false, true, false, false, true, true, false].map .process

theorem late_rival_takes_winners_object :
    let key := ObjectKey.inNamespace "team" "settings"
    let world := (start bareCluster fun b => ensure key (rivalPlan b)).after rivalTurns
    (bareCluster.IsFaultless ∧ bareCluster.objects.get? (key.path (.plain .configMap)) = none ∧
      (∀ b, (rivalPlan b).path = key.path (.plain .configMap)) ∧
      ∀ b, 3 ≤ turnsOf b rivalTurns) ∧
    (∀ b, world.Ended b) ∧
      ∃ stored?, world.RaceResult key stored? (some true) := by
  intro key world
  have hfaultless : bareCluster.IsFaultless := fun _ hmem => nomatch hmem
  have hnone : bareCluster.objects.get? (key.path (.plain .configMap)) =
    (none : Option (Resource (.plain .configMap))).map (AnyResource.mk _) := rfl
  have hpath : ∀ b, (rivalPlan b).path = key.path (.plain .configMap) := fun _ => rfl
  have hturns : ∀ b, 3 ≤ turnsOf b rivalTurns := by decide
  obtain ⟨hended, stored?, winner?, hresult, hwinner, _⟩ :=
    race_has_one_winner hfaultless hnone hpath
      fun request (hmem : .other request ∈ rivalTurns) => by simp [rivalTurns] at hmem
  refine ⟨⟨hfaultless, hnone, hpath, hturns⟩, fun b => hended b (hturns b), stored?, ?_⟩
  have htrue : (world.processes true).history.countP Exchange.hasCreated = 1 := by decide +kernel
  have hfirst : winner? = some true := by
    by_contra hne
    have hcount := hresult.creations true
    rw [if_neg hne] at hcount
    exact absurd (htrue.symm.trans hcount) (by decide)
  rwa [hfirst] at hresult

end World

end EdgeOperator
