import EdgeOperator.Proofs.Duty
import EdgeOperator.Proofs.Route.Retries

set_option autoImplicit false

/-! # Passes and failed calls

A call that fails ends the pass it belongs to, which comes to the same failure, unless the failure
is of a sort that the pass absorbs (`Request.Absorbs`): an object that was to be created is there by
now, an object that was to be deleted is gone, or another writer got in before a route was written.

What a program makes of each failure can be read off the program itself (`Program.Heeds`), and is
put together from its parts. Only the number of attempts at a route has to be told from the
exchanges of a run (`RetriesWithin`). Both come together in `Duty.passes_meet_failures`.

In particular no pass goes on after an error of the server. Whether it is tried again soon depends
on the code of the error (`Duty.server_error_retried_soon_iff`). -/

namespace EdgeOperator

variable {α β : Type}

/-! ## Failures that are absorbed -/

/-- Whether a pass goes on after a call has failed in a certain way. -/
def Request.Absorbs : Request → OperatorError → Prop
  | .create (.plain _) _, e => e.failure = .alreadyExists
  | .create .ingress _, e | .replace .ingress _, e => e.TellsOfOthers
  | .delete _ _, e => e.failure = .notFound
  | _, _ => False

theorem Request.absorbs_of_writesRoute {request : Request} (h : request.writesRoute = true)
    (e : OperatorError) : request.Absorbs e ↔ e.TellsOfOthers := by
  unfold writesRoute at h
  split at h
  · exact Iff.rfl
  · exact Iff.rfl
  · cases h

/-- A failure that has nothing to do with other writers is never absorbed. -/
theorem Request.not_absorbs_of_failure {e : OperatorError}
    (h : e.failure = .transient ∨ e.failure = .fatal) (request : Request) : ¬ request.Absorbs e := by
  intro habsorbs
  unfold Absorbs OperatorError.TellsOfOthers at habsorbs
  split at habsorbs <;> rcases h with h | h <;> simp [h] at habsorbs

/-! ## What a program makes of a failure -/

namespace Program

/-- What a program makes of the failure of a call, where `next` is how it goes on with an answer. -/
inductive Heeded :
    (request : Request) → (Except OperatorError request.Answer → Program α) → OperatorError → Prop
  where
  /-- It ends with the failure. -/
  | stopped {request : Request} {next : Except OperatorError request.Answer → Program α}
      {e : OperatorError} (habsorbs : ¬ request.Absorbs e) (hstops : next (.error e) = .fail e) :
      Heeded request next e
  /-- The object is there by now: it is looked up once more, and if it is gone again the failure
  stands. -/
  | adopted {kind : PlainKind} {object : Resource (.plain kind)}
      {next : Except OperatorError (Resource (.plain kind)) → Program α} {e : OperatorError}
      {look : Except OperatorError (Option (Resource (.plain kind))) → Program α}
      (hexists : e.failure = .alreadyExists)
      (hlooks : next (.error e) = .call (.get (.plain kind) object.key) look)
      (hgone : look (.ok none) = .fail e) :
      Heeded (.create (.plain kind) object) next e
  /-- The object was gone already: it goes on as if the object had been deleted and found missing. -/
  | vanished {kind : Kind} {key : ObjectKey} {next : Except OperatorError Unit → Program α}
      {e : OperatorError} {look : Except OperatorError (Option (Resource kind)) → Program α}
      (hmissing : e.failure = .notFound) (hlooks : next (.ok ()) = .call (.get kind key) look)
      (hsame : next (.error e) = look (.ok none)) :
      Heeded (.delete kind key) next e
  /-- Another writer got in before a route was written. -/
  | overtaken {request : Request} {next : Except OperatorError request.Answer → Program α}
      {e : OperatorError} (hwrites : request.writesRoute = true) (htells : e.TellsOfOthers) :
      Heeded request next e

/-- Whether a program makes of each failure what is to be made of it. -/
inductive Heeds : Program α → Prop where
  | done (result : Except OperatorError α) : Heeds (.done result)
  | call {request : Request} {next : Except OperatorError request.Answer → Program α}
      (hfails : ∀ e, Heeded request next e) (hnext : ∀ answer, Heeds (next answer)) :
      Heeds (.call request next)

theorem Heeded.bind {request : Request} {next : Except OperatorError request.Answer → Program α}
    {e : OperatorError} (h : Heeded request next e) (rest : α → Program β) :
    Heeded request (fun answer => next answer >>= rest) e := by
  cases h with
  | stopped habsorbs hstops =>
    refine .stopped habsorbs ?_
    rw [hstops]
    rfl
  | @adopted kind object next e look hexists hlooks hgone =>
    have hlooks' : next (.error e) >>= rest =
        .call (.get (.plain kind) object.key) fun answer => look answer >>= rest := by
      rw [hlooks]
      rfl
    have hgone' : look (.ok none) >>= rest = .fail e := by
      rw [hgone]
      rfl
    exact .adopted hexists hlooks' hgone'
  | @vanished kind key next e look hmissing hlooks hsame =>
    have hlooks' : next (.ok ()) >>= rest =
        .call (.get kind key) fun answer => look answer >>= rest := by
      rw [hlooks]
      rfl
    have hsame' : next (.error e) >>= rest = look (.ok none) >>= rest := by
      rw [hsame]
    exact .vanished hmissing hlooks' hsame'
  | overtaken hwrites htells => exact .overtaken hwrites htells

theorem Heeds.bind {program : Program α} (h : program.Heeds) {next : α → Program β}
    (hnext : ∀ value, (next value).Heeds) : (program >>= next).Heeds := by
  induction h with
  | done result =>
    cases result with
    | ok value => exact hnext value
    | error e => exact .done (.error e)
  | call hfails _ ih => exact .call (fun e => (hfails e).bind next) ih

theorem heeds_perform {request : Request} (h : ∀ e, ¬ request.Absorbs e) :
    (perform request).Heeds :=
  .call (fun e => .stopped (h e) rfl) fun answer => .done answer

theorem heeds_get (kind : Kind) (key : ObjectKey) : (Program.get kind key).Heeds :=
  heeds_perform fun _ => id

/-- A call whose failure is looked at. -/
theorem heeds_attempt_bind {request : Request}
    {next : Except OperatorError request.Answer → Program α} (hfails : ∀ e, Heeded request next e)
    (hnext : ∀ answer, (next answer).Heeds) : (attempt request >>= next).Heeds :=
  .call hfails hnext

/-- Where a run meets a failure, the program is at a call, of which it makes what is to be made of
it; and with another answer it goes on from there. -/
theorem Heeds.of_yields {program : Program α} (h : program.Heeds) {exchanges : List Exchange}
    {result : Except OperatorError α} (hyields : program.Yields exchanges result)
    {earlier later : List Exchange} {request : Request} {e : OperatorError}
    (heq : exchanges = earlier ++ ⟨request, .error e⟩ :: later) :
    ∃ next : Except OperatorError request.Answer → Program α, Heeded request next e ∧
      (next (.error e)).Yields later result ∧
      ∀ answer later' result', (next answer).Yields later' result' →
        program.Yields (earlier ++ ⟨request, answer⟩ :: later') result' := by
  induction h generalizing exchanges earlier with
  | done outcome =>
    cases hyields
    simp at heq
  | @call asked next hfails hnext ih =>
    cases hyields with
    | @call _ _ rest _ answer hrest =>
      cases earlier with
      | nil =>
        obtain ⟨hhead, rfl⟩ := List.cons.inj heq
        cases hhead
        exact ⟨next, hfails e, hrest, fun answer _ _ hlater => .call answer hlater⟩
      | cons first earlier =>
        obtain ⟨rfl, hrests⟩ := List.cons.inj heq
        obtain ⟨node, hheeded, hlater, hother⟩ := ih answer hrest hrests
        exact ⟨node, hheeded, hlater, fun _ _ _ h => .call answer (hother _ _ _ h)⟩

end Program

open Program

/-! ## The parts of a pass -/

theorem ensure_heeds {kind : PlainKind} {key : ObjectKey} {planned : Resource (.plain kind)}
    (hkey : planned.key = key) : (ensure key planned).Heeds := by
  refine (heeds_get _ key).bind fun found => ?_
  cases found with
  | some object => exact .done _
  | none =>
    have hadopt : ∀ e, (adopt (.plain kind) key e).Heeds := by
      intro e
      refine (heeds_get _ key).bind fun found => ?_
      cases found <;> exact .done _
    refine heeds_attempt_bind (fun e => ?_) fun answer => ?_
    · by_cases hexists : e.failure = .alreadyExists
      · subst hkey
        exact .adopted hexists (if_pos hexists) rfl
      · exact .stopped hexists (if_neg hexists)
    · cases answer with
      | ok object => exact .done _
      | error e =>
        dsimp only
        split
        · exact hadopt e
        · exact .done _

theorem ensureComponents_heeds (owner : Owner) (components : List Component) :
    (ensureComponents owner components).Heeds := by
  induction components with
  | nil => exact .done _
  | cons component rest ih =>
    have hensure : (component.ensure owner).Heeds :=
      (ensure_heeds (component.key_blueprint owner)).bind fun _ => .done _
    exact hensure.bind fun _ => ih

theorem RouteAttempt.ofWrite_heeds (outcome : Outcome)
    (answer : Except OperatorError (Resource .ingress)) : (ofWrite outcome answer).Heeds := by
  rcases ofWrite_cases outcome answer with ⟨_, _, heq⟩ | ⟨e, _, ⟨_, heq⟩ | ⟨_, heq⟩⟩ <;> rw [heq] <;>
    exact .done _

theorem RouteAttempt.ofWrite_heeded {request : Request} (hwrites : request.writesRoute = true)
    {next : Except OperatorError request.Answer → Program RouteAttempt} {outcome : Outcome}
    (hnext : ∀ e, next (.error e) = ofWrite outcome (.error e)) (e : OperatorError) :
    Heeded request next e := by
  rcases ofWrite_cases outcome (.error e) with ⟨_, h, _⟩ | ⟨e', h, ⟨htells, _⟩ | ⟨htells, heq⟩⟩
  · cases h
  · obtain rfl := Except.error.inj h
    exact .overtaken hwrites htells
  · obtain rfl := Except.error.inj h
    refine .stopped (fun habsorbs => htells ?_) ((hnext e).trans heq)
    exact (Request.absorbs_of_writesRoute hwrites e).1 habsorbs

theorem attemptRoute_heeds (frontend : Owner) (spec : FrontendSpec) :
    (attemptRoute frontend spec).Heeds := by
  refine (heeds_get _ _).bind fun found => ?_
  cases found with
  | none =>
    have hanchor : (findAnchor frontend.namespaceName).Heeds := by
      have hlist : (Program.list .anchor (some frontend.namespaceName)).Heeds :=
        heeds_perform fun _ => id
      refine hlist.bind fun anchors => ?_
      cases Anchor.first? anchors <;> exact .done _
    refine hanchor.bind fun anchor => ?_
    cases Owner.ofResource anchor with
    | error e => exact .done _
    | ok owner =>
      exact heeds_attempt_bind (RouteAttempt.ofWrite_heeded rfl fun _ => rfl)
        (RouteAttempt.ofWrite_heeds _)
  | some ingress =>
    dsimp only
    unfold updateRouting
    dsimp only
    split
    · exact heeds_attempt_bind (RouteAttempt.ofWrite_heeded rfl fun _ => rfl)
        (RouteAttempt.ofWrite_heeds _)
    · exact .done _

theorem retryRoute_heeds (frontend : Owner) (spec : FrontendSpec) (total left : Nat) :
    (retryRoute frontend spec total left).Heeds := by
  induction left with
  | zero => exact .done _
  | succ left ih =>
    refine (attemptRoute_heeds frontend spec).bind fun attempt => ?_
    cases attempt with
    | settled outcome => exact .done _
    | overtaken => exact ih

theorem TeardownStep.remove_heeds (step : TeardownStep) (owner : Owner) :
    (step.remove owner).Heeds := by
  refine (heeds_get _ _).bind fun found => ?_
  cases found with
  | none => exact .done _
  | some current =>
    have hawait : step.awaitGone.Heeds := by
      refine (heeds_get _ _).bind fun found => ?_
      cases found <;> exact .done _
    have hdelete : step.delete.Heeds := by
      refine heeds_attempt_bind (fun e => ?_) fun answer => ?_
      · by_cases hmissing : e.failure = .notFound
        · exact .vanished hmissing rfl (if_pos hmissing)
        · exact .stopped hmissing (if_neg hmissing)
      · cases answer with
        | ok _ => exact hawait
        | error e =>
          dsimp only
          split <;> exact .done _
    dsimp only
    split
    · exact .done _
    · split
      · exact .done _
      · exact hdelete

theorem teardown_heeds (owner : Owner) (plan : List TeardownStep) : (teardown owner plan).Heeds := by
  induction plan with
  | nil => exact .done _
  | cons step rest ih => exact (step.remove_heeds owner).bind fun _ => ih

namespace Duty

variable {kind : Kind} {duty : Duty kind}

/-- A call that replaces a custom resource absorbs nothing. -/
theorem IsOperators.not_absorbs_replace (h : duty.IsOperators) (object : Resource kind)
    (e : OperatorError) : ¬ (Request.replace kind object).Absorbs e := by
  cases h <;> exact id

theorem IsOperators.install_heeds (h : duty.IsOperators) (owner : Owner) (read : Resource kind) :
    (duty.install owner read).Heeds := by
  cases h with
  | anchor => exact ensureComponents_heeds owner _
  | frontend attempts =>
    let spec : FrontendSpec := FrontendContent.spec read.content
    have hservice : (ensure (Workload.serviceKey owner)
        (Workload.service owner spec).toResource).Heeds := ensure_heeds rfl
    have hdeployment : (ensure (Workload.deploymentKey owner)
        (Workload.deployment owner spec).toResource).Heeds := ensure_heeds rfl
    have hroute : (ensureRoute owner spec attempts).Heeds := retryRoute_heeds owner spec _ _
    exact hservice.bind fun _ => hdeployment.bind fun _ => hroute.bind fun _ => .done _

theorem IsOperators.settle_heeds (h : duty.IsOperators) (stored read : Resource kind) :
    (duty.settle stored read).Heeds := by
  unfold settle
  cases Owner.ofResource stored with
  | error e => exact .done _
  | ok owner => exact (h.install_heeds owner read).bind fun _ => .done _

theorem IsOperators.dismantle_heeds (h : duty.IsOperators) (object : Resource kind) :
    (duty.dismantle object).Heeds := by
  unfold dismantle
  cases Owner.ofResource object with
  | error e => exact .done _
  | ok owner =>
    have hrelease : (release object duty.mark).Heeds :=
      heeds_perform (h.not_absorbs_replace (duty.unmarked object))
    exact (teardown_heeds owner _).bind fun _ => hrelease.bind fun _ => .done _

theorem IsOperators.pass_heeds (h : duty.IsOperators) (key : ObjectKey) :
    (duty.pass key).Heeds := by
  rw [pass_eq]
  refine (heeds_perform fun _ => id).bind fun found? => ?_
  cases found? with
  | none => exact .done _
  | some object =>
    dsimp only [serveFound]
    cases object.metadata.lifeStage duty.mark with
    | released => exact .done _
    | tearingDown => exact h.dismantle_heeds object
    | unmarked =>
      have hregister : (register object duty.mark).Heeds :=
        heeds_perform (h.not_absorbs_replace _)
      exact hregister.bind fun stored => h.settle_heeds stored object
    | marked => exact h.settle_heeds object object

end Duty

/-! ## The attempts of a pass -/

/-- Whether a resource was read in a pass, or answered to its registration. -/
def Duty.HasMet (kind : Kind) (key : ObjectKey) (exchanges : List Exchange)
    (stored : Resource kind) : Prop :=
  ⟨.get kind key, .ok (some stored)⟩ ∈ exchanges ∨
    ∃ marked, ⟨.replace kind marked, .ok stored⟩ ∈ exchanges

section Servers

variable {σ : Type} {serve : (request : Request) → σ → Except OperatorError request.Answer × σ}
  {state : σ}

theorem Request.Plants.writesRoute {owner : Owner} {plan : List TeardownStep} {request : Request}
    (h : request.Plants owner plan) : request.writesRoute = false := by
  cases h <;> rfl

namespace Duty

variable {kind : Kind} {duty : Duty kind} {attempts : Nat}

theorem IsOperators.writesRoute_replace (h : duty.IsOperators) (object : Resource kind) :
    (Request.replace kind object).writesRoute = false := by
  cases h <;> rfl

/-- Whether a duty installs with a number of attempts at the route of its owner, if with any. -/
def InstallsWithin
    (serve : (request : Request) → σ → Except OperatorError request.Answer × σ)
    (duty : Duty kind) (attempts : Nat) : Prop :=
  ∀ (owner : Owner) (read : Resource kind) (state : σ),
    (duty.install owner read).Unfolds serve state fun exchanges result _ =>
      RetriesWithin (routingKey owner.namespaceName) attempts attempts exchanges result

theorem anchor_installsWithin (attempts : Nat) :
    InstallsWithin serve Duty.anchor attempts := by
  intro owner read state
  have hplants := ensureComponents_plants owner Component.creationOrder
  exact hplants.unfolds.mono fun _ _ _ hasks =>
    retriesWithin_of_no_writes fun exchange hmem => (hasks exchange hmem).writesRoute

theorem frontend_installsWithin (attempts : Nat) :
    InstallsWithin serve (Duty.frontend attempts) attempts := by
  intro owner read state
  let spec : FrontendSpec := FrontendContent.spec read.content
  have hservice := (ensureService_plants owner spec).mono fun _ => Request.Plants.writesRoute
  have hdeployment := (ensureDeployment_plants owner spec).mono fun _ => Request.Plants.writesRoute
  refine RetriesWithin.unfolds_bind hservice fun _ _ => ?_
  refine RetriesWithin.unfolds_bind hdeployment fun _ _ => ?_
  refine unfolds_bind_pure.2 ?_
  exact (retryRoute_retriesWithin owner spec).mono fun _ _ _ h => h.map _

/-- What a pass makes of its attempts at a route, if it makes any: the route is in the namespace of
an owner that it has met. -/
def Retries (attempts : Nat) (met : Resource kind → Prop) (exchanges : List Exchange)
    (result : Except OperatorError PassOutcome) : Prop :=
  (∀ exchange ∈ exchanges, exchange.request.writesRoute = false) ∨
    ∃ stored owner, met stored ∧ Owner.ofResource stored = .ok owner ∧
      RetriesWithin (routingKey owner.namespaceName) attempts attempts exchanges result

theorem Retries.prepend {met wider : Resource kind → Prop} {front exchanges : List Exchange}
    {result : Except OperatorError PassOutcome} (h : Retries attempts met exchanges result)
    (hfront : ∀ exchange ∈ front, exchange.request.writesRoute = false)
    (hmet : ∀ stored, met stored → wider stored) :
    Retries attempts wider (front ++ exchanges) result := by
  rcases h with hnone | ⟨stored, owner, hstored, howner, hretries⟩
  · exact Or.inl (List.forall_mem_append.2 ⟨hfront, hnone⟩)
  · exact Or.inr ⟨stored, owner, hmet stored hstored, howner, hretries.prepend hfront⟩

theorem settle_retries (hinstall : InstallsWithin serve duty attempts)
    (stored read : Resource kind) :
    (duty.settle stored read).Unfolds serve state fun exchanges result _ =>
      Retries attempts (· = stored) exchanges result := by
  unfold settle
  cases howner : Owner.ofResource stored with
  | error e => exact Or.inl (List.forall_mem_nil _)
  | ok owner =>
    refine unfolds_bind_pure.2 ((hinstall owner read state).mono fun exchanges result _ h => ?_)
    exact Or.inr ⟨stored, owner, rfl, howner, h.map _⟩

theorem IsOperators.register_retries (h : duty.IsOperators)
    (hinstall : InstallsWithin serve duty attempts) (object : Resource kind) :
    (register object duty.mark >>= fun stored => duty.settle stored object).Unfolds serve state
      fun exchanges result _ => Retries attempts
        (fun stored : Resource kind => ∃ marked, ⟨.replace kind marked, .ok stored⟩ ∈ exchanges)
        exchanges result := by
  let marked : Resource kind := { object with metadata := object.metadata.addMark duty.mark }
  have hwrite (answer) : ∀ exchange ∈ [(⟨.replace kind marked, answer⟩ : Exchange)],
      exchange.request.writesRoute = false :=
    List.forall_mem_singleton.2 (h.writesRoute_replace marked)
  have hregister : register object duty.mark = perform (.replace kind marked) := rfl
  rw [hregister]
  refine unfolds_bind.2 (unfolds_perform.2 ?_)
  cases (serve (.replace kind marked) state).1 with
  | error e => exact Or.inl (hwrite _)
  | ok stored =>
    refine (settle_retries hinstall stored object).mono fun later result _ hretries => ?_
    refine hretries.prepend (hwrite _) ?_
    intro other heq
    rw [heq]
    exact ⟨marked, List.mem_cons_self ..⟩

theorem IsOperators.pass_retries (h : duty.IsOperators)
    (hinstall : InstallsWithin serve duty attempts) (key : ObjectKey) :
    (duty.pass key).Unfolds serve state fun exchanges result _ =>
      Retries attempts (HasMet kind key exchanges) exchanges result := by
  rw [pass_eq]
  refine unfolds_bind.2 (unfolds_perform.2 ?_)
  have hlook (answer) : ∀ exchange ∈ [(⟨.get kind key, answer⟩ : Exchange)],
      exchange.request.writesRoute = false := by
    simp [Request.writesRoute]
  cases (serve (.get kind key) state).1 with
  | error e => exact Or.inl (hlook _)
  | ok found? =>
    cases found? with
    | none => exact Or.inl (hlook _)
    | some object =>
      dsimp only [serveFound]
      cases object.metadata.lifeStage duty.mark with
      | released => exact Or.inl (hlook _)
      | tearingDown =>
        have hnone : (duty.dismantle object).OnlyAsks (·.writesRoute = false) :=
          dismantle_onlyAsks (fun _ _ => rfl) (fun _ _ _ => rfl) (h.writesRoute_replace _)
        exact hnone.unfolds.mono fun _ _ _ hlater =>
          Or.inl (List.forall_mem_append.2 ⟨hlook _, hlater⟩)
      | unmarked =>
        refine (h.register_retries hinstall object).mono fun later result _ hretries => ?_
        refine hretries.prepend (hlook _) ?_
        intro stored ⟨marked, hmem⟩
        exact Or.inr ⟨marked, List.mem_cons_of_mem _ hmem⟩
      | marked =>
        refine (settle_retries hinstall object object).mono fun later result _ hretries => ?_
        refine hretries.prepend (hlook _) ?_
        intro other heq
        rw [heq]
        exact Or.inl (List.mem_cons_self ..)

end Duty

end Servers

/-! ## Passes that meet failures -/

namespace Duty

variable {kind : Kind} {duty : Duty kind} {attempts : Nat} {key : ObjectKey}
  {exchanges : List Exchange} {result : Except OperatorError PassOutcome}

/-- What a pass makes of the calls that fail. -/
structure MeetsFailures (duty : Duty kind) (attempts : Nat) (key : ObjectKey)
    (exchanges : List Exchange) (result : Except OperatorError PassOutcome) : Prop where
  /-- A failure that is not absorbed ends the pass: it was the last call, and the pass comes to it. -/
  stops : ∀ earlier request e later, exchanges = earlier ++ ⟨request, .error e⟩ :: later →
    ¬ request.Absorbs e → later = [] ∧ result = .error e
  /-- An object that is there by now is looked up once more. If that fails too, the pass comes to
  the new failure, and if the object is gone again, to the old one. -/
  adopts : ∀ earlier plain (object : Resource (.plain plain)) e later,
    exchanges = earlier ++ ⟨.create (.plain plain) object, .error e⟩ :: later →
      e.failure = .alreadyExists →
        ∃ answer rest, later = ⟨.get (.plain plain) object.key, answer⟩ :: rest ∧
          (∀ e', answer = .error e' → rest = [] ∧ result = .error e') ∧
            (answer = .ok none → rest = [] ∧ result = .error e)
  /-- An object that was gone already counts as deleted: the pass goes on as it would if the object
  had been deleted and then looked up in vain. -/
  vanished : ∀ earlier gone missing e later,
    exchanges = earlier ++ ⟨.delete gone missing, .error e⟩ :: later → e.failure = .notFound →
      (duty.pass key).Yields
        (earlier ++ ⟨.delete gone missing, .ok ()⟩ :: ⟨.get gone missing, .ok none⟩ :: later) result
  /-- Where another writer got in before a route was written, the next attempt is made; after the
  last one the pass fails for that. -/
  retries : Retries attempts (HasMet kind key exchanges) exchanges result
  /-- A pass that goes well has absorbed all failures. -/
  absorbed : ∀ outcome, result = .ok outcome →
    ∀ request e, ⟨request, .error e⟩ ∈ exchanges → request.Absorbs e

theorem IsOperators.stops (h : duty.IsOperators) (hyields : (duty.pass key).Yields exchanges result)
    {earlier later : List Exchange} {request : Request} {e : OperatorError}
    (heq : exchanges = earlier ++ ⟨request, .error e⟩ :: later) (habsorbs : ¬ request.Absorbs e) :
    later = [] ∧ result = .error e := by
  obtain ⟨next, hheeded, hlater, -⟩ := (h.pass_heeds key).of_yields hyields heq
  cases hheeded with
  | stopped _ hstops =>
    rw [hstops] at hlater
    cases hlater
    exact ⟨rfl, rfl⟩
  | adopted hexists => exact absurd hexists habsorbs
  | vanished hmissing => exact absurd hmissing habsorbs
  | overtaken hwrites htells =>
    exact absurd ((Request.absorbs_of_writesRoute hwrites e).2 htells) habsorbs

theorem IsOperators.adopts (h : duty.IsOperators)
    (hyields : (duty.pass key).Yields exchanges result) {earlier later : List Exchange}
    {plain : PlainKind} {object : Resource (.plain plain)} {e : OperatorError}
    (heq : exchanges = earlier ++ ⟨.create (.plain plain) object, .error e⟩ :: later)
    (hexists : e.failure = .alreadyExists) :
    ∃ answer rest, later = ⟨.get (.plain plain) object.key, answer⟩ :: rest ∧
      (∀ e', answer = .error e' → rest = [] ∧ result = .error e') ∧
        (answer = .ok none → rest = [] ∧ result = .error e) := by
  obtain ⟨next, hheeded, hlater, -⟩ := (h.pass_heeds key).of_yields hyields heq
  cases hheeded with
  | stopped habsorbs => exact absurd hexists habsorbs
  | overtaken hwrites => cases hwrites
  | adopted _ hlooks hgone =>
    rw [hlooks] at hlater
    cases hlater with
    | @call _ _ rest _ answer hrest =>
      refine ⟨answer, rest, rfl, ?_, ?_⟩
      · rintro e' rfl
        have hlook : exchanges = (earlier ++ [⟨.create (.plain plain) object, .error e⟩]) ++
            ⟨.get (.plain plain) object.key, .error e'⟩ :: rest := by
          rw [heq, List.append_assoc, List.singleton_append]
        exact h.stops hyields hlook id
      · rintro rfl
        rw [hgone] at hrest
        cases hrest
        exact ⟨rfl, rfl⟩

theorem IsOperators.vanished (h : duty.IsOperators)
    (hyields : (duty.pass key).Yields exchanges result) {earlier later : List Exchange}
    {gone : Kind} {missing : ObjectKey} {e : OperatorError}
    (heq : exchanges = earlier ++ ⟨.delete gone missing, .error e⟩ :: later)
    (hmissing : e.failure = .notFound) :
    (duty.pass key).Yields
      (earlier ++ ⟨.delete gone missing, .ok ()⟩ :: ⟨.get gone missing, .ok none⟩ :: later)
        result := by
  obtain ⟨next, hheeded, hlater, hother⟩ := (h.pass_heeds key).of_yields hyields heq
  refine hother (.ok ()) _ _ ?_
  cases hheeded with
  | stopped habsorbs => exact absurd hmissing habsorbs
  | overtaken hwrites => cases hwrites
  | @vanished _ _ _ _ look _ hlooks hsame =>
    rw [hsame] at hlater
    rw [hlooks]
    show (Program.call (.get gone missing) look).Yields (⟨.get gone missing, .ok none⟩ :: later) result
    exact .call _ hlater

theorem IsOperators.absorbed (h : duty.IsOperators) {outcome : PassOutcome}
    (hyields : (duty.pass key).Yields exchanges (.ok outcome)) {request : Request}
    {e : OperatorError} (hmem : ⟨request, .error e⟩ ∈ exchanges) : request.Absorbs e := by
  by_contra habsorbs
  obtain ⟨earlier, later, heq⟩ := List.append_of_mem hmem
  have herror := (h.stops hyields heq habsorbs).2
  cases herror

variable {σ : Type} {serve : (request : Request) → σ → Except OperatorError request.Answer × σ}
  {state : σ}

theorem IsOperators.meetsFailures (h : duty.IsOperators)
    (hinstall : InstallsWithin serve duty attempts) (key : ObjectKey) :
    (duty.pass key).Unfolds serve state fun exchanges result _ =>
      duty.MeetsFailures attempts key exchanges result := by
  have hyields := yields_run serve (duty.pass key) state
  exact {
    stops := fun _ _ _ _ heq habsorbs => h.stops hyields heq habsorbs
    adopts := fun _ _ _ _ _ heq hexists => h.adopts hyields heq hexists
    vanished := fun _ _ _ _ _ heq hmissing => h.vanished hyields heq hmissing
    retries := h.pass_retries hinstall key
    absorbed := fun outcome hok request e hmem => by
      rw [hok] at hyields
      exact h.absorbed hyields hmem }

/-- Whoever answers the calls, both duties stop at the first failure that they do not absorb. -/
theorem passes_meet_failures {σ : Type}
    (serve : (request : Request) → σ → Except OperatorError request.Answer × σ) (state : σ)
    (key : ObjectKey) (attempts : Nat) :
    ((Duty.anchor.pass key).Unfolds serve state fun exchanges result _ =>
      Duty.anchor.MeetsFailures attempts key exchanges result) ∧
    ((Duty.frontend attempts).pass key).Unfolds serve state fun exchanges result _ =>
      (Duty.frontend attempts).MeetsFailures attempts key exchanges result :=
  ⟨IsOperators.anchor.meetsFailures (anchor_installsWithin attempts) key,
    (IsOperators.frontend attempts).meetsFailures (frontend_installsWithin attempts) key⟩

end Duty

/-! ## Errors of the server -/

/-- Whether a refusal tells of a server that cannot serve, or not at once. -/
def ApiStatus.TellsOfServer (status : ApiStatus) : Prop :=
  status.code = 429 ∨ 500 ≤ status.code ∧ status.code ≤ 599

/-- The codes that are expected to clear up. -/
def ApiStatus.passingCodes : List Nat :=
  [429, 500, 502, 503, 504]

namespace ApiStatus

variable {status : ApiStatus}

theorem failure_of_mem (h : status.code ∈ passingCodes) : status.failure = .transient := by
  simp only [passingCodes, List.mem_cons, List.not_mem_nil, or_false] at h
  rcases h with h | h | h | h | h <;> simp [failure, h]

theorem failure_of_not_mem (hserver : status.TellsOfServer) (h : status.code ∉ passingCodes) :
    status.failure = .fatal := by
  unfold TellsOfServer at hserver
  simp only [passingCodes, List.mem_cons, List.not_mem_nil, or_false, not_or] at h
  unfold failure
  split <;> first | rfl | omega

theorem failure_of_tellsOfServer (hserver : status.TellsOfServer) :
    status.failure = .transient ∨ status.failure = .fatal := by
  by_cases h : status.code ∈ passingCodes
  · exact Or.inl (failure_of_mem h)
  · exact Or.inr (failure_of_not_mem hserver h)

end ApiStatus

/-- An error of the server is retried soon if its code is expected to clear up, or if all failures
are retried as soon. -/
theorem Settings.retryDelay_of_tellsOfServer (settings : Settings) {status : ApiStatus}
    (hserver : status.TellsOfServer) :
    settings.retryDelay (.call (.api status)) = settings.transientRetrySeconds ↔
      status.code ∈ ApiStatus.passingCodes ∨
        settings.fatalRetrySeconds = settings.transientRetrySeconds := by
  have hfailure : (OperatorError.call (.api status)).isTransient = status.failure.isTransient := rfl
  unfold retryDelay
  rw [hfailure]
  by_cases h : status.code ∈ ApiStatus.passingCodes
  · simp [ApiStatus.failure_of_mem h, Failure.isTransient, h]
  · simp [ApiStatus.failure_of_not_mem hserver h, Failure.isTransient, h]

namespace Duty

/-- Wherever an error of the server strikes a pass, the pass comes to that error, and it is tried
again soon exactly if the code of the error is one of those that are expected to clear up, or if the
settings make no difference. -/
theorem server_error_retried_soon_iff {σ : Type}
    (serve : (request : Request) → σ → Except OperatorError request.Answer × σ) (state : σ)
    (settings : Settings) {kind : Kind} {duty : Duty kind} (hduty : duty.IsOperators)
    (key : ObjectKey) {request : Request} {status : ApiStatus}
    (hstrikes : ⟨request, .error (.call (.api status))⟩ ∈ (duty.pass key).history serve state)
    (hserver : status.TellsOfServer) :
    ((duty.pass key).run serve state).1 = .error (.call (.api status)) ∧
      (settings.retryDelay (.call (.api status)) = settings.transientRetrySeconds ↔
        status.code ∈ ApiStatus.passingCodes ∨
          settings.fatalRetrySeconds = settings.transientRetrySeconds) := by
  refine ⟨?_, settings.retryDelay_of_tellsOfServer hserver⟩
  obtain ⟨earlier, later, heq⟩ := List.append_of_mem hstrikes
  have hfailure : (OperatorError.call (.api status)).failure = .transient ∨
      (OperatorError.call (.api status)).failure = .fatal :=
    ApiStatus.failure_of_tellsOfServer hserver
  have habsorbs : ¬ request.Absorbs (.call (.api status)) :=
    Request.not_absorbs_of_failure hfailure request
  exact (hduty.stops (yields_run serve (duty.pass key) state) heq habsorbs).2

/-- A cluster with a parting frontend, where the next deletion of its service is refused. -/
def ailingCluster (code : Nat) (reason : String) : Cluster :=
  partingCluster.fail ⟨.delete, "/api/v1/namespaces/team/services/shop-frontend-svc"⟩ code reason 1

/-- A pass that finds the server down for now is tried again soon. -/
theorem ailing_pass_retried_soon :
    (Duty.frontend 5).IsOperators ∧ (ApiStatus.refusal 503 "ServiceUnavailable").TellsOfServer ∧
      (((Duty.frontend 5).pass partingKey).run Cluster.serve
        (ailingCluster 503 "ServiceUnavailable")).1 = .error (refused 503 "ServiceUnavailable") ∧
      ({} : Settings).retryDelay (refused 503 "ServiceUnavailable") = 5 := by
  have hserver : (ApiStatus.refusal 503 "ServiceUnavailable").TellsOfServer :=
    Or.inr ⟨by decide, by decide⟩
  have hstrikes : ⟨.delete (.plain .service) (.inNamespace "team" "shop-frontend-svc"),
        .error (refused 503 "ServiceUnavailable")⟩ ∈
      ((Duty.frontend 5).pass partingKey).history Cluster.serve
        (ailingCluster 503 "ServiceUnavailable") :=
    List.mem_of_getElem? (i := 3) rfl
  have hretried := server_error_retried_soon_iff Cluster.serve _ {} (.frontend 5) partingKey
    hstrikes hserver
  exact ⟨.frontend 5, hserver, hretried.1, hretried.2.2 (Or.inl (by decide))⟩

/-- A server that does not know the call cannot serve it either, but then the pass is tried again
late. -/
theorem ailing_pass_retried_late :
    (ApiStatus.refusal 501 "NotImplemented").TellsOfServer ∧
      ⟨.delete (.plain .service) (.inNamespace "team" "shop-frontend-svc"),
          .error (refused 501 "NotImplemented")⟩ ∈
        ((Duty.frontend 5).pass partingKey).history Cluster.serve
          (ailingCluster 501 "NotImplemented") ∧
      (((Duty.frontend 5).pass partingKey).run Cluster.serve
        (ailingCluster 501 "NotImplemented")).1 = .error (refused 501 "NotImplemented") ∧
      ({} : Settings).retryDelay (refused 501 "NotImplemented") = 60 ∧
      ({} : Settings).transientRetrySeconds = 5 :=
  ⟨Or.inr ⟨by decide, by decide⟩, List.mem_of_getElem? (i := 3) rfl, rfl, rfl, rfl⟩

end Duty

end EdgeOperator
