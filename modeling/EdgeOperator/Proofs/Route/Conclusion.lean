import EdgeOperator.Proofs.Cluster.Idle
import EdgeOperator.Proofs.Installation.Routing
import EdgeOperator.Proofs.Teardown
import EdgeOperator.Settings

set_option autoImplicit false

/-! # How attempts at a route end

Most exchanges of a run that has a route in place leave open how it ends: what was looked up makes a
write necessary, or a write met another writer, and then another attempt is made as long as there is
one left. All other exchanges decide the run (`RouteTask.Decides`): it ends with them at once. So a
run ends with the one exchange that decides it, or all of its attempts were overtaken
(`RouteTask.retryRoute_isConcluded`).

From this follows when a run comes to what (`RouteTask.attempts_conclude`). One that fails has
changed nothing itself. -/

namespace EdgeOperator

open Program Cluster

/-! ## Attempts that are set -/

/-- A number that is read lies between its bounds. -/
theorem Settings.le_of_naturalWithin? {low high n : Nat} {text : String}
    (h : naturalWithin? low high text = some n) : low ≤ n ∧ n ≤ high := by
  simpa using (Option.filter_eq_some_iff.1 h).2

theorem Settings.one_le_routeUpdateAttempts (reading : CommandLine.Reading) :
    1 ≤ (ofReading reading).routeUpdateAttempts := by
  unfold ofReading
  dsimp only
  cases h : (reading.value? "route-update-attempts").bind attempts? with
  | none => decide
  | some n =>
    obtain ⟨text, _, hattempts⟩ := Option.bind_eq_some_iff.1 h
    exact (le_of_naturalWithin? hattempts).1

/-! ## Writes -/

/-- Whether an exchange is a creation or a replacement. -/
def Exchange.isWrite : Exchange → Bool
  | ⟨.create _ _, _⟩ | ⟨.replace _ _, _⟩ => true
  | ⟨.get _ _, _⟩ | ⟨.list _ _, _⟩ | ⟨.delete _ _, _⟩ => false

/-- What a write that succeeded has done. -/
def Exchange.written? : Exchange → Option Outcome
  | ⟨.create _ _, .ok _⟩ => some .created
  | ⟨.replace _ _, .ok _⟩ => some .updated
  | _ => none

theorem Exchange.written?_create {kind : Kind} {object stored : Resource kind}
    {answer : Except OperatorError (Resource kind)} (h : answer = .ok stored) :
    Exchange.written? ⟨.create kind object, answer⟩ = some .created := by
  rw [h]
  rfl

theorem Exchange.written?_replace {kind : Kind} {object stored : Resource kind}
    {answer : Except OperatorError (Resource kind)} (h : answer = .ok stored) :
    Exchange.written? ⟨.replace kind object, answer⟩ = some .updated := by
  rw [h]
  rfl

/-- Whether a failure tells that another writer got in between. -/
def OperatorError.TellsOfOthers (e : OperatorError) : Prop :=
  e.failure = .conflict ∨ e.failure = .alreadyExists ∨ e.failure = .notFound

/-- Whether an exchange is a write that failed since another writer got in between. -/
def Exchange.IsOvertaken (exchange : Exchange) : Prop :=
  exchange.isWrite = true ∧ ∃ e, exchange.answer = .error e ∧ e.TellsOfOthers

theorem Exchange.IsOvertaken.tells {request : Request} {e : OperatorError}
    (h : Exchange.IsOvertaken ⟨request, .error e⟩) : e.TellsOfOthers := by
  obtain ⟨_, e', heq, hothers⟩ := h
  obtain rfl : e = e' := Except.error.inj heq
  exact hothers

/-- The writes among exchanges, in their order. -/
def routeWrites (exchanges : List Exchange) : List Exchange :=
  exchanges.filter Exchange.isWrite

@[simp] theorem routeWrites_append (first later : List Exchange) :
    routeWrites (first ++ later) = routeWrites first ++ routeWrites later :=
  List.filter_append ..

theorem mem_routeWrites {exchanges : List Exchange} {write : Exchange} :
    write ∈ routeWrites exchanges ↔ write ∈ exchanges ∧ write.isWrite = true :=
  List.mem_filter

theorem Exchange.isWrite_of_written? {exchange : Exchange} {outcome : Outcome}
    (h : exchange.written? = some outcome) : exchange.isWrite = true := by
  obtain ⟨request, answer⟩ := exchange
  cases request <;> cases answer <;> simp_all [isWrite, written?]

/-- A write that succeeded has made or changed an object. -/
theorem Exchange.written?_ne_alreadySatisfied (exchange : Exchange) :
    exchange.written? ≠ some .alreadySatisfied := by
  obtain ⟨request, answer⟩ := exchange
  cases request <;> cases answer <;> simp [written?]

/-- How the writing of a route is judged. -/
theorem RouteAttempt.ofWrite_cases (outcome : Outcome)
    (answer : Except OperatorError (Resource .ingress)) :
    (∃ stored, answer = .ok stored ∧ ofWrite outcome answer = pure (.settled outcome)) ∨
      ∃ e, answer = .error e ∧
        (e.TellsOfOthers ∧ ofWrite outcome answer = pure .overtaken ∨
          ¬ e.TellsOfOthers ∧ ofWrite outcome answer = .fail e) := by
  cases answer with
  | ok stored => exact Or.inl ⟨stored, rfl, rfl⟩
  | error e =>
    refine Or.inr ⟨e, rfl, ?_⟩
    cases hfailure : e.failure <;> simp [ofWrite, OperatorError.TellsOfOthers, hfailure]

namespace RouteTask

/-! ## What decides a run -/

/-- Whether an exchange decides to what a run comes. -/
inductive Decides (task : RouteTask) : Exchange → Except OperatorError Outcome → Prop where
  /-- The route was in place. -/
  | present {read : Resource .ingress} (hserved : task.IsServedBy read) :
      Decides task ⟨.get .ingress task.key, .ok (some read)⟩ (.ok .alreadySatisfied)
  /-- A write succeeded. -/
  | written {exchange : Exchange} {outcome : Outcome}
      (hwritten : exchange.written? = some outcome) :
      Decides task exchange (.ok outcome)
  /-- A call failed, and not for the sake of another writer. -/
  | refused {request : Request} {e : OperatorError}
      (hrefused : ¬ Exchange.IsOvertaken ⟨request, .error e⟩) :
      Decides task ⟨request, .error e⟩ (.error e)
  /-- There was no anchor. -/
  | unanchored {anchors : List (Resource .anchor)} (hfirst : Anchor.first? anchors = none) :
      Decides task ⟨.list .anchor (some task.frontend.namespaceName), .ok anchors⟩
        (.error (.missingAnchor task.frontend.namespaceName))
  /-- The anchor was no owner. -/
  | unowned {anchors : List (Resource .anchor)} {anchor : Resource .anchor} {e : OperatorError}
      (hfirst : Anchor.first? anchors = some anchor) (howner : Owner.ofResource anchor = .error e) :
      Decides task ⟨.list .anchor (some task.frontend.namespaceName), .ok anchors⟩ (.error e)

/-- Whether an exchange leaves open how a run ends. -/
inductive LeavesOpen (task : RouteTask) : Exchange → Prop where
  /-- There was no ingress. -/
  | absent : LeavesOpen task ⟨.get .ingress task.key, .ok none⟩
  /-- There was an ingress, but the route was not in place. -/
  | unserved {read : Resource .ingress} (hserved : ¬ task.IsServedBy read) :
      LeavesOpen task ⟨.get .ingress task.key, .ok (some read)⟩
  /-- There was an anchor to which an ingress can belong. -/
  | anchored {anchors : List (Resource .anchor)} {anchor : Resource .anchor} {owner : Owner}
      (hfirst : Anchor.first? anchors = some anchor)
      (howner : Owner.ofResource anchor = .ok owner) :
      LeavesOpen task ⟨.list .anchor (some task.frontend.namespaceName), .ok anchors⟩
  /-- Another writer got in between. -/
  | overtaken {exchange : Exchange} (hovertaken : exchange.IsOvertaken) : LeavesOpen task exchange

variable {task : RouteTask} {exchange : Exchange} {exchanges earlier later : List Exchange}
  {outcome other result : Except OperatorError Outcome}

/-- An exchange decides for one end. -/
theorem Decides.unique (h : task.Decides exchange outcome) (h' : task.Decides exchange other) :
    outcome = other := by
  cases h <;> cases h' <;> simp_all [Exchange.written?]

/-- What decides a run does not leave its end open. -/
theorem LeavesOpen.not_decides (h : task.LeavesOpen exchange) :
    ¬ task.Decides exchange outcome := by
  intro hdecides
  cases h with
  | absent => cases hdecides with | written hwritten => cases hwritten
  | unserved hserved =>
    cases hdecides with
    | present hpresent => exact hserved hpresent
    | written hwritten => cases hwritten
  | anchored hfirst howner =>
    cases hdecides with
    | written hwritten => cases hwritten
    | unanchored hnone => simp [hfirst] at hnone
    | unowned hother hfails => simp_all
  | overtaken hovertaken =>
    obtain ⟨hwrite, e, hanswer, hothers⟩ := hovertaken
    cases hdecides with
    | written hwritten =>
      obtain ⟨request, answer⟩ := exchange
      obtain rfl : answer = .error e := hanswer
      cases request <;> cases hwritten
    | refused hrefused => exact hrefused ⟨hwrite, e, hanswer, hothers⟩
    | _ => cases hanswer

/-- A write that leaves the end open was overtaken. -/
theorem LeavesOpen.isOvertaken (h : task.LeavesOpen exchange) (hwrite : exchange.isWrite = true) :
    exchange.IsOvertaken := by
  cases h with
  | overtaken hovertaken => exact hovertaken
  | _ => cases hwrite

theorem LeavesOpen.isIdle (h : task.LeavesOpen exchange) : exchange.IsIdle := by
  cases h with
  | overtaken hovertaken =>
    obtain ⟨_, e, hanswer, _⟩ := hovertaken
    exact Or.inr ⟨e, hanswer⟩
  | _ => exact Or.inl rfl

theorem Decides.isIdle {e : OperatorError} (h : task.Decides exchange (.error e)) :
    exchange.IsIdle := by
  cases h with
  | refused hrefused => exact Or.inr ⟨e, rfl⟩
  | _ => exact Or.inl rfl

/-! ## One attempt -/

/-- What the last exchange of an attempt says of it: it decides the run or is an overtaken write. -/
def Closes (task : RouteTask) (exchange : Exchange) : Except OperatorError RouteAttempt → Prop
  | .ok (.settled outcome) => task.Decides exchange (.ok outcome)
  | .ok .overtaken => exchange.IsOvertaken
  | .error e => task.Decides exchange (.error e)

/-- Whether exchanges write nothing and leave open how the run ends. -/
structure AreLooks (task : RouteTask) (looks : List Exchange) : Prop where
  routeWrites_eq : routeWrites looks = []
  leavesOpen : ∀ look ∈ looks, task.LeavesOpen look

theorem areLooks_nil (task : RouteTask) : task.AreLooks [] :=
  ⟨rfl, by simp⟩

theorem AreLooks.snoc {looks : List Exchange} (h : task.AreLooks looks)
    (hlook : exchange.isWrite = false) (hopen : task.LeavesOpen exchange) :
    task.AreLooks (looks ++ [exchange]) where
  routeWrites_eq := by
    rw [routeWrites_append, h.routeWrites_eq]
    simp [routeWrites, hlook]
  leavesOpen := List.forall_mem_append.2 ⟨h.leavesOpen, by simpa using hopen⟩

/-- What the exchanges of an attempt are: looks, and one exchange that closes it. -/
def IsAttempt (task : RouteTask) (exchanges : List Exchange)
    (result : Except OperatorError RouteAttempt) : Prop :=
  ∃ looks last, exchanges = looks ++ [last] ∧ task.AreLooks looks ∧ task.Closes last result

section Servers

variable {σ : Type} {serve : (request : Request) → σ → Except OperatorError request.Answer × σ}
  {state : σ} {looks : List Exchange}

/-- A look-up that fails closes the attempt. -/
theorem isAttempt_of_failed_look (hlooks : task.AreLooks looks) {request : Request}
    {e : OperatorError} (hlook : Exchange.isWrite ⟨request, .error e⟩ = false) :
    task.IsAttempt (looks ++ [⟨request, .error e⟩]) (.error e) := by
  refine ⟨looks, _, rfl, hlooks, .refused fun hovertaken => ?_⟩
  have hwrite := hovertaken.1
  rw [hlook] at hwrite
  cases hwrite

/-- The write closes the attempt. -/
theorem ofWrite_isAttempt (hlooks : task.AreLooks looks) {outcome : Outcome} (write : Exchange)
    (hwrite : write.isWrite = true) {answer : Except OperatorError (Resource .ingress)}
    (hok : ∀ stored, answer = .ok stored → write.written? = some outcome)
    (herror : ∀ e, answer = .error e → write.answer = .error e) :
    (RouteAttempt.ofWrite outcome answer).Unfolds serve state fun later result _ =>
      task.IsAttempt (looks ++ write :: later) result := by
  rcases RouteAttempt.ofWrite_cases outcome answer with
    ⟨stored, hanswer, heq⟩ | ⟨e, hanswer, ⟨hothers, heq⟩ | ⟨hothers, heq⟩⟩ <;> rw [heq]
  · exact unfolds_pure.2 ⟨looks, write, rfl, hlooks, .written (hok stored hanswer)⟩
  · exact unfolds_pure.2 ⟨looks, write, rfl, hlooks, hwrite, e, herror e hanswer, hothers⟩
  · obtain ⟨request, given⟩ := write
    obtain rfl : given = .error e := herror e hanswer
    exact unfolds_fail.2 ⟨looks, _, rfl, hlooks, .refused fun h => hothers h.tells⟩

theorem createRouting_isAttempt (hlooks : task.AreLooks looks) :
    (createRouting task.frontend task.spec).Unfolds serve state fun later result _ =>
      task.IsAttempt (looks ++ later) result := by
  refine unfolds_bind.2 (unfolds_bind.2 (unfolds_perform.2 ?_))
  cases (serve (.list .anchor (some task.frontend.namespaceName)) state).1 with
  | error e => exact isAttempt_of_failed_look hlooks rfl
  | ok anchors =>
    dsimp only
    cases hfirst : Anchor.first? anchors with
    | none => exact unfolds_fail.2 ⟨looks, _, rfl, hlooks, .unanchored hfirst⟩
    | some anchor =>
      refine unfolds_pure.2 ?_
      dsimp only
      cases howner : Owner.ofResource anchor with
      | error e => exact unfolds_fail.2 ⟨looks, _, rfl, hlooks, .unowned hfirst howner⟩
      | ok owner =>
        have hlooks' := hlooks.snoc rfl (.anchored hfirst howner)
        generalize (serve (.list .anchor (some task.frontend.namespaceName)) state).2 = listed
        let creation : Request :=
          .create .ingress (routingIngress owner (task.spec.route task.frontend))
        refine unfolds_bind.2 (unfolds_attempt.2 ?_)
        refine (ofWrite_isAttempt hlooks' ⟨creation, (serve creation listed).1⟩ rfl
          (fun stored => Exchange.written?_create) fun e hanswer => hanswer).mono ?_
        exact fun later result _ h => by simpa using h

theorem updateRouting_isAttempt (hlooks : task.AreLooks looks) {read : Resource .ingress} :
    (updateRouting task.frontend task.spec read).Unfolds serve state fun later result _ =>
      task.IsAttempt (looks ++ ⟨.get .ingress task.key, .ok (some read)⟩ :: later) result := by
  rw [updateRouting_eq]
  split
  · next hchanged =>
    have hserved : ¬ task.IsServedBy read := fun hserved =>
      ne_false_of_eq_true hchanged (changed_mergePath.2 hserved)
    have hlooks' := hlooks.snoc rfl (.unserved hserved)
    let replacement : Request := .replace .ingress (task.update read)
    refine unfolds_bind.2 (unfolds_attempt.2 ?_)
    refine (ofWrite_isAttempt hlooks' ⟨replacement, (serve replacement state).1⟩ rfl
      (fun stored => Exchange.written?_replace) fun e hanswer => hanswer).mono ?_
    exact fun later result _ h => by simpa using h
  · next hsame =>
    have hserved : task.IsServedBy read := changed_mergePath.1 (eq_false_of_ne_true hsame)
    exact unfolds_pure.2 ⟨looks, _, rfl, hlooks, .present hserved⟩

theorem attemptRoute_isAttempt :
    (attemptRoute task.frontend task.spec).Unfolds serve state fun exchanges result _ =>
      task.IsAttempt exchanges result := by
  refine unfolds_bind.2 (unfolds_perform.2 ?_)
  cases (serve (.get .ingress (routingKey task.frontend.namespaceName)) state).1 with
  | error e => exact isAttempt_of_failed_look (areLooks_nil task) rfl
  | ok read? =>
    cases read? with
    | none => exact createRouting_isAttempt ((areLooks_nil task).snoc rfl .absent)
    | some read => exact updateRouting_isAttempt (areLooks_nil task)

end Servers

/-! ## All attempts -/

/-- How a run with a number of attempts left ends: an exchange decides it, or all of its attempts
were overtaken. -/
inductive IsConcluded (task : RouteTask) (left : Nat) :
    List Exchange → Except OperatorError Outcome → Prop where
  | decided {earlier : List Exchange} {last : Exchange} {result : Except OperatorError Outcome}
      (hopen : ∀ exchange ∈ earlier, task.LeavesOpen exchange)
      (hwrites : (routeWrites earlier).length < left) (hlast : task.Decides last result) :
      IsConcluded task left (earlier ++ [last]) result
  | exhausted {exchanges : List Exchange} (hopen : ∀ exchange ∈ exchanges, task.LeavesOpen exchange)
      (hwrites : (routeWrites exchanges).length = left) :
      IsConcluded task left exchanges (.error (.routeConflict task.key.display task.attempts))

/-- One more attempt, which was overtaken, comes before. -/
theorem IsConcluded.after {left : Nat} (h : task.IsConcluded left later result)
    (hattempt : task.IsAttempt earlier (.ok .overtaken)) :
    task.IsConcluded (left + 1) (earlier ++ later) result := by
  obtain ⟨looks, write, rfl, hlooks, hwrite⟩ := hattempt
  have hovertaken : write.IsOvertaken := hwrite
  have hopen : ∀ exchange ∈ looks ++ [write], task.LeavesOpen exchange :=
    List.forall_mem_append.2 ⟨hlooks.leavesOpen, by simpa using .overtaken hovertaken⟩
  have hlength (rest : List Exchange) :
      (routeWrites (looks ++ [write] ++ rest)).length = (routeWrites rest).length + 1 := by
    simp only [routeWrites_append, hlooks.routeWrites_eq]
    simp [routeWrites, hovertaken.1]
  cases h with
  | @decided rest last _ hrest hwrites hlast =>
    rw [← List.append_assoc]
    exact .decided (List.forall_mem_append.2 ⟨hopen, hrest⟩)
      (by rw [hlength]; exact Nat.succ_lt_succ hwrites) hlast
  | exhausted hrest hwrites =>
    exact .exhausted (List.forall_mem_append.2 ⟨hopen, hrest⟩) (by rw [hlength, hwrites])

/-- However many attempts are left, the run is concluded by one that is not overtaken, or by the
last. -/
theorem retryRoute_isConcluded {σ : Type}
    {serve : (request : Request) → σ → Except OperatorError request.Answer × σ} (left : Nat)
    (state : σ) :
    (retryRoute task.frontend task.spec task.attempts left).Unfolds serve state
      fun exchanges result _ => task.IsConcluded left exchanges result := by
  induction left generalizing state with
  | zero => exact unfolds_fail.2 (.exhausted (by simp) rfl)
  | succ left ih =>
    refine attemptRoute_isAttempt.bind ?_ ?_
    · rintro exchanges (outcome | _) middle hattempt
      · obtain ⟨looks, last, rfl, hlooks, hlast⟩ := hattempt
        refine unfolds_pure.2 ?_
        rw [List.append_nil]
        exact .decided hlooks.leavesOpen (by simp [hlooks.routeWrites_eq]) hlast
      · exact (ih middle).mono fun later result _ h => h.after hattempt
    · rintro exchanges e middle ⟨looks, last, rfl, hlooks, hlast⟩
      exact .decided hlooks.leavesOpen (by simp [hlooks.routeWrites_eq]) hlast

/-! ## What a concluded run says of its end -/

namespace IsConcluded

variable {left : Nat} {after : Cluster}

/-- There are no more writes than attempts. -/
theorem length_le (h : task.IsConcluded left exchanges result) :
    (routeWrites exchanges).length ≤ left := by
  cases h with
  | @decided earlier last _ hopen hwrites hlast =>
    have hone : (routeWrites [last]).length ≤ 1 := List.length_filter_le ..
    rw [routeWrites_append, List.length_append]
    omega
  | exhausted hopen hwrites => exact hwrites.le

/-- What decides the run is its last exchange. -/
theorem of_decides (h : task.IsConcluded left (earlier ++ exchange :: later) result)
    (hdecides : task.Decides exchange outcome) : later = [] ∧ result = outcome := by
  generalize hall : earlier ++ exchange :: later = exchanges at h
  cases h with
  | @decided before last _ hopen hwrites hlast =>
    rcases append_eq_append_cons hall.symm with ⟨middle, hbefore⟩ | ⟨middle, _, hlater⟩
    · exact absurd hdecides (hopen exchange (hbefore ▸ by simp)).not_decides
    · obtain ⟨rfl, rfl, rfl⟩ : middle = [] ∧ last = exchange ∧ later = [] := by
        cases middle with
        | nil => simpa [eq_comm] using hlater
        | cons head rest => simp at hlater
      exact ⟨rfl, hlast.unique hdecides⟩
  | exhausted hopen hwrites =>
    exact absurd hdecides (hopen exchange (hall ▸ by simp)).not_decides

theorem eq_of_decides (h : task.IsConcluded left exchanges result) (hmem : exchange ∈ exchanges)
    (hdecides : task.Decides exchange outcome) : result = outcome := by
  obtain ⟨earlier, later, rfl⟩ := List.append_of_mem hmem
  exact (h.of_decides hdecides).2

/-- All writes but the last were overtaken. -/
theorem isOvertaken (h : task.IsConcluded left exchanges result) {write : Exchange}
    (hmem : write ∈ (routeWrites exchanges).dropLast) : write.IsOvertaken := by
  have hopens {earlier : List Exchange} (hopen : ∀ exchange ∈ earlier, task.LeavesOpen exchange)
      (hwrite : write ∈ routeWrites earlier) : write.IsOvertaken :=
    (hopen write (mem_routeWrites.1 hwrite).1).isOvertaken (mem_routeWrites.1 hwrite).2
  cases h with
  | @decided earlier last _ hopen hwrites hlast =>
    rw [routeWrites_append] at hmem
    cases hwrite : last.isWrite with
    | true =>
      have hlast : routeWrites [last] = [last] := by simp [routeWrites, hwrite]
      rw [hlast, List.dropLast_concat] at hmem
      exact hopens hopen hmem
    | false =>
      have hlast : routeWrites [last] = [] := by simp [routeWrites, hwrite]
      rw [hlast, List.append_nil] at hmem
      exact hopens hopen (List.dropLast_subset _ hmem)
  | exhausted hopen hwrites => exact hopens hopen (List.dropLast_subset _ hmem)

/-- A run comes to a write if and only if its last write succeeded. -/
theorem written_iff (h : task.IsConcluded left exchanges result) {outcome : Outcome} :
    (∃ write, (routeWrites exchanges).getLast? = some write ∧ write.written? = some outcome) ↔
      result = .ok outcome ∧ outcome ≠ .alreadySatisfied := by
  constructor
  · rintro ⟨write, hlast, hwritten⟩
    have hmem := (mem_routeWrites.1 (List.mem_of_getLast? hlast)).1
    refine ⟨h.eq_of_decides hmem (.written hwritten), ?_⟩
    rintro rfl
    exact write.written?_ne_alreadySatisfied hwritten
  · rintro ⟨rfl, hne⟩
    cases h with
    | @decided earlier last _ hopen hwrites hlast =>
      cases hlast with
      | present hserved => exact absurd rfl hne
      | written hwritten =>
        refine ⟨last, ?_, hwritten⟩
        rw [routeWrites_append]
        simp [routeWrites, Exchange.isWrite_of_written? hwritten]

/-- The route is found in place if and only if a look-up showed it. -/
theorem present_iff (h : task.IsConcluded left exchanges result) :
    (∃ read, ⟨.get .ingress task.key, .ok (some read)⟩ ∈ exchanges ∧ task.IsServedBy read) ↔
      result = .ok .alreadySatisfied := by
  constructor
  · rintro ⟨read, hmem, hserved⟩
    exact h.eq_of_decides hmem (.present hserved)
  · rintro rfl
    cases h with
    | @decided earlier last _ hopen hwrites hlast =>
      cases hlast with
      | present hserved => exact ⟨_, by simp, hserved⟩
      | written hwritten => exact absurd hwritten last.written?_ne_alreadySatisfied

/-- A run that made no write of its own was overtaken by others in all the writes it tried. -/
theorem isOvertaken_of_present (h : task.IsConcluded left exchanges (.ok .alreadySatisfied))
    {write : Exchange} (hmem : write ∈ routeWrites exchanges) : write.IsOvertaken := by
  cases h with
  | @decided earlier last _ hopen hwrites hlast =>
    cases hlast with
    | present hserved =>
      rw [routeWrites_append, List.mem_append] at hmem
      have hearlier := hmem.resolve_right (by simp [routeWrites, Exchange.isWrite])
      obtain ⟨hmem, hwrite⟩ := mem_routeWrites.1 hearlier
      exact (hopen write hmem).isOvertaken hwrite
    | written hwritten => exact absurd hwritten last.written?_ne_alreadySatisfied

/-- Once as many writes were overtaken as there are attempts, the run has failed for that. -/
theorem exhausted_of_isOvertaken (h : task.IsConcluded left exchanges result)
    (hlength : (routeWrites exchanges).length = left)
    (hovertaken : ∀ write ∈ routeWrites exchanges, write.IsOvertaken) :
    result = .error (.routeConflict task.key.display task.attempts) := by
  cases h with
  | @decided earlier last _ hopen hwrites hlast =>
    -- the last exchange would have to be one of the writes, and those leave the end open
    have hwrite : last.isWrite = true := by
      by_contra hlook
      have hnone : routeWrites [last] = [] := by simp [routeWrites, hlook]
      rw [routeWrites_append, hnone, List.append_nil] at hlength
      exact absurd hlength hwrites.ne
    have hmem : last ∈ routeWrites (earlier ++ [last]) := mem_routeWrites.2 ⟨by simp, hwrite⟩
    exact absurd hlast (LeavesOpen.overtaken (hovertaken last hmem)).not_decides
  | exhausted hopen hwrites => rfl

/-- A run that fails was decided by a failure, or all of its attempts were overtaken. -/
theorem failed {e : OperatorError} (h : task.IsConcluded left exchanges (.error e)) :
    (∃ earlier last, exchanges = earlier ++ [last] ∧ task.Decides last (.error e)) ∨
      e = .routeConflict task.key.display task.attempts ∧ (routeWrites exchanges).length = left ∧
        ∀ write ∈ routeWrites exchanges, write.IsOvertaken := by
  cases h with
  | @decided earlier last _ hopen hwrites hlast => exact Or.inl ⟨earlier, last, rfl, hlast⟩
  | exhausted hopen hwrites =>
    refine Or.inr ⟨rfl, hwrites, fun write hmem => ?_⟩
    obtain ⟨hmem, hwrite⟩ := mem_routeWrites.1 hmem
    exact (hopen write hmem).isOvertaken hwrite

/-- A run that fails has changed nothing itself. -/
theorem isIdle {e : OperatorError} (h : task.IsConcluded left exchanges (.error e)) :
    ∀ exchange ∈ exchanges, exchange.IsIdle := by
  cases h with
  | @decided earlier last _ hopen hwrites hlast =>
    refine List.forall_mem_append.2 ⟨fun exchange hmem => (hopen exchange hmem).isIdle, ?_⟩
    simpa using hlast.isIdle
  | exhausted hopen hwrites => exact fun exchange hmem => (hopen exchange hmem).isIdle

end IsConcluded

/-! ## Runs on a cluster -/

/-- Whether a run ends as its exchanges say, and changes nothing unless one of its writes
succeeds. -/
structure Concludes (task : RouteTask) (cluster : Cluster) (exchanges : List Exchange)
    (result : Except OperatorError Outcome) (after : Cluster) : Prop where
  /-- There are no more writes than attempts. -/
  length_le : (routeWrites exchanges).length ≤ task.attempts
  /-- Only the last write can succeed, or fail for another reason than another writer. -/
  overtaken : ∀ write ∈ (routeWrites exchanges).dropLast, write.IsOvertaken
  /-- The run comes to a write if and only if the last one succeeded. -/
  written_iff : ∀ outcome,
    (∃ write, (routeWrites exchanges).getLast? = some write ∧ write.written? = some outcome) ↔
      result = .ok outcome ∧ outcome ≠ .alreadySatisfied
  /-- It finds the route in place if and only if a look-up showed it. -/
  present_iff :
    (∃ read, ⟨.get .ingress task.key, .ok (some read)⟩ ∈ exchanges ∧ task.IsServedBy read) ↔
      result = .ok .alreadySatisfied
  /-- Then no write has succeeded. -/
  overtaken_of_present : result = .ok .alreadySatisfied →
    ∀ write ∈ routeWrites exchanges, write.IsOvertaken
  /-- It gives up if and only if it was overtaken in each of its attempts. -/
  conflict_iff : ∀ key attempts, result = .error (.routeConflict key attempts) ↔
    key = task.key.display ∧ attempts = task.attempts ∧
      (routeWrites exchanges).length = task.attempts ∧
        ∀ write ∈ routeWrites exchanges, write.IsOvertaken
  /-- What decides it is its last exchange: any other failure is passed on at once. -/
  decided : ∀ earlier exchange later outcome, exchanges = earlier ++ exchange :: later →
    task.Decides exchange outcome → later = [] ∧ result = outcome
  /-- No failure comes from elsewhere. -/
  failed : ∀ e, result = .error e →
    (∃ earlier last, exchanges = earlier ++ [last] ∧ task.Decides last (.error e)) ∨
      e = .routeConflict task.key.display task.attempts
  /-- Once it has failed, only others have changed anything, who were let in by its replacements. -/
  unchanged : ∀ e, result = .error e →
    ∃ paths, paths.Sublist (exchanges.filterMap Exchange.replaced?) ∧
      after.objects = (cluster.letInAll paths).objects
  /-- Where nobody waits to be let in, nothing has changed. -/
  untouched : ∀ e, result = .error e → (∀ path, cluster.IsUndisturbed path) →
    after.objects = cluster.objects

/-- Only exhaustion has the failure that names the attempts: the cluster never answers with it. -/
theorem IsConcluded.conflict {script : Nat → Arrangement} {cluster : Cluster} {left : Nat}
    {key : String} {attempts : Nat}
    (h : task.IsConcluded left (task.program.history (serveAmid script) cluster)
      (.error (.routeConflict key attempts))) :
    key = task.key.display ∧ attempts = task.attempts ∧
      (routeWrites (task.program.history (serveAmid script) cluster)).length = left ∧
        ∀ write ∈ routeWrites (task.program.history (serveAmid script) cluster),
          write.IsOvertaken := by
  rcases h.failed with ⟨earlier, last, hexchanges, hlast⟩ | ⟨heq, hrest⟩
  · exfalso
    cases hlast with
    | refused hrefused =>
      have hmem := hexchanges.symm ▸ List.mem_append_right earlier (List.mem_singleton_self _)
      obtain ⟨now, hanswer⟩ := exists_served_of_mem_history hmem
      obtain ⟨code, reason, heq⟩ := refused_of_serveAmid hanswer
      cases heq
    | unowned hfirst howner =>
      obtain ⟨text, heq⟩ := Owner.invalidConfig_of_ofResource howner
      cases heq
  · obtain ⟨rfl, rfl⟩ := OperatorError.routeConflict.inj heq
    exact ⟨rfl, rfl, hrest⟩

theorem program_concludes (task : RouteTask) (script : Nat → Arrangement) (cluster : Cluster) :
    task.program.Unfolds (serveAmid script) cluster (task.Concludes cluster) := by
  have hconcluded : task.IsConcluded task.attempts (task.program.history (serveAmid script) cluster)
      (task.program.run (serveAmid script) cluster).1 :=
    retryRoute_isConcluded task.attempts cluster
  have hhistory := holdsSame_of_history script task.program cluster
  unfold Unfolds
  generalize (task.program.run (serveAmid script) cluster).2 = after at hhistory ⊢
  generalize (task.program.run (serveAmid script) cluster).1 = result at hconcluded ⊢
  have hunchanged : ∀ e, result = .error e → ∃ paths,
      paths.Sublist ((task.program.history (serveAmid script) cluster).filterMap
        Exchange.replaced?) ∧ after.objects = (cluster.letInAll paths).objects := by
    rintro e rfl
    obtain ⟨paths, hpaths, hsame⟩ := hhistory hconcluded.isIdle
    exact ⟨paths, hpaths, hsame.objects_eq⟩
  exact {
    length_le := hconcluded.length_le
    overtaken := fun write => hconcluded.isOvertaken
    written_iff := fun outcome => hconcluded.written_iff
    present_iff := hconcluded.present_iff
    overtaken_of_present := fun hpresent write =>
      (hpresent ▸ hconcluded).isOvertaken_of_present
    conflict_iff := fun key attempts =>
      ⟨fun hconflict => (hconflict ▸ hconcluded).conflict,
        fun ⟨hkey, hattempts, hlength, hovertaken⟩ => by
          rw [hkey, hattempts]
          exact hconcluded.exhausted_of_isOvertaken hlength hovertaken⟩
    decided := fun earlier exchange later outcome hall hdecides =>
      (hall ▸ hconcluded).of_decides hdecides
    failed := fun e herror =>
      (herror ▸ hconcluded).failed.imp_right And.left
    unchanged := hunchanged
    untouched := fun e herror hundisturbed => by
      obtain ⟨paths, _, hobjects⟩ := hunchanged e herror
      rw [hobjects, letInAll_eq_self fun path _ => hundisturbed path] }

/-- Settings always leave at least one attempt, and any number of attempts ends as the exchanges
say, whatever the cluster holds and whichever calls fail. -/
theorem attempts_conclude :
    (∀ args settings, Settings.ofArgs args = .ok settings → 1 ≤ settings.routeUpdateAttempts) ∧
      ∀ (task : RouteTask) (script : Nat → Arrangement) (cluster : Cluster),
        task.program.Unfolds (serveAmid script) cluster (task.Concludes cluster) := by
  refine ⟨fun args settings h => ?_, program_concludes⟩
  unfold Settings.ofArgs at h
  cases hread : CommandLine.read Settings.switches args with
  | error e =>
    rw [hread] at h
    cases h
  | ok reading =>
    rw [hread] at h
    obtain rfl := Except.ok.inj h
    exact Settings.one_le_routeUpdateAttempts reading

end RouteTask

end EdgeOperator
