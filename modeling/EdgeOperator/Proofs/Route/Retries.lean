import EdgeOperator.Proofs.Ownership.Install
import EdgeOperator.Proofs.Route.Conclusion

set_option autoImplicit false

/-! # Further attempts at a route

Each time that another writer got in before a route was written, the next attempt begins with the
look-up of the ingress, and once no attempt is left the run gives up. How many are left is told by
the exchanges of the run: every attempt but the last has written once (`RetriesWithin`). Calls that
write no route do not count, so this can be said of a run that does more than to put a route in
place (`RetriesWithin.unfolds_bind`). -/

namespace EdgeOperator

open Program

variable {α β : Type}

/-! ## Writes of a route -/

/-- Whether a call writes an ingress. The only one that is ever written carries routes. -/
def Request.writesRoute : Request → Bool
  | .create .ingress _ | .replace .ingress _ => true
  | _ => false

theorem Request.isWrite_of_writesRoute {request : Request} (h : request.writesRoute = true)
    {answer : Except OperatorError request.Answer} : Exchange.isWrite ⟨request, answer⟩ = true := by
  unfold writesRoute at h
  split at h
  · rfl
  · rfl
  · cases h

/-! ## Attempts that are counted -/

/-- Whether a run makes another attempt each time that another writer got in before its route was
written, and gives up once none of its attempts is left. -/
def RetriesWithin (key : ObjectKey) (total left : Nat) (exchanges : List Exchange)
    (result : Except OperatorError α) : Prop :=
  ∀ earlier request e later, exchanges = earlier ++ ⟨request, .error e⟩ :: later →
    request.writesRoute = true → e.TellsOfOthers →
      if earlier.countP (·.request.writesRoute) + 1 < left then
        ∃ answer rest, later = ⟨.get .ingress key, answer⟩ :: rest
      else later = [] ∧ result = .error (.routeConflict key.display total)

section Retries

variable {key : ObjectKey} {total left : Nat} {exchanges front : List Exchange}
  {result : Except OperatorError α}

theorem retriesWithin_of_no_writes
    (h : ∀ exchange ∈ exchanges, exchange.request.writesRoute = false) :
    RetriesWithin key total left exchanges result := by
  intro earlier request e later heq hwrites
  have hmem : (⟨request, .error e⟩ : Exchange) ∈ exchanges := by simp [heq]
  exact absurd hwrites (by simp [h _ hmem])

/-- Calls that write no route do not count. -/
theorem RetriesWithin.prepend (h : RetriesWithin key total left exchanges result)
    (hfront : ∀ exchange ∈ front, exchange.request.writesRoute = false) :
    RetriesWithin key total left (front ++ exchanges) result := by
  intro earlier request e later heq hwrites htells
  rcases append_eq_append_cons heq with ⟨middle, hin⟩ | ⟨middle, rfl, hin⟩
  · have hmem : (⟨request, .error e⟩ : Exchange) ∈ front := by simp [hin]
    exact absurd hwrites (by simp [hfront _ hmem])
  · have hnone : front.countP (·.request.writesRoute) = 0 := by
      simpa [List.countP_eq_zero] using hfront
    rw [List.countP_append, hnone, Nat.zero_add]
    exact h middle request e later hin hwrites htells

theorem RetriesWithin.map (h : RetriesWithin key total left exchanges result) (f : α → β) :
    RetriesWithin key total left exchanges (result.map f) := by
  intro earlier request e later heq hwrites htells
  have hhere := h earlier request e later heq hwrites htells
  by_cases hleft : earlier.countP (·.request.writesRoute) + 1 < left
  · rwa [if_pos hleft] at hhere ⊢
  · rw [if_neg hleft] at hhere ⊢
    obtain ⟨hlater, rfl⟩ := hhere
    exact ⟨hlater, rfl⟩

/-- One more attempt, which was overtaken, comes before. -/
theorem RetriesWithin.after_overtaken {looks : List Exchange} {write : Exchange}
    (h : RetriesWithin key total left exchanges result)
    (hlooks : ∀ look ∈ looks, look.request.writesRoute = false)
    (hwrite : write.request.writesRoute = true)
    (hnext : if 0 < left then ∃ answer rest, exchanges = ⟨.get .ingress key, answer⟩ :: rest
      else exchanges = [] ∧ result = .error (.routeConflict key.display total)) :
    RetriesWithin key total (left + 1) (looks ++ write :: exchanges) result := by
  refine RetriesWithin.prepend ?_ hlooks
  intro earlier request e later heq hwrites htells
  cases earlier with
  | nil =>
    obtain ⟨-, rfl⟩ := List.cons.inj heq
    simpa using hnext
  | cons first earlier =>
    obtain ⟨rfl, hin⟩ := List.cons.inj heq
    have hcount : (write :: earlier).countP (·.request.writesRoute) =
        earlier.countP (·.request.writesRoute) + 1 := by
      simp [hwrite]
    have hhere := h earlier request e later hin hwrites htells
    rw [hcount]
    simpa using hhere

/-- An attempt whose last call was not overtaken calls for no other. -/
theorem retriesWithin_of_not_overtaken {looks : List Exchange} {last : Exchange}
    (hlooks : ∀ look ∈ looks, look.request.writesRoute = false) (hlast : ¬ last.IsOvertaken) :
    RetriesWithin key total left (looks ++ [last]) result := by
  refine RetriesWithin.prepend ?_ hlooks
  intro earlier request e later heq hwrites htells
  cases earlier with
  | nil =>
    obtain ⟨rfl, -⟩ := List.cons.inj heq
    exact absurd ⟨Request.isWrite_of_writesRoute hwrites, e, rfl, htells⟩ hlast
  | cons first earlier => simp at heq

end Retries

/-! ## The attempts of a run -/

section Servers

variable {σ : Type} {serve : (request : Request) → σ → Except OperatorError request.Answer × σ}
  {state : σ} {key : ObjectKey} {total left : Nat}

/-- A part that writes no route comes before. -/
theorem RetriesWithin.unfolds_bind {program : Program α} {next : α → Program β}
    (hprogram : program.OnlyAsks (·.writesRoute = false))
    (hnext : ∀ value state, (next value).Unfolds serve state fun exchanges result _ =>
      RetriesWithin key total left exchanges result) :
    (program >>= next).Unfolds serve state fun exchanges result _ =>
      RetriesWithin key total left exchanges result := by
  refine hprogram.unfolds.bind ?_ ?_
  · intro front value middle hnone
    exact (hnext value middle).mono fun _ _ _ h => h.prepend hnone
  · intro front e middle hnone
    exact retriesWithin_of_no_writes hnone

/-- Of the calls that put a route in place, those that write are writes of a route. -/
theorem Request.Routes.writesRoute {exchange : Exchange} (h : exchange.request.Routes) :
    exchange.request.writesRoute = exchange.isWrite := by
  obtain ⟨request, answer⟩ := exchange
  cases h <;> rfl

theorem RouteTask.AreLooks.writesRoute {task : RouteTask} {looks : List Exchange}
    (h : task.AreLooks looks) (hroutes : ∀ look ∈ looks, look.request.Routes) :
    ∀ look ∈ looks, look.request.writesRoute = false := by
  intro look hmem
  rw [(hroutes look hmem).writesRoute]
  by_contra hwrite
  have hin : look ∈ routeWrites looks := mem_routeWrites.2 ⟨hmem, by simpa using hwrite⟩
  simp [h.routeWrites_eq] at hin

/-- With an attempt left the ingress is looked up, and otherwise the run is over. -/
theorem retryRoute_starts (frontend : Owner) (spec : FrontendSpec) :
    (retryRoute frontend spec total left).Unfolds serve state fun exchanges result _ =>
      if 0 < left then
        ∃ answer rest, exchanges = ⟨.get .ingress (routingKey frontend.namespaceName), answer⟩ :: rest
      else exchanges = [] ∧
        result = .error (.routeConflict (routingKey frontend.namespaceName).display total) := by
  cases left with
  | zero => exact ⟨rfl, rfl⟩
  | succ left => exact ⟨_, _, rfl⟩

/-- The ingress is looked up again after each attempt that was overtaken. -/
theorem retryRoute_retriesWithin (frontend : Owner) (spec : FrontendSpec) :
    (retryRoute frontend spec total left).Unfolds serve state fun exchanges result _ =>
      RetriesWithin (routingKey frontend.namespaceName) total left exchanges result := by
  induction left generalizing state with
  | zero => exact retriesWithin_of_no_writes (by simp [history, retryRoute, Program.fail])
  | succ left ih =>
    let task : RouteTask := ⟨frontend, spec, total⟩
    have hroutes : (attemptRoute frontend spec).OnlyAsks Request.Routes :=
      attemptRoute_onlyAsks ⟨.look _ _, .list _ _, .create, .replace⟩ spec
    refine (Unfolds.and task.attemptRoute_isAttempt hroutes.unfolds).bind ?_ ?_
    · rintro exchanges attempt middle ⟨⟨looks, last, rfl, hlooks, hlast⟩, hroutes⟩
      have hnone := hlooks.writesRoute fun look hmem => hroutes look (by simp [hmem])
      cases attempt with
      | settled outcome =>
        refine unfolds_pure.2 ?_
        rw [List.append_nil]
        exact retriesWithin_of_not_overtaken hnone fun h =>
          (RouteTask.LeavesOpen.overtaken h).not_decides hlast
      | overtaken =>
        have hovertaken : last.IsOvertaken := hlast
        have hwrite : last.request.writesRoute = true :=
          (hroutes last (by simp)).writesRoute.trans hovertaken.1
        refine ((@ih middle).and (retryRoute_starts frontend spec)).mono ?_
        rintro later result _ ⟨hretries, hstarts⟩
        rw [List.append_assoc]
        exact hretries.after_overtaken hnone hwrite hstarts
    · rintro exchanges e middle ⟨⟨looks, last, rfl, hlooks, hlast⟩, hroutes⟩
      have hnone := hlooks.writesRoute fun look hmem => hroutes look (by simp [hmem])
      exact retriesWithin_of_not_overtaken hnone fun h =>
        (RouteTask.LeavesOpen.overtaken h).not_decides hlast

end Servers

end EdgeOperator
