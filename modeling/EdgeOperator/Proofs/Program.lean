import EdgeOperator.Program

set_option autoImplicit false

/-! # Runs of programs

What a run of a program leaves besides its end: the *exchanges* it had, each a call with its answer
(`history`). What the exchanges of a program can be, whoever answers, is the relation `Yields`; a
program in two parts has the exchanges of one part after those of the other (`yields_bind`).

`Ends` says of a run that it comes to a result and a state with a property. `ends_bind` takes it
apart along the parts of a program, so what holds of a long program is assembled from what holds of
the calls it makes. `Unfolds` says the same of a run together with its exchanges. -/

namespace EdgeOperator

/-- A call and what was answered to it. -/
structure Exchange where
  request : Request
  answer : Except OperatorError request.Answer

namespace Program

variable {α β σ : Type}
  {serve : (request : Request) → σ → Except OperatorError request.Answer × σ}

/-! ## Exchanges -/

/-- The exchanges of a run, in their order. -/
def history (serve : (request : Request) → σ → Except OperatorError request.Answer × σ) :
    Program α → σ → List Exchange
  | .done _, _ => []
  | .call request next, state =>
    ⟨request, (serve request state).1⟩ ::
      (next (serve request state).1).history serve (serve request state).2

theorem history_perform_bind {request : Request} {next : request.Answer → Program α} {state : σ} :
    (perform request >>= next).history serve state =
      ⟨request, (serve request state).1⟩ ::
        match (serve request state).1 with
        | .ok value => (next value).history serve (serve request state).2
        | .error _ => [] := by
  change _ :: (Program.bind (.done (serve request state).1) next).history serve _ = _
  cases (serve request state).1 <;> rfl

theorem run_perform_bind {request : Request} {next : request.Answer → Program α} {state : σ} :
    (perform request >>= next).run serve state =
      match (serve request state).1 with
      | .ok value => (next value).run serve (serve request state).2
      | .error e => (.error e, (serve request state).2) := by
  change (Program.bind (.done (serve request state).1) next).run serve _ = _
  cases (serve request state).1 <;> rfl

/-- Every exchange of a run was had in some state. -/
theorem exists_served_of_mem_history {program : Program α} {state : σ} {exchange : Exchange}
    (h : exchange ∈ program.history serve state) :
    ∃ now, (serve exchange.request now).1 = exchange.answer := by
  induction program generalizing state with
  | done result => cases h
  | call request next ih =>
    rcases List.mem_cons.1 h with rfl | hlater
    · exact ⟨state, rfl⟩
    · exact ih _ hlater

/-! ## All runs, whoever answers -/

/-- Whether a program can have certain exchanges and come to a result, whatever is answered. -/
inductive Yields : Program α → List Exchange → Except OperatorError α → Prop where
  | done (result : Except OperatorError α) : Yields (.done result) [] result
  | call {request : Request} {next : Except OperatorError request.Answer → Program α}
      {exchanges : List Exchange} {result : Except OperatorError α}
      (answer : Except OperatorError request.Answer) :
      Yields (next answer) exchanges result →
        Yields (.call request next) (⟨request, answer⟩ :: exchanges) result

theorem yields_run (serve : (request : Request) → σ → Except OperatorError request.Answer × σ)
    (program : Program α) (state : σ) :
    program.Yields (program.history serve state) (program.run serve state).1 := by
  induction program generalizing state with
  | done result => exact .done result
  | call request next ih => exact .call _ (ih _ _)

/-- Every program comes to an end, if only because its calls fail. -/
theorem exists_yields (program : Program α) :
    ∃ exchanges result, program.Yields exchanges result := by
  induction program with
  | done result => exact ⟨[], result, .done result⟩
  | call request next ih =>
    obtain ⟨exchanges, result, h⟩ := ih (.error (.timeout 0))
    exact ⟨_, result, .call _ h⟩

/-- A program in two parts ends with a failure of the first, or goes through both. -/
theorem yields_bind {program : Program α} {next : α → Program β} {exchanges : List Exchange}
    {result : Except OperatorError β} (h : (program >>= next).Yields exchanges result) :
    (∃ e, program.Yields exchanges (.error e) ∧ result = .error e) ∨
      ∃ value first rest, exchanges = first ++ rest ∧ program.Yields first (.ok value) ∧
        (next value).Yields rest result := by
  induction program generalizing exchanges with
  | done outcome =>
    cases outcome with
    | error e =>
      cases h
      exact Or.inl ⟨e, .done _, rfl⟩
    | ok value => exact Or.inr ⟨value, [], exchanges, rfl, .done _, h⟩
  | call request rest ih =>
    cases h with
    | call answer h =>
      rcases ih answer h with ⟨e, hfirst, rfl⟩ | ⟨value, first, later, rfl, hfirst, hnext⟩
      · exact Or.inl ⟨e, .call answer hfirst, rfl⟩
      · exact Or.inr ⟨value, _ :: first, later, rfl, .call answer hfirst, hnext⟩

/-- A program whose result is only passed on makes the calls of the program. -/
theorem eq_call_of_bind_pure {program : Program α} {f : α → β} {request : Request}
    {next : Except OperatorError request.Answer → Program β}
    (h : (program >>= fun value => pure (f value)) = .call request next) :
    ∃ rest, program = .call request rest ∧
      ∀ answer, next answer = rest answer >>= fun value => pure (f value) := by
  cases program with
  | done result => cases result <;> cases h
  | call asked rest =>
    cases h
    exact ⟨rest, rfl, fun _ => rfl⟩

theorem yields_of_bind_pure {program : Program α} {f : α → β} {exchanges : List Exchange} {value : β}
    (h : (program >>= fun value => pure (f value)).Yields exchanges (.ok value)) :
    ∃ inner, f inner = value ∧ program.Yields exchanges (.ok inner) := by
  rcases yields_bind h with ⟨e, _, heq⟩ | ⟨inner, first, rest, rfl, hfirst, hrest⟩
  · cases heq
  · cases hrest
    exact ⟨inner, rfl, by rwa [List.append_nil]⟩

/-! ## Where runs end -/

/-- Whether a run comes to a result and a state with a property. -/
def Ends (serve : (request : Request) → σ → Except OperatorError request.Answer × σ)
    (program : Program α) (state : σ) (post : Except OperatorError α → σ → Prop) : Prop :=
  post (program.run serve state).1 (program.run serve state).2

theorem ends_bind {program : Program α} {next : α → Program β} {state : σ}
    {post : Except OperatorError β → σ → Prop} :
    (program >>= next).Ends serve state post ↔
      program.Ends serve state fun result state =>
        match result with
        | .ok value => (next value).Ends serve state post
        | .error e => post (.error e) state := by
  unfold Ends
  rw [run_bind]
  split <;> next heq => simp only [heq]

theorem Ends.mono {program : Program α} {state : σ}
    {post weaker : Except OperatorError α → σ → Prop} (h : program.Ends serve state post)
    (himp : ∀ result state, post result state → weaker result state) :
    program.Ends serve state weaker :=
  himp _ _ h

theorem Ends.and {program : Program α} {state : σ}
    {first second : Except OperatorError α → σ → Prop} (hfirst : program.Ends serve state first)
    (hsecond : program.Ends serve state second) :
    program.Ends serve state fun result state => first result state ∧ second result state :=
  ⟨hfirst, hsecond⟩

/-- A program that goes on only after success: failures have to be covered by themselves. -/
theorem Ends.bind {program : Program α} {next : α → Program β} {state : σ}
    {middle : Except OperatorError α → σ → Prop} {post : Except OperatorError β → σ → Prop}
    (h : program.Ends serve state middle)
    (hok : ∀ value state, middle (.ok value) state → (next value).Ends serve state post)
    (herror : ∀ e state, middle (.error e) state → post (.error e) state) :
    (program >>= next).Ends serve state post := by
  refine ends_bind.2 (h.mono fun result state hmid => ?_)
  cases result with
  | ok value => exact hok value state hmid
  | error e => exact herror e state hmid

theorem ends_perform {request : Request} {state : σ}
    {post : Except OperatorError request.Answer → σ → Prop} :
    (perform request).Ends serve state post ↔
      post (serve request state).1 (serve request state).2 :=
  Iff.rfl

theorem ends_attempt {request : Request} {state : σ}
    {post : Except OperatorError (Except OperatorError request.Answer) → σ → Prop} :
    (attempt request).Ends serve state post ↔
      post (.ok (serve request state).1) (serve request state).2 :=
  Iff.rfl

theorem ends_pure {value : α} {state : σ} {post : Except OperatorError α → σ → Prop} :
    (pure value : Program α).Ends serve state post ↔ post (.ok value) state :=
  Iff.rfl

theorem ends_fail {e : OperatorError} {state : σ} {post : Except OperatorError α → σ → Prop} :
    (Program.fail e : Program α).Ends serve state post ↔ post (.error e) state :=
  Iff.rfl

/-! ## How runs unfold -/

theorem history_bind (program : Program α) (next : α → Program β) (state : σ) :
    (program >>= next).history serve state =
      program.history serve state ++
        match program.run serve state with
        | (.ok value, state) => (next value).history serve state
        | (.error _, _) => [] := by
  induction program generalizing state with
  | done result => cases result <;> rfl
  | call request rest ih => exact congrArg (List.cons _) (ih _ _)

/-- Whether a run has exchanges and comes to a result and a state that have a property together. -/
def Unfolds (serve : (request : Request) → σ → Except OperatorError request.Answer × σ)
    (program : Program α) (state : σ)
    (post : List Exchange → Except OperatorError α → σ → Prop) : Prop :=
  post (program.history serve state) (program.run serve state).1 (program.run serve state).2

theorem unfolds_bind {program : Program α} {next : α → Program β} {state : σ}
    {post : List Exchange → Except OperatorError β → σ → Prop} :
    (program >>= next).Unfolds serve state post ↔
      program.Unfolds serve state fun exchanges result state =>
        match result with
        | .ok value => (next value).Unfolds serve state fun later => post (exchanges ++ later)
        | .error e => post exchanges (.error e) state := by
  unfold Unfolds
  rw [run_bind, history_bind]
  rcases program.run serve state with ⟨e | value, after⟩
  · exact iff_of_eq (congrArg (post · _ _) (List.append_nil _))
  · exact Iff.rfl

theorem Unfolds.mono {program : Program α} {state : σ}
    {post weaker : List Exchange → Except OperatorError α → σ → Prop}
    (h : program.Unfolds serve state post)
    (himp : ∀ exchanges result state, post exchanges result state →
      weaker exchanges result state) : program.Unfolds serve state weaker :=
  himp _ _ _ h

theorem Unfolds.and {program : Program α} {state : σ}
    {first second : List Exchange → Except OperatorError α → σ → Prop}
    (hfirst : program.Unfolds serve state first) (hsecond : program.Unfolds serve state second) :
    program.Unfolds serve state fun exchanges result state =>
      first exchanges result state ∧ second exchanges result state :=
  ⟨hfirst, hsecond⟩

/-- A program that goes on only after success: the exchanges of its parts stand one after the
other. -/
theorem Unfolds.bind {program : Program α} {next : α → Program β} {state : σ}
    {middle : List Exchange → Except OperatorError α → σ → Prop}
    {post : List Exchange → Except OperatorError β → σ → Prop}
    (h : program.Unfolds serve state middle)
    (hok : ∀ exchanges value state, middle exchanges (.ok value) state →
      (next value).Unfolds serve state fun later => post (exchanges ++ later))
    (herror : ∀ exchanges e state, middle exchanges (.error e) state →
      post exchanges (.error e) state) :
    (program >>= next).Unfolds serve state post := by
  refine unfolds_bind.2 (h.mono fun exchanges result state hmid => ?_)
  cases result with
  | ok value => exact hok exchanges value state hmid
  | error e => exact herror exchanges e state hmid

theorem unfolds_perform {request : Request} {state : σ}
    {post : List Exchange → Except OperatorError request.Answer → σ → Prop} :
    (perform request).Unfolds serve state post ↔
      post [⟨request, (serve request state).1⟩] (serve request state).1 (serve request state).2 :=
  Iff.rfl

theorem unfolds_attempt {request : Request} {state : σ}
    {post : List Exchange → Except OperatorError (Except OperatorError request.Answer) → σ → Prop} :
    (attempt request).Unfolds serve state post ↔
      post [⟨request, (serve request state).1⟩] (.ok (serve request state).1)
        (serve request state).2 :=
  Iff.rfl

theorem unfolds_pure {value : α} {state : σ}
    {post : List Exchange → Except OperatorError α → σ → Prop} :
    (pure value : Program α).Unfolds serve state post ↔ post [] (.ok value) state :=
  Iff.rfl

theorem unfolds_fail {e : OperatorError} {state : σ}
    {post : List Exchange → Except OperatorError α → σ → Prop} :
    (Program.fail e : Program α).Unfolds serve state post ↔ post [] (.error e) state :=
  Iff.rfl

/-- A program whose result is only passed on unfolds as before. -/
theorem unfolds_bind_pure {program : Program α} {f : α → β} {state : σ}
    {post : List Exchange → Except OperatorError β → σ → Prop} :
    (program >>= fun value => pure (f value)).Unfolds serve state post ↔
      program.Unfolds serve state fun exchanges result => post exchanges (result.map f) := by
  rw [unfolds_bind]
  unfold Unfolds
  cases (program.run serve state).1 with
  | error e => exact Iff.rfl
  | ok value =>
    show post (_ ++ []) _ _ ↔ _
    rw [List.append_nil]
    exact Iff.rfl

/-- What the answers to the calls of a run keep, the run keeps. -/
theorem run_keeps_along (keeps : σ → Prop) (program : Program α) {state : σ}
    (hserve : ∀ exchange ∈ program.history serve state, ∀ state,
      keeps state → keeps (serve exchange.request state).2)
    (h : keeps state) : keeps (program.run serve state).2 := by
  induction program generalizing state with
  | done result => exact h
  | call request next ih =>
    have hhead := hserve _ (List.mem_cons_self ..) state h
    exact ih _ (fun exchange hmem => hserve exchange (List.mem_cons_of_mem _ hmem)) hhead

/-- A run that unfolds in some way keeps what the answers to all calls keep. -/
theorem Unfolds.keeping {program : Program α} {state : σ}
    {post : List Exchange → Except OperatorError α → σ → Prop}
    (h : program.Unfolds serve state post) {keeps : σ → Prop}
    (hserve : ∀ request state, keeps state → keeps (serve request state).2) (hstate : keeps state) :
    program.Unfolds serve state fun exchanges result after =>
      post exchanges result after ∧ keeps after :=
  ⟨h, run_keeps_along keeps program (fun exchange _ => hserve exchange.request) hstate⟩

/-! ## What a program asks for -/

/-- Whether all calls that a program can make are of one sort. -/
inductive OnlyAsks (sort : Request → Prop) : Program α → Prop where
  | done (result : Except OperatorError α) : OnlyAsks sort (.done result)
  | call {request : Request} {next : Except OperatorError request.Answer → Program α}
      (hrequest : sort request) (hnext : ∀ answer, OnlyAsks sort (next answer)) :
      OnlyAsks sort (.call request next)

variable {sort : Request → Prop}

theorem OnlyAsks.perform {request : Request} (h : sort request) :
    (Program.perform request).OnlyAsks sort :=
  .call h fun answer => .done answer

theorem OnlyAsks.attempt {request : Request} (h : sort request) :
    (Program.attempt request).OnlyAsks sort :=
  .call h fun answer => .done (.ok answer)

theorem OnlyAsks.mono {wider : Request → Prop} {program : Program α} (h : program.OnlyAsks sort)
    (himp : ∀ request, sort request → wider request) : program.OnlyAsks wider := by
  induction h with
  | done result => exact .done result
  | call hrequest _ ih => exact .call (himp _ hrequest) ih

theorem OnlyAsks.bind {program : Program α} {next : α → Program β} (h : program.OnlyAsks sort)
    (hnext : ∀ value, (next value).OnlyAsks sort) : (program >>= next).OnlyAsks sort := by
  induction h with
  | done result =>
    cases result with
    | ok value => exact hnext value
    | error e => exact .done (.error e)
  | call hrequest _ ih => exact .call hrequest ih

theorem OnlyAsks.of_yields {program : Program α} (h : program.OnlyAsks sort)
    {exchanges : List Exchange} {result : Except OperatorError α}
    (hyields : program.Yields exchanges result) :
    ∀ exchange ∈ exchanges, sort exchange.request := by
  induction h generalizing exchanges with
  | done outcome =>
    cases hyields
    simp
  | call hrequest hnext ih =>
    cases hyields with
    | call answer hrest => exact List.forall_mem_cons.2 ⟨hrequest, ih answer hrest⟩

theorem OnlyAsks.unfolds {program : Program α} (h : program.OnlyAsks sort) {state : σ} :
    program.Unfolds serve state fun exchanges _ _ =>
      ∀ exchange ∈ exchanges, sort exchange.request :=
  h.of_yields (yields_run serve program state)

/-- What the answers to calls of a sort keep, a run keeps that makes no others. -/
theorem OnlyAsks.run_keeps (keeps : σ → Prop) {program : Program α} (h : program.OnlyAsks sort)
    (hserve : ∀ request state, sort request → keeps state → keeps (serve request state).2)
    {state : σ} (hstate : keeps state) : keeps (program.run serve state).2 := by
  refine run_keeps_along keeps program (fun exchange hmem state => ?_) hstate
  exact hserve _ state (h.of_yields (yields_run serve program _) exchange hmem)

end Program

end EdgeOperator
