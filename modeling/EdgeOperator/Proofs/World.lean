import EdgeOperator.Proofs.Cluster.Versions
import Mathlib.Data.List.Induction
import Mathlib.Logic.Function.Basic

set_option autoImplicit false

/-! # Programs that share a cluster

Any number of programs run on one cluster, each call of each of them in a turn of its own, and other
parties make calls in between. A list of turns is one interleaving, so what holds after every list of
turns holds however the calls are interleaved.

`Consistent` is what every turn keeps: each process got its answers from a cluster in good order, and
the cluster remembers each object that a process has read. -/

namespace EdgeOperator

/-- Whether an exchange was had with some cluster in good order. -/
def Exchange.IsHonest (exchange : Exchange) : Prop :=
  ∃ cluster : Cluster, cluster.Sound ∧
    (Cluster.serve exchange.request cluster).1 = exchange.answer

/-- What was looked up was stored under the path of the look-up. -/
theorem Exchange.IsHonest.path_eq {kind : Kind} {key : ObjectKey} {object : Resource kind}
    (h : Exchange.IsHonest ⟨.get kind key, .ok (some object)⟩) : object.path = key.path kind := by
  obtain ⟨cluster, hsound, hanswer⟩ := h
  exact (hsound.kept (Cluster.find?_eq_some.1 (Cluster.find?_of_serve_get hanswer))).path_eq

/-- A program under way: what is left of it, and the exchanges it has had. -/
structure Process (α : Type) where
  program : Program α
  history : List Exchange := []

/-- Processes on one cluster. -/
structure World (ι α : Type) where
  cluster : Cluster
  processes : ι → Process α

/-- What happens in one turn: a process makes its next call, another party makes a call, or time
goes by. -/
inductive Turn (ι : Type) where
  | process (i : ι)
  | other (request : Request)
  | clock (now : Timestamp)

namespace World

variable {ι α : Type} [DecidableEq ι]

/-! ## Turns -/

/-- The world after a process has made a call. -/
def called (world : World ι α) (i : ι) (request : Request)
    (next : Except OperatorError request.Answer → Program α) : World ι α where
  cluster := (Cluster.serve request world.cluster).2
  processes := Function.update world.processes i
    { program := next (Cluster.serve request world.cluster).1
      history := (world.processes i).history ++
        [⟨request, (Cluster.serve request world.cluster).1⟩] }

/-- The world after a turn; a process that has ended does nothing. -/
def turn (world : World ι α) : Turn ι → World ι α
  | .process i =>
    match (world.processes i).program with
    | .done _ => world
    | .call request next => world.called i request next
  | .other request => { world with cluster := (Cluster.serve request world.cluster).2 }
  | .clock now => { world with cluster := { world.cluster with now := now } }

/-- The world after a list of turns. -/
def after (world : World ι α) (turns : List (Turn ι)) : World ι α :=
  turns.foldl turn world

/-- The world in which no program has made a call yet. -/
def start (cluster : Cluster) (programs : ι → Program α) : World ι α where
  cluster := cluster
  processes i := { program := programs i }

theorem after_append (world : World ι α) (earlier later : List (Turn ι)) :
    world.after (earlier ++ later) = (world.after earlier).after later :=
  List.foldl_append

theorem after_concat (world : World ι α) (earlier : List (Turn ι)) (turn : Turn ι) :
    world.after (earlier ++ [turn]) = (world.after earlier).turn turn :=
  world.after_append earlier [turn]

/-- What each of the turns keeps holds after all of them. -/
theorem after_keeps (keeps : World ι α → Prop) {world : World ι α} {turns : List (Turn ι)}
    (hturn : ∀ world, ∀ turn ∈ turns, keeps world → keeps (world.turn turn))
    (h : keeps world) : keeps (world.after turns) := by
  induction turns generalizing world with
  | nil => exact h
  | cons turn rest ih =>
    refine ih (fun world other hmem => hturn world other (List.mem_cons_of_mem _ hmem)) ?_
    exact hturn world turn (List.mem_cons_self ..) h

theorem turn_process_of_done {world : World ι α} {i : ι} {result : Except OperatorError α}
    (h : (world.processes i).program = .done result) : world.turn (.process i) = world := by
  simp only [turn, h]

theorem turn_process_of_call {world : World ι α} {i : ι} {request : Request}
    {next : Except OperatorError request.Answer → Program α}
    (h : (world.processes i).program = .call request next) :
    world.turn (.process i) = world.called i request next := by
  simp only [turn, h]

@[simp] theorem called_cluster (world : World ι α) (i : ι) (request : Request)
    (next : Except OperatorError request.Answer → Program α) :
    (world.called i request next).cluster = (Cluster.serve request world.cluster).2 := rfl

theorem called_processes_self (world : World ι α) (i : ι) (request : Request)
    (next : Except OperatorError request.Answer → Program α) :
    (world.called i request next).processes i =
      { program := next (Cluster.serve request world.cluster).1
        history := (world.processes i).history ++
          [⟨request, (Cluster.serve request world.cluster).1⟩] } :=
  Function.update_self ..

theorem called_processes_of_ne (world : World ι α) {i j : ι} (h : j ≠ i) (request : Request)
    (next : Except OperatorError request.Answer → Program α) :
    (world.called i request next).processes j = world.processes j :=
  Function.update_of_ne h ..

/-! ## What the processes do -/

/-- What the next call of every process keeps of it, every turn keeps of all of them. -/
theorem forall_processes_turn (keeps : ι → Process α → Prop) {world : World ι α}
    (h : ∀ i, keeps i (world.processes i))
    (hcall : ∀ i (request : Request) next, (world.processes i).program = .call request next →
      keeps i
        { program := next (Cluster.serve request world.cluster).1
          history := (world.processes i).history ++
            [⟨request, (Cluster.serve request world.cluster).1⟩] })
    (turn : Turn ι) (i : ι) : keeps i ((world.turn turn).processes i) := by
  cases turn with
  | process j =>
    cases hprogram : (world.processes j).program with
    | done result =>
      rw [turn_process_of_done hprogram]
      exact h i
    | call request next =>
      rw [turn_process_of_call hprogram]
      by_cases hij : i = j
      · subst hij
        rw [called_processes_self]
        exact hcall i request next hprogram
      · rw [called_processes_of_ne world hij]
        exact h i
  | other request => exact h i
  | clock now => exact h i

/-- What calls and the passing of time keep of the cluster, every turn keeps. -/
theorem cluster_turn (keeps : Cluster → Prop) {world : World ι α} {turn : Turn ι}
    (h : keeps world.cluster)
    (hcall : ∀ i request next, (world.processes i).program = .call request next →
      keeps (Cluster.serve request world.cluster).2)
    (hother : ∀ request, turn = .other request → keeps (Cluster.serve request world.cluster).2)
    (hclock : ∀ now, keeps { world.cluster with now := now }) :
    keeps (world.turn turn).cluster := by
  cases turn with
  | process i =>
    cases hprogram : (world.processes i).program with
    | done result =>
      rw [turn_process_of_done hprogram]
      exact h
    | call request next =>
      rw [turn_process_of_call hprogram]
      exact hcall i request next hprogram
  | other request => exact hother request rfl
  | clock now => exact hclock now

theorem processes_turn_of_ne (world : World ι α) {turn : Turn ι} {i : ι} (h : turn ≠ .process i) :
    (world.turn turn).processes i = world.processes i := by
  cases turn with
  | process j =>
    cases hprogram : (world.processes j).program with
    | done result => rw [turn_process_of_done hprogram]
    | call request next =>
      rw [turn_process_of_call hprogram,
        called_processes_of_ne world fun heq => h (congrArg Turn.process heq.symm)]
  | other request => rfl
  | clock now => rfl

/-- Whether a process came to a good end. -/
def Ended {α : Type} (world : World ι α) (i : ι) : Prop :=
  ∃ outcome, (world.processes i).program = .done (.ok outcome)

/-- Runs that have ended stay so. -/
theorem Ended.turn {world : World ι α} {j : ι} (h : world.Ended j) (turn : Turn ι) :
    (world.turn turn).Ended j := by
  obtain ⟨outcome, houtcome⟩ := h
  refine ⟨outcome, ?_⟩
  cases turn with
  | process i =>
    cases hprogram : (world.processes i).program with
    | done result => rwa [turn_process_of_done hprogram]
    | call request rest =>
      have hne : j ≠ i := fun heq => by simp [← heq, houtcome] at hprogram
      rwa [turn_process_of_call hprogram, called_processes_of_ne world hne]
  | other request => exact houtcome
  | clock now => exact houtcome

/-- A turn of one process ends no other. -/
theorem Ended.of_turn {world : World ι α} {i j : ι} (hne : j ≠ i)
    (h : (world.turn (.process i)).Ended j) : world.Ended j := by
  obtain ⟨outcome, houtcome⟩ := h
  refine ⟨outcome, ?_⟩
  cases hprogram : (world.processes i).program with
  | done result => rwa [turn_process_of_done hprogram] at houtcome
  | call request rest =>
    rwa [turn_process_of_call hprogram, called_processes_of_ne world hne] at houtcome

/-- How many of the turns are those of one process. -/
def turnsOf (i : ι) (turns : List (Turn ι)) : Nat :=
  turns.countP fun
    | .process j => j = i
    | .other _ | .clock _ => false

/-- A process has ended, or it has made a call in each of its turns. -/
theorem done_or_length_history (world : World ι α) (i : ι) (turns : List (Turn ι)) :
    (∃ result, ((world.after turns).processes i).program = .done result) ∨
      ((world.after turns).processes i).history.length =
        (world.processes i).history.length + turnsOf i turns := by
  induction turns using List.reverseRecOn with
  | nil => exact Or.inr rfl
  | append_singleton earlier turn ih =>
    have hcount : turnsOf i (earlier ++ [turn]) = turnsOf i earlier + turnsOf i [turn] :=
      List.countP_append ..
    rw [after_concat, hcount]
    generalize world.after earlier = current at ih
    cases turn with
    | process j =>
      by_cases hj : j = i
      · subst hj
        cases hprogram : (current.processes j).program with
        | done result =>
          rw [turn_process_of_done hprogram]
          exact Or.inl ⟨result, hprogram⟩
        | call request next =>
          have hlength := ih.resolve_left (by simp [hprogram])
          rw [turn_process_of_call hprogram, called_processes_self]
          simp [hlength, turnsOf, Nat.add_assoc]
      · have hzero : turnsOf i [.process j] = 0 := by simp [turnsOf, hj]
        rwa [processes_turn_of_ne current fun heq => hj (Turn.process.inj heq), hzero]
    | other request => exact ih
    | clock now => exact ih

/-- What a process may still do continues the exchanges it has had. -/
theorem yields_history_append {cluster : Cluster} (programs : ι → Program α) {turns : List (Turn ι)}
    {i : ι} {rest : List Exchange} {result : Except OperatorError α}
    (h : (((start cluster programs).after turns).processes i).program.Yields rest result) :
    (programs i).Yields ((((start cluster programs).after turns).processes i).history ++ rest)
      result := by
  suffices hkept : ∀ i rest result,
      (((start cluster programs).after turns).processes i).program.Yields rest result →
        (programs i).Yields ((((start cluster programs).after turns).processes i).history ++ rest)
          result from hkept i rest result h
  refine after_keeps (fun world => ∀ i rest result, (world.processes i).program.Yields rest result →
    (programs i).Yields ((world.processes i).history ++ rest) result) ?_ fun _ _ _ h => h
  intro world turn _ hworld
  refine forall_processes_turn (fun i process => ∀ rest result, process.program.Yields rest result →
    (programs i).Yields (process.history ++ rest) result) hworld ?_ turn
  intro i request next hprogram rest result hrest
  have hcall : (world.processes i).program.Yields
      (⟨request, (Cluster.serve request world.cluster).1⟩ :: rest) result := by
    rw [hprogram]
    exact .call _ hrest
  rw [List.append_assoc]
  exact hworld i _ result hcall

theorem yields_history_of_done {cluster : Cluster} (programs : ι → Program α)
    {turns : List (Turn ι)} {i : ι} {result : Except OperatorError α}
    (h : (((start cluster programs).after turns).processes i).program = .done result) :
    (programs i).Yields (((start cluster programs).after turns).processes i).history result := by
  have hdone : (((start cluster programs).after turns).processes i).program.Yields [] result := by
    rw [h]
    exact .done result
  have hyields := yields_history_append programs hdone
  rwa [List.append_nil] at hyields

/-- A process that goes on had its last exchange in a turn of its own, and none since. -/
theorem exists_last_call {cluster : Cluster} {programs : ι → Program α} {turns : List (Turn ι)}
    {i : ι} {request : Request} {next}
    (hprogram : (((start cluster programs).after turns).processes i).program = .call request next)
    {exchange : Exchange}
    (hlast : (((start cluster programs).after turns).processes i).history.getLast? = some exchange) :
    ∃ earlier later, turns = earlier ++ .process i :: later ∧ .process i ∉ later ∧
      (∃ rest, (((start cluster programs).after earlier).processes i).program =
        .call exchange.request rest) ∧
      (Cluster.serve exchange.request ((start cluster programs).after earlier).cluster).1 =
        exchange.answer := by
  induction turns using List.reverseRecOn generalizing request with
  | nil => cases hlast
  | append_singleton front turn ih =>
    rw [after_concat] at hprogram hlast
    by_cases hturn : turn = .process i
    · subst hturn
      refine ⟨front, [], rfl, List.not_mem_nil, ?_⟩
      cases hfront : (((start cluster programs).after front).processes i).program with
      | done result =>
        rw [turn_process_of_done hfront, hfront] at hprogram
        cases hprogram
      | call asked rest =>
        rw [turn_process_of_call hfront, called_processes_self, List.getLast?_concat] at hlast
        obtain rfl := Option.some.inj hlast
        exact ⟨⟨rest, rfl⟩, rfl⟩
    · rw [processes_turn_of_ne _ hturn] at hprogram hlast
      obtain ⟨earlier, later, rfl, hlater, hcall⟩ := ih hprogram hlast
      refine ⟨earlier, later ++ [turn], by simp, fun hmem => ?_, hcall⟩
      rcases List.mem_append.1 hmem with hmem | hmem
      · exact hlater hmem
      · exact hturn (List.mem_singleton.1 hmem).symm

/-- Where something came to hold, there was a last turn that brought it about. -/
theorem exists_last_turn (holds : World ι α → Prop) {world : World ι α} {turns : List (Turn ι)}
    (hnot : ¬ holds world) (h : holds (world.after turns)) :
    ∃ earlier turn later, turns = earlier ++ turn :: later ∧ ¬ holds (world.after earlier) ∧
      ∀ front, front <+: later → holds (world.after (earlier ++ turn :: front)) := by
  induction turns using List.reverseRecOn with
  | nil => exact absurd h hnot
  | append_singleton front turn ih =>
    by_cases hfront : holds (world.after front)
    · obtain ⟨earlier, first, later, rfl, hearlier, hlater⟩ := ih hfront
      refine ⟨earlier, first, later ++ [turn], by simp, hearlier, fun between hbetween => ?_⟩
      rcases List.prefix_concat_iff.1 hbetween with rfl | hprefix
      · simpa using h
      · exact hlater between hprefix
    · refine ⟨front, turn, [], rfl, hfront, fun between hbetween => ?_⟩
      obtain rfl := List.prefix_nil.1 hbetween
      exact h

/-! ## What every turn keeps -/

/-- Whether the cluster is in good order and remembers what the processes have read. -/
structure Consistent (world : World ι α) : Prop where
  sound : world.cluster.Sound
  polite : world.cluster.HasPoliteEdits
  honest : ∀ i, ∀ exchange ∈ (world.processes i).history, exchange.IsHonest
  remembers : ∀ i (kind : Kind) (key : ObjectKey) (object : Resource kind),
    ⟨.get kind key, .ok (some object)⟩ ∈ (world.processes i).history →
      world.cluster.Remembers (key.path kind) ⟨kind, object⟩

omit [DecidableEq ι] in
theorem consistent_start {cluster : Cluster} (h : cluster.Reachable) (programs : ι → Program α) :
    (start cluster programs).Consistent where
  sound := h.sound
  polite := h.hasPoliteEdits
  honest i exchange hmem := absurd hmem (by simp [start])
  remembers i kind key object hmem := absurd hmem (by simp [start])

theorem Consistent.called {world : World ι α} (h : world.Consistent) (i : ι) (request : Request)
    (next : Except OperatorError request.Answer → Program α) :
    (world.called i request next).Consistent where
  sound := h.sound.serve h.polite request
  polite := h.polite.serve request
  honest j exchange hmem := by
    by_cases hj : j = i
    · subst hj
      rw [called_processes_self] at hmem
      rcases List.mem_append.1 hmem with hmem | hmem
      · exact h.honest j exchange hmem
      · obtain rfl := List.mem_singleton.1 hmem
        exact ⟨world.cluster, h.sound, rfl⟩
    · rw [called_processes_of_ne world hj] at hmem
      exact h.honest j exchange hmem
  remembers j kind key object hmem := by
    by_cases hj : j = i
    · subst hj
      rw [called_processes_self] at hmem
      rcases List.mem_append.1 hmem with hmem | hmem
      · exact (h.remembers j kind key object hmem).serve h.sound h.polite request
      · -- the call that was just made: what it has read is still stored
        obtain ⟨hrequest, hanswer⟩ := Exchange.mk.inj (List.mem_singleton.1 hmem)
        subst hrequest
        have hfind := Cluster.find?_of_serve_get (eq_of_heq hanswer).symm
        refine (h.sound.serve h.polite _).remembers ?_
        rw [Cluster.serve_get_objects]
        exact Cluster.find?_eq_some.1 hfind
    · rw [called_processes_of_ne world hj] at hmem
      exact (h.remembers j kind key object hmem).serve h.sound h.polite request

theorem Consistent.turn {world : World ι α} (h : world.Consistent) (turn : Turn ι) :
    (world.turn turn).Consistent := by
  cases turn with
  | process i =>
    cases hprogram : (world.processes i).program with
    | done result =>
      rw [turn_process_of_done hprogram]
      exact h
    | call request next =>
      rw [turn_process_of_call hprogram]
      exact h.called i request next
  | other request =>
    exact {
      sound := h.sound.serve h.polite request
      polite := h.polite.serve request
      honest := h.honest
      remembers := fun i kind key object hmem =>
        (h.remembers i kind key object hmem).serve h.sound h.polite request }
  | clock now =>
    exact {
      sound := h.sound.of_objects rfl le_rfl
      polite := h.polite
      honest := h.honest
      remembers := h.remembers }

end World

end EdgeOperator
