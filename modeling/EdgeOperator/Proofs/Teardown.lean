import EdgeOperator.Duty
import EdgeOperator.Proofs.Cluster.Versions

set_option autoImplicit false

/-! # Teardown goes in order

`Removal` lists the exchanges that the removal of one object can have, whoever answers, and `Walk`
those of a whole plan. All that is said about the order of a teardown is read off these lists
(`Walk.orderly`): what is deleted was looked at right before, and whatever comes earlier in the plan
is settled by then. -/

namespace EdgeOperator

/-! ## The exchanges of a removal -/

/-- The exchanges of a deletion, and what it comes to. -/
inductive Deletion (step : TeardownStep) : List Exchange → Except OperatorError Unit → Prop where
  | refused {e : OperatorError} (hfailure : e.failure ≠ .notFound) :
      Deletion step [⟨.delete step.kind step.key, .error e⟩] (.error e)
  | vanished {e : OperatorError} (hfailure : e.failure = .notFound) :
      Deletion step [⟨.delete step.kind step.key, .error e⟩] (.ok ())
  | unconfirmed (e : OperatorError) :
      Deletion step [⟨.delete step.kind step.key, .ok ()⟩, ⟨.get step.kind step.key, .error e⟩]
        (.error e)
  | gone :
      Deletion step [⟨.delete step.kind step.key, .ok ()⟩, ⟨.get step.kind step.key, .ok none⟩]
        (.ok ())
  | pending (current : Resource step.kind) :
      Deletion step
        [⟨.delete step.kind step.key, .ok ()⟩, ⟨.get step.kind step.key, .ok (some current)⟩]
        (.error step.pending)

/-- The exchanges of the removal of one object, and what it comes to. -/
inductive Removal (owner : Owner) (step : TeardownStep) :
    List Exchange → Except OperatorError Unit → Prop where
  | unseen (e : OperatorError) : Removal owner step [⟨.get step.kind step.key, .error e⟩] (.error e)
  | absent : Removal owner step [⟨.get step.kind step.key, .ok none⟩] (.ok ())
  | foreign {current : Resource step.kind} (hcontrols : owner.controls current.metadata = false) :
      Removal owner step [⟨.get step.kind step.key, .ok (some current)⟩] (.ok ())
  | lingering {current : Resource step.kind} (hdeleted : current.metadata.isDeleted = true) :
      Removal owner step [⟨.get step.kind step.key, .ok (some current)⟩] (.error step.pending)
  | deleting {current : Resource step.kind} {rest : List Exchange}
      {result : Except OperatorError Unit} (hcontrols : owner.controls current.metadata = true)
      (hlive : current.metadata.isDeleted = false) (hdeletion : Deletion step rest result) :
      Removal owner step (⟨.get step.kind step.key, .ok (some current)⟩ :: rest) result

/-- The exchanges of a teardown, and what it comes to. -/
inductive Walk (owner : Owner) :
    List TeardownStep → List Exchange → Except OperatorError Unit → Prop where
  | done : Walk owner [] [] (.ok ())
  | failed {step : TeardownStep} {rest : List TeardownStep} {exchanges : List Exchange}
      {e : OperatorError} (hremoval : Removal owner step exchanges (.error e)) :
      Walk owner (step :: rest) exchanges (.error e)
  | next {step : TeardownStep} {rest : List TeardownStep} {first later : List Exchange}
      {result : Except OperatorError Unit} (hremoval : Removal owner step first (.ok ()))
      (hwalk : Walk owner rest later result) :
      Walk owner (step :: rest) (first ++ later) result

variable {owner : Owner} {step : TeardownStep} {plan : List TeardownStep}
  {exchanges : List Exchange} {result : Except OperatorError Unit}

theorem deletion_of_yields (h : step.delete.Yields exchanges result) :
    Deletion step exchanges result := by
  cases h with
  | call answer h =>
    cases answer with
    | error e =>
      replace h : Program.Yields (if e.failure = .notFound then pure () else .fail e) _ result := h
      split at h
      · next hfailure =>
        cases h
        exact .vanished hfailure
      · next hfailure =>
        cases h
        exact .refused hfailure
    | ok _ =>
      replace h : step.awaitGone.Yields _ result := h
      cases h with
      | call answer h =>
        rcases answer with e | _ | current
        · cases h
          exact .unconfirmed e
        · cases h
          exact .gone
        · cases h
          exact .pending current

theorem removal_of_yields (h : (step.remove owner).Yields exchanges result) :
    Removal owner step exchanges result := by
  cases h with
  | call answer h =>
    rcases answer with e | _ | current
    · cases h
      exact .unseen e
    · cases h
      exact .absent
    · replace h : Program.Yields (if !owner.controls current.metadata then pure ()
        else if current.metadata.isDeleted then .fail step.pending else step.delete) _ result := h
      split at h
      · next hcontrols =>
        cases h
        exact .foreign (by simpa using hcontrols)
      · next hcontrols =>
        split at h
        · next hdeleted =>
          cases h
          exact .lingering hdeleted
        · next hlive =>
          exact .deleting (by simpa using hcontrols) (by simpa using hlive) (deletion_of_yields h)

theorem walk_of_yields (h : (teardown owner plan).Yields exchanges result) :
    Walk owner plan exchanges result := by
  induction plan generalizing exchanges with
  | nil =>
    cases h
    exact .done
  | cons step rest ih =>
    rcases Program.yields_bind h with ⟨e, hfirst, rfl⟩ | ⟨_, first, later, rfl, hfirst, hrest⟩
    · exact .failed (removal_of_yields hfirst)
    · exact .next (removal_of_yields hfirst) (ih hrest)

/-! ## What a removal asks for -/

/-- The object that a call deletes. -/
def Request.deletion? : Request → Option TeardownStep
  | .delete kind key => some ⟨kind, key⟩
  | .get _ _ | .list _ _ | .create _ _ | .replace _ _ => none

/-- Whether a call is a look-up of an object, or its deletion. -/
def TeardownStep.Asks (step : TeardownStep) (request : Request) : Prop :=
  request = .get step.kind step.key ∨ request = .delete step.kind step.key

theorem TeardownStep.eq_of_get {step other : TeardownStep}
    (h : Request.get step.kind step.key = .get other.kind other.key) : step = other := by
  obtain ⟨kind, key⟩ := step
  obtain ⟨hkind, hkey⟩ := Request.get.inj h
  exact congr (congrArg TeardownStep.mk hkind) hkey

theorem TeardownStep.Asks.eq_of_delete {step other : TeardownStep}
    (h : step.Asks (.delete other.kind other.key)) : step = other := by
  obtain ⟨kind, key⟩ := step
  rcases h with h | h
  · exact absurd h (by simp)
  · obtain ⟨hkind, hkey⟩ := Request.delete.inj h
    exact congr (congrArg TeardownStep.mk hkind.symm) hkey.symm

theorem Deletion.asks (h : Deletion step exchanges result) :
    ∀ exchange ∈ exchanges, step.Asks exchange.request := by
  cases h <;> simp [TeardownStep.Asks]

theorem Removal.asks (h : Removal owner step exchanges result) :
    ∀ exchange ∈ exchanges, step.Asks exchange.request := by
  cases h with
  | deleting hcontrols hlive hdeletion =>
    exact List.forall_mem_cons.2 ⟨Or.inl rfl, hdeletion.asks⟩
  | _ => exact List.forall_mem_singleton.2 (Or.inl rfl)

theorem Walk.asks (h : Walk owner plan exchanges result) :
    ∀ exchange ∈ exchanges, ∃ step ∈ plan, step.Asks exchange.request := by
  induction h with
  | done => simp
  | failed hremoval =>
    exact fun exchange hmem => ⟨_, List.mem_cons_self .., hremoval.asks exchange hmem⟩
  | next hremoval hwalk ih =>
    intro exchange hmem
    rcases List.mem_append.1 hmem with hmem | hmem
    · exact ⟨_, List.mem_cons_self .., hremoval.asks exchange hmem⟩
    · obtain ⟨step, hstep, hasks⟩ := ih exchange hmem
      exact ⟨step, List.mem_cons_of_mem _ hstep, hasks⟩

/-! ## What is settled -/

/-- Whether the last look-up of an object was answered in a certain way. -/
def LastLookUp (step : TeardownStep) (exchanges : List Exchange)
    (answer : Except OperatorError (Option (Resource step.kind))) : Prop :=
  ∃ earlier later, exchanges = earlier ++ ⟨.get step.kind step.key, answer⟩ :: later ∧
    ∀ exchange ∈ later, exchange.request ≠ .get step.kind step.key

/-- Whether nothing is left to do for a step: at the last look the object was not there or not the
owner's, or its deletion found that it was gone. -/
inductive Settled (owner : Owner) (step : TeardownStep) (exchanges : List Exchange) : Prop where
  | absent (hlast : LastLookUp step exchanges (.ok none))
  | foreign {current : Resource step.kind} (hcontrols : owner.controls current.metadata = false)
      (hlast : LastLookUp step exchanges (.ok (some current)))
  | vanished {e : OperatorError} (hfailure : e.failure = .notFound)
      (hmem : ⟨.delete step.kind step.key, .error e⟩ ∈ exchanges)

theorem LastLookUp.append {answer : Except OperatorError (Option (Resource step.kind))}
    (h : LastLookUp step exchanges answer) (front : List Exchange) {back : List Exchange}
    (hback : ∀ exchange ∈ back, exchange.request ≠ .get step.kind step.key) :
    LastLookUp step (front ++ exchanges ++ back) answer := by
  obtain ⟨earlier, later, rfl, hlater⟩ := h
  refine ⟨front ++ earlier, later ++ back, by simp, fun exchange hmem => ?_⟩
  rcases List.mem_append.1 hmem with hmem | hmem
  · exact hlater exchange hmem
  · exact hback exchange hmem

/-- What is settled stays so while the object is not looked up again. -/
theorem Settled.append (h : Settled owner step exchanges) (front : List Exchange)
    {back : List Exchange}
    (hback : ∀ exchange ∈ back, exchange.request ≠ .get step.kind step.key) :
    Settled owner step (front ++ exchanges ++ back) := by
  cases h with
  | absent hlast => exact .absent (hlast.append front hback)
  | foreign hcontrols hlast => exact .foreign hcontrols (hlast.append front hback)
  | vanished hfailure hmem =>
    exact .vanished hfailure (List.mem_append_left _ (List.mem_append_right _ hmem))

theorem Settled.prepend (h : Settled owner step exchanges) (front : List Exchange) :
    Settled owner step (front ++ exchanges) := by
  have happend := h.append front (List.forall_mem_nil _)
  rwa [List.append_nil] at happend

theorem not_settled_nil : ¬ Settled owner step [] := by
  rintro (⟨_, _, heq, _⟩ | ⟨_, _, _, heq, _⟩ | ⟨_, hmem⟩)
  · simp at heq
  · simp at heq
  · cases hmem

/-- An owner with the same identity controls the same objects. -/
theorem Settled.of_uid_eq {other : Owner} (h : Settled owner step exchanges)
    (huid : other.reference.uid = owner.reference.uid) : Settled other step exchanges := by
  cases h with
  | absent hlast => exact .absent hlast
  | foreign hcontrols hlast =>
    refine .foreign ?_ hlast
    unfold Owner.controls at hcontrols ⊢
    rwa [huid]
  | vanished hfailure hmem => exact .vanished hfailure hmem

theorem LastLookUp.of_concat {exchange : Exchange}
    {answer : Except OperatorError (Option (Resource step.kind))}
    (h : LastLookUp step (exchanges ++ [exchange]) answer) :
    LastLookUp step exchanges answer ∨ exchange = ⟨.get step.kind step.key, answer⟩ := by
  obtain ⟨earlier, later, heq, hlater⟩ := h
  rcases List.eq_nil_or_concat later with rfl | ⟨front, last, rfl⟩
  · exact Or.inr (List.singleton_inj.1 (List.append_inj' heq rfl).2)
  · refine Or.inl ⟨earlier, front, ?_, fun other hmem => hlater other (by simp [hmem])⟩
    rw [List.concat_eq_append, ← List.cons_append, ← List.append_assoc] at heq
    exact (List.append_inj' heq rfl).1

/-- A step comes to be settled by an exchange that found the object missing or another's. -/
theorem Settled.of_concat {exchange : Exchange} (h : Settled owner step (exchanges ++ [exchange])) :
    Settled owner step exchanges ∨
      exchange = ⟨.get step.kind step.key, .ok none⟩ ∨
      (∃ current : Resource step.kind, owner.controls current.metadata = false ∧
        exchange = ⟨.get step.kind step.key, .ok (some current)⟩) ∨
      ∃ e : OperatorError, e.failure = .notFound ∧
        exchange = ⟨.delete step.kind step.key, .error e⟩ := by
  cases h with
  | absent hlast => exact hlast.of_concat.imp .absent Or.inl
  | foreign hcontrols hlast =>
    exact hlast.of_concat.imp (.foreign hcontrols) fun heq => Or.inr (Or.inl ⟨_, hcontrols, heq⟩)
  | vanished hfailure hmem =>
    rcases List.mem_append.1 hmem with hmem | hmem
    · exact Or.inl (.vanished hfailure hmem)
    · exact Or.inr (Or.inr (Or.inr ⟨_, hfailure, (List.mem_singleton.1 hmem).symm⟩))

/-- A removal that goes well settles its step. -/
theorem Removal.settled (h : Removal owner step exchanges (.ok ())) :
    Settled owner step exchanges := by
  cases h with
  | absent => exact .absent ⟨[], [], rfl, by simp⟩
  | foreign hcontrols => exact .foreign hcontrols ⟨[], [], rfl, by simp⟩
  | @deleting current _ _ hcontrols hlive hdeletion =>
    cases hdeletion with
    | vanished hfailure => exact .vanished hfailure (by simp)
    | gone =>
      refine .absent ⟨[⟨.get step.kind step.key, .ok (some current)⟩,
        ⟨.delete step.kind step.key, .ok ()⟩], [], rfl, by simp⟩

/-- A step of the rest of a plan does not ask for one that came before. -/
theorem Walk.ne_get (h : Walk owner plan exchanges result) (hstep : step ∉ plan) :
    ∀ exchange ∈ exchanges, exchange.request ≠ .get step.kind step.key := by
  intro exchange hmem heq
  obtain ⟨other, hother, hget | hdelete⟩ := h.asks exchange hmem
  · exact hstep (TeardownStep.eq_of_get (heq.symm.trans hget) ▸ hother)
  · exact absurd (heq.symm.trans hdelete) (by simp)

/-- A teardown that goes well settles every step. -/
theorem Walk.settled (h : Walk owner plan exchanges (.ok ())) (hplan : plan.Nodup) :
    ∀ step ∈ plan, Settled owner step exchanges := by
  generalize hresult : (.ok () : Except OperatorError Unit) = result at h
  induction h with
  | done => simp
  | failed hremoval => simp at hresult
  | @next step rest first later result hremoval hwalk ih =>
    obtain ⟨hstep, hrest⟩ := List.nodup_cons.1 hplan
    refine List.forall_mem_cons.2 ⟨?_, fun other hother => ?_⟩
    · exact hremoval.settled.append [] (hwalk.ne_get hstep)
    · exact (ih hrest hresult other hother).prepend first

/-! ## The order of a teardown -/

/-- Whether exchanges delete along a plan: in its order, each object once and right after a look at
it, and only when all that comes before in the plan is settled. -/
structure Orderly (owner : Owner) (plan : List TeardownStep) (exchanges : List Exchange) : Prop where
  deletions : (exchanges.filterMap fun exchange => exchange.request.deletion?).Sublist plan
  looks_first : ∀ {earlier later : List Exchange} {kind : Kind} {key : ObjectKey} {answer},
    exchanges = earlier ++ ⟨.delete kind key, answer⟩ :: later →
      ∃ current : Resource kind, earlier.getLast? = some ⟨.get kind key, .ok (some current)⟩ ∧
        owner.controls current.metadata = true ∧ current.metadata.isDeleted = false
  settles_earlier : ∀ {front back : List TeardownStep} {step : TeardownStep}
    {earlier later : List Exchange} {answer}, plan = front ++ step :: back →
      exchanges = earlier ++ ⟨.delete step.kind step.key, answer⟩ :: later →
        ∀ other ∈ front, Settled owner other earlier

theorem Removal.deletions (h : Removal owner step exchanges result) :
    (exchanges.filterMap fun exchange => exchange.request.deletion?).Sublist [step] := by
  cases h with
  | deleting hcontrols hlive hdeletion =>
    cases hdeletion <;> simp [Request.deletion?]
  | _ => simp [Request.deletion?]

theorem Removal.looks_first (h : Removal owner step exchanges result)
    {earlier later : List Exchange} {kind : Kind} {key : ObjectKey} {answer}
    (heq : exchanges = earlier ++ ⟨.delete kind key, answer⟩ :: later) :
    ∃ current : Resource kind, earlier.getLast? = some ⟨.get kind key, .ok (some current)⟩ ∧
      owner.controls current.metadata = true ∧ current.metadata.isDeleted = false := by
  cases h with
  | @deleting current _ _ hcontrols hlive hdeletion =>
    -- the one deletion stands right behind the look-up
    have hearlier : earlier = [⟨.get step.kind step.key, .ok (some current)⟩] ∧
        step.kind = kind ∧ step.key = key := by
      rcases earlier with _ | ⟨first, _ | ⟨second, _ | ⟨third, rest⟩⟩⟩ <;>
        cases hdeletion <;> simp_all
    obtain ⟨rfl, rfl, rfl⟩ := hearlier
    exact ⟨current, rfl, hcontrols, hlive⟩
  | _ => rcases earlier with _ | ⟨first, _ | _⟩ <;> simp at heq

/-- What a removal deletes has nothing before it in the plan. -/
theorem Removal.front_eq_nil (h : Removal owner step exchanges result) {rest : List TeardownStep}
    (hplan : (step :: rest).Nodup) {front back : List TeardownStep} {deleted : TeardownStep}
    (hfront : step :: rest = front ++ deleted :: back) {answer}
    (hmem : ⟨.delete deleted.kind deleted.key, answer⟩ ∈ exchanges) : front = [] := by
  obtain rfl : step = deleted := (h.asks _ hmem).eq_of_delete
  cases front with
  | nil => rfl
  | cons head tail =>
    obtain ⟨rfl, hrest⟩ := List.cons.inj hfront
    exact absurd (hrest ▸ by simp) (List.nodup_cons.1 hplan).1

/-- An element of a list in two parts stands in the one or the other. -/
theorem append_eq_append_cons {α : Type} {first second earlier later : List α} {x : α}
    (h : first ++ second = earlier ++ x :: later) :
    (∃ middle, first = earlier ++ x :: middle) ∨
      ∃ middle, earlier = first ++ middle ∧ second = middle ++ x :: later := by
  rcases List.append_eq_append_iff.1 h with ⟨middle, hearlier, hsecond⟩ | ⟨middle, hfirst, hx⟩
  · exact Or.inr ⟨middle, hearlier, hsecond⟩
  · cases middle with
    | nil => exact Or.inr ⟨[], by simpa using hfirst.symm, hx.symm⟩
    | cons head middle =>
      obtain ⟨rfl, _⟩ := List.cons.inj hx
      exact Or.inl ⟨middle, hfirst⟩

/-- What a teardown deletes was looked at right before. -/
theorem Walk.looks_first (h : Walk owner plan exchanges result)
    {earlier later : List Exchange} {kind : Kind} {key : ObjectKey} {answer}
    (heq : exchanges = earlier ++ ⟨.delete kind key, answer⟩ :: later) :
    ∃ current : Resource kind, earlier.getLast? = some ⟨.get kind key, .ok (some current)⟩ ∧
      owner.controls current.metadata = true ∧ current.metadata.isDeleted = false := by
  induction h generalizing earlier with
  | done => simp at heq
  | failed hremoval => exact hremoval.looks_first heq
  | next hremoval hwalk ih =>
    rcases append_eq_append_cons heq with ⟨middle, hfirst⟩ | ⟨middle, rfl, hlater⟩
    · exact hremoval.looks_first hfirst
    · obtain ⟨current, hlast, hcurrent⟩ := ih hlater
      refine ⟨current, ?_, hcurrent⟩
      rw [List.getLast?_append, hlast, Option.some_or]

theorem Walk.orderly (h : Walk owner plan exchanges result) (hplan : plan.Nodup) :
    Orderly owner plan exchanges := by
  induction h with
  | done => exact ⟨List.Sublist.refl _, by simp, by simp⟩
  | @failed step rest exchanges e hremoval =>
    refine ⟨?_, hremoval.looks_first, fun hfront heq other hother => ?_⟩
    · exact hremoval.deletions.trans (List.singleton_sublist.2 (List.mem_cons_self ..))
    · rw [hremoval.front_eq_nil hplan hfront (heq ▸ List.mem_append_right _
        (List.mem_cons_self ..))] at hother
      simp at hother
  | @next step rest first later result hremoval hwalk ih =>
    obtain ⟨hstep, hrest⟩ := List.nodup_cons.1 hplan
    have ih := ih hrest
    refine ⟨?_, fun heq => ?_, fun {front _ deleted _ _ _} hfront heq other hother => ?_⟩
    · rw [List.filterMap_append]
      exact hremoval.deletions.append ih.deletions
    · exact (Walk.next hremoval hwalk).looks_first heq
    · rcases append_eq_append_cons heq with ⟨middle, hfirst⟩ | ⟨middle, rfl, hlater⟩
      · rw [hremoval.front_eq_nil hplan hfront (hfirst ▸ List.mem_append_right _
          (List.mem_cons_self ..))] at hother
        simp at hother
      · -- the deletion belongs to the rest of the plan, so the first step is behind
        have hdeleted : deleted ∈ rest := by
          obtain ⟨asked, hasked, hasks⟩ := hwalk.asks _ (hlater ▸ List.mem_append_right _
            (List.mem_cons_self ..))
          exact hasks.eq_of_delete ▸ hasked
        cases front with
        | nil => exact absurd ((List.cons.inj hfront).1 ▸ hdeleted) hstep
        | cons head tail =>
          obtain ⟨rfl, htail⟩ := List.cons.inj hfront
          rcases List.mem_cons.1 hother with rfl | hother
          · refine hremoval.settled.append [] fun exchange hmem => ?_
            exact hwalk.ne_get hstep exchange (hlater ▸ List.mem_append_left _ hmem)
          · exact (ih.settles_earlier htail hlater other hother).prepend first

/-- Calls that delete nothing disturb no order. -/
theorem Orderly.append (h : Orderly owner plan exchanges) {front back : List Exchange}
    (hfront : ∀ exchange ∈ front, exchange.request.deletion? = none)
    (hback : ∀ exchange ∈ back, exchange.request.deletion? = none) :
    Orderly owner plan (front ++ exchanges ++ back) := by
  have hsplit : ∀ {earlier later kind key answer},
      front ++ exchanges ++ back = earlier ++ ⟨.delete kind key, answer⟩ :: later →
      ∃ middle rest, earlier = front ++ middle ∧
        exchanges = middle ++ ⟨.delete kind key, answer⟩ :: rest := by
    intro earlier later kind key answer heq
    rcases append_eq_append_cons heq with ⟨rest, hleft⟩ | ⟨rest, _, hright⟩
    · rcases append_eq_append_cons hleft with ⟨_, hfirst⟩ | ⟨middle, hearlier, hmiddle⟩
      · have hnone := hfront ⟨.delete kind key, answer⟩ (by simp [hfirst])
        simp [Request.deletion?] at hnone
      · exact ⟨middle, rest, hearlier, hmiddle⟩
    · have hnone := hback ⟨.delete kind key, answer⟩ (by simp [hright])
      simp [Request.deletion?] at hnone
  refine ⟨?_, fun heq => ?_, fun hplan heq other hother => ?_⟩
  · rw [List.filterMap_append, List.filterMap_append, List.filterMap_eq_nil_iff.2 hfront,
      List.filterMap_eq_nil_iff.2 hback, List.nil_append, List.append_nil]
    exact h.deletions
  · obtain ⟨middle, rest, rfl, hmiddle⟩ := hsplit heq
    obtain ⟨current, hlast, hcurrent⟩ := h.looks_first hmiddle
    refine ⟨current, ?_, hcurrent⟩
    rw [List.getLast?_append, hlast, Option.some_or]
  · obtain ⟨middle, rest, rfl, hmiddle⟩ := hsplit heq
    exact (h.settles_earlier hplan hmiddle other hother).prepend front

end EdgeOperator
