import EdgeOperator.Proofs.Installation
import EdgeOperator.Proofs.Recovery

set_option autoImplicit false

/-! # Passes that install

A pass on a resource that lives comes to nothing, because it does not get to see the resource or to
mark it (`Duty.ComesToNothing`), or it goes on to install from a cluster in which only the mark is
new (`Duty.Claims`). So what can be said about a whole pass follows from what can be said about its
installation, by one rule (`Duty.unfolds_pass`). -/

namespace EdgeOperator

open Program Cluster

namespace Duty

variable {kind : Kind} {duty : Duty kind} {object current : Resource kind} {place : String}
  {key : ObjectKey} {script : Nat → Arrangement} {first middle now after : Cluster}

/-! ## How a pass begins -/

/-- Whether a resource is another one as an installation finds it: it carries the mark, which may
have been put on it just now. -/
inductive IsClaimOf (duty : Duty kind) (object : Resource kind) : Resource kind → Prop where
  | marked (hstage : object.metadata.lifeStage duty.mark = .marked) : IsClaimOf duty object object
  | registered (hstage : object.metadata.lifeStage duty.mark = .unmarked) (version : String) :
      IsClaimOf duty object ((duty.marked object).withVersion version)

theorem IsClaimOf.lifeStage (h : duty.IsClaimOf object current) :
    current.metadata.lifeStage duty.mark = .marked := by
  cases h with
  | marked hstage => exact hstage
  | registered hstage version =>
    have hlive := (Metadata.lifeStage_eq_unmarked.1 hstage).1
    have hmark : duty.mark ∈ object.metadata.finalizers ++ [duty.mark] :=
      List.mem_append_right _ (List.mem_singleton_self _)
    exact Metadata.lifeStage_eq_marked.2 ⟨hlive, hmark⟩

theorem IsClaimOf.ofResource_eq (h : duty.IsClaimOf object current) :
    Owner.ofResource current = Owner.ofResource object := by
  cases h <;> rfl

theorem IsClaimOf.content_eq (h : duty.IsClaimOf object current) :
    current.content = object.content := by
  cases h <;> rfl

/-- Whether a cluster is as another one with a resource claimed. -/
structure Claims (duty : Duty kind) (object : Resource kind) (place : String)
    (first middle : Cluster) : Prop where
  others : ∀ path, path ≠ place → middle.objects.get? path = first.objects.get? path
  leaves : ∀ other, other ≠ kind → Leaves other first middle
  claimed : ∃ current, middle.find? kind place = some current ∧ duty.IsClaimOf object current

theorem claims_of_marked (hstage : object.metadata.lifeStage duty.mark = .marked)
    (hfind : now.find? kind place = some object) (hnow : now.objects = first.objects) :
    duty.Claims object place first now where
  others path _ := by rw [hnow]
  leaves other _ := leaves_of_objects hnow other
  claimed := ⟨object, hfind, .marked hstage⟩

theorem claims_of_registered (hstage : object.metadata.lifeStage duty.mark = .unmarked)
    (hfind : now.find? kind place = some object) (hnow : now.objects = first.objects)
    {version : String} (hmiddle : middle.objects =
      now.objects.set place ⟨kind, (duty.marked object).withVersion version⟩) :
    duty.Claims object place first middle where
  others path hne := by rw [hmiddle, StringMap.get?_set, if_neg hne.symm, hnow]
  leaves other hother := (leaves_of_objects hnow other).trans
    (leaves_of_set hother.symm (find?_none_of_kind_ne hfind hother.symm) hmiddle)
  claimed := ⟨_, (find?_of_set hmiddle ..).2 (Or.inl ⟨rfl, rfl⟩), .registered hstage version⟩

/-- Whether a pass has ended before it came to install anything. -/
structure ComesToNothing (object : Resource kind) (place : String) (first : Cluster)
    (exchanges : List Exchange) (result : Except OperatorError PassOutcome)
    (after : Cluster) : Prop where
  made_eq : made exchanges = []
  writes_sublist : (writes exchanges).Sublist [kind]
  others : ∀ path, path ≠ place → after.objects.get? path = first.objects.get? path
  left_alone : IsLeftAlone first after place object
  result_cases : result = .ok .removed ∨ ∃ code reason, result = .error (refused code reason)

theorem ComesToNothing.ne_reconciled {exchanges : List Exchange}
    {result : Except OperatorError PassOutcome}
    (h : ComesToNothing object place first exchanges result after) : result ≠ .ok .reconciled := by
  rcases h.result_cases with rfl | ⟨code, reason, rfl⟩ <;> simp

theorem registered_wholeSeconds (h : object.wholeSeconds = object) (version : String) :
    ((duty.marked object).withVersion version).wholeSeconds =
      (duty.marked object).withVersion version :=
  congrArg (Resource.withVersion · version) (marked_wholeSeconds h)

/-- A registration fails and leaves the resource alone, or puts the mark on it. -/
theorem register_unfolds (script : Nat → Arrangement) (h : now.Reachable)
    (hfind : now.find? kind place = some object)
    (hstage : object.metadata.lifeStage duty.mark = .unmarked) :
    (register object duty.mark).Unfolds (serveAmid script) now fun exchanges result after =>
      made exchanges = [] ∧ (writes exchanges).Sublist [kind] ∧
        match result with
        | .error e => (∃ code reason, e = refused code reason) ∧
          IsLeftAlone now after place object ∧
          ∀ path, path ≠ place → after.objects.get? path = now.objects.get? path
        | .ok stored => ∃ version, stored = (duty.marked object).withVersion version ∧
          after.objects = now.objects.set place ⟨kind, stored⟩ := by
  have hkept := h.sound.kept (find?_eq_some.1 hfind)
  have hpath : (duty.marked object).path = place := hkept.path_eq
  have hlive : (duty.marked object).metadata.isDeleted = false :=
    (Metadata.lifeStage_eq_unmarked.1 hstage).1
  have hregister : register object duty.mark = perform (.replace kind (duty.marked object)) := rfl
  rw [hregister]
  refine unfolds_perform.2 ⟨rfl, List.Sublist.refl _, ?_⟩
  have hread : now.find? kind (duty.marked object).path = some object := hpath ▸ hfind
  rcases serveAmid_rewrite script h hread rfl ⟨rfl, rfl, rfl⟩ with
    ⟨e, after, hserve, hafter⟩ | ⟨version, after, hserve, hafter⟩
  · have hrefused := refused_of_serveAmid (congrArg Prod.fst hserve)
    rw [hserve]
    rw [hpath] at hafter
    rcases hafter with hobjects | ⟨edit, rest, version, hedits, hobjects⟩
    · refine ⟨hrefused, Or.inl ?_, fun path _ => by rw [hobjects]⟩
      exact (find?_congr (congrArg (StringMap.get? · place) hobjects)).trans hfind
    · refine ⟨hrefused, Or.inr ⟨edit, rest, version, hedits, ?_⟩, fun path hne => ?_⟩
      · exact (find?_of_set hobjects ..).2 (Or.inl ⟨rfl, rfl⟩)
      · rw [hobjects]
        exact (StringMap.get?_set ..).trans (if_neg hne.symm)
  · rw [hserve]
    rw [hlive, Bool.false_and, if_neg Bool.false_ne_true, hpath,
      registered_wholeSeconds hkept.whole] at hafter
    exact ⟨version, rfl, hafter⟩

/-- A pass on a resource that lives comes to nothing, or it goes on to install; what all calls keep
is kept by then. -/
theorem unfolds_pass {keeps : Cluster → Prop}
    (hkeeps : ∀ request now, keeps now → keeps (serveAmid script request now).2)
    (hreachable : ∀ now, keeps now → now.Reachable) (h : keeps first)
    (hfind : first.find? kind (key.path kind) = some object)
    (hlive : object.metadata.isDeleted = false)
    {post : List Exchange → Except OperatorError PassOutcome → Cluster → Prop}
    (hnothing : ∀ exchanges result after,
      ComesToNothing object (key.path kind) first exchanges result after →
        post exchanges result after)
    (hsettle : ∀ exchanges middle stored, made exchanges = [] →
      (writes exchanges).Sublist [kind] → keeps middle →
      duty.Claims object (key.path kind) first middle →
      Owner.ofResource stored = Owner.ofResource object →
        (duty.settle stored object).Unfolds (serveAmid script) middle fun later =>
          post (exchanges ++ later)) :
    (duty.pass key).Unfolds (serveAmid script) first post := by
  obtain ⟨hobjects, hget⟩ := serveAmid_get script kind key first
  have hlooked := hkeeps (.get kind key) first h
  have hleaves := leaves_of_objects hobjects
  have hfound := ((hleaves kind).find?_eq (key.path kind)).trans hfind
  have hstill : ∀ result, (result = .ok .removed ∨
      ∃ code reason, result = .error (refused code reason)) →
      post [⟨.get kind key, (serveAmid script (.get kind key) first).1⟩] result
        (serveAmid script (.get kind key) first).2 :=
    fun result hresult =>
      hnothing _ _ _ ⟨rfl, List.nil_sublist _, fun path _ => by rw [hobjects], Or.inl hfound, hresult⟩
  rw [pass_eq]
  refine unfolds_bind.2 (unfolds_perform.2 ?_)
  rcases hanswer : (serveAmid script (.get kind key) first).1 with e | _ | found <;>
    rw [hanswer] at hstill
  · obtain ⟨code, reason, rfl⟩ := refused_of_serveAmid hanswer
    exact hstill _ (Or.inr ⟨code, reason, rfl⟩)
  · exact unfolds_pure.2 (hstill _ (Or.inl rfl))
  · obtain rfl : object = found := Option.some.inj (hfind.symm.trans (hget found hanswer))
    by_cases hmark : duty.mark ∈ object.metadata.finalizers
    · have hstage := Metadata.lifeStage_eq_marked.2 ⟨hlive, hmark⟩
      simp only [serveFound, hstage]
      exact hsettle _ _ object rfl (List.nil_sublist _) hlooked
        (claims_of_marked hstage hfound hobjects) rfl
    · have hstage := Metadata.lifeStage_eq_unmarked.2 ⟨hlive, hmark⟩
      have hregister := register_unfolds script (hreachable _ hlooked) hfound hstage
      simp only [serveFound, hstage]
      refine (hregister.keeping hkeeps hlooked).bind ?_ ?_
      · rintro exchanges stored middle ⟨⟨hmade, hwrites, version, rfl, hmiddle⟩, hkept⟩
        have hclaims : duty.Claims object (key.path kind) first middle :=
          claims_of_registered hstage hfound hobjects hmiddle
        have hstored : Owner.ofResource ((duty.marked object).withVersion version) =
          Owner.ofResource object := rfl
        have hpost := hsettle (⟨.get kind key, .ok (some object)⟩ :: exchanges) middle _ hmade
          hwrites hkept hclaims hstored
        exact hpost
      · rintro exchanges e after ⟨⟨hmade, hwrites, hrefused, halone, hothers⟩, _⟩
        obtain ⟨code, reason, rfl⟩ := hrefused
        refine hnothing _ _ _
          ⟨hmade, hwrites, fun path hne => ?_, ?_, Or.inr ⟨code, reason, rfl⟩⟩
        · rw [hothers path hne, hobjects]
        · unfold IsLeftAlone at halone ⊢
          rwa [edits_serveAmid_get] at halone

/-! ## From a claim on -/

theorem IsOperators.kind_ne_plain (h : duty.IsOperators) (plain : PlainKind) :
    kind ≠ .plain plain := by
  cases h <;> exact Kind.noConfusion

/-- When the resource is claimed, no chore is done yet. -/
theorem Claims.furnished (h : duty.Claims object place first middle) (hduty : duty.IsOperators)
    {exchanges : List Exchange} (hmade : made exchanges = []) :
    ∃ current, duty.IsClaimOf object current ∧
      Furnished place ⟨kind, current⟩ first [] exchanges middle := by
  obtain ⟨current, hfind, hclaim⟩ := h.claimed
  refine ⟨current, hclaim, hduty.kind_ne_plain, find?_eq_some.1 hfind, hmade, ?_, ?_, by simp, ?_⟩
  · exact fun hne hget => (h.others _ hne).trans hget
  · intro path stored hne hnone hget
    rw [h.others path hne, hnone] at hget
    cases hget
  · exact fun other hother _ => h.leaves other hother

/-- What is settled for an owner is what its installation comes to. -/
theorem settle_unfolds {server : Cluster.Server} {stored read : Resource kind} {owner : Owner}
    (howner : Owner.ofResource stored = .ok owner)
    {post : List Exchange → Except OperatorError PassOutcome → Cluster → Prop}
    (h : (duty.install owner read).Unfolds server now fun exchanges result after =>
      post exchanges (result.map fun _ => .reconciled) after) :
    (duty.settle stored read).Unfolds server now post := by
  unfold settle
  rw [howner]
  refine h.bind (fun exchanges _ after hafter => unfolds_pure.2 ?_) fun _ _ _ hafter => hafter
  rw [List.append_nil]
  exact hafter

/-- A resource without an identity gets nothing but the mark. -/
theorem unfolds_pass_of_no_owner (hreachable : first.Reachable)
    (script : Nat → Arrangement) (hfind : first.find? kind (key.path kind) = some object)
    (hlive : object.metadata.isDeleted = false) {e : OperatorError}
    (howner : Owner.ofResource object = .error e) :
    (duty.pass key).Unfolds (serveAmid script) first fun exchanges result after =>
      (ComesToNothing object (key.path kind) first exchanges result after ∨
        ∃ current, after.find? kind (key.path kind) = some current ∧
          duty.IsClaimOf object current) ∧
      made exchanges = [] ∧ result ≠ .ok .reconciled ∧
        ∀ path, path ≠ key.path kind → after.objects.get? path = first.objects.get? path := by
  refine unfolds_pass (fun request _ h => h.serveAmid request) (fun _ h => h) hreachable hfind hlive
    (fun exchanges result after hnothing =>
      ⟨Or.inl hnothing, hnothing.made_eq, hnothing.ne_reconciled, hnothing.others⟩) ?_
  intro exchanges middle stored hmade _ _ hclaims hstored
  have hfail : duty.settle stored object = Program.fail e := by
    unfold settle
    rw [hstored, howner]
  rw [hfail]
  refine unfolds_fail.2 ⟨Or.inr hclaims.claimed, ?_, by simp, hclaims.others⟩
  rw [List.append_nil, hmade]

end Duty

end EdgeOperator
