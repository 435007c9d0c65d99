import EdgeOperator.Proofs.Cluster.Quiet
import EdgeOperator.Proofs.Installation.Pass

set_option autoImplicit false

/-! # Passes on quiet clusters

On a quiet cluster nothing keeps a pass from what it is there for. For a resource that lives it gets
to install (`Duty.unfolds_pass_of_live`), and what it has in place was there or is created by the one
call that asks for it (`Cluster.ensure_of_quiet`). For a resource that was deleted it gets to take the
mark off once the teardown is done (`Duty.unfolds_pass_of_deleted`). -/

namespace EdgeOperator

open Program Cluster

variable {kind : Kind} {clock : Nat → Timestamp}

/-! ## What calls create and delete -/

/-- The object as a plan names it. -/
def AnyResource.step (object : AnyResource) : TeardownStep :=
  ⟨object.kind, object.resource.key⟩

/-- The object that a call creates. -/
def Request.creation? : Request → Option TeardownStep
  | .create kind object => some (AnyResource.step ⟨kind, object⟩)
  | .get _ _ | .list _ _ | .replace _ _ | .delete _ _ => none

/-- The objects that exchanges have set out to create, call by call. -/
def creations (exchanges : List Exchange) : List TeardownStep :=
  exchanges.filterMap fun exchange => exchange.request.creation?

@[simp] theorem creations_append (first later : List Exchange) :
    creations (first ++ later) = creations first ++ creations later :=
  List.filterMap_append ..

/-- The objects that exchanges have set out to delete, call by call. -/
def deletions (exchanges : List Exchange) : List TeardownStep :=
  exchanges.filterMap fun exchange => exchange.request.deletion?

@[simp] theorem deletions_append (first later : List Exchange) :
    deletions (first ++ later) = deletions first ++ deletions later :=
  List.filterMap_append ..

/-- On a quiet cluster an object is there, or it is created at once, unless an object of another
kind is in its place. -/
theorem Cluster.ensure_of_quiet {cluster : Cluster} (h : cluster.IsQuiet) (clock : Nat → Timestamp)
    (planned : Resource kind) :
    (EdgeOperator.ensure planned.key planned).Unfolds (serveAt clock) cluster
      fun exchanges result _ =>
        ((∀ stored, cluster.objects.get? planned.path = some stored → stored.kind = kind) →
          ∃ ensured, result = .ok ensured) ∧
        ∀ ensured, result = .ok ensured →
          creations exchanges = (made exchanges).map AnyResource.step := by
  obtain ⟨looked, hget, hlooked, hobjects⟩ := h.serve_get clock kind planned.key
  refine unfolds_bind.2 (unfolds_perform.2 ?_)
  rw [hget]
  cases hfind : cluster.find? kind (planned.key.path kind) with
  | some object => exact unfolds_pure.2 ⟨fun _ => ⟨_, rfl⟩, fun _ _ => rfl⟩
  | none =>
    refine unfolds_bind.2 (unfolds_attempt.2 ?_)
    have hsame := congrArg (StringMap.get? · planned.path) hobjects
    cases hplace : cluster.objects.get? planned.path with
    | none =>
      obtain ⟨asked, after, _, hcreate, _⟩ := hlooked.serve_create clock (hsame.trans hplace)
      rw [hcreate]
      exact unfolds_pure.2 ⟨fun _ => ⟨_, rfl⟩, fun _ _ => rfl⟩
    | some stored =>
      -- the creation is refused, and another look finds nothing of the kind
      obtain ⟨after, hcreate, hafter, hsame⟩ :=
        hlooked.serve_create_of_present clock (hsame.trans hplace)
      obtain ⟨again, hget, _⟩ := hafter.serve_get clock kind planned.key
      have hstill : after.find? kind (planned.key.path kind) = none :=
        ((leaves_of_objects (hsame.trans hobjects) kind).find?_eq _).trans hfind
      rw [hcreate]
      refine unfolds_bind.2 (unfolds_perform.2 ?_)
      rw [hget, hstill]
      refine unfolds_fail.2 ⟨fun hkind => ?_, by simp⟩
      obtain ⟨other, object⟩ := stored
      obtain rfl : other = kind := hkind _ rfl
      exact absurd (hfind.symm.trans (find?_eq_some.2 hplace)) (by simp)

namespace Duty

variable {duty : Duty kind} {object : Resource kind} {key : ObjectKey} {first : Cluster}

/-! ## Resources that live -/

/-- A pass for a resource that lives goes on to install. -/
theorem unfolds_pass_of_live (h : first.IsQuiet)
    (hfind : first.find? kind (key.path kind) = some object)
    (hlive : object.metadata.isDeleted = false)
    {post : List Exchange → Except OperatorError PassOutcome → Cluster → Prop}
    (hsettle : ∀ exchanges middle stored, made exchanges = [] → creations exchanges = [] →
      middle.IsQuiet → duty.Claims object (key.path kind) first middle →
      Owner.ofResource stored = Owner.ofResource object →
        (duty.settle stored object).Unfolds (serveAt clock) middle fun later =>
          post (exchanges ++ later)) :
    (duty.pass key).Unfolds (serveAt clock) first post := by
  obtain ⟨looked, hget, hlooked, hobjects⟩ := h.serve_get clock kind key
  have hfound := ((leaves_of_objects hobjects kind).find?_eq (key.path kind)).trans hfind
  rw [pass_eq]
  refine unfolds_bind.2 (unfolds_perform.2 ?_)
  rw [hget, hfind]
  by_cases hmark : duty.mark ∈ object.metadata.finalizers
  · have hstage := Metadata.lifeStage_eq_marked.2 ⟨hlive, hmark⟩
    simp only [serveFound, hstage]
    exact hsettle _ _ object rfl rfl hlooked (claims_of_marked hstage hfound hobjects) rfl
  · have hstage := Metadata.lifeStage_eq_unmarked.2 ⟨hlive, hmark⟩
    have hkept := h.reachable.sound.kept (find?_eq_some.1 hfind)
    have hpath : (duty.marked object).path = key.path kind := hkept.path_eq
    have hread : looked.find? kind (duty.marked object).path = some object := hpath ▸ hfound
    obtain ⟨version, middle, hreplace, hmiddle, hset⟩ :=
      hlooked.serve_replace clock hread rfl ⟨rfl, rfl, rfl⟩
    have hmarkedLive : (duty.marked object).metadata.isDeleted = false := hlive
    rw [hmarkedLive, Bool.false_and, if_neg Bool.false_ne_true, hpath,
      registered_wholeSeconds hkept.whole] at hset
    simp only [serveFound, hstage]
    refine unfolds_bind.2 ?_
    have hregister : register object duty.mark =
      perform (.replace kind (duty.marked object)) := rfl
    rw [hregister]
    refine unfolds_perform.2 ?_
    rw [hreplace]
    exact hsettle [⟨.get kind key, .ok (some object)⟩, ⟨.replace kind (duty.marked object), .ok _⟩]
      middle _ rfl rfl hmiddle (claims_of_registered hstage hfound hobjects hset) rfl

/-! ## Resources that were deleted -/

/-- Whether objects are as before but for a resource that was let go: it is gone, or only its mark
is. -/
def LetsGo (duty : Duty kind) (object : Resource kind) (place : String) (before after : Cluster) :
    Prop :=
  ∃ version, after.objects =
    if (duty.unmarked object).metadata.finalizers.isEmpty then before.objects.erase place
    else before.objects.set place ⟨kind, (duty.unmarked object).withVersion version⟩

theorem release_of_quiet {now : Cluster} (h : now.IsQuiet)
    (hfind : now.find? kind (key.path kind) = some object)
    (hdeleted : object.metadata.isDeleted = true) :
    (release object duty.mark).Unfolds (serveAt clock) now fun exchanges result after =>
      deletions exchanges = [] ∧ (∃ stored, result = .ok stored) ∧ after.IsQuiet ∧
        duty.LetsGo object (key.path kind) now after := by
  have hkept := h.reachable.sound.kept (find?_eq_some.1 hfind)
  have hpath : (duty.unmarked object).path = key.path kind := hkept.path_eq
  have hread : now.find? kind (duty.unmarked object).path = some object := hpath ▸ hfind
  obtain ⟨version, after, hreplace, hafter, hobjects⟩ :=
    h.serve_replace clock hread rfl ⟨rfl, rfl, rfl⟩
  have hwhole : ((duty.unmarked object).withVersion version).wholeSeconds =
      (duty.unmarked object).withVersion version :=
    congrArg (fun r => (duty.unmarked r).withVersion version) hkept.whole
  have hstill : (duty.unmarked object).metadata.isDeleted = true := hdeleted
  rw [hstill, Bool.true_and, hpath, hwhole] at hobjects
  have hrelease : release object duty.mark = perform (.replace kind (duty.unmarked object)) := rfl
  rw [hrelease]
  refine unfolds_perform.2 ?_
  rw [hreplace]
  exact ⟨rfl, ⟨_, rfl⟩, hafter, version, hobjects⟩

/-- A teardown leaves the resource as it is. -/
theorem teardown_keeps (hduty : duty.IsOperators) {now : Cluster} (h : now.IsQuiet) {place : String}
    (hfind : now.find? kind place = some object) (owner : Owner) :
    (teardown owner (duty.teardownPlan owner)).Unfolds (serveAt clock) now fun _ _ after =>
      after.IsQuiet ∧ after.find? kind place = some object := by
  refine (teardown_onlyAsks owner (duty.teardownPlan owner)).run_keeps
    (fun after : Cluster => after.IsQuiet ∧ after.find? kind place = some object) ?_ ⟨h, hfind⟩
  rintro request after ⟨step, hstep, hasks⟩ ⟨hquiet, hafter⟩
  exact ⟨hquiet.serveAt clock request, find?_eq_some.2
    (get?_serve_of_asks hasks (hduty.kind_ne owner step hstep) (find?_eq_some.1 hafter))⟩

/-- A pass for a resource that was deleted fails in the teardown, or it lets the resource go. -/
theorem unfolds_pass_of_deleted (hduty : duty.IsOperators) (h : first.IsQuiet)
    (hfind : first.find? kind (key.path kind) = some object)
    (hstage : object.metadata.lifeStage duty.mark = .tearingDown) {owner : Owner}
    (howner : Owner.ofResource object = .ok owner)
    {middle : List Exchange → Except OperatorError Unit → Cluster → Prop}
    {post : List Exchange → Except OperatorError PassOutcome → Cluster → Prop}
    (hteardown : ∀ looked : Cluster, looked.IsQuiet → looked.objects = first.objects →
      (teardown owner (duty.teardownPlan owner)).Unfolds (serveAt clock) looked middle)
    (herror : ∀ removing exchanges e now, middle removing (.error e) now →
      post exchanges (.error e) now)
    (hok : ∀ removing exchanges now after, deletions exchanges = deletions removing →
      middle removing (.ok ()) now → after.IsQuiet →
        duty.LetsGo object (key.path kind) now after → post exchanges (.ok .tornDown) after) :
    (duty.pass key).Unfolds (serveAt clock) first post := by
  have hdeleted := (Metadata.lifeStage_eq_tearingDown.1 hstage).1
  obtain ⟨looked, hget, hlooked, hobjects⟩ := h.serve_get clock kind key
  have hfound := ((leaves_of_objects hobjects kind).find?_eq (key.path kind)).trans hfind
  rw [pass_eq]
  refine unfolds_bind.2 (unfolds_perform.2 ?_)
  rw [hget, hfind]
  simp only [serveFound, hstage, dismantle, howner]
  refine ((hteardown looked hlooked hobjects).and
    (teardown_keeps hduty hlooked hfound owner)).bind ?_ ?_
  · -- the teardown is done, so the mark is taken off
    rintro removing _ now ⟨hmiddle, hquiet, hstill⟩
    refine (release_of_quiet hquiet hstill hdeleted).bind ?_ ?_
    · rintro releasing stored after ⟨hnothing, _, hafter, hgone⟩
      refine unfolds_pure.2 (hok removing _ now after ?_ hmiddle hafter hgone)
      rw [List.append_nil, deletions_append, deletions_append, hnothing, List.append_nil]
      rfl
    · rintro releasing e after ⟨_, ⟨stored, hfalse⟩, _⟩
      cases hfalse
  · rintro removing e now ⟨hmiddle, _⟩
    exact herror removing _ e now hmiddle

end Duty

end EdgeOperator
