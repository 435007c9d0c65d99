import EdgeOperator.Proofs.Cluster.Faithful
import EdgeOperator.Proofs.Ownership.Install

set_option autoImplicit false

/-! # Installations that are cut off

An installation has objects in place one after the other, its *chores*. However often it is cut off,
what it has changed by then are missing objects, put in place as they were planned
(`Cluster.Underway`). The chores go in order, so of several that are written under one path it is
always the first that gets there. So when all are done at last, the outlines are those that one
installation without failures leaves (`Cluster.Underway.outline_eq`). -/

namespace EdgeOperator

open Program

/-! ## Chores -/

/-- An object that an installation has in place. -/
structure Chore where
  kind : PlainKind
  planned : Resource (.plain kind)

namespace Chore

/-- The path of the object. -/
def path (chore : Chore) : String :=
  chore.planned.path

/-- The outline of the object once it was created. -/
def outline (chore : Chore) : AnyResource :=
  ⟨.plain chore.kind, chore.planned.wholeSeconds.outline⟩

/-- The outline that chores leave where there was nothing. -/
def fresh? (chores : List Chore) (path : String) : Option AnyResource :=
  (chores.find? fun chore => chore.path = path).map outline

/-- The chore for a component of the stack. -/
def ofComponent (owner : Owner) (component : Component) : Chore :=
  ⟨component.kind, (component.blueprint owner).toResource⟩

/-- The chores for the workload of a frontend. -/
def ofWorkload (owner : Owner) (spec : FrontendSpec) : List Chore :=
  [⟨.service, (Workload.service owner spec).toResource⟩,
    ⟨.deployment, (Workload.deployment owner spec).toResource⟩]

theorem fresh?_append_cons {done rest : List Chore} {chore : Chore}
    (h : ∀ earlier ∈ done, earlier.path ≠ chore.path) :
    fresh? (done ++ chore :: rest) chore.path = some chore.outline := by
  have hnone : done.find? (fun earlier => earlier.path = chore.path) = none :=
    List.find?_eq_none.2 fun earlier hmem => by simpa using h earlier hmem
  simp [fresh?, List.find?_append, hnone]

theorem fresh?_eq_none {chores : List Chore} {path : String}
    (h : ∀ chore ∈ chores, chore.path ≠ path) : fresh? chores path = none := by
  have hnone : chores.find? (fun chore => chore.path = path) = none :=
    List.find?_eq_none.2 fun chore hmem => by simpa using h chore hmem
  rw [fresh?, hnone]
  rfl

end Chore

namespace Cluster

variable {kind : Kind} {place : String} {cell : AnyResource} {chores : List Chore}
  {first now cluster : Cluster} {server : Cluster.Server}

/-- The outlines with what chores have put where there was nothing. -/
def furnished (cluster : Cluster) (chores : List Chore) (path : String) : Option AnyResource :=
  (cluster.outline path).or (Chore.fresh? chores path)

/-- Whether a cluster has come from another by chores for a resource, complete or not. The resource
has its place and its kind; objects that are neither of this kind nor plain have been left alone. -/
structure Underway (kind : Kind) (place : String) (cell : AnyResource) (chores : List Chore)
    (first now : Cluster) : Prop where
  calm : now.IsCalm
  held : now.objects.get? place = some cell
  leaves : ∀ other, other ≠ kind → (∀ plain, other ≠ .plain plain) → Leaves other first now
  outline_cases : ∀ path, path ≠ place → now.outline path = first.outline path ∨
    first.outline path = none ∧ now.outline path = Chore.fresh? chores path

theorem underway_of_objects (hcalm : now.IsCalm) (hheld : first.objects.get? place = some cell)
    (hobjects : now.objects = first.objects) : Underway kind place cell chores first now where
  calm := hcalm
  held := hobjects ▸ hheld
  leaves other _ _ := leaves_of_objects hobjects other
  outline_cases _ _ := Or.inl (by rw [outline_of_objects hobjects])

theorem Underway.of_objects {after : Cluster} (h : Underway kind place cell chores first now)
    (hcalm : after.IsCalm) (hobjects : after.objects = now.objects) :
    Underway kind place cell chores first after where
  calm := hcalm
  held := hobjects ▸ h.held
  leaves other hkind hplain :=
    (h.leaves other hkind hplain).trans (leaves_of_objects hobjects other)
  outline_cases := by
    rw [outline_of_objects hobjects]
    exact h.outline_cases

/-- The resource itself may be written. -/
theorem Underway.rewrite {after : Cluster} (h : Underway kind place cell chores first now)
    (hcalm : after.IsCalm) (hleaves : ∀ other, other ≠ kind → Leaves other now after)
    {next : Resource kind} (hobjects : after.objects = now.objects.set place ⟨kind, next⟩) :
    Underway kind place ⟨kind, next⟩ chores first after where
  calm := hcalm
  held := by rw [hobjects, StringMap.get?_set, if_pos rfl]
  leaves other hkind hplain := (h.leaves other hkind hplain).trans (hleaves other hkind)
  outline_cases path hplace := by
    rw [outline_of_set hobjects, Function.update_of_ne hplace]
    exact h.outline_cases path hplace

/-- Where all chores are done, each path holds what was there before or the first chore for it. -/
theorem Underway.outline_eq (h : Underway kind place cell chores first now)
    (hdone : ∀ chore ∈ chores, now.outline chore.path ≠ none) :
    now.outline = Function.update (first.furnished chores) place (some cell.outline) := by
  funext path
  by_cases hplace : path = place
  · subst hplace
    rw [Function.update_self, outline, h.held]
    rfl
  rw [Function.update_of_ne hplace, furnished]
  rcases h.outline_cases path hplace with heq | ⟨hnone, heq⟩
  · cases hfirst : first.outline path with
    | some object => rw [heq, hfirst, Option.some_or]
    | none =>
      -- no chore is for this path, or it would hold something by now
      rw [heq, hfirst, Option.none_or, Chore.fresh?_eq_none]
      rintro chore hmem rfl
      exact hdone chore hmem (heq.trans hfirst)
  · rw [heq, hnone, Option.none_or]

/-! ## To have an object in place -/

/-- The creation of an object changes nothing, or puts it where there was nothing. -/
def Places {kind : Kind} (planned : Resource kind) (before after : Cluster) : Prop :=
  after.objects = before.objects ∨
    before.objects.get? planned.path = none ∧ ∃ next : Resource kind,
      after.objects = before.objects.set planned.path ⟨kind, next⟩ ∧
        next.outline = planned.wholeSeconds.outline

theorem outline_ne_none_of_find? {path : String} (h : cluster.find? kind path ≠ none) :
    cluster.outline path ≠ none := by
  cases hfind : cluster.find? kind path with
  | none => exact absurd hfind h
  | some object => simp [outline_of_find? hfind]

theorem ensure_places (hserver : IsFaithful server) (hcalm : cluster.IsCalm)
    (planned : Resource kind) :
    (ensure planned.key planned).Ends server cluster fun result after =>
      Places planned cluster after ∧
        ∀ ensured, result = .ok ensured → after.find? kind planned.path ≠ none := by
  obtain ⟨hobjects, hlook⟩ := hserver.get_cases hcalm kind planned.key
  have hlooked := hserver.calm hcalm (.get kind planned.key)
  have hfound := (leaves_of_objects hobjects kind).find?_eq planned.path
  refine ends_bind.2 (ends_perform.2 ?_)
  rcases hlook with ⟨e, hlook⟩ | hlook <;> rw [hlook]
  · exact ⟨Or.inl hobjects, by simp⟩
  cases hfind : cluster.find? kind (planned.key.path kind) with
  | some object =>
    have hstill := ne_of_eq_of_ne (hfound.trans hfind) (Option.some_ne_none object)
    exact ⟨Or.inl hobjects, fun _ _ => hstill⟩
  | none =>
    refine ends_bind.2 (ends_attempt.2 ?_)
    rcases hserver.create_cases hlooked planned with
      ⟨e, hanswer, hafter⟩ | ⟨hnone, stored, next, hanswer, hafter, hnext⟩ <;> rw [hanswer]
    · have hplaces := hafter.trans hobjects
      dsimp only
      split
      · -- another creation is said to have come first; the look that follows tells
        obtain ⟨hlast, hlook⟩ :=
          hserver.get_cases (hserver.calm hlooked (.create kind planned)) kind planned.key
        refine ends_bind.2 (ends_perform.2 ?_)
        rcases hlook with ⟨e, hlook⟩ | hlook <;> rw [hlook]
        · exact ⟨Or.inl (hlast.trans hplaces), by simp⟩
        · rw [(leaves_of_objects hplaces kind).find?_eq, hfind]
          exact ends_fail.2 ⟨Or.inl (hlast.trans hplaces), by simp⟩
      · exact ends_fail.2 ⟨Or.inl hplaces, by simp⟩
    · rw [hobjects] at hnone hafter
      refine ends_pure.2 ⟨Or.inr ⟨hnone, next, hafter, hnext⟩, fun _ _ => ?_⟩
      rw [(find?_of_set hafter ..).2 (Or.inl ⟨rfl, rfl⟩)]
      exact Option.some_ne_none next

/-- To put in place what a chore has planned is a step of the installation, if its predecessors are
done. -/
theorem Underway.put {after : Cluster} (h : Underway kind place cell chores first now)
    (hcalm : after.IsCalm)
    (hleaves : ∀ other, (∀ plain, other ≠ .plain plain) → Leaves other now after)
    {done rest : List Chore} {chore : Chore} (hchores : chores = done ++ chore :: rest)
    (hdone : ∀ earlier ∈ done, now.outline earlier.path ≠ none)
    (hplaces : Places chore.planned now after) :
    Underway kind place cell chores first after ∧
      ∀ path, now.outline path ≠ none → after.outline path ≠ none := by
  rcases hplaces with hobjects | ⟨hnone, next, hobjects, hnext⟩
  · refine ⟨h.of_objects hcalm hobjects, fun path => ?_⟩
    rw [outline_of_objects hobjects]
    exact id
  have hempty : now.outline chore.path = none := Option.map_eq_none_iff.2 hnone
  have houtline : after.outline =
      Function.update now.outline chore.path (some ⟨.plain chore.kind, next.outline⟩) :=
    outline_of_set hobjects
  refine ⟨⟨hcalm, ?_, ?_, ?_⟩, fun path hpath => ?_⟩
  · have hne : chore.path ≠ place := by
      rintro rfl
      exact absurd (h.held.symm.trans hnone) (by simp)
    rw [hobjects, StringMap.get?_set]
    exact (if_neg hne).trans h.held
  · exact fun other hkind hplain => (h.leaves other hkind hplain).trans (hleaves other hplain)
  · intro path hplace
    rw [houtline]
    by_cases hpath : path = chore.path
    · subst hpath
      refine Or.inr ⟨?_, ?_⟩
      · rcases h.outline_cases chore.path hplace with heq | ⟨hfirst, _⟩
        · exact heq.symm.trans hempty
        · exact hfirst
      · have hfirst : ∀ earlier ∈ done, earlier.path ≠ chore.path :=
          fun earlier hmem heq => hdone earlier hmem (heq ▸ hempty)
        rw [hchores, Chore.fresh?_append_cons hfirst]
        exact (Function.update_self ..).trans (by rw [hnext]; rfl)
    · rw [Function.update_of_ne hpath]
      exact h.outline_cases path hplace
  · rw [houtline]
    by_cases heq : path = chore.path
    · exact absurd (heq ▸ hempty) hpath
    · rwa [Function.update_of_ne heq]

/-- A chore whose predecessors are done is a step of the installation. -/
theorem Underway.ensure (hserver : IsFaithful server)
    (h : Underway kind place cell chores first now) (done : List Chore) {rest : List Chore}
    {chore : Chore} (hchores : chores = done ++ chore :: rest)
    (hdone : ∀ earlier ∈ done, now.outline earlier.path ≠ none) :
    (EdgeOperator.ensure chore.planned.key chore.planned).Ends server now fun result after =>
      Underway kind place cell chores first after ∧
        ∀ ensured, result = .ok ensured →
          ∀ earlier ∈ done ++ [chore], after.outline earlier.path ≠ none := by
  have hcalm : (EdgeOperator.ensure chore.planned.key chore.planned).Ends server now
      fun _ after => after.IsCalm :=
    run_keeps_along IsCalm _ (fun exchange _ _ hafter => hserver.calm hafter exchange.request)
      h.calm
  have hleaves : (EdgeOperator.ensure chore.planned.key chore.planned).Ends server now
      fun _ after => ∀ other, (∀ plain, other ≠ .plain plain) → Leaves other now after := by
    refine fun other hother => (hserver.run_leaves h.calm ?_).2
    refine ensure_onlyAsks (by simp [Request.writtenKind?]) fun heq => ?_
    exact hother chore.kind (Option.some.inj heq).symm
  refine ((hcalm.and hleaves).and (ensure_places hserver h.calm chore.planned)).mono ?_
  rintro result after ⟨⟨hcalm, hleaves⟩, hplaces, hstored⟩
  obtain ⟨hunderway, hkept⟩ := h.put hcalm hleaves hchores hdone hplaces
  refine ⟨hunderway, fun ensured hok earlier hmem => ?_⟩
  rcases List.mem_append.1 hmem with hmem | hmem
  · exact hkept _ (hdone earlier hmem)
  · obtain rfl := List.mem_singleton.1 hmem
    exact outline_ne_none_of_find? (hstored ensured hok)

end Cluster

end EdgeOperator
