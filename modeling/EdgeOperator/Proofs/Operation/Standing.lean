import EdgeOperator.Proofs.Operation.Provision

set_option autoImplicit false

/-! # What a pass for a frontend leaves standing

A pass for a frontend that lives deletes nothing. It may replace ingresses, and the frontend by itself
with the mark; every other object that was there is there as it was (`Duty.live_pass_stands`). -/

namespace EdgeOperator

open Program Cluster

/-- Whether a frontend is another one later on: it asks for the same, has the same identity, is
deleted if and only if that was, and has all finalizers that it had. -/
structure Resource.IsLaterOf (later read : Resource .frontend) : Prop where
  content_eq : later.content = read.content
  key_eq : later.key = read.key
  name_eq : later.metadata.name? = read.metadata.name?
  uid_eq : later.metadata.uid? = read.metadata.uid?
  deleted_eq : later.metadata.isDeleted = read.metadata.isDeleted
  finalizers : read.metadata.finalizers ⊆ later.metadata.finalizers

namespace Resource.IsLaterOf

variable {read later latest : Resource .frontend}

theorem refl (read : Resource .frontend) : read.IsLaterOf read :=
  ⟨rfl, rfl, rfl, rfl, rfl, List.Subset.refl _⟩

theorem trans (h : later.IsLaterOf read) (h' : latest.IsLaterOf later) : latest.IsLaterOf read where
  content_eq := h'.content_eq.trans h.content_eq
  key_eq := h'.key_eq.trans h.key_eq
  name_eq := h'.name_eq.trans h.name_eq
  uid_eq := h'.uid_eq.trans h.uid_eq
  deleted_eq := h'.deleted_eq.trans h.deleted_eq
  finalizers := List.Subset.trans h.finalizers h'.finalizers

theorem path_eq (h : later.IsLaterOf read) : later.path = read.path :=
  congrArg (ObjectKey.path · .frontend) h.key_eq

theorem namespaceName?_eq (h : later.IsLaterOf read) :
    later.metadata.namespaceName? = read.metadata.namespaceName? :=
  congrArg ObjectKey.namespaceName? h.key_eq

end Resource.IsLaterOf

/-! ## Calls -/

/-- The calls of a pass for a frontend that lives: look-ups, creations, replacements of ingresses, and
that of the frontend by itself with the mark. -/
inductive Request.IsForLiving (read : Resource .frontend) : Request → Prop where
  | look (kind : Kind) (key : ObjectKey) : IsForLiving read (.get kind key)
  | list (kind : Kind) (namespaceName? : Option String) :
      IsForLiving read (.list kind namespaceName?)
  | create {kind : Kind} (object : Resource kind) : IsForLiving read (.create kind object)
  | reroute (ingress : Resource .ingress) : IsForLiving read (.replace .ingress ingress)
  | mark : IsForLiving read (.replace .frontend
      { read with metadata := read.metadata.addMark Names.frontendFinalizer })

namespace Cluster

variable {read : Resource .frontend} {before now after : Cluster}

/-- Whether everything that was there is there as it was, but for ingresses and one frontend, which
has come from what it was. -/
structure Stands (read : Resource .frontend) (before after : Cluster) : Prop where
  kept : ∀ path stored, before.objects.get? path = some stored → path ≠ read.path →
    stored.kind ≠ .ingress → after.objects.get? path = some stored
  own : ∃ later, after.find? .frontend read.path = some later ∧ later.IsLaterOf read

theorem stands_of_objects (hfind : before.find? .frontend read.path = some read)
    (hobjects : after.objects = before.objects) : Stands read before after where
  kept path stored hget _ _ := by rw [hobjects, hget]
  own := ⟨read, ((leaves_of_objects hobjects .frontend).find?_eq _).trans hfind, .refl read⟩

theorem Stands.of_objects (h : Stands read before now) (hobjects : after.objects = now.objects) :
    Stands read before after where
  kept path stored hget hne hkind := by
    rw [hobjects]
    exact h.kept path stored hget hne hkind
  own := by
    obtain ⟨later, hfind, hlater⟩ := h.own
    exact ⟨later, ((leaves_of_objects hobjects .frontend).find?_eq _).trans hfind, hlater⟩

/-- A write of an ingress, or where nothing was, leaves the rest standing. -/
theorem Stands.write (h : Stands read before now) {place : String}
    (hplace : ∀ stored, now.objects.get? place = some stored → stored.kind = .ingress)
    (hafter : ∀ path, path ≠ place → after.objects.get? path = now.objects.get? path) :
    Stands read before after where
  kept path stored hget hne hkind := by
    have hnow := h.kept path stored hget hne hkind
    rw [hafter path, hnow]
    rintro rfl
    exact hkind (hplace stored hnow)
  own := by
    obtain ⟨later, hfind, hlater⟩ := h.own
    have hget := find?_eq_some.1 hfind
    refine ⟨later, find?_eq_some.2 ?_, hlater⟩
    rw [hafter read.path, hget]
    intro heq
    exact absurd (hplace _ (heq ▸ hget)) (by simp)

/-- The frontend may be written with the mark. -/
theorem Stands.mark (h : Stands read before now) {current : Resource .frontend}
    (hfind : now.find? .frontend read.path = some current)
    (hobjects : after.objects = now.objects.set read.path ⟨.frontend, (now.replaced current
      { read with metadata := read.metadata.addMark Names.frontendFinalizer }).wholeSeconds⟩) :
    Stands read before after where
  kept path stored hget hne hkind := by
    rw [hobjects, StringMap.get?_set, if_neg hne.symm]
    exact h.kept path stored hget hne hkind
  own := by
    obtain ⟨later, hlater, hsame⟩ := h.own
    obtain rfl := Option.some.inj (hlater.symm.trans hfind)
    refine ⟨_, (find?_of_set hobjects ..).2 (Or.inl ⟨rfl, rfl⟩), ⟨rfl, rfl, rfl, hsame.uid_eq, ?_, ?_⟩⟩
    · exact (Option.isSome_map ..).trans hsame.deleted_eq
    · exact List.subset_append_left ..

theorem Stands.serve (h : Stands read before now) (hcalm : now.IsCalm) {request : Request}
    (hrequest : request.IsForLiving read) :
    Stands read before (Cluster.serve request now).2 := by
  have hingress : ∀ {ingress current : Resource .ingress},
      now.find? .ingress ingress.path = some current → ∀ stored,
        now.objects.get? ingress.path = some stored → stored.kind = .ingress := by
    intro ingress current hfind stored hget
    obtain rfl := Option.some.inj ((find?_eq_some.1 hfind).symm.trans hget)
    rfl
  cases hrequest with
  | look kind key => exact h.of_objects (serve_get_objects ..)
  | list kind namespaceName? => exact h.of_objects (serve_list_objects ..)
  | create object =>
    cases effect_create now object with
    | nothing hobjects => exact h.of_objects hobjects
    | created hnone hobjects =>
      refine h.write (fun stored hget => absurd (hget.symm.trans hnone) (by simp)) ?_
      intro path hne
      rw [hobjects, StringMap.get?_set, if_neg hne.symm]
  | reroute ingress =>
    cases hcalm.effect (.replace .ingress ingress) with
    | nothing hobjects => exact h.of_objects hobjects
    | replaced hfind hobjects =>
      refine h.write (hingress hfind) fun path hne => ?_
      rw [hobjects, StringMap.get?_set, if_neg hne.symm]
    | released hfind _ hobjects =>
      refine h.write (hingress hfind) fun path hne => ?_
      rw [hobjects, StringMap.get?_erase, if_neg hne.symm]
  | mark =>
    cases hcalm.effect (.replace .frontend
        { read with metadata := read.metadata.addMark Names.frontendFinalizer }) with
    | nothing hobjects => exact h.of_objects hobjects
    | replaced hfind hobjects => exact h.mark hfind hobjects
    | released _ hempty _ =>
      exact absurd hempty (List.append_ne_nil_of_right_ne_nil _ (List.cons_ne_nil _ _))

/-- A frontend that was there is there in a later version. -/
theorem Stands.exists_later (h : Stands read before after)
    (hread : before.find? .frontend read.path = some read) {path : String}
    {former : Resource .frontend} (hfind : before.find? .frontend path = some former) :
    ∃ later, after.find? .frontend path = some later ∧ later.IsLaterOf former := by
  by_cases hpath : path = read.path
  · -- this is the frontend that the pass is for
    subst hpath
    obtain rfl := Option.some.inj (hread.symm.trans hfind)
    exact h.own
  · have hkept := h.kept _ _ (find?_eq_some.1 hfind) hpath (by simp)
    exact ⟨former, find?_eq_some.2 hkept, .refl former⟩

end Cluster

/-! ## Passes -/

namespace Duty

variable {cluster : Cluster} {key : ObjectKey} {read : Resource .frontend}

theorem settle_isForLiving (attempts : Nat) (stored read : Resource .frontend) :
    ((frontend attempts).settle stored read).OnlyAsks (Request.IsForLiving read) := by
  unfold settle
  cases Owner.ofResource stored with
  | error e => exact .done _
  | ok owner =>
    refine ((frontend_install_onlyAsks attempts owner read).mono ?_).bind fun _ => .done _
    rintro request (hplants | hroutes)
    · cases hplants with
      | look kind key => exact .look kind key
      | create _ _ _ => exact .create _
    · cases hroutes with
      | look kind key => exact .look kind key
      | list kind namespaceName? => exact .list kind namespaceName?
      | create object => exact .create object
      | replace object => exact .reroute object

theorem live_pass_stands (attempts : Nat) (hcalm : cluster.IsCalm)
    (hfind : cluster.find? .frontend (key.path .frontend) = some read)
    (hlive : read.metadata.isDeleted = false) :
    ((frontend attempts).pass key).Ends Cluster.serve cluster fun _ after =>
      Stands read cluster after := by
  have hplace : read.path = key.path .frontend :=
    (hcalm.sound.kept (find?_eq_some.1 hfind)).path_eq
  have hstart : ∀ {looked : Cluster}, looked.objects = cluster.objects →
      Stands read cluster looked :=
    stands_of_objects (hplace ▸ hfind)
  refine ends_pass isFaithful_serve hcalm (fun e after _ hobjects => hstart hobjects) ?_
  intro looked hlooked hobjects
  have hkeeps : ∀ {program : Program PassOutcome}, program.OnlyAsks (Request.IsForLiving read) →
      program.Ends Cluster.serve looked fun _ after => Stands read cluster after := by
    intro program hprogram
    exact (isFaithful_serve.run_keeps hprogram
      (fun _ _ hrequest hnow hstands => hstands.serve hnow hrequest) hlooked (hstart hobjects)).2
  rw [hfind]
  dsimp only [serveFound]
  by_cases hmark : (frontend attempts).mark ∈ read.metadata.finalizers
  · rw [Metadata.lifeStage_eq_marked.2 ⟨hlive, hmark⟩]
    exact hkeeps (settle_isForLiving attempts read read)
  · rw [Metadata.lifeStage_eq_unmarked.2 ⟨hlive, hmark⟩]
    exact hkeeps ((OnlyAsks.perform .mark).bind fun stored =>
      settle_isForLiving attempts stored read)

/-- A frontend that lives is claimed by its mark. -/
theorem mark_mem_claimed (attempts : Nat) (hlive : read.metadata.isDeleted = false) :
    Names.frontendFinalizer ∈ ((frontend attempts).claimed read).metadata.finalizers := by
  by_cases hmark : (frontend attempts).mark ∈ read.metadata.finalizers
  · have hstage := Metadata.lifeStage_eq_marked.2 ⟨hlive, hmark⟩
    rw [claimed, if_neg (by simp [hstage])]
    exact hmark
  · have hstage := Metadata.lifeStage_eq_unmarked.2 ⟨hlive, hmark⟩
    rw [claimed, if_pos hstage]
    exact List.mem_append_right _ (List.mem_singleton_self _)

end Duty

end EdgeOperator
