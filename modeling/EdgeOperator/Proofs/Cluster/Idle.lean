import EdgeOperator.Proofs.Cluster.Amid

set_option autoImplicit false

/-! # Runs that change nothing

A call that fails changes nothing itself. A replacement that fails may have let in another writer
before, so what differs after a run without a write that succeeded is what others have made of the
objects that were to be replaced (`Cluster.holdsSame_of_history`). -/

namespace EdgeOperator

open Program

/-! ## Exchanges that change nothing -/

/-- Whether an exchange looks at the cluster only. -/
def Exchange.isLook : Exchange → Bool
  | ⟨.get _ _, _⟩ | ⟨.list _ _, _⟩ => true
  | ⟨.create _ _, _⟩ | ⟨.replace _ _, _⟩ | ⟨.delete _ _, _⟩ => false

/-- Whether an exchange looks at the cluster only, or failed. -/
def Exchange.IsIdle (exchange : Exchange) : Prop :=
  exchange.isLook = true ∨ ∃ e, exchange.answer = .error e

/-- The path that an exchange was to replace. -/
def Exchange.replaced? : Exchange → Option String
  | ⟨.replace _ object, _⟩ => some object.path
  | ⟨.get _ _, _⟩ | ⟨.list _ _, _⟩ | ⟨.create _ _, _⟩ | ⟨.delete _ _, _⟩ => none

namespace Cluster

/-! ## Other writers who are let in -/

variable {before after cluster : Cluster}

/-- Whether two clusters hold the same, and the same writers wait for them. -/
structure HoldsSame (before after : Cluster) : Prop where
  objects_eq : after.objects = before.objects
  revision_eq : after.revision = before.revision
  edits_eq : after.edits = before.edits

/-- The cluster after other writers were let in, at one path after the other. -/
def letInAll (cluster : Cluster) (paths : List String) : Cluster :=
  paths.foldl letIn cluster

theorem HoldsSame.trans {last : Cluster} (h : HoldsSame before after)
    (h' : HoldsSame after last) : HoldsSame before last where
  objects_eq := h'.objects_eq.trans h.objects_eq
  revision_eq := h'.revision_eq.trans h.revision_eq
  edits_eq := h'.edits_eq.trans h.edits_eq

theorem HoldsSame.letIn (h : HoldsSame before after) (path : String) :
    HoldsSame (before.letIn path) (after.letIn path) := by
  obtain ⟨objects, revision, now, faults, edits, calls⟩ := before
  obtain ⟨rfl, rfl, rfl⟩ := h
  constructor <;> (unfold Cluster.letIn; dsimp only; split <;> rfl)

theorem HoldsSame.letInAll (h : HoldsSame before after) (paths : List String) :
    HoldsSame (before.letInAll paths) (after.letInAll paths) := by
  induction paths generalizing before after with
  | nil => exact h
  | cons path rest ih => exact ih (h.letIn path)

/-- Where no other writer waits, none is let in. -/
theorem letInAll_eq_self {paths : List String} (h : ∀ path ∈ paths, cluster.IsUndisturbed path) :
    cluster.letInAll paths = cluster := by
  induction paths with
  | nil => rfl
  | cons path rest ih =>
    obtain ⟨hpath, hrest⟩ := List.forall_mem_cons.1 h
    rw [letInAll, List.foldl_cons, letIn_eq_self cluster hpath]
    exact ih hrest

/-- A call that fails or only looks changes nothing, or the writer is let in who waits for the
replacement. -/
theorem holdsSame_of_isIdle {request : Request}
    (h : Exchange.IsIdle ⟨request, (serve request cluster).1⟩) :
    HoldsSame cluster (serve request cluster).2 ∨
      ∃ path, Exchange.replaced? ⟨request, (serve request cluster).1⟩ = some path ∧
        HoldsSame (cluster.letIn path) (serve request cluster).2 := by
  have hnote : HoldsSame cluster (cluster.note request.call).2 := ⟨rfl, rfl, rfl⟩
  cases request with
  | get kind key => exact Or.inl (by rw [serve_get_snd]; exact hnote)
  | list kind namespaceName? => exact Or.inl (by rw [serve_list_snd]; exact hnote)
  | create kind object =>
    obtain hlook | ⟨e, herror⟩ := h
    · cases hlook
    rcases serve_create cluster object with ⟨_, heq⟩ | ⟨_, heq⟩
    · exact Or.inl (by rw [heq]; exact hnote)
    · simp [heq] at herror
  | replace kind object =>
    obtain hlook | ⟨e, herror⟩ := h
    · cases hlook
    rcases serve_replace cluster object with ⟨_, heq⟩ | heq
    · exact Or.inl (by rw [heq]; exact hnote)
    rcases replace_cases ((cluster.note (Request.replace kind object).call).2.letIn object.path)
        object with ⟨_, hreplace⟩ | ⟨_, _, _, hreplace⟩ <;> rw [hreplace] at heq
    · exact Or.inr ⟨object.path, rfl, by rw [heq]; exact hnote.letIn object.path⟩
    · simp [heq] at herror
  | delete kind key =>
    obtain hlook | ⟨e, herror⟩ := h
    · cases hlook
    rcases serve_delete cluster kind key with ⟨_, _, heq⟩ | heq
    · exact Or.inl (by rw [heq]; exact hnote)
    rcases delete_cases (cluster.note (Request.delete kind key).call).2 kind key with
        ⟨_, hdelete⟩ | ⟨_, _, ⟨_, hdelete⟩ | ⟨_, hdelete⟩ | ⟨_, hdelete⟩⟩ <;>
      rw [hdelete] at heq
    · exact Or.inl (by rw [heq]; exact hnote)
    all_goals simp [heq] at herror

/-! ## Runs -/

/-- A run of which every call failed or only looked leaves what there was, but for what other
writers did who were let in by its replacements. -/
theorem holdsSame_of_history {α : Type} (script : Nat → Arrangement) (program : Program α)
    (cluster : Cluster)
    (h : ∀ exchange ∈ program.history (serveAmid script) cluster, exchange.IsIdle) :
    ∃ paths, paths.Sublist
        ((program.history (serveAmid script) cluster).filterMap Exchange.replaced?) ∧
      HoldsSame (cluster.letInAll paths) (program.run (serveAmid script) cluster).2 := by
  induction program generalizing cluster with
  | done result => exact ⟨[], .slnil, rfl, rfl, rfl⟩
  | call request next ih =>
    obtain ⟨hhead, hrest⟩ := List.forall_mem_cons.1 h
    obtain ⟨paths, hpaths, hlast⟩ := ih _ _ hrest
    have harrange : HoldsSame cluster (cluster.arrange (script cluster.calls.length)) :=
      ⟨rfl, rfl, rfl⟩
    rw [history, List.filterMap_cons]
    rcases holdsSame_of_isIdle hhead with hsame | ⟨path, hpath, hsame⟩
    · refine ⟨paths, ?_, ((harrange.trans hsame).letInAll paths).trans hlast⟩
      split
      · exact hpaths
      · exact hpaths.trans (List.sublist_cons_self ..)
    · have hlet := (harrange.letIn path).trans hsame
      refine ⟨path :: paths, ?_, (hlet.letInAll paths).trans hlast⟩
      have hreplaced : Exchange.replaced? ⟨request, (serveAmid script request cluster).1⟩ =
        some path := hpath
      rw [hreplaced]
      exact hpaths.cons_cons path

end Cluster

end EdgeOperator
