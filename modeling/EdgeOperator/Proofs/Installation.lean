import EdgeOperator.Proofs.Cluster.Amid
import EdgeOperator.Proofs.Recovery.Installing

set_option autoImplicit false

/-! # What an installation makes

Whatever is stored when an installation begins and whichever of its calls fail, it changes the
cluster in one way only: the chores that are done by then (`Cluster.Furnished`) have created what was
missing, in their order and as it was planned, and everything that was stored is as it was.

No call of an installation waits for another writer, so unlike the statements on calm clusters these
ask for nothing of the cluster they start from. -/

namespace EdgeOperator

open Program

variable {kind : Kind}

/-! ## Creations -/

/-- The object that an exchange has created, as it was asked for. -/
def Exchange.made? : Exchange → Option AnyResource
  | ⟨.create kind object, .ok _⟩ => some ⟨kind, object⟩
  | _ => none

/-- The objects that exchanges have created, in their order. -/
def made (exchanges : List Exchange) : List AnyResource :=
  exchanges.filterMap Exchange.made?

@[simp] theorem made_append (first later : List Exchange) :
    made (first ++ later) = made first ++ made later :=
  List.filterMap_append ..

/-- The kinds of what exchanges have set out to write, call by call. -/
def writes (exchanges : List Exchange) : List Kind :=
  exchanges.filterMap fun exchange => exchange.request.writtenKind?

@[simp] theorem writes_append (first later : List Exchange) :
    writes (first ++ later) = writes first ++ writes later :=
  List.filterMap_append ..

namespace Program

variable {α β : Type} {first later kinds more : List Kind}

/-- Whether a program sets out to write objects of certain kinds at most, in their order, whatever
is answered. -/
def Writes (program : Program α) (kinds : List Kind) : Prop :=
  ∀ exchanges result, program.Yields exchanges result → (writes exchanges).Sublist kinds

theorem Writes.mono {program : Program α} (h : program.Writes kinds)
    (hkinds : kinds.Sublist more) : program.Writes more :=
  fun exchanges result hyields => (h exchanges result hyields).trans hkinds

theorem Writes.bind {program : Program α} {next : α → Program β} (h : program.Writes first)
    (hnext : ∀ value, (next value).Writes later) : (program >>= next).Writes (first ++ later) := by
  intro exchanges result hyields
  rcases yields_bind hyields with ⟨e, hfirst, _⟩ | ⟨value, front, back, rfl, hfront, hback⟩
  · exact (h exchanges _ hfirst).trans (List.sublist_append_left ..)
  · rw [writes_append]
    exact (h front _ hfront).append (hnext value back result hback)

theorem writes_done (result : Except OperatorError α) : (Program.done result).Writes [] := by
  intro exchanges _ hyields
  cases hyields
  exact List.Sublist.refl _

theorem writes_perform (request : Request) :
    (perform request).Writes request.writtenKind?.toList := by
  intro exchanges _ hyields
  cases hyields with
  | call answer hrest =>
    cases hrest
    cases hkind : request.writtenKind? <;> simp [writes, hkind]

theorem writes_attempt (request : Request) :
    (attempt request).Writes request.writtenKind?.toList := by
  intro exchanges _ hyields
  cases hyields with
  | call answer hrest =>
    cases hrest
    cases hkind : request.writtenKind? <;> simp [writes, hkind]

/-- Whatever else is said of a run, it writes what its program can write at most. -/
theorem Writes.unfolds {program : Program α} (h : program.Writes kinds) {σ : Type}
    {serve : (request : Request) → σ → Except OperatorError request.Answer × σ} {state : σ}
    {post : List Exchange → Except OperatorError α → σ → Prop}
    (hunfolds : program.Unfolds serve state post) :
    program.Unfolds serve state fun exchanges result after =>
      post exchanges result after ∧ (writes exchanges).Sublist kinds :=
  ⟨hunfolds, h _ _ (yields_run serve program state)⟩

end Program

/-! ## To have an object in place -/

theorem ensure_writes (key : ObjectKey) (planned : Resource kind) :
    (ensure key planned).Writes [kind] := by
  refine (writes_perform (.get kind key)).bind fun found => ?_
  cases found with
  | some object => exact (writes_done _).mono (List.nil_sublist _)
  | none =>
    refine (writes_attempt (.create kind planned)).bind fun answer => ?_
    cases answer with
    | ok object => exact writes_done _
    | error e =>
      dsimp only
      split
      · refine (writes_perform (.get kind key)).bind fun again => ?_
        cases again <;> exact writes_done _
      · exact writes_done _

/-- What it comes to to have an object in place. -/
inductive Ensuring (planned : Resource kind) (before : Cluster) :
    List Exchange → Except OperatorError (Ensured kind) → Cluster → Prop where
  | failed {exchanges : List Exchange} {e : OperatorError} {after : Cluster}
      (hmade : made exchanges = []) (hrefused : ∃ code reason, e = refused code reason)
      (hobjects : after.objects = before.objects) :
      Ensuring planned before exchanges (.error e) after
  | found {exchanges : List Exchange} {ensured : Ensured kind} {after : Cluster}
      (hmade : made exchanges = []) (hfind : before.find? kind planned.path ≠ none)
      (hobjects : after.objects = before.objects) :
      Ensuring planned before exchanges (.ok ensured) after
  | created {exchanges : List Exchange} {ensured : Ensured kind} {after : Cluster}
      {next : Resource kind} (hmade : made exchanges = [⟨kind, planned⟩])
      (hnone : before.objects.get? planned.path = none)
      (hobjects : after.objects = before.objects.set planned.path ⟨kind, next⟩)
      (hnext : next.outline = planned.wholeSeconds.outline) :
      Ensuring planned before exchanges (.ok ensured) after

/-- The object of a chore as it was planned. -/
def Chore.object (chore : Chore) : AnyResource :=
  ⟨.plain chore.kind, chore.planned⟩

namespace Cluster

variable {script : Nat → Arrangement} {cluster first now after : Cluster}

theorem ensure_ensuring (planned : Resource kind) (cluster : Cluster) :
    (EdgeOperator.ensure planned.key planned).Unfolds (serveAmid script) cluster
      (Ensuring planned cluster) := by
  obtain ⟨hlooked, hget⟩ := serveAmid_get script kind planned.key cluster
  refine unfolds_bind.2 (unfolds_perform.2 ?_)
  rcases hanswer : (serveAmid script (.get kind planned.key) cluster).1 with e | _ | object
  · exact .failed rfl (refused_of_serveAmid hanswer) hlooked
  · refine unfolds_bind.2 (unfolds_attempt.2 ?_)
    rcases serveAmid_create script planned (serveAmid script (.get kind planned.key) cluster).2 with
      ⟨e, middle, hcreate, hmiddle⟩ | ⟨hnone, stored, next, after, hcreate, hafter, hnext⟩
    · have hrefused := refused_of_serveAmid (congrArg Prod.fst hcreate)
      have hobjects := hmiddle.trans hlooked
      rw [hcreate]
      dsimp only
      split
      · -- another creation is said to have come first, and its object is looked up
        obtain ⟨hagain, hget⟩ := serveAmid_get script kind planned.key middle
        refine unfolds_bind.2 (unfolds_perform.2 ?_)
        rcases hanswer : (serveAmid script (.get kind planned.key) middle).1 with e | _ | object
        · exact .failed rfl (refused_of_serveAmid hanswer) (hagain.trans hobjects)
        · exact .failed rfl hrefused (hagain.trans hobjects)
        · refine .found rfl ?_ (hagain.trans hobjects)
          have hfind := hget object hanswer
          rw [(leaves_of_objects hobjects kind).find?_eq] at hfind
          exact ne_of_eq_of_ne hfind (Option.some_ne_none object)
      · exact .failed rfl hrefused hobjects
    · rw [hcreate]
      rw [hlooked] at hnone hafter
      exact .created rfl hnone hafter hnext
  · exact .found rfl (ne_of_eq_of_ne (hget object hanswer) (Option.some_ne_none object)) hlooked

/-! ## Chores that are done -/

/-- Whether nothing of a chore's kind is under its path. -/
def lacks (cluster : Cluster) (chore : Chore) : Bool :=
  (cluster.find? (.plain chore.kind) chore.path).isNone

/-- Whether a cluster has come from another by chores that were done one after the other for a
resource in its place: the missing objects were created in their order, and nothing else but the
resource has changed. -/
structure Furnished (place : String) (cell : AnyResource) (first : Cluster) (done : List Chore)
    (exchanges : List Exchange) (now : Cluster) : Prop where
  special : ∀ plain, cell.kind ≠ .plain plain
  held : now.objects.get? place = some cell
  made_eq : made exchanges = (done.filter first.lacks).map Chore.object
  kept : ∀ {path object}, path ≠ place → first.objects.get? path = some object →
    now.objects.get? path = some object
  added : ∀ {path object}, path ≠ place → first.objects.get? path = none →
    now.objects.get? path = some object →
      ∃ chore ∈ done.filter first.lacks, chore.path = path ∧ object.outline = chore.outline
  built : ∀ chore ∈ done.filter first.lacks,
    ∃ object, now.objects.get? chore.path = some object ∧ object.outline = chore.outline
  leaves : ∀ kind, kind ≠ cell.kind → (∀ plain, kind ≠ .plain plain) → Leaves kind first now

variable {place : String} {cell : AnyResource} {done : List Chore} {chore : Chore}
  {exchanges later : List Exchange}

theorem Furnished.of_objects (h : Furnished place cell first done exchanges now)
    (hobjects : after.objects = now.objects) (hmade : made later = []) :
    Furnished place cell first done (exchanges ++ later) after where
  special := h.special
  held := hobjects ▸ h.held
  made_eq := by rw [made_append, hmade, List.append_nil, h.made_eq]
  kept := hobjects ▸ h.kept
  added := hobjects ▸ h.added
  built := hobjects ▸ h.built
  leaves kind hkind hplain :=
    (h.leaves kind hkind hplain).trans (leaves_of_objects hobjects kind)

/-- What is not there by now was not there before. -/
theorem Furnished.absent (h : Furnished place cell first done exchanges now) {path : String}
    (hne : path ≠ place) (hnone : now.objects.get? path = none) :
    first.objects.get? path = none := by
  cases hfirst : first.objects.get? path with
  | none => rfl
  | some stored => exact absurd ((h.kept hne hfirst).symm.trans hnone) (by simp)

/-- An object of a plain kind is not in the place of the resource. -/
theorem Furnished.path_ne (h : Furnished place cell first done exchanges now) {plain : PlainKind}
    {path : String} {object : Resource (.plain plain)}
    (hfind : now.find? (.plain plain) path = some object) : path ≠ place := by
  rintro rfl
  obtain rfl := Option.some.inj ((find?_eq_some.1 hfind).symm.trans h.held)
  exact h.special plain rfl

/-- What a chore has in place is of its kind. -/
theorem Furnished.present (h : Furnished place cell first done exchanges now)
    (hplace : first.find? (.plain chore.kind) place = none) (hmem : chore ∈ done) :
    ∃ object, now.find? (.plain chore.kind) chore.path = some object := by
  by_cases hlacks : first.lacks chore = true
  · obtain ⟨⟨kind, object⟩, hget, houtline⟩ := h.built chore (List.mem_filter.2 ⟨hmem, hlacks⟩)
    obtain rfl : kind = .plain chore.kind := (AnyResource.mk.inj houtline).1
    exact ⟨object, find?_eq_some.2 hget⟩
  · have hfirst : first.find? (.plain chore.kind) chore.path ≠ none := by
      simpa [lacks] using hlacks
    obtain ⟨object, hfind⟩ := Option.ne_none_iff_exists'.1 hfirst
    have hne : chore.path ≠ place := fun heq => hfirst (heq ▸ hplace)
    exact ⟨object, find?_eq_some.2 (h.kept hne (find?_eq_some.1 hfind))⟩

/-- A chore creates its object only where there was nothing. -/
theorem Furnished.missing (h : Furnished place cell first done exchanges now)
    (hmem : chore ∈ done.filter first.lacks) : first.objects.get? chore.path = none := by
  obtain ⟨⟨kind, object⟩, hget, houtline⟩ := h.built chore hmem
  obtain rfl : kind = .plain chore.kind := (AnyResource.mk.inj houtline).1
  cases hfirst : first.objects.get? chore.path with
  | none => rfl
  | some stored =>
    have hkept := h.kept (h.path_ne (find?_eq_some.2 hget)) hfirst
    obtain rfl := Option.some.inj (hkept.symm.trans hget)
    have hlacks := (List.mem_filter.1 hmem).2
    simp [lacks, find?_eq_some.2 hfirst] at hlacks

/-- A chore finds its object in place only where no other chore has put it. -/
theorem Furnished.not_lacks (h : Furnished place cell first done exchanges now)
    (hdistinct : ∀ earlier ∈ done, earlier.kind = chore.kind → earlier.path ≠ chore.path)
    (hfind : now.find? (.plain chore.kind) chore.path ≠ none) : first.lacks chore = false := by
  obtain ⟨object, hobject⟩ := Option.ne_none_iff_exists'.1 hfind
  have hne := h.path_ne hobject
  have hget := find?_eq_some.1 hobject
  cases hfirst : first.objects.get? chore.path with
  | none =>
    obtain ⟨earlier, hmem, hpath, houtline⟩ := h.added hne hfirst hget
    have hkind := Kind.plain.inj (AnyResource.mk.inj houtline).1
    exact absurd hpath (hdistinct earlier (List.mem_filter.1 hmem).1 hkind.symm)
  | some stored =>
    obtain rfl := Option.some.inj ((h.kept hne hfirst).symm.trans hget)
    simp [lacks, find?_eq_some.2 hfirst]

/-- A chore is done by the creation of its object where there was none. -/
theorem Furnished.put (h : Furnished place cell first done exchanges now)
    (hmade : made later = [chore.object]) (hnone : now.objects.get? chore.path = none)
    {next : Resource (.plain chore.kind)}
    (hobjects : after.objects = now.objects.set chore.path ⟨.plain chore.kind, next⟩)
    (hnext : next.outline = chore.planned.wholeSeconds.outline) :
    Furnished place cell first (done ++ [chore]) (exchanges ++ later) after := by
  have hafter : ∀ path, after.objects.get? path =
      if chore.path = path then some ⟨.plain chore.kind, next⟩ else now.objects.get? path := by
    intro path
    rw [hobjects]
    exact StringMap.get?_set ..
  -- what was there before is under another path
  have hstays : ∀ {path object}, now.objects.get? path = some object →
      chore.path ≠ path ∧ after.objects.get? path = some object := by
    intro path object hget
    have hne : chore.path ≠ path := by
      rintro rfl
      exact absurd (hget.symm.trans hnone) (by simp)
    exact ⟨hne, by rw [hafter, if_neg hne, hget]⟩
  have hplace := (hstays h.held).1
  have hfirst := h.absent hplace hnone
  have hfilter : (done ++ [chore]).filter first.lacks = done.filter first.lacks ++ [chore] := by
    rw [List.filter_append, List.filter_singleton, lacks, find?_of_absent hfirst]
    rfl
  have houtline : (⟨.plain chore.kind, next⟩ : AnyResource).outline = chore.outline :=
    congrArg (AnyResource.mk _) hnext
  refine ⟨h.special, (hstays h.held).2, ?_, fun hne hget => (hstays (h.kept hne hget)).2, ?_, ?_, ?_⟩
  · rw [made_append, h.made_eq, hmade, hfilter, List.map_append]
    rfl
  · intro path object hne hpath hget
    rw [hafter] at hget
    rw [hfilter]
    split at hget
    · next heq =>
      obtain rfl := Option.some.inj hget
      exact ⟨chore, List.mem_append_right _ (List.mem_singleton_self _), heq, houtline⟩
    · obtain ⟨earlier, hmem, hadded⟩ := h.added hne hpath hget
      exact ⟨earlier, List.mem_append_left _ hmem, hadded⟩
  · rw [hfilter]
    intro other hmem
    rcases List.mem_append.1 hmem with hmem | hmem
    · obtain ⟨object, hget, hobject⟩ := h.built other hmem
      exact ⟨object, (hstays hget).2, hobject⟩
    · obtain rfl := List.mem_singleton.1 hmem
      exact ⟨_, by rw [hafter, if_pos rfl], houtline⟩
  · intro kind hkind hplain
    exact (h.leaves kind hkind hplain).trans
      (leaves_of_set (hplain chore.kind).symm (find?_of_absent hnone) hobjects)

/-- One more chore is done. -/
theorem Furnished.step (h : Furnished place cell first done exchanges now)
    (hdistinct : ∀ earlier ∈ done, earlier.kind = chore.kind → earlier.path ≠ chore.path)
    {ensured : Ensured (.plain chore.kind)}
    (hensuring : Ensuring chore.planned now later (.ok ensured) after) :
    Furnished place cell first (done ++ [chore]) (exchanges ++ later) after := by
  cases hensuring with
  | found hmade hfind hobjects =>
    have hfilter : (done ++ [chore]).filter first.lacks = done.filter first.lacks := by
      rw [List.filter_append, List.filter_singleton, h.not_lacks hdistinct hfind]
      exact List.append_nil _
    have hsame := h.of_objects hobjects hmade
    exact ⟨h.special, hsame.held, hfilter ▸ hsame.made_eq, hsame.kept, hfilter ▸ hsame.added,
      hfilter ▸ hsame.built, hsame.leaves⟩
  | created hmade hnone hobjects hnext => exact h.put hmade hnone hobjects hnext

/-- To have the object of a chore in place does the chore, or it fails and makes nothing. -/
theorem Furnished.ensure (h : Furnished place cell first done exchanges now)
    (hdistinct : ∀ earlier ∈ done, earlier.kind = chore.kind → earlier.path ≠ chore.path) :
    (EdgeOperator.ensure chore.planned.key chore.planned).Unfolds (serveAmid script) now
      fun later result after =>
        match result with
        | .ok _ => Furnished place cell first (done ++ [chore]) (exchanges ++ later) after
        | .error e => Furnished place cell first done (exchanges ++ later) after ∧
          ∃ code reason, e = refused code reason := by
  refine (ensure_ensuring chore.planned now).mono fun later result after hensuring => ?_
  cases result with
  | ok ensured => exact h.step hdistinct hensuring
  | error e =>
    cases hensuring with
    | failed hmade hrefused hobjects => exact ⟨h.of_objects hobjects hmade, hrefused⟩

end Cluster

/-! ## The stack of an anchor -/

namespace Component

/-- The path of a component's object. -/
def path (component : Component) (owner : Owner) : String :=
  (component.key owner).path (.plain component.kind)

variable (owner : Owner)

theorem namespaceName?_key (component : Component) :
    (component.key owner).namespaceName? =
      if component.kind.isClusterScoped then none else some (Names.scope owner.name) := by
  cases component <;> rfl

/-- Components of one kind that are not the same one are written under different paths. -/
theorem path_ne_of_kind_eq {a b : Component} (hkind : a.kind = b.kind) (hne : a ≠ b) :
    a.path owner ≠ b.path owner := by
  intro hpath
  unfold path at hpath
  refine key_ne_of_kind_eq owner hkind hne (ObjectKey.eq_of_path ?_ (hkind ▸ hpath))
  rw [namespaceName?_key, namespaceName?_key, hkind]

theorem path_ofComponent (component : Component) :
    (Chore.ofComponent owner component).path = component.path owner :=
  congrArg (ObjectKey.path · (.plain component.kind)) (component.key_blueprint owner)

/-- A blueprint has no times, so it is stored as it is. -/
theorem outline_ofComponent (component : Component) :
    (Chore.ofComponent owner component).outline =
      ⟨.plain component.kind, (component.blueprint owner).toResource.outline⟩ := by
  cases component <;> rfl

end Component

open Cluster in
/-- A component that was done for an anchor is there. -/
theorem Cluster.Furnished.present_component {owner : Owner} {place : String} {cell : AnyResource}
    {finished : List Component} {first now : Cluster} {exchanges : List Exchange}
    (h : Furnished place cell first (finished.map (Chore.ofComponent owner)) exchanges now)
    {anchor : Resource .anchor} (hfind : first.find? .anchor place = some anchor)
    {component : Component} (hmem : component ∈ finished) :
    ∃ object, now.find? (.plain component.kind) (component.path owner) = some object := by
  have hkind : Kind.anchor ≠ .plain component.kind := Kind.noConfusion
  rw [← Component.path_ofComponent]
  exact h.present (find?_none_of_kind_ne hfind hkind) (List.mem_map_of_mem hmem)

open Cluster in
/-- Components are done in their order, up to the first that fails. -/
theorem ensureComponents_furnished {script : Nat → Arrangement} {owner : Owner}
    {place : String} {cell : AnyResource} {done components : List Component} {first now : Cluster}
    {exchanges : List Exchange}
    (h : Furnished place cell first (done.map (Chore.ofComponent owner)) exchanges now)
    (hnodup : (done ++ components).Nodup) :
    (ensureComponents owner components).Unfolds (serveAmid script) now fun later result after =>
      ∃ finished, finished <+: components ∧ (result = .ok () → finished = components) ∧
        Furnished place cell first ((done ++ finished).map (Chore.ofComponent owner))
          (exchanges ++ later) after := by
  induction components generalizing done now exchanges with
  | nil =>
    refine unfolds_pure.2 ⟨[], List.nil_prefix, fun _ => rfl, ?_⟩
    rwa [List.append_nil, List.append_nil]
  | cons component rest ih =>
    have hdistinct : ∀ earlier ∈ done.map (Chore.ofComponent owner),
        earlier.kind = (Chore.ofComponent owner component).kind →
          earlier.path ≠ (Chore.ofComponent owner component).path := by
      intro earlier hmem hkind
      obtain ⟨other, hother, rfl⟩ := List.mem_map.1 hmem
      rw [Component.path_ofComponent, Component.path_ofComponent]
      refine Component.path_ne_of_kind_eq owner hkind ?_
      exact (List.nodup_append.1 hnodup).2.2 other hother component (List.mem_cons_self ..)
    have hstep : (component.ensure owner).Unfolds (serveAmid script) now
        fun later result after =>
          (∀ outcome, result = .ok outcome → Furnished place cell first
            ((done ++ [component]).map (Chore.ofComponent owner)) (exchanges ++ later) after) ∧
          ∀ e, result = .error e → Furnished place cell first
            (done.map (Chore.ofComponent owner)) (exchanges ++ later) after := by
      refine Unfolds.bind (component.key_blueprint owner ▸ h.ensure hdistinct) ?_ ?_
      · intro later ensured after hafter
        refine unfolds_pure.2 ⟨fun _ _ => ?_, by simp⟩
        rw [List.append_nil, List.map_append]
        exact hafter
      · exact fun later e after hafter => ⟨by simp, fun _ _ => hafter.1⟩
    refine hstep.bind ?_ ?_
    · intro later outcome middle hmiddle
      rw [List.append_cons] at hnodup
      refine (ih (hmiddle.1 outcome rfl) hnodup).mono ?_
      rintro final result after ⟨finished, hinitial, hall, hafter⟩
      refine ⟨component :: finished, List.cons_prefix_cons.2 ⟨rfl, hinitial⟩, ?_, ?_⟩
      · exact fun hok => congrArg (List.cons component) (hall hok)
      · rwa [List.append_cons, ← List.append_assoc]
    · intro later e after hafter
      exact ⟨[], List.nil_prefix, by simp, by rw [List.append_nil]; exact hafter.2 e rfl⟩

end EdgeOperator
