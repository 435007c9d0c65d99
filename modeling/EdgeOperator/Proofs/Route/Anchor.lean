import EdgeOperator.Proofs.Cluster.Stored
import EdgeOperator.Proofs.Owner
import EdgeOperator.Proofs.Text.Bytes
import EdgeOperator.Route.Anchor

set_option autoImplicit false

/-! # Which anchor is found

The anchor of a namespace is the first of those that live there, by the time of their creation and
then by the bytes of their names (`Cluster.IsFirstAnchor`). No two objects in a namespace share a
name, so there is one first anchor as soon as there is any, and a search finds just it
(`Cluster.findAnchor_canonical`): nothing else that the cluster holds, and nothing of how it came to
be, makes a difference. -/

namespace EdgeOperator

open Program

/-! ## The order of anchors -/

theorem Timestamp.eq_of_compare {a b : Timestamp} (h : compare a b = .eq) : a = b := by
  obtain ⟨year, month, day, hour, minute, second, nanos⟩ := a
  obtain ⟨year', month', day', hour', minute', second', nanos'⟩ := b
  replace h : compareLex (compareOn Timestamp.year) _ _ _ = .eq := h
  simpa only [compareLex, compareOn, Ordering.then_eq_eq, Std.compare_eq_iff_eq,
    Timestamp.mk.injEq] using h

instance : Std.TransOrd Timestamp :=
  inferInstanceAs (Std.TransCmp (compareLex (compareOn Timestamp.year) _))

instance : Std.LawfulEqOrd Timestamp where
  eq_of_compare := Timestamp.eq_of_compare

namespace Anchor

/-- Compares what anchors are ordered by. -/
def compareRanks : Option Timestamp × String → Option Timestamp × String → Ordering :=
  compareLex (compareOn Prod.fst) (compareOn Prod.snd)

instance : Std.TransCmp compareRanks :=
  inferInstanceAs (Std.TransCmp (compareLex (compareOn Prod.fst) (compareOn Prod.snd)))

variable {a b c : Resource .anchor} {anchors : List (Resource .anchor)}

theorem precedes_eq (a b : Resource .anchor) :
    precedes a b = (compareRanks (rank a) (rank b)).isLE :=
  rfl

theorem eq_of_compareRanks {r s : Option Timestamp × String} (h : compareRanks r s = .eq) :
    r = s := by
  simp only [compareRanks, compareLex, compareOn, Ordering.then_eq_eq, Std.compare_eq_iff_eq] at h
  exact Prod.ext h.1 h.2

/-- Whether an anchor was created before another, or at the same time and its name comes first by
its bytes. One without a time of creation counts as the earliest. -/
def IsBefore (a b : Resource .anchor) : Prop :=
  compare a.metadata.creationTimestamp? b.metadata.creationTimestamp? = .lt ∨
    a.metadata.creationTimestamp? = b.metadata.creationTimestamp? ∧
      Text.bytes a.metadata.displayName < Text.bytes b.metadata.displayName

theorem isBefore_iff : IsBefore a b ↔ compareRanks (rank a) (rank b) = .lt := by
  have hnames : compare a.metadata.displayName b.metadata.displayName = .lt ↔
      a.metadata.displayName < b.metadata.displayName := compareOfLessAndEq_eq_lt
  simp only [IsBefore, compareRanks, compareLex, compareOn, rank, Ordering.then_eq_lt,
    Std.compare_eq_iff_eq, Text.bytes_lt_bytes, hnames]

theorem precedes_refl (a : Resource .anchor) : precedes a a = true := by
  rw [precedes_eq]
  exact Std.ReflCmp.isLE_rfl

theorem precedes_trans (h : precedes a b = true) (h' : precedes b c = true) :
    precedes a c = true := by
  rw [precedes_eq] at h h' ⊢
  exact Std.TransCmp.isLE_trans h h'

theorem precedes_of_not (h : ¬ precedes a b = true) : precedes b a = true := by
  rw [precedes_eq] at h ⊢
  exact Ordering.isLE_of_eq_lt (Std.OrientedCmp.lt_of_not_isLE h)

/-- An anchor that precedes another one comes before it, unless the two are level. -/
theorem isBefore_of_precedes (h : precedes a b = true) (hne : rank a ≠ rank b) : IsBefore a b := by
  rw [precedes_eq] at h
  rw [isBefore_iff]
  rcases Ordering.isLE_iff_eq_lt_or_eq_eq.1 h with hlt | heq
  · exact hlt
  · exact absurd (eq_of_compareRanks heq) hne

theorem IsBefore.precedes (h : IsBefore a b) : precedes a b = true := by
  rw [precedes_eq, isBefore_iff.1 h]
  rfl

/-- No two anchors come before each other. -/
theorem IsBefore.asymm (h : IsBefore a b) : ¬ IsBefore b a := by
  rw [isBefore_iff] at h ⊢
  exact Std.OrientedCmp.not_lt_of_lt h

theorem least?_eq_none : least? anchors = none ↔ anchors = [] := by
  cases anchors with
  | nil => simp [least?]
  | cons head rest =>
    rw [least?]
    cases least? rest <;> simp

/-- The first anchor of a list precedes all. -/
theorem precedes_of_least? (h : least? anchors = some a) : ∀ b ∈ anchors, precedes a b = true := by
  induction anchors generalizing a with
  | nil => simp
  | cons head rest ih =>
    rw [least?] at h
    split at h
    · next hnone =>
      obtain rfl := Option.some.inj h
      obtain rfl := least?_eq_none.1 hnone
      simpa using precedes_refl head
    · next other hother =>
      obtain rfl := Option.some.inj h
      have hrest := ih hother
      split
      · next hhead =>
        refine List.forall_mem_cons.2 ⟨precedes_refl head, fun b hmem => ?_⟩
        exact precedes_trans hhead (hrest b hmem)
      · next hhead => exact List.forall_mem_cons.2 ⟨precedes_of_not hhead, hrest⟩

end Anchor

/-! ## The anchors of a namespace -/

namespace Cluster

variable {kind : Kind} {cluster other : Cluster} {scope : String} {anchor : Resource .anchor}

/-- Whether no object has a slash in its name or its namespace. -/
def AreSlashless (objects : StringMap AnyResource) : Prop :=
  ∀ path stored, objects.get? path = some stored → stored.resource.key.IsSlashless

/-- Whether the cluster has come about, no call is made to fail, and no object has a slash in its
name or its namespace. -/
structure IsPlain (cluster : Cluster) : Prop where
  reachable : cluster.Reachable
  faultless : cluster.IsFaultless
  slashless : AreSlashless cluster.objects

theorem areSlashless_iff :
    AreSlashless cluster.objects ↔ cluster.AllStored fun _ _ key => key.IsSlashless :=
  ⟨fun h path _ _ hfind => h path _ (find?_eq_some.1 hfind),
    fun h path stored hget => h path stored.kind stored.resource (find?_eq_some.2 hget)⟩

/-- What calls write without slashes in keys has no slashes in keys. -/
theorem IsPlain.serve (h : cluster.IsPlain) {request : Request} (hrequest : request.IsSlashless) :
    (Cluster.serve request cluster).2.IsPlain where
  reachable := h.reachable.serve request
  faultless := h.faultless.serve request
  slashless := by
    have hwaiting : cluster.AllWaiting fun path edit =>
        edit.KeepsStored (fun _ _ key => key.IsSlashless) path :=
      fun path edits hget edit hmem =>
        (h.reachable.hasPoliteEdits path edits hget edit hmem).keepsStored _ path
    exact areSlashless_iff.2 ((areSlashless_iff.1 h.slashless).serve hwaiting (hrequest.upholds id))

theorem IsPlain.clock (h : cluster.IsPlain) (now : Timestamp) :
    ({ cluster with now := now } : Cluster).IsPlain :=
  ⟨h.reachable.clock now, h.faultless, h.slashless⟩

theorem isPlain_empty (now : Timestamp) : IsPlain { now := now } where
  reachable := .empty now
  faultless := by simp [IsFaultless]
  slashless path stored hget := by simp at hget

/-- Whether an anchor is stored that lives in a namespace and is not deleted. -/
structure IsCandidate (cluster : Cluster) (scope : String) (anchor : Resource .anchor) : Prop where
  stored : ∃ path, cluster.find? .anchor path = some anchor
  namespaceName?_eq : anchor.metadata.namespaceName? = some scope
  live : anchor.metadata.deletionTimestamp? = none

/-- Whether an anchor comes before all others of its namespace that are not deleted. -/
def IsFirstAnchor (cluster : Cluster) (scope : String) (anchor : Resource .anchor) : Prop :=
  cluster.IsCandidate scope anchor ∧
    ∀ other, cluster.IsCandidate scope other → other ≠ anchor → Anchor.IsBefore anchor other

/-- There is at most one first anchor. -/
theorem IsFirstAnchor.unique {anchor' : Resource .anchor} (h : cluster.IsFirstAnchor scope anchor)
    (h' : cluster.IsFirstAnchor scope anchor') : anchor = anchor' := by
  by_contra hne
  exact (h.2 anchor' h'.1 (Ne.symm hne)).asymm (h'.2 anchor h.1 hne)

/-- What stands right under a namespace lives in a namespace. -/
theorem namespaceName?_ne_none {key : ObjectKey} (hkind : kind.isClusterScoped = false)
    {name : List Char}
    (h : (key.path kind).toList = (listPrefix kind (some scope)).toList ++ name) :
    key.namespaceName? ≠ none := by
  intro hnone
  have hslash : "/".toList = ['/'] := rfl
  rw [ObjectKey.toList_path, hnone, Kind.toList_path_none, listPrefix, String.toList_append, hslash,
    Kind.toList_path_some, List.append_assoc, List.append_assoc, List.append_assoc,
    List.append_assoc, List.append_cancel_left_eq] at h
  have hplural := segment_inj kind.slash_notMem_plural (by decide) h
  exact Kind.plural_ne_namespaces hkind hplural.1

/-- Without slashes in keys, the list of a namespace holds what lives there, and nothing else. -/
theorem IsPlain.mem_listed_iff (h : cluster.IsPlain) (hkind : kind.isClusterScoped = false)
    {object : Resource kind} :
    object ∈ cluster.listed kind (some scope) ↔
      (∃ path, cluster.find? kind path = some object) ∧
        object.metadata.namespaceName? = some scope := by
  have hsound := h.reachable.sound
  constructor
  · intro hmem
    obtain ⟨hfind, name, hname, hpath⟩ := mem_listed hsound hmem
    refine ⟨⟨_, hfind⟩, ?_⟩
    have hkey := h.slashless _ _ (find?_eq_some.1 hfind)
    obtain ⟨own, hown⟩ := Option.ne_none_iff_exists'.1 (namespaceName?_ne_none hkind hpath)
    have hscope := ObjectKey.eq_of_path_listed object.key hkey.name hown hname hpath
    exact hscope ▸ hown
  · rintro ⟨⟨path, hfind⟩, hscope⟩
    have hget := find?_eq_some.1 hfind
    obtain rfl : object.path = path := (hsound.kept hget).path_eq
    have hkey := h.slashless _ _ hget
    refine List.mem_filterMap.2 ⟨_, (StringMap.mem_iff_get? hsound.sorted).2 hget, ?_⟩
    have hlisted : (listPrefix kind (some scope)).toList.isPrefixOf? object.path.toList =
        some object.key.name.toList := by
      have hslash : "/".toList = ['/'] := rfl
      have hown : object.key.namespaceName? = some scope := hscope
      rw [List.isPrefixOf?_eq_some_iff_append_eq, Resource.path, ObjectKey.toList_path, hown,
        listPrefix, String.toList_append, hslash, List.append_assoc, List.singleton_append]
    have hname : object.key.name.toList.contains '/' = false := by simpa using hkey.name
    simp only [hlisted, hname, Bool.false_eq_true, if_false]
    exact AnyResource.ofKind?_eq_some.2 rfl

theorem IsPlain.mem_candidates_iff (h : cluster.IsPlain) :
    anchor ∈ (cluster.listed .anchor (some scope)).filter (!·.metadata.isDeleted) ↔
      cluster.IsCandidate scope anchor := by
  rw [List.mem_filter, h.mem_listed_iff rfl]
  constructor
  · rintro ⟨⟨hstored, hscope⟩, hlive⟩
    exact ⟨hstored, hscope, by simpa [Metadata.isDeleted] using hlive⟩
  · rintro ⟨hstored, hscope, hlive⟩
    exact ⟨⟨hstored, hscope⟩, by simp [Metadata.isDeleted, hlive]⟩

/-- Two anchors of a namespace have different names. -/
theorem IsPlain.eq_of_name (h : cluster.IsPlain) {anchor' : Resource .anchor}
    (hanchor : cluster.IsCandidate scope anchor) (hanchor' : cluster.IsCandidate scope anchor')
    (hname : anchor.metadata.displayName = anchor'.metadata.displayName) : anchor = anchor' := by
  obtain ⟨path, hfind⟩ := hanchor.stored
  obtain ⟨path', hfind'⟩ := hanchor'.stored
  have hpath : anchor.path = path := (h.reachable.sound.kept (find?_eq_some.1 hfind)).path_eq
  have hpath' : anchor'.path = path' := (h.reachable.sound.kept (find?_eq_some.1 hfind')).path_eq
  have hkey : anchor.key = anchor'.key := by
    simp only [Resource.key, Metadata.key, hname, hanchor.namespaceName?_eq,
      hanchor'.namespaceName?_eq]
  obtain rfl : path = path' := by rw [← hpath, ← hpath', Resource.path, Resource.path, hkey]
  exact Option.some.inj (hfind.symm.trans hfind')

/-- The search takes the first of the anchors that the list of the namespace holds. -/
theorem run_findAnchor (h : cluster.IsFaultless) (scope : String) :
    ((findAnchor scope).run serve cluster).1 =
      match Anchor.first? (cluster.listed .anchor (some scope)) with
      | some anchor => .ok anchor
      | none => .error (.missingAnchor scope) := by
  have hserve : (serve (.list .anchor (some scope)) cluster).1 =
      .ok (cluster.listed .anchor (some scope)) := congrArg Prod.fst (h.serve_eq _)
  unfold findAnchor Program.list
  rw [run_perform_bind, hserve]
  dsimp only
  cases Anchor.first? (cluster.listed .anchor (some scope)) <;> rfl

namespace IsPlain

theorem first?_eq_none (h : cluster.IsPlain) :
    Anchor.first? (cluster.listed .anchor (some scope)) = none ↔
      ∀ anchor, ¬ cluster.IsCandidate scope anchor := by
  rw [Anchor.first?, Anchor.least?_eq_none, List.eq_nil_iff_forall_not_mem]
  exact forall_congr' fun anchor => not_congr h.mem_candidates_iff

theorem isFirstAnchor_of_first? (h : cluster.IsPlain)
    (hfirst : Anchor.first? (cluster.listed .anchor (some scope)) = some anchor) :
    cluster.IsFirstAnchor scope anchor := by
  have hcandidate := h.mem_candidates_iff.1 (Anchor.mem_of_least? hfirst)
  refine ⟨hcandidate, fun other hother hne => ?_⟩
  have hprecedes := Anchor.precedes_of_least? hfirst other (h.mem_candidates_iff.2 hother)
  refine Anchor.isBefore_of_precedes hprecedes fun hrank => hne ?_
  exact h.eq_of_name hother hcandidate (congrArg Prod.snd hrank).symm

end IsPlain

/-- What the search for the anchor of a namespace comes to. -/
def foundAnchor (cluster : Cluster) (scope : String) : Except OperatorError (Resource .anchor) :=
  ((findAnchor scope).run serve cluster).1

/-- Whether an anchor that lives in a namespace and is not deleted has a time of creation and a
name. -/
def HasRank (cluster : Cluster) (scope : String) (rank : Option Timestamp × String) : Prop :=
  ∃ anchor, cluster.IsCandidate scope anchor ∧ Anchor.rank anchor = rank

namespace IsPlain

theorem foundAnchor_cases (h : cluster.IsPlain) (scope : String) :
    (∃ anchor, cluster.foundAnchor scope = .ok anchor ∧ cluster.IsFirstAnchor scope anchor) ∨
      cluster.foundAnchor scope = .error (.missingAnchor scope) ∧
        ∀ anchor, ¬ cluster.IsCandidate scope anchor := by
  rw [foundAnchor, run_findAnchor h.faultless]
  cases hfirst : Anchor.first? (cluster.listed .anchor (some scope)) with
  | some anchor => exact Or.inl ⟨anchor, rfl, h.isFirstAnchor_of_first? hfirst⟩
  | none => exact Or.inr ⟨rfl, h.first?_eq_none.1 hfirst⟩

theorem foundAnchor_eq_ok (h : cluster.IsPlain) :
    cluster.foundAnchor scope = .ok anchor ↔ cluster.IsFirstAnchor scope anchor := by
  rcases h.foundAnchor_cases scope with ⟨first, hfound, hfirst⟩ | ⟨hfound, hnone⟩ <;> rw [hfound]
  · constructor
    · rintro heq
      obtain rfl := Except.ok.inj heq
      exact hfirst
    · exact fun hanchor => congrArg _ (hfirst.unique hanchor)
  · exact ⟨fun heq => (by cases heq), fun hanchor => absurd hanchor.1 (hnone anchor)⟩

theorem foundAnchor_eq_error (h : cluster.IsPlain) {e : OperatorError} :
    cluster.foundAnchor scope = .error e ↔
      e = .missingAnchor scope ∧ ∀ anchor, ¬ cluster.IsCandidate scope anchor := by
  rcases h.foundAnchor_cases scope with ⟨first, hfound, hfirst⟩ | ⟨hfound, hnone⟩ <;> rw [hfound]
  · exact ⟨fun heq => (by cases heq), fun ⟨_, hnone⟩ => absurd hfirst.1 (hnone first)⟩
  · refine ⟨fun heq => ⟨(Except.error.inj heq).symm, hnone⟩, ?_⟩
    rintro ⟨rfl, _⟩
    rfl

/-- The anchor that is found comes before no other rank of its namespace. -/
theorem rank_isLE (h : cluster.IsFirstAnchor scope anchor) {rank : Option Timestamp × String}
    (hrank : cluster.HasRank scope rank) :
    (Anchor.compareRanks (Anchor.rank anchor) rank).isLE := by
  obtain ⟨candidate, hcandidate, rfl⟩ := hrank
  by_cases heq : candidate = anchor
  · rw [heq]
    exact Anchor.precedes_refl anchor
  · exact (h.2 candidate hcandidate heq).precedes

theorem foundAnchor_congr_rank (h : cluster.IsPlain) (hother : other.IsPlain)
    (hranks : ∀ rank, cluster.HasRank scope rank ↔ other.HasRank scope rank) :
    (other.foundAnchor scope).map Anchor.rank = (cluster.foundAnchor scope).map Anchor.rank := by
  rcases h.foundAnchor_cases scope with ⟨first, hfound, hfirst⟩ | ⟨hfound, hnone⟩ <;>
    rcases hother.foundAnchor_cases scope with ⟨first', hfound', hfirst'⟩ | ⟨hfound', hnone'⟩ <;>
    rw [hfound, hfound']
  · have hle := rank_isLE hfirst ((hranks _).2 ⟨first', hfirst'.1, rfl⟩)
    have hle' := rank_isLE hfirst' ((hranks _).1 ⟨first, hfirst.1, rfl⟩)
    have hrank := Anchor.eq_of_compareRanks (Std.OrientedCmp.isLE_antisymm hle' hle)
    exact congrArg Except.ok hrank
  · obtain ⟨candidate, hcandidate, _⟩ := (hranks _).1 ⟨first, hfirst.1, rfl⟩
    exact absurd hcandidate (hnone' candidate)
  · obtain ⟨candidate, hcandidate, _⟩ := (hranks _).2 ⟨first', hfirst'.1, rfl⟩
    exact absurd hcandidate (hnone candidate)

theorem foundAnchor_congr (h : cluster.IsPlain) (hother : other.IsPlain)
    (hcandidates : ∀ anchor, cluster.IsCandidate scope anchor ↔ other.IsCandidate scope anchor) :
    other.foundAnchor scope = cluster.foundAnchor scope := by
  have hsame : other.IsCandidate scope = cluster.IsCandidate scope :=
    funext fun anchor => propext (hcandidates anchor).symm
  rcases h.foundAnchor_cases scope with ⟨first, hfound, hfirst⟩ | ⟨hfound, hnone⟩ <;> rw [hfound]
  · refine hother.foundAnchor_eq_ok.2 ?_
    unfold IsFirstAnchor at hfirst ⊢
    rwa [hsame]
  · exact hother.foundAnchor_eq_error.2 ⟨rfl, hsame ▸ hnone⟩

end IsPlain

/-- The search for the anchor of a namespace finds the first, and there is one as soon as there is
any; it fails only where there is none. All else makes no difference: which other objects there are,
and in which order and how often the anchors were written. -/
theorem findAnchor_canonical (h : cluster.IsPlain) (scope : String) :
    ((∃ anchor, cluster.IsCandidate scope anchor) → ∃! anchor, cluster.IsFirstAnchor scope anchor) ∧
      (∀ anchor, cluster.foundAnchor scope = .ok anchor ↔ cluster.IsFirstAnchor scope anchor) ∧
      (∀ e, cluster.foundAnchor scope = .error e ↔
        e = .missingAnchor scope ∧ ∀ anchor, ¬ cluster.IsCandidate scope anchor) ∧
      ∀ other : Cluster, other.IsPlain →
        ((∀ anchor, cluster.IsCandidate scope anchor ↔ other.IsCandidate scope anchor) →
          other.foundAnchor scope = cluster.foundAnchor scope) ∧
        ((∀ rank, cluster.HasRank scope rank ↔ other.HasRank scope rank) →
          (other.foundAnchor scope).map Anchor.rank =
            (cluster.foundAnchor scope).map Anchor.rank) := by
  refine ⟨fun ⟨anchor, hanchor⟩ => ?_, fun anchor => h.foundAnchor_eq_ok,
    fun e => h.foundAnchor_eq_error, fun other hother =>
      ⟨h.foundAnchor_congr hother, h.foundAnchor_congr_rank hother⟩⟩
  rcases h.foundAnchor_cases scope with ⟨first, _, hfirst⟩ | ⟨_, hnone⟩
  · exact ⟨first, hfirst, fun other hother => hother.unique hfirst⟩
  · exact absurd hanchor (hnone anchor)

/-! ## Two anchors that were created at once -/

/-- The cluster after calls, each made at a time. -/
def afterCalls (cluster : Cluster) (calls : List (Timestamp × Request)) : Cluster :=
  calls.foldl (fun cluster call => (serve call.2 { cluster with now := call.1 }).2) cluster

theorem IsPlain.afterCalls (h : cluster.IsPlain) {calls : List (Timestamp × Request)}
    (hcalls : ∀ call ∈ calls, call.2.IsSlashless) : (cluster.afterCalls calls).IsPlain := by
  induction calls generalizing cluster with
  | nil => exact h
  | cons call rest ih =>
    obtain ⟨hcall, hrest⟩ := List.forall_mem_cons.1 hcalls
    exact ih ((h.clock call.1).serve hcall) hrest

/-- An anchor without a time of creation. -/
def newAnchor (scope name : String) (finalizers : List String) : Resource .anchor where
  metadata :=
    { name? := some name, namespaceName? := some scope, finalizers? := some finalizers }
  content := {}

/-- A full hour of one day. -/
def hourOf (hour : Nat) : Timestamp :=
  ⟨2024, 5, 17, hour, 0, 0, 0⟩

/-- Two anchors are created at once and the later name is rewritten; an older one is marked as
deleted, and another namespace has one that is older as well. -/
def twinCalls : List (Timestamp × Request) :=
  [(hourOf 7, .create .anchor (newAnchor "team" "attic" ["keep"])),
    (hourOf 7, .create .anchor (newAnchor "team-2" "attic" [])),
    (hourOf 8, .create .anchor (newAnchor "team" "edge" [])),
    (hourOf 8, .create .anchor (newAnchor "team" "blog" [])),
    (hourOf 9, .replace .anchor (newAnchor "team" "edge" ["keep"])),
    (hourOf 9, .delete .anchor (.inNamespace "team" "attic"))]

/-- The cluster after these calls. -/
def twinsCluster : Cluster :=
  Cluster.afterCalls { now := hourOf 0 } twinCalls

theorem twinCalls_isSlashless : ∀ call ∈ twinCalls, call.2.IsSlashless := by
  have hkey (scope name : String) (finalizers : List String) (hscope : '/' ∉ scope.toList)
      (hname : '/' ∉ name.toList) : (newAnchor scope name finalizers).key.IsSlashless :=
    ⟨hname, fun own hown => Option.some.inj hown ▸ hscope⟩
  simp only [twinCalls, List.forall_mem_cons, Request.IsSlashless, true_and]
  refine ⟨hkey _ _ _ ?_ ?_, hkey _ _ _ ?_ ?_, hkey _ _ _ ?_ ?_, hkey _ _ _ ?_ ?_,
    hkey _ _ _ ?_ ?_, by simp⟩ <;> decide

/-- Of the two the one is found whose name comes first, and a namespace whose name is only the
beginning of theirs has none. -/
theorem first_twin_found :
    twinsCluster.IsPlain ∧
      (∃ anchor, twinsCluster.IsFirstAnchor "team" anchor ∧
        Anchor.rank anchor = (some (hourOf 8), "blog")) ∧
      ∀ anchor, ¬ twinsCluster.IsCandidate "tea" anchor := by
  have hplain : twinsCluster.IsPlain := (isPlain_empty _).afterCalls twinCalls_isSlashless
  have hrank : (twinsCluster.foundAnchor "team").map Anchor.rank =
      .ok (some (hourOf 8), "blog") := by rfl
  have hmissing : twinsCluster.foundAnchor "tea" = .error (.missingAnchor "tea") := by rfl
  refine ⟨hplain, ?_, (((findAnchor_canonical hplain "tea").2.2.1 _).1 hmissing).2⟩
  cases hfound : twinsCluster.foundAnchor "team" with
  | error e =>
    rw [hfound] at hrank
    cases hrank
  | ok anchor =>
    rw [hfound] at hrank
    exact ⟨anchor, ((findAnchor_canonical hplain "team").2.1 anchor).1 hfound,
      Except.ok.inj hrank⟩

end Cluster

end EdgeOperator
