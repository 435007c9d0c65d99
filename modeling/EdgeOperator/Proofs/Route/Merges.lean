import EdgeOperator.Proofs.Route
import Mathlib.Data.List.Induction
import Mathlib.Data.List.Perm.Basic

set_option autoImplicit false

/-! # Many merges in a row

An entry takes the merges of its own pattern and hands on all others (`mergePaths_cons`), so a list
of merges is read entry by entry: the first entry of each pattern has the backend of the last merge
of that pattern, and the patterns that no entry takes come at the end, in the order of their first
merge. Which backend a pattern gets does not depend on the merges of other patterns
(`mergePaths_of_agree`). -/

namespace EdgeOperator

/-- A pattern, with the backend that it is to have. -/
structure Merge where
  pattern : String
  backend : Backend
deriving DecidableEq, Repr

/-- The paths after merges, one after the other. -/
def mergePaths (paths : List IngressPath) (merges : List Merge) : List IngressPath :=
  merges.foldl (fun paths merge => (mergePath paths merge.pattern merge.backend).paths) paths

/-- The merged patterns without an entry, each once, in the order of their first merge. -/
def newPatterns (paths : List IngressPath) (merges : List Merge) : List String :=
  ((merges.map (·.pattern)).filter fun pattern => pattern ∉ patterns paths).eraseDups

/-- The backend of the last merge of a pattern. -/
def lastBackend? (merges : List Merge) (pattern : String) : Option Backend :=
  ((merges.filter fun merge => merge.pattern = pattern).getLast?).map (·.backend)

/-! ## The last merge of a pattern -/

theorem lastBackend?_cons (merge : Merge) (merges : List Merge) (pattern : String) :
    lastBackend? (merge :: merges) pattern =
      (lastBackend? merges pattern).or
        (if merge.pattern = pattern then some merge.backend else none) := by
  unfold lastBackend?
  by_cases h : merge.pattern = pattern
  · simp only [List.filter_cons, h, decide_true, if_true, List.getLast?_cons]
    cases (merges.filter fun merge => merge.pattern = pattern).getLast? <;> rfl
  · simp [h]

theorem lastBackend?_append_cons {earlier later : List Merge} {merge : Merge}
    (hlater : ∀ other ∈ later, other.pattern ≠ merge.pattern) :
    lastBackend? (earlier ++ merge :: later) merge.pattern = some merge.backend := by
  have hnone : (later.filter fun other => other.pattern = merge.pattern) = [] :=
    List.filter_eq_nil_iff.2 fun other hmem => by simpa using hlater other hmem
  simp [lastBackend?, List.filter_append, hnone]

theorem lastBackend?_eq_none_iff {merges : List Merge} {pattern : String} :
    lastBackend? merges pattern = none ↔ ∀ merge ∈ merges, merge.pattern ≠ pattern := by
  simp [lastBackend?]

/-! ## One entry among many merges -/

@[simp] theorem mergePaths_nil (paths : List IngressPath) : mergePaths paths [] = paths :=
  rfl

theorem mergePaths_cons_merge (paths : List IngressPath) (merge : Merge) (merges : List Merge) :
    mergePaths paths (merge :: merges) =
      mergePaths (mergePath paths merge.pattern merge.backend).paths merges :=
  rfl

theorem mergePaths_append (paths : List IngressPath) (merges more : List Merge) :
    mergePaths paths (merges ++ more) = mergePaths (mergePaths paths merges) more :=
  List.foldl_append

/-- An entry after merges: with the backend of the last one of its pattern, if there is one. -/
def IngressPath.merged (path : IngressPath) (merges : List Merge) : IngressPath :=
  { path with backend := (path.path?.bind (lastBackend? merges)).getD path.backend }

theorem IngressPath.merged_of_ne {path : IngressPath} {merges : List Merge}
    (h : ∀ merge ∈ merges, path.path? ≠ some merge.pattern) : path.merged merges = path := by
  have hnone : path.path?.bind (lastBackend? merges) = none := by
    cases hpath : path.path? with
    | none => rfl
    | some pattern =>
      refine lastBackend?_eq_none_iff.2 fun merge hmem heq => h merge hmem ?_
      rw [hpath, heq]
  rw [IngressPath.merged, hnone]
  rfl

/-- The first entry takes the merges of its pattern and hands on the others. -/
theorem mergePaths_cons (path : IngressPath) (rest : List IngressPath) (merges : List Merge) :
    mergePaths (path :: rest) merges = path.merged merges ::
      mergePaths rest (merges.filter fun merge => path.path? ≠ some merge.pattern) := by
  induction merges generalizing path rest with
  | nil => rw [path.merged_of_ne (by simp)]; rfl
  | cons merge merges ih =>
    rw [mergePaths_cons_merge, mergePath]
    by_cases hpath : path.path? = some merge.pattern
    · have hmerged : IngressPath.merged { path with backend := merge.backend } merges =
          path.merged (merge :: merges) := by
        simp only [IngressPath.merged, hpath, Option.bind_some, lastBackend?_cons, if_true]
        cases lastBackend? merges merge.pattern <;> rfl
      have hstep : (if path.backend = merge.backend then (⟨path :: rest, false⟩ : MergedPaths)
          else ⟨{ path with backend := merge.backend } :: rest, true⟩).paths =
            { path with backend := merge.backend } :: rest := by
        split
        · next hbackend => simp [← hbackend]
        · rfl
      rw [if_pos hpath, hstep, ih, hmerged]
      simp [hpath]
    · have hmerged : path.merged merges = path.merged (merge :: merges) := by
        cases hpattern : path.path? with
        | none => simp [IngressPath.merged, hpattern]
        | some pattern =>
          have hne : merge.pattern ≠ pattern := fun heq => hpath (by rw [hpattern, heq])
          simp [IngressPath.merged, hpattern, lastBackend?_cons, hne]
      rw [if_neg hpath, ih, hmerged, List.filter_cons_of_pos (by simpa using hpath)]
      rfl

/-! ## The entries of the old paths -/

/-- An entry whose pattern is not merged, or has an entry in front of it, stays at its position. -/
theorem getElem?_mergePaths_of_other {front back : List IngressPath} {path : IngressPath}
    {merges : List Merge}
    (h : (∀ merge ∈ merges, path.path? ≠ some merge.pattern) ∨
      ∃ other ∈ front, other.path? = path.path?) :
    (mergePaths (front ++ path :: back) merges)[front.length]? = some path := by
  induction front generalizing merges with
  | nil =>
    have hother : ∀ merge ∈ merges, path.path? ≠ some merge.pattern := by simpa using h
    rw [List.nil_append, mergePaths_cons, path.merged_of_ne hother]
    rfl
  | cons head front ih =>
    rw [List.cons_append, mergePaths_cons, List.length_cons, List.getElem?_cons_succ]
    refine ih ?_
    rcases h with h | ⟨other, hmem, hother⟩
    · exact Or.inl fun merge hmem => h merge (List.mem_filter.1 hmem).1
    · rcases List.mem_cons.1 hmem with rfl | hmem
      · refine Or.inl fun merge hmem => ?_
        rw [← hother]
        simpa using (List.mem_filter.1 hmem).2
      · exact Or.inr ⟨other, hmem, hother⟩

/-! ## The backend of a pattern -/

/-- A merge leaves the backends of all other patterns. -/
theorem backendOf?_mergePath_of_ne (paths : List IngressPath) {pattern other : String}
    (h : pattern ≠ other) (backend : Backend) :
    backendOf? (mergePath paths pattern backend).paths other = backendOf? paths other := by
  have hagree := agreeBut_mergePath paths pattern backend (fun path? => path? = some other)
    fun same heq => decide_eq_false fun hsame => h (heq.symm.trans (Option.some.inj hsame))
  rw [backendOf?, ← List.head?_filter, hagree, List.head?_filter]
  rfl

/-- The last merge of a pattern gives it its backend. -/
theorem backendOf?_mergePaths (paths : List IngressPath) (merges : List Merge) (pattern : String) :
    backendOf? (mergePaths paths merges) pattern =
      (lastBackend? merges pattern).or (backendOf? paths pattern) := by
  induction merges generalizing paths with
  | nil => rfl
  | cons merge merges ih =>
    rw [mergePaths_cons_merge, ih, lastBackend?_cons, Option.or_assoc]
    by_cases h : merge.pattern = pattern
    · rw [if_pos h, ← h, backendOf?_mergePath]
      rfl
    · rw [if_neg h, backendOf?_mergePath_of_ne paths h]
      rfl

/-! ## The paths and their types -/

/-- The pattern and the type of a path, which no merge changes. -/
def IngressPath.outline (path : IngressPath) : Option String × String :=
  (path.path?, path.pathType)

theorem map_outline_mergePath (paths : List IngressPath) (pattern : String) (backend : Backend) :
    (mergePath paths pattern backend).paths.map (·.outline) = paths.map (·.outline) ++
      if pattern ∈ patterns paths then [] else [(some pattern, "ImplementationSpecific")] := by
  rcases mergePath_cases paths pattern backend with
    ⟨front, path, back, rfl, hpath, _, heq⟩ | ⟨hpaths, heq⟩ <;> rw [heq]
  · have hmem : pattern ∈ patterns (front ++ path :: back) :=
      List.mem_filterMap.2 ⟨path, by simp, hpath⟩
    rw [if_pos hmem]
    simp [IngressPath.outline]
  · have hnew : pattern ∉ patterns paths := by
      intro hmem
      obtain ⟨path, hpath, hpattern⟩ := List.mem_filterMap.1 hmem
      exact hpaths path hpath hpattern
    rw [if_neg hnew]
    simp [IngressPath.outline, IngressPath.route]

theorem patterns_eq_of_outline {paths others : List IngressPath} {more : List String}
    (h : paths.map (·.outline) =
      others.map (·.outline) ++ more.map fun pattern => (some pattern, "ImplementationSpecific")) :
    patterns paths = patterns others ++ more := by
  have hfst : ∀ list : List IngressPath, patterns list = (list.map (·.outline)).filterMap (·.1) :=
    fun list => by simp [patterns, IngressPath.outline, List.filterMap_map]
  rw [hfst, h, List.filterMap_append, ← hfst, List.filterMap_map]
  exact congrArg (patterns others ++ ·) (List.filterMap_some ..)

theorem newPatterns_append_singleton (paths : List IngressPath) (merges : List Merge)
    (merge : Merge) :
    newPatterns paths (merges ++ [merge]) = newPatterns paths merges ++
      if merge.pattern ∈ patterns paths ++ newPatterns paths merges then []
      else [merge.pattern] := by
  unfold newPatterns
  rw [List.map_append, List.filter_append, List.eraseDups_append]
  congr 1
  by_cases hold : merge.pattern ∈ patterns paths
  · simp [hold, List.removeAll]
  · by_cases hmerged : ∃ other ∈ merges, other.pattern = merge.pattern <;>
      simp [hold, hmerged, List.removeAll, List.mem_eraseDups, List.eraseDups_cons]

/-- The patterns after merges: the old ones, and behind them the new ones. -/
theorem map_outline_mergePaths (paths : List IngressPath) (merges : List Merge) :
    (mergePaths paths merges).map (·.outline) = paths.map (·.outline) ++
      (newPatterns paths merges).map fun pattern => (some pattern, "ImplementationSpecific") := by
  induction merges using List.reverseRecOn with
  | nil => simp [newPatterns]
  | append_singleton merges merge ih =>
    rw [mergePaths_append, newPatterns_append_singleton]
    show (mergePath _ merge.pattern merge.backend).paths.map (·.outline) = _
    rw [map_outline_mergePath, patterns_eq_of_outline ih, ih, List.append_assoc, List.map_append]
    congr 2
    split <;> rfl

/-- Merges repeat no path value either, where there was none. -/
theorem nodup_path?_mergePaths {paths : List IngressPath} (h : (paths.map (·.path?)).Nodup)
    (merges : List Merge) : ((mergePaths paths merges).map (·.path?)).Nodup := by
  have hfst : ∀ list : List IngressPath,
      list.map (·.path?) = (list.map (·.outline)).map (·.1) :=
    fun list => by simp [IngressPath.outline]
  induction merges generalizing paths with
  | nil => exact h
  | cons merge merges ih =>
    rw [mergePaths_cons_merge]
    refine ih ?_
    rw [hfst, map_outline_mergePath, List.map_append, ← hfst]
    split
    · simpa using h
    · next hnew =>
      refine List.nodup_append'.2 ⟨h, List.nodup_singleton _, List.disjoint_singleton.2 ?_⟩
      intro hmem
      obtain ⟨path, hpath, hpattern⟩ := List.mem_map.1 hmem
      exact hnew (List.mem_filterMap.2 ⟨path, hpath, hpattern⟩)

/-- Merges repeat no pattern. -/
theorem nodup_patterns_mergePaths {paths : List IngressPath} (h : (patterns paths).Nodup)
    (merges : List Merge) : (patterns (mergePaths paths merges)).Nodup := by
  induction merges generalizing paths with
  | nil => exact h
  | cons merge merges ih => exact ih (nodup_patterns_mergePath h merge.pattern merge.backend)

/-! ## The order of the merges -/

theorem lastBackend?_append_singleton (merges : List Merge) (merge : Merge) (pattern : String) :
    lastBackend? (merges ++ [merge]) pattern =
      if merge.pattern = pattern then some merge.backend else lastBackend? merges pattern := by
  unfold lastBackend?
  by_cases h : merge.pattern = pattern <;> simp [h]

/-- The new entries are one for each merged pattern. -/
theorem mem_mergePaths_nil {merges : List Merge} {entry : IngressPath} :
    entry ∈ mergePaths [] merges ↔
      ∃ pattern backend, lastBackend? merges pattern = some backend ∧
        entry = .route pattern backend := by
  induction merges using List.reverseRecOn generalizing entry with
  | nil => simp [lastBackend?]
  | append_singleton merges merge ih =>
    have hnodup : (patterns (mergePaths [] merges)).Nodup := by
      refine nodup_patterns_mergePaths ?_ merges
      exact List.nodup_nil
    have hroutes : ∀ path ∈ mergePaths [] merges, ∃ pattern backend,
        path = .route pattern backend := by
      intro path hmem
      obtain ⟨pattern, backend, _, rfl⟩ := ih.1 hmem
      exact ⟨pattern, backend, rfl⟩
    rw [mergePaths_append]
    show entry ∈ (mergePath _ merge.pattern merge.backend).paths ↔ _
    rw [mem_mergePath hnodup hroutes, ih]
    constructor
    · rintro (rfl | ⟨⟨pattern, backend, hlast, rfl⟩, hne⟩)
      · exact ⟨merge.pattern, merge.backend, by rw [lastBackend?_append_singleton, if_pos rfl], rfl⟩
      · have hpattern : merge.pattern ≠ pattern := fun heq => hne (heq ▸ rfl)
        exact ⟨pattern, backend, by rw [lastBackend?_append_singleton, if_neg hpattern, hlast], rfl⟩
    · rintro ⟨pattern, backend, hlast, rfl⟩
      rw [lastBackend?_append_singleton] at hlast
      by_cases hpattern : merge.pattern = pattern
      · rw [if_pos hpattern] at hlast
        obtain rfl : merge.backend = backend := Option.some.inj hlast
        exact Or.inl (by rw [hpattern])
      · rw [if_neg hpattern] at hlast
        refine Or.inr ⟨⟨pattern, backend, hlast, rfl⟩, fun heq => hpattern ?_⟩
        exact (Option.some.inj heq).symm

/-- Only the order in which each pattern is merged matters, the order of the new entries aside. -/
theorem mergePaths_of_agree (paths : List IngressPath) {merges others : List Merge}
    (h : ∀ pattern, (merges.filter fun merge => merge.pattern = pattern) =
      others.filter fun merge => merge.pattern = pattern) :
    (mergePaths paths merges).take paths.length = (mergePaths paths others).take paths.length ∧
      ((mergePaths paths merges).drop paths.length).Perm
        ((mergePaths paths others).drop paths.length) := by
  induction paths generalizing merges others with
  | nil =>
    have hnodup : ∀ merges, (mergePaths [] merges).Nodup := by
      intro merges
      refine List.Nodup.of_map (·.path?) (nodup_path?_mergePaths ?_ merges)
      exact List.nodup_nil
    refine ⟨rfl, (List.perm_ext_iff_of_nodup (hnodup merges) (hnodup others)).2 fun entry => ?_⟩
    rw [mem_mergePaths_nil, mem_mergePaths_nil]
    simp only [lastBackend?, h]
  | cons path rest ih =>
    have hmerged : path.merged merges = path.merged others := by
      have hlast : lastBackend? merges = lastBackend? others := by
        funext pattern
        rw [lastBackend?, h pattern, lastBackend?]
      rw [IngressPath.merged, hlast, IngressPath.merged]
    obtain ⟨htake, hdrop⟩ := @ih
      (merges.filter fun merge => path.path? ≠ some merge.pattern)
      (others.filter fun merge => path.path? ≠ some merge.pattern)
      fun pattern => by rw [List.filter_comm, h pattern, List.filter_comm]
    rw [mergePaths_cons, mergePaths_cons, hmerged]
    exact ⟨congrArg (_ :: ·) htake, hdrop⟩

/-! ## The law of merges -/

/-- What merges into paths lead to. -/
structure FollowsFrom (before : List IngressPath) (merges : List Merge)
    (after : List IngressPath) : Prop where
  /-- The new patterns come behind the old paths, which keep their places. -/
  values : after.map (·.path?) = before.map (·.path?) ++ (newPatterns before merges).map some
  /-- The old paths keep their types. -/
  types : after.map (·.pathType) = before.map (·.pathType) ++
    (newPatterns before merges).map fun _ => "ImplementationSpecific"
  /-- The first entry of a merged pattern has the backend of the last merge of that pattern. -/
  backends : ∀ earlier merge later, merges = earlier ++ merge :: later →
    (∀ other ∈ later, other.pattern ≠ merge.pattern) →
      backendOf? after merge.pattern = some merge.backend
  /-- An entry whose pattern is not merged, or has an entry in front of it, is as before. -/
  others : ∀ front path back, before = front ++ path :: back →
    ((∀ merge ∈ merges, path.path? ≠ some merge.pattern) ∨
      ∃ other ∈ front, other.path? = path.path?) →
      after[front.length]? = some path

theorem followsFrom_mergePaths (paths : List IngressPath) (merges : List Merge) :
    FollowsFrom paths merges (mergePaths paths merges) where
  values := by
    have houtline := congrArg (List.map Prod.fst) (map_outline_mergePaths paths merges)
    simpa [IngressPath.outline, Function.comp_def] using houtline
  types := by
    have houtline := congrArg (List.map Prod.snd) (map_outline_mergePaths paths merges)
    simpa [IngressPath.outline, Function.comp_def] using houtline
  backends := by
    rintro earlier merge later rfl hlater
    rw [backendOf?_mergePaths, lastBackend?_append_cons hlater]
    rfl
  others := by
    rintro front path back rfl hother
    exact getElem?_mergePaths_of_other hother

/-- A merge says that it changes nothing just where it leaves the paths. -/
theorem changed_eq_false_iff (paths : List IngressPath) (pattern : String) (backend : Backend) :
    (mergePath paths pattern backend).changed = false ↔
      (mergePath paths pattern backend).paths = paths := by
  refine ⟨paths_of_not_changed, fun hsame => ?_⟩
  have hbackend := backendOf?_mergePath paths pattern backend
  rw [hsame] at hbackend
  exact changed_mergePath.2 hbackend

theorem filter_pattern_swap {first second : Merge} (h : first.pattern ≠ second.pattern)
    (earlier later : List Merge) (pattern : String) :
    ((earlier ++ first :: second :: later).filter fun merge => merge.pattern = pattern) =
      (earlier ++ second :: first :: later).filter fun merge => merge.pattern = pattern := by
  by_cases hfirst : first.pattern = pattern
  · have hsecond : second.pattern ≠ pattern := fun heq => h (hfirst.trans heq.symm)
    simp [hfirst, hsecond]
  · simp [List.filter_cons, hfirst]

/-- **The law of merges.** Whatever the paths and whatever is merged into them, entry by entry the
outcome is the one of `FollowsFrom`. A further merge reports a change just where it makes one, and
made once more it makes none. Paths without repetitions stay so, and two merges of different
patterns in a row may change places: only the order of the new entries depends on it. -/
theorem merges_obey_law (paths : List IngressPath) (merges : List Merge) :
    FollowsFrom paths merges (mergePaths paths merges) ∧
    (∀ pattern backend,
      ((mergePath (mergePaths paths merges) pattern backend).changed = false ↔
        (mergePath (mergePaths paths merges) pattern backend).paths = mergePaths paths merges) ∧
      (mergePath (mergePath (mergePaths paths merges) pattern backend).paths
        pattern backend).changed = false) ∧
    ((patterns paths).Nodup → (patterns (mergePaths paths merges)).Nodup) ∧
    ((paths.map (·.path?)).Nodup → ((mergePaths paths merges).map (·.path?)).Nodup) ∧
    ∀ earlier first second later, merges = earlier ++ first :: second :: later →
      first.pattern ≠ second.pattern →
        (mergePaths paths merges).take paths.length =
          (mergePaths paths (earlier ++ second :: first :: later)).take paths.length ∧
        ((mergePaths paths merges).drop paths.length).Perm
          ((mergePaths paths (earlier ++ second :: first :: later)).drop paths.length) := by
  refine ⟨followsFrom_mergePaths paths merges, fun pattern backend => ⟨?_, ?_⟩,
    fun h => nodup_patterns_mergePaths h merges, fun h => nodup_path?_mergePaths h merges, ?_⟩
  · exact changed_eq_false_iff _ pattern backend
  · exact changed_mergePath.2 (backendOf?_mergePath _ pattern backend)
  · rintro earlier first second later rfl hne
    exact mergePaths_of_agree paths (filter_pattern_swap hne earlier later)

/-- The second entry of a pattern stays, and the new pattern has the backend that it got last. -/
example :
    let old := Backend.ofService "old" 80
    let new := Backend.ofService "new" 80
    mergePaths [⟨old, some "/a", "Exact"⟩, ⟨old, none, "Prefix"⟩, ⟨old, some "/a", "Prefix"⟩]
        [⟨"/b", old⟩, ⟨"/a", new⟩, ⟨"/b", new⟩] =
      [⟨new, some "/a", "Exact"⟩, ⟨old, none, "Prefix"⟩, ⟨old, some "/a", "Prefix"⟩,
        .route "/b" new] := by
  decide

end EdgeOperator
