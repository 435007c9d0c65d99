import EdgeOperator.Route
import Mathlib.Data.List.Nodup

set_option autoImplicit false

/-! # What a merge does to the routes

A merge touches one entry of the list of paths (`mergePath_cases`): the first with the pattern, or a
new one at the end. So the entries of all other patterns stay, in their order
(`agreeBut_mergePath`), and in a list without repeated patterns the merged pattern has one entry,
with the merged backend (`isServed_mergePath`). All else in the ingress stays as well
(`IngressContent.sameButRoutes_withRoutes`). -/

namespace EdgeOperator

/-! ## Patterns -/

/-- The patterns of paths; a path may have none. -/
def patterns (paths : List IngressPath) : List String :=
  paths.filterMap (·.path?)

/-- Whether a pattern has one entry among the paths, and that with the given backend. -/
def IsServed (paths : List IngressPath) (pattern : String) (backend : Backend) : Prop :=
  (paths.filter fun path => path.path? = some pattern).map (·.backend) = [backend]

/-- Whether two lists have the same paths in the same order, those with certain patterns aside. -/
def AgreeBut (excepted : String → Prop) (before after : List IngressPath) : Prop :=
  ∀ keep : Option String → Bool, (∀ pattern, excepted pattern → keep (some pattern) = false) →
    (after.filter fun path => keep path.path?) = before.filter fun path => keep path.path?

theorem AgreeBut.refl (excepted : String → Prop) (paths : List IngressPath) :
    AgreeBut excepted paths paths :=
  fun _ _ => rfl

theorem AgreeBut.trans {excepted : String → Prop} {first second third : List IngressPath}
    (h : AgreeBut excepted first second) (h' : AgreeBut excepted second third) :
    AgreeBut excepted first third :=
  fun keep hkeep => (h' keep hkeep).trans (h keep hkeep)

theorem AgreeBut.mono {excepted more : String → Prop} {before after : List IngressPath}
    (h : AgreeBut excepted before after) (himp : ∀ pattern, excepted pattern → more pattern) :
    AgreeBut more before after :=
  fun keep hkeep => h keep fun pattern hpattern => hkeep pattern (himp pattern hpattern)

/-- A pattern that is not excepted is served as before. -/
theorem AgreeBut.isServed {excepted : String → Prop} {before after : List IngressPath}
    (h : AgreeBut excepted before after) {pattern : String} (hpattern : ¬ excepted pattern)
    {backend : Backend} (hserved : IsServed before pattern backend) :
    IsServed after pattern backend := by
  have hfilter := h (fun path? => path? = some pattern) fun other hother => by
    refine decide_eq_false fun heq => hpattern ?_
    exact Option.some.inj heq ▸ hother
  unfold IsServed
  rw [hfilter]
  exact hserved

/-! ## One merge -/

theorem mergePath_cases (paths : List IngressPath) (pattern : String) (backend : Backend) :
    (∃ front path back, paths = front ++ path :: back ∧ path.path? = some pattern ∧
      (∀ other ∈ front, other.path? ≠ some pattern) ∧
      mergePath paths pattern backend =
        ⟨front ++ { path with backend := backend } :: back, path.backend ≠ backend⟩) ∨
    ((∀ other ∈ paths, other.path? ≠ some pattern) ∧
      mergePath paths pattern backend = ⟨paths ++ [.route pattern backend], true⟩) := by
  induction paths with
  | nil => exact Or.inr ⟨by simp, rfl⟩
  | cons head rest ih =>
    rw [mergePath]
    split
    · next hpattern =>
      refine Or.inl ⟨[], head, rest, rfl, hpattern, by simp, ?_⟩
      split
      · next hbackend => simp [← hbackend]
      · next hbackend => simp [hbackend]
    · next hne =>
      rcases ih with ⟨front, path, back, rfl, hpath, hfront, heq⟩ | ⟨hrest, heq⟩
      · refine Or.inl ⟨head :: front, path, back, rfl, hpath, ?_, by rw [heq]; rfl⟩
        exact List.forall_mem_cons.2 ⟨hne, hfront⟩
      · exact Or.inr ⟨List.forall_mem_cons.2 ⟨hne, hrest⟩, by rw [heq]; rfl⟩

/-- All entries of other patterns stay as they are. -/
theorem agreeBut_mergePath (paths : List IngressPath) (pattern : String) (backend : Backend) :
    AgreeBut (· = pattern) paths (mergePath paths pattern backend).paths := by
  intro keep hkeep
  have hout := hkeep pattern rfl
  rcases mergePath_cases paths pattern backend with
    ⟨front, path, back, rfl, hpath, _, heq⟩ | ⟨_, heq⟩ <;> rw [heq]
  · simp [List.filter_append, hpath, hout]
  · simp [List.filter_append, IngressPath.route, hout]

/-- A merge repeats no pattern. -/
theorem nodup_patterns_mergePath {paths : List IngressPath} (h : (patterns paths).Nodup)
    (pattern : String) (backend : Backend) :
    (patterns (mergePath paths pattern backend).paths).Nodup := by
  rcases mergePath_cases paths pattern backend with
    ⟨front, path, back, rfl, hpath, _, heq⟩ | ⟨hpaths, heq⟩ <;> rw [heq]
  · simpa [patterns, List.filterMap_append, hpath] using h
  · have hnew : pattern ∉ patterns paths := by
      intro hmem
      obtain ⟨path, hpath, hpattern⟩ := List.mem_filterMap.1 hmem
      exact hpaths path hpath hpattern
    simp only [patterns, List.filterMap_append, IngressPath.route, List.filterMap_cons,
      List.filterMap_nil]
    exact List.nodup_append'.2 ⟨h, List.nodup_singleton _, List.disjoint_singleton.2 hnew⟩

/-- In a list without repeated patterns an entry is the only one of its pattern. -/
theorem isServed_of_mem {paths : List IngressPath} (h : (patterns paths).Nodup) (path : IngressPath)
    (hmem : path ∈ paths) {pattern : String} (hpath : path.path? = some pattern) :
    IsServed paths pattern path.backend := by
  unfold IsServed
  induction paths with
  | nil => simp at hmem
  | cons head rest ih =>
    have hrest : (patterns rest).Nodup := by
      refine List.Nodup.sublist ?_ h
      exact (List.sublist_cons_self head rest).filterMap _
    rcases List.mem_cons.1 hmem with rfl | hmem
    · have hfilter : (rest.filter fun other => other.path? = some pattern) = [] := by
        refine List.filter_eq_nil_iff.2 fun other hother heq => ?_
        have hnotMem : pattern ∉ patterns rest := by
          simp only [patterns, List.filterMap_cons, hpath, List.nodup_cons] at h
          exact h.1
        exact hnotMem (List.mem_filterMap.2 ⟨other, hother, by simpa using heq⟩)
      simp [hpath, hfilter]
    · have hhead : head.path? ≠ some pattern := by
        intro heq
        simp only [patterns, List.filterMap_cons, heq, List.nodup_cons] at h
        exact h.1 (List.mem_filterMap.2 ⟨path, hmem, hpath⟩)
      simpa [hhead] using ih hrest hmem

/-- In a list without repeated patterns an entry is all that there is with its pattern. -/
theorem filter_pattern_eq {paths : List IngressPath} (h : (patterns paths).Nodup)
    {entry : IngressPath} (hmem : entry ∈ paths) {pattern : String}
    (hpath : entry.path? = some pattern) :
    paths.filter (fun path => path.path? = some pattern) = [entry] := by
  have hserved := isServed_of_mem h entry hmem hpath
  obtain ⟨other, hother, _⟩ := List.map_eq_singleton_iff.1 hserved
  have hentry : entry ∈ paths.filter fun path => path.path? = some pattern :=
    List.mem_filter.2 ⟨hmem, by simpa using hpath⟩
  rw [hother, List.mem_singleton] at hentry
  rw [hother, hentry]

theorem isServed_mergePath {paths : List IngressPath} (h : (patterns paths).Nodup)
    (pattern : String) (backend : Backend) :
    IsServed (mergePath paths pattern backend).paths pattern backend := by
  have hnodup := nodup_patterns_mergePath h pattern backend
  rcases mergePath_cases paths pattern backend with
    ⟨front, path, back, rfl, hpath, _, heq⟩ | ⟨_, heq⟩ <;> rw [heq] at hnodup ⊢
  · exact isServed_of_mem hnodup { path with backend := backend } (by simp) hpath
  · exact isServed_of_mem hnodup (.route pattern backend) (by simp) rfl

/-- A merge that changes nothing finds the pattern served already. -/
theorem isServed_of_not_changed {paths : List IngressPath} (h : (patterns paths).Nodup)
    {pattern : String} {backend : Backend}
    (hchanged : (mergePath paths pattern backend).changed = false) :
    IsServed paths pattern backend := by
  rcases mergePath_cases paths pattern backend with
    ⟨front, path, back, rfl, hpath, _, heq⟩ | ⟨_, heq⟩ <;> rw [heq] at hchanged
  · obtain rfl : path.backend = backend := by simpa using hchanged
    exact isServed_of_mem h path (by simp) hpath
  · simp at hchanged

theorem paths_of_not_changed {paths : List IngressPath} {pattern : String} {backend : Backend}
    (hchanged : (mergePath paths pattern backend).changed = false) :
    (mergePath paths pattern backend).paths = paths := by
  rcases mergePath_cases paths pattern backend with
    ⟨front, path, back, rfl, hpath, _, heq⟩ | ⟨_, heq⟩ <;> rw [heq] at hchanged ⊢
  · obtain rfl : path.backend = backend := by simpa using hchanged
    rfl
  · simp at hchanged

/-- After a merge into routes of different patterns, the merged one is there, and of the others those
that have another pattern. -/
theorem mem_mergePath {paths : List IngressPath} (h : (patterns paths).Nodup)
    (hroutes : ∀ path ∈ paths, ∃ pattern backend, path = .route pattern backend)
    {pattern : String} {backend : Backend} {entry : IngressPath} :
    entry ∈ (mergePath paths pattern backend).paths ↔
      entry = .route pattern backend ∨ entry ∈ paths ∧ entry.path? ≠ some pattern := by
  rcases mergePath_cases paths pattern backend with
    ⟨front, path, back, rfl, hpath, hfront, heq⟩ | ⟨hpaths, heq⟩ <;> rw [heq]
  · obtain ⟨same, former, rfl⟩ := hroutes path (by simp)
    obtain rfl : pattern = same := (Option.some.inj hpath).symm
    have hback : ∀ other ∈ back, other.path? ≠ some pattern := by
      intro other hmem hother
      simp only [patterns, List.filterMap_append, List.filterMap_cons, hpath] at h
      exact (List.nodup_cons.1 h.of_append_right).1 (List.mem_filterMap.2 ⟨other, hmem, hother⟩)
    constructor
    · intro hmem
      rcases List.mem_append.1 hmem with hmem | hmem
      · exact Or.inr ⟨List.mem_append_left _ hmem, hfront entry hmem⟩
      · rcases List.mem_cons.1 hmem with rfl | hmem
        · exact Or.inl rfl
        · exact Or.inr ⟨List.mem_append_right _ (List.mem_cons_of_mem _ hmem), hback entry hmem⟩
    · rintro (rfl | ⟨hmem, hne⟩)
      · exact List.mem_append_right _ (List.mem_cons_self ..)
      · rcases List.mem_append.1 hmem with hmem | hmem
        · exact List.mem_append_left _ hmem
        · rcases List.mem_cons.1 hmem with rfl | hmem
          · exact absurd rfl hne
          · exact List.mem_append_right _ (List.mem_cons_of_mem _ hmem)
  · rw [List.mem_append, List.mem_singleton, or_comm]
    exact or_congr_right ⟨fun hmem => ⟨hmem, hpaths entry hmem⟩, And.left⟩

/-! ## The first path of a pattern -/

/-- The backend of the first path with a pattern. -/
def backendOf? (paths : List IngressPath) (pattern : String) : Option Backend :=
  (paths.find? fun path => path.path? = some pattern).map (·.backend)

theorem backendOf?_append_cons {front back : List IngressPath} {path : IngressPath}
    {pattern : String} (hfront : ∀ other ∈ front, other.path? ≠ some pattern)
    (hpath : path.path? = some pattern) :
    backendOf? (front ++ path :: back) pattern = some path.backend := by
  have hnone : front.find? (fun other => other.path? = some pattern) = none :=
    List.find?_eq_none.2 fun other hmem => by simpa using hfront other hmem
  simp [backendOf?, List.find?_append, hnone, hpath]

/-- In a list without repeated patterns the backend of a pattern is that of its entry. -/
theorem backendOf?_of_mem {paths : List IngressPath} (h : (patterns paths).Nodup)
    {entry : IngressPath} (hmem : entry ∈ paths) {pattern : String}
    (hpath : entry.path? = some pattern) : backendOf? paths pattern = some entry.backend := by
  rw [backendOf?, ← List.head?_filter, filter_pattern_eq h hmem hpath]
  rfl

/-- A merge gives the pattern its backend. -/
theorem backendOf?_mergePath (paths : List IngressPath) (pattern : String) (backend : Backend) :
    backendOf? (mergePath paths pattern backend).paths pattern = some backend := by
  rcases mergePath_cases paths pattern backend with
    ⟨front, path, back, rfl, hpath, hfront, heq⟩ | ⟨hpaths, heq⟩ <;> rw [heq]
  · exact backendOf?_append_cons hfront hpath
  · exact backendOf?_append_cons hpaths rfl

/-- A merge changes nothing where the pattern has its backend already. -/
theorem changed_mergePath {paths : List IngressPath} {pattern : String} {backend : Backend} :
    (mergePath paths pattern backend).changed = false ↔
      backendOf? paths pattern = some backend := by
  rcases mergePath_cases paths pattern backend with
    ⟨front, path, back, rfl, hpath, hfront, heq⟩ | ⟨hpaths, heq⟩ <;> rw [heq]
  · rw [backendOf?_append_cons hfront hpath]
    simp
  · have hnone : paths.find? (fun path => path.path? = some pattern) = none :=
      List.find?_eq_none.2 fun path hmem => by simpa using hpaths path hmem
    simp [backendOf?, hnone]

/-! ## The rest of an ingress -/

namespace IngressContent

/-- The rule groups behind the first. -/
def furtherRules (content : IngressContent) : List IngressRule :=
  ((content.spec?.bind (·.rules?)).getD []).tail

/-- The host of the first rule group. -/
def firstHost? (content : IngressContent) : Option String :=
  ((content.spec?.bind (·.rules?)).getD []).head?.bind (·.host?)

/-- Whether two contents differ in nothing but the paths of the first rule group. -/
structure SameButRoutes (before after : IngressContent) : Prop where
  status_eq : after.status? = before.status?
  defaultBackend_eq : after.spec?.bind (·.defaultBackend?) = before.spec?.bind (·.defaultBackend?)
  className_eq :
    after.spec?.bind (·.ingressClassName?) = before.spec?.bind (·.ingressClassName?)
  tls_eq : after.spec?.bind (·.tls?) = before.spec?.bind (·.tls?)
  firstHost_eq : after.firstHost? = before.firstHost?
  furtherRules_eq : after.furtherRules = before.furtherRules

theorem rules_withRoutes (content : IngressContent) (paths : List IngressPath) :
    ((content.withRoutes paths).spec?.bind (·.rules?)).getD [] =
      firstRule ((content.spec?.bind (·.rules?)).getD []) paths := by
  have hrules : (content.spec?.getD {}).rules? = content.spec?.bind (·.rules?) := by
    cases content.spec? <;> rfl
  simp only [withRoutes, Option.bind_some, Option.getD_some, hrules]

/-- Other routes leave everything else in an ingress as it was. -/
theorem sameButRoutes_withRoutes (content : IngressContent) (paths : List IngressPath) :
    content.SameButRoutes (content.withRoutes paths) where
  status_eq := rfl
  defaultBackend_eq := by cases hspec : content.spec? <;> simp [withRoutes, hspec]
  className_eq := by cases hspec : content.spec? <;> simp [withRoutes, hspec]
  tls_eq := by cases hspec : content.spec? <;> simp [withRoutes, hspec]
  firstHost_eq := by
    rw [firstHost?, rules_withRoutes, firstHost?]
    cases (content.spec?.bind (·.rules?)).getD [] <;> rfl
  furtherRules_eq := by
    rw [furtherRules, rules_withRoutes, furtherRules]
    cases (content.spec?.bind (·.rules?)).getD [] <;> rfl

end IngressContent

end EdgeOperator
