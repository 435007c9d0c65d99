import EdgeOperator.Proofs.Cluster.Amid

set_option autoImplicit false

/-! # Quiet clusters

Where no call is made to fail and no other writer waits, the answer to a call follows from what is
stored, and so does what is stored then (`Cluster.IsQuiet.serve_get`, `Cluster.IsQuiet.serve_create`,
`Cluster.IsQuiet.serve_replace`, `Cluster.IsQuiet.serve_delete`). Only the time of each call is left
open. -/

namespace EdgeOperator

namespace Cluster

variable {kind : Kind} {cluster : Cluster}

/-- Answers a call at the time that the number of calls before it tells. -/
def serveAt (clock : Nat → Timestamp) : Server :=
  serveAmid fun n => ⟨[], clock n⟩

/-- Whether the cluster has come about, no call is made to fail and no other writer waits. -/
structure IsQuiet (cluster : Cluster) : Prop where
  reachable : cluster.Reachable
  faultless : cluster.IsFaultless
  undisturbed : ∀ path, cluster.IsUndisturbed path

theorem now_letIn (cluster : Cluster) (path : String) : (cluster.letIn path).now = cluster.now := by
  unfold letIn
  split <;> rfl

theorem now_answer (cluster : Cluster) (request : Request) :
    (cluster.answer request).2.now = cluster.now := by
  cases request with
  | get kind key => rfl
  | list kind namespaceName? => rfl
  | create kind object =>
    simp only [answer, create]
    split <;> rfl
  | replace kind object =>
    rw [← now_letIn cluster object.path]
    simp only [answer, replace]
    split
    · rfl
    · split
      · rfl
      · split <;> rfl
  | delete kind key =>
    simp only [answer, delete]
    split
    · rfl
    · split
      · rfl
      · split <;> rfl

/-- No call moves the clock. -/
theorem now_serve (request : Request) (cluster : Cluster) :
    (serve request cluster).2.now = cluster.now := by
  rw [serve_eq]
  split
  · rfl
  · exact now_answer ..

theorem serveAt_now (request : Request) (cluster : Cluster) :
    serveAt (fun _ => cluster.now) request cluster = serve request cluster := by
  simp only [serveAt, serveAmid, arrange, List.append_nil]

/-- A run that nothing interrupts is one at the time of the cluster. -/
theorem run_serveAt_now {α : Type} (program : Program α) (cluster : Cluster) :
    program.run (serveAt fun _ => cluster.now) cluster = program.run serve cluster := by
  generalize hnow : cluster.now = now
  induction program generalizing cluster with
  | done result => rfl
  | call request next ih =>
    have hserve : serveAt (fun _ => now) request cluster = serve request cluster :=
      hnow ▸ serveAt_now request cluster
    have hlater := (now_serve request cluster).trans hnow
    unfold Program.run
    rw [hserve]
    exact ih _ _ hlater

/-- What is said of a run at the time of the cluster is so of the run that nothing interrupts. -/
theorem ends_of_unfolds_now {α : Type} {program : Program α} {cluster : Cluster}
    {post : List Exchange → Except OperatorError α → Cluster → Prop}
    (h : program.Unfolds (serveAt fun _ => cluster.now) cluster post) :
    program.Ends serve cluster fun result after => ∃ exchanges, post exchanges result after := by
  unfold Program.Ends
  rw [← run_serveAt_now]
  exact ⟨_, h⟩

theorem replace_of_current {object current : Resource kind}
    (hfind : cluster.find? kind object.path = some current)
    (hcurrent : isOutdated current object = false) :
    cluster.replace object = (.ok (cluster.replaced current object),
      cluster.settled object.path (cluster.replaced current object)) := by
  unfold replace settled
  simp only [hfind, hcurrent, Bool.false_eq_true, if_false]
  split <;> rfl

namespace IsQuiet

theorem arrange (h : cluster.IsQuiet) (now : Timestamp) : (cluster.arrange ⟨[], now⟩).IsQuiet where
  reachable := h.reachable.arrange _
  faultless fault hmem := h.faultless fault (by simpa [Cluster.arrange] using hmem)
  undisturbed := h.undisturbed

theorem serve (h : cluster.IsQuiet) (request : Request) :
    (Cluster.serve request cluster).2.IsQuiet where
  reachable := h.reachable.serve request
  faultless := h.faultless.serve request
  undisturbed path := (h.undisturbed path).serve request

theorem serveAt (h : cluster.IsQuiet) (clock : Nat → Timestamp) (request : Request) :
    (Cluster.serveAt clock request cluster).2.IsQuiet :=
  (h.arrange _).serve request

/-- A run on a quiet cluster leaves a quiet cluster. -/
theorem keeping (h : cluster.IsQuiet) {clock : Nat → Timestamp} {α : Type} {program : Program α}
    {post : List Exchange → Except OperatorError α → Cluster → Prop}
    (hunfolds : program.Unfolds (Cluster.serveAt clock) cluster post) :
    program.Unfolds (Cluster.serveAt clock) cluster fun exchanges result after =>
      post exchanges result after ∧ after.IsQuiet :=
  hunfolds.keeping (fun request _ hnow => hnow.serveAt clock request) h

/-- Nobody waits, so whoever waits has any property. -/
theorem allWaiting (h : cluster.IsQuiet) (property : String → Edit → Prop) :
    cluster.AllWaiting property := by
  intro path edits hget edit hmem
  have hnobody := h.undisturbed path
  unfold IsUndisturbed at hnobody
  rw [hget] at hnobody
  obtain rfl : edits = [] := hnobody
  cases hmem

/-- A call is answered by a cluster that is as before, but for the time and the note of the call. -/
theorem exists_asked (h : cluster.IsQuiet) (clock : Nat → Timestamp) (request : Request) :
    ∃ asked : Cluster, asked.objects = cluster.objects ∧ asked.nextVersion = cluster.nextVersion ∧
      asked.edits = cluster.edits ∧ Cluster.serveAt clock request cluster = asked.answer request ∧
      (asked.answer request).2.IsQuiet := by
  let arranged := cluster.arrange ⟨[], clock cluster.calls.length⟩
  have harranged : arranged.IsQuiet := h.arrange _
  have hserve := harranged.faultless.serve_eq request
  exact ⟨(arranged.note request.call).2, rfl, rfl, rfl, hserve, hserve ▸ harranged.serve request⟩

/-! ## What each call comes to -/

theorem serve_get (h : cluster.IsQuiet) (clock : Nat → Timestamp) (kind : Kind) (key : ObjectKey) :
    ∃ after, Cluster.serveAt clock (.get kind key) cluster =
        (.ok (cluster.find? kind (key.path kind)), after) ∧
      after.IsQuiet ∧ after.objects = cluster.objects := by
  obtain ⟨asked, hobjects, _, _, hserve, hquiet⟩ := h.exists_asked clock (.get kind key)
  refine ⟨asked, hserve.trans ?_, hquiet, hobjects⟩
  rw [← find?_congr (congrArg (StringMap.get? · (key.path kind)) hobjects)]
  rfl

/-- Where there is nothing, an object is created, and its version is the next one. -/
theorem serve_create (h : cluster.IsQuiet) (clock : Nat → Timestamp) {object : Resource kind}
    (hnone : cluster.objects.get? object.path = none) :
    ∃ asked after : Cluster, asked.nextVersion = cluster.nextVersion ∧
      Cluster.serveAt clock (.create kind object) cluster = (.ok (asked.created object), after) ∧
      after.IsQuiet ∧ after.objects =
        cluster.objects.set object.path ⟨kind, (asked.created object).wholeSeconds⟩ := by
  obtain ⟨asked, hobjects, hversion, _, hserve, hquiet⟩ := h.exists_asked clock (.create kind object)
  have hcreate : asked.answer (.create kind object) =
      (.ok (asked.created object), asked.put object.path (asked.created object)) :=
    create_of_absent (hobjects ▸ hnone)
  rw [hcreate] at hserve hquiet
  exact ⟨asked, _, hversion, hserve, hquiet, hobjects ▸ rfl⟩

/-- Where there is an object, none is created. -/
theorem serve_create_of_present (h : cluster.IsQuiet) (clock : Nat → Timestamp)
    {object : Resource kind} {stored : AnyResource}
    (hget : cluster.objects.get? object.path = some stored) :
    ∃ after, Cluster.serveAt clock (.create kind object) cluster =
        (.error (refused 409 "AlreadyExists"), after) ∧
      after.IsQuiet ∧ after.objects = cluster.objects := by
  obtain ⟨asked, hobjects, _, _, hserve, hquiet⟩ := h.exists_asked clock (.create kind object)
  have hcreate : asked.answer (.create kind object) =
      (.error (refused 409 "AlreadyExists"), asked) := create_of_present (hobjects ▸ hget)
  rw [hcreate] at hserve hquiet
  exact ⟨asked, hserve, hquiet, hobjects⟩

/-- An object gives way to a new version of it that names the version that was read; if it is
deleted and the new version has no finalizers, it goes. -/
theorem serve_replace (h : cluster.IsQuiet) (clock : Nat → Timestamp) {object read : Resource kind}
    (hfind : cluster.find? kind object.path = some read)
    (hversion : object.metadata.resourceVersion? = read.metadata.resourceVersion?)
    (hrevision : object.IsRevisionOf read) :
    ∃ version after, Cluster.serveAt clock (.replace kind object) cluster =
        (.ok (object.withVersion version), after) ∧
      after.IsQuiet ∧ after.objects =
        if object.metadata.isDeleted && object.metadata.finalizers.isEmpty then
          cluster.objects.erase object.path
        else
          cluster.objects.set object.path ⟨kind, (object.withVersion version).wholeSeconds⟩ := by
  obtain ⟨asked, hobjects, _, hedits, hserve, hquiet⟩ := h.exists_asked clock (.replace kind object)
  have hundisturbed : asked.IsUndisturbed object.path := by
    unfold IsUndisturbed
    rw [hedits]
    exact h.undisturbed object.path
  have hfound : asked.find? kind object.path = some read :=
    (find?_congr (congrArg (StringMap.get? · object.path) hobjects)).trans hfind
  have hnext : asked.replaced read object = object.withVersion asked.nextVersion := by
    unfold replaced Resource.withVersion
    rw [← hrevision.uid_eq, ← hrevision.creation_eq, ← hrevision.deletion_eq]
  have hreplace : asked.answer (.replace kind object) =
      (.ok (object.withVersion asked.nextVersion),
        asked.settled object.path (object.withVersion asked.nextVersion)) := by
    rw [answer, letIn_eq_self asked hundisturbed,
      replace_of_current hfound (by simp [isOutdated, hversion]), hnext]
  rw [hreplace] at hserve hquiet
  refine ⟨_, _, hserve, hquiet, ?_⟩
  rw [← hobjects]
  exact apply_ite Cluster.objects ..

/-- An object without finalizers goes by its deletion; any other is marked, unless it is already. -/
theorem serve_delete (h : cluster.IsQuiet) (clock : Nat → Timestamp) {key : ObjectKey}
    {current : Resource kind} (hfind : cluster.find? kind (key.path kind) = some current) :
    ∃ asked after : Cluster,
      Cluster.serveAt clock (.delete kind key) cluster = (.ok (), after) ∧
      after.IsQuiet ∧ after.objects =
        if current.metadata.finalizers.isEmpty then cluster.objects.erase (key.path kind)
        else if current.metadata.isDeleted then cluster.objects
        else cluster.objects.set (key.path kind) ⟨kind, (asked.marked current).wholeSeconds⟩ := by
  obtain ⟨asked, hobjects, _, _, hserve, hquiet⟩ := h.exists_asked clock (.delete kind key)
  have hfound : asked.find? kind (key.path kind) = some current :=
    (find?_congr (congrArg (StringMap.get? · (key.path kind)) hobjects)).trans hfind
  have hok : (asked.answer (.delete kind key)).1 = .ok () := by
    simp only [answer, delete, hfound]
    split
    · rfl
    · split <;> rfl
  refine ⟨asked, _, hserve.trans (Prod.ext hok rfl), hquiet, ?_⟩
  simp only [answer, delete, hfound]
  rw [← hobjects]
  split
  · rfl
  · split <;> rfl

end IsQuiet

end Cluster

end EdgeOperator
