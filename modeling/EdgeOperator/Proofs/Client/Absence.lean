import EdgeOperator.Client
import EdgeOperator.Proofs.Cluster

set_option autoImplicit false

/-! # Absence

A look-up of an object that is not there is refused, and the operator is told that there is nothing.
Which refusals say so is decided in two places: over HTTP by their reason, in memory by their class,
and so by their code. An API server gives the code 404 along with the reason `NotFound`, but what
stands in front of it may answer with a code alone.

A refusal reads alike in both places exactly if its code and its reason say the same
(`Client.lookups_read_alike_iff`). A bare 404 never does (`Client.bare_refusal_read_apart`). -/

namespace EdgeOperator

/-! ## Readings of a refusal -/

/-- Whether a call failed with a refusal of a code and a reason. -/
def FailedWith {α : Type} (result : Except OperatorError α) (code : Nat) (reason : String) : Prop :=
  ∃ status : ApiStatus, result = .error (.call (.api status)) ∧
    status.code = code ∧ status.reason = reason

/-- Whether two answers to a look-up that was refused read the refusal alike, and as its class
says. -/
structure ApiStatus.IsReadAlike {α : Type} (status : ApiStatus)
    (first second : Except OperatorError (Option α)) : Prop where
  /-- Both find nothing, or both fail with the code and the reason of the refusal. -/
  agree : (first = .ok none ∧ second = .ok none) ∨
    (FailedWith first status.code status.reason ∧ FailedWith second status.code status.reason)
  first_iff : first = .ok none ↔ status.failure = .notFound
  second_iff : second = .ok none ↔ status.failure = .notFound

/-- What a look-up answers that finds nothing on a condition, and fails otherwise. -/
theorem findsNothing_iff {α : Type} {condition : Prop} [Decidable condition] {e : OperatorError}
    {result : Except OperatorError (Option α)}
    (h : result = if condition then .ok none else .error e) : result = .ok none ↔ condition := by
  rw [h]
  by_cases hcondition : condition <;> simp [hcondition]

/-! ## Refused look-ups over HTTP -/

namespace Client

variable {σ : Type} {timeoutSeconds : Nat} {send : Http.Request → σ → Http.Reply × σ}
  {request : Request} {server : σ} {status : ApiStatus} {kind : Kind} {key : ObjectKey}

/-- Whether a call reaches a server, which refuses it in time. -/
structure IsRefused (timeoutSeconds : Nat) (send : Http.Request → σ → Http.Reply × σ)
    (request : Request) (server : σ) (status : ApiStatus) : Prop where
  hasTime : timeoutSeconds ≠ 0
  refused : ∃ httpRequest, (draft request).request = .ok httpRequest ∧
    replyText? (send httpRequest server).1 = some (.error (.api status))

/-- Over HTTP the reason of a refusal decides whether a look-up finds nothing. -/
theorem IsRefused.serve_get (h : IsRefused timeoutSeconds send (.get kind key) server status) :
    (serve timeoutSeconds send (.get kind key) server).1 =
      if status.reason = "NotFound" then .ok none else .error (.call (.api status)) := by
  obtain ⟨httpRequest, hrequest, hreply⟩ := h.refused
  simp only [serve, hrequest, if_neg h.hasTime, hreply, answer]
  split <;> rfl

end Client

/-! ## Refused look-ups in memory -/

namespace Cluster

variable {kind : Kind} {key : ObjectKey} {cluster : Cluster}

/-- A fault strikes the next call of its form, unless one strikes that was arranged before. -/
theorem strike_append {call : Call} {faults : List Fault} {fault : Fault}
    (hfree : (strike call faults).1 = none) (hcall : fault.call = call)
    (hleft : 0 < fault.remaining) :
    (strike call (faults ++ [fault])).1 = some (refused fault.code fault.reason) := by
  induction faults with
  | nil => simp [strike, hcall, hleft]
  | cons first rest ih =>
    by_cases hfirst : first.call = call ∧ 0 < first.remaining
    · simp [strike, hfirst] at hfree
    · simp only [strike, hfirst, if_false] at hfree
      simpa only [List.cons_append, strike, hfirst, if_false] using ih hfree

/-- In memory the code of a refusal decides whether a look-up finds nothing. -/
theorem serve_get_fail (code : Nat) (reason : String) {times : Nat}
    (hfree : (cluster.note (Request.get kind key).call).1 = none) (htimes : 0 < times) :
    (serve (.get kind key) (cluster.fail (Request.get kind key).call code reason times)).1 =
      if code = 404 then .ok none else .error (refused code reason) := by
  have hstruck : ((cluster.fail (Request.get kind key).call code reason times).note
      (Request.get kind key).call).1 = some (refused code reason) :=
    strike_append hfree rfl htimes
  rw [serve_eq, hstruck]
  simp only [struckAnswer, failure_refused]

end Cluster

/-! ## The main result -/

namespace Client

variable {σ : Type} {timeoutSeconds : Nat} {send : Http.Request → σ → Http.Reply × σ} {server : σ}
  {kind : Kind} {key : ObjectKey} {cluster : Cluster} {times : Nat}

/-- A refusal of a look-up reads alike over HTTP and in memory exactly if its code is 404 just when
its reason is `NotFound`. In memory a look-up finds nothing exactly if the class of the refusal says
so, whatever its reason is. -/
theorem lookups_read_alike_iff {status : ApiStatus}
    (hrefused : IsRefused timeoutSeconds send (.get kind key) server status)
    (hfree : (cluster.note (Request.get kind key).call).1 = none) (htimes : 0 < times) :
    ((Cluster.serve (.get kind key)
          (cluster.fail (Request.get kind key).call status.code status.reason times)).1 = .ok none ↔
        status.failure = .notFound) ∧
      (status.IsReadAlike (serve timeoutSeconds send (.get kind key) server).1
          (Cluster.serve (.get kind key)
            (cluster.fail (Request.get kind key).call status.code status.reason times)).1 ↔
        (status.code = 404 ↔ status.reason = "NotFound")) := by
  have hwire := hrefused.serve_get
  have hmemory := Cluster.serve_get_fail status.code status.reason hfree htimes
  have hfirst := findsNothing_iff hwire
  have hsecond := (findsNothing_iff hmemory).trans ApiStatus.failure_eq_notFound.symm
  refine ⟨hsecond, fun h => ?_, fun h => ⟨?_, ?_, hsecond⟩⟩
  · rw [← hfirst, h.first_iff, ApiStatus.failure_eq_notFound]
  · by_cases hcode : status.code = 404
    · exact Or.inl ⟨hfirst.2 (h.1 hcode), hsecond.2 (ApiStatus.failure_eq_notFound.2 hcode)⟩
    · have hreason : status.reason ≠ "NotFound" := fun hreason => hcode (h.2 hreason)
      rw [hwire, hmemory, if_neg hcode, if_neg hreason]
      exact Or.inr ⟨⟨status, rfl, rfl, rfl⟩, ⟨_, rfl, rfl, rfl⟩⟩
  · rw [hfirst, ← h, ApiStatus.failure_eq_notFound]

/-- The key of the settings of a team. -/
def settingsKey : ObjectKey :=
  .inNamespace "team" "settings"

/-- An API server that has no objects. -/
def emptyServer (_ : Http.Request) (_ : Unit) : Http.Reply × Unit :=
  (.response 404
    (.text "\x7b\"status\":\"Failure\",\"reason\":\"NotFound\",\"code\":404\x7d"), ())

/-- The refusal by an API server that has no objects reads alike. -/
theorem missing_settings_read_alike :
    IsRefused 30 emptyServer (.get (.plain .configMap) settingsKey) ()
        ⟨"Failure", "", "NotFound", 404⟩ ∧
      (⟨"Failure", "", "NotFound", 404⟩ : ApiStatus).IsReadAlike
        (serve 30 emptyServer (.get (.plain .configMap) settingsKey) ()).1
        (Cluster.serve (.get (.plain .configMap) settingsKey)
          (Cluster.fail { now := ⟨2024, 1, 1, 0, 0, 0, 0⟩ }
            (Request.get (.plain .configMap) settingsKey).call 404 "NotFound" 1)).1 := by
  have hrefused : IsRefused 30 emptyServer (.get (.plain .configMap) settingsKey) ()
      ⟨"Failure", "", "NotFound", 404⟩ :=
    ⟨by decide, ⟨.get, ⟨"/api/v1/namespaces/team/configmaps/settings", none⟩, none⟩, rfl, rfl⟩
  have hfree : (Cluster.note { now := ⟨2024, 1, 1, 0, 0, 0, 0⟩ }
      (Request.get (.plain .configMap) settingsKey).call).1 = none := rfl
  exact ⟨hrefused, (lookups_read_alike_iff hrefused hfree Nat.one_pos).2.2 (by decide)⟩

/-! ## Refusals that are only a code -/

/-- A refusal with the code 404 that says no more is read apart: over HTTP the look-up fails, though
its class is that of a missing object, and in memory it finds nothing. -/
theorem bare_refusal_read_apart {text : String}
    (hbare : (Json.Written.parse? text).bind ApiStatus.ofJson? = none)
    (hrefused : IsRefused timeoutSeconds send (.get kind key) server (.ofResponse 404 text))
    (hfree : (cluster.note (Request.get kind key).call).1 = none) (htimes : 0 < times) :
    (serve timeoutSeconds send (.get kind key) server).1 =
        .error (.call (.api (.ofResponse 404 text))) ∧
      (ApiStatus.ofResponse 404 text).failure = .notFound ∧
      (Cluster.serve (.get kind key) (cluster.fail (Request.get kind key).call 404
        (ApiStatus.ofResponse 404 text).reason times)).1 = .ok none := by
  have hstatus : ApiStatus.ofResponse 404 text =
      ⟨Http.statusText 404, Text.quoted text, "Failed to parse error data", 404⟩ := by
    rw [ApiStatus.ofResponse, hbare]
    rfl
  refine ⟨?_, ?_, ?_⟩
  · rw [hrefused.serve_get, hstatus]
    exact if_neg (show "Failed to parse error data" ≠ "NotFound" by decide)
  · rw [hstatus]
    rfl
  · rw [Cluster.serve_get_fail 404 _ hfree htimes]
    exact if_pos rfl

/-- A server that knows none of the paths of the API. -/
def strayServer (_ : Http.Request) (_ : Unit) : Http.Reply × Unit :=
  (.response 404 (.text "404 page not found"), ())

theorem stray_refusal_read_apart :
    IsRefused 30 strayServer (.get (.plain .configMap) settingsKey) ()
        (.ofResponse 404 "404 page not found") ∧
      (serve 30 strayServer (.get (.plain .configMap) settingsKey) ()).1 =
        .error (.call (.api (.ofResponse 404 "404 page not found"))) ∧
      (Cluster.serve (.get (.plain .configMap) settingsKey)
        (Cluster.fail { now := ⟨2024, 1, 1, 0, 0, 0, 0⟩ }
          (Request.get (.plain .configMap) settingsKey).call 404
          (ApiStatus.ofResponse 404 "404 page not found").reason 1)).1 = .ok none ∧
      ¬ (ApiStatus.ofResponse 404 "404 page not found").IsReadAlike
        (serve 30 strayServer (.get (.plain .configMap) settingsKey) ()).1
        (Cluster.serve (.get (.plain .configMap) settingsKey)
          (Cluster.fail { now := ⟨2024, 1, 1, 0, 0, 0, 0⟩ }
            (Request.get (.plain .configMap) settingsKey).call
            (ApiStatus.ofResponse 404 "404 page not found").code
            (ApiStatus.ofResponse 404 "404 page not found").reason 1)).1 := by
  have hbare : (Json.Written.parse? "404 page not found").bind ApiStatus.ofJson? = none := rfl
  have hrefused : IsRefused 30 strayServer (.get (.plain .configMap) settingsKey) ()
      (.ofResponse 404 "404 page not found") :=
    ⟨by decide, ⟨.get, ⟨"/api/v1/namespaces/team/configmaps/settings", none⟩, none⟩, rfl, rfl⟩
  have hfree : (Cluster.note { now := ⟨2024, 1, 1, 0, 0, 0, 0⟩ }
      (Request.get (.plain .configMap) settingsKey).call).1 = none := rfl
  obtain ⟨hwire, hclass, hmemory⟩ := bare_refusal_read_apart hbare hrefused hfree Nat.one_pos
  refine ⟨hrefused, hwire, hmemory, fun halike => ?_⟩
  -- what fails over HTTP is of the class that finds nothing
  have hnothing := halike.first_iff.2 hclass
  rw [hwire] at hnothing
  cases hnothing

end Client

end EdgeOperator
