import Pertexo.Library.Results
import Pertexo.Values.Encoding
import Pertexo.Values.Utf8

/-!
# Rate-limit decisions

## Classes, kinds and decisions

A decision names the budgets a request counts against: one for each dimension,
kept apart by the endpoint class, the kind and the identifier.
-/

namespace Pertexo
namespace RateLimits

open Values

inductive RateLimitEndpointClass where
  | webhook_preflight
  | callback_ingress
  | notice_unsubscribe
  | form_read
  | form_submission
  | form_workspace_submission
  | form_upload
  | identity_start
  | automation_authentication
  | directory_provisioning
  | identity_callback
  | authenticated_read
  | data_table_export
  | actor_mutation
  | ordinary_mutation
  | workflow_compile
  | run_admission
  | preview_test
  | connection_mutation
  | provider_test
  | destination_test
  | trigger_mutation
  | provider_execution
deriving DecidableEq, Repr

def RateLimitEndpointClass.text : RateLimitEndpointClass -> String
  | webhook_preflight => "webhook_preflight"
  | callback_ingress => "callback_ingress"
  | notice_unsubscribe => "notice_unsubscribe"
  | form_read => "form_read"
  | form_submission => "form_submission"
  | form_workspace_submission => "form_workspace_submission"
  | form_upload => "form_upload"
  | identity_start => "identity_start"
  | automation_authentication => "automation_authentication"
  | directory_provisioning => "directory_provisioning"
  | identity_callback => "identity_callback"
  | authenticated_read => "authenticated_read"
  | data_table_export => "data_table_export"
  | actor_mutation => "actor_mutation"
  | ordinary_mutation => "ordinary_mutation"
  | workflow_compile => "workflow_compile"
  | run_admission => "run_admission"
  | preview_test => "preview_test"
  | connection_mutation => "connection_mutation"
  | provider_test => "provider_test"
  | destination_test => "destination_test"
  | trigger_mutation => "trigger_mutation"
  | provider_execution => "provider_execution"

open RateLimitEndpointClass in
def RATE_LIMIT_ENDPOINT_CLASSES : List RateLimitEndpointClass :=
  [webhook_preflight, callback_ingress, notice_unsubscribe, form_read, form_submission,
    form_workspace_submission, form_upload, identity_start, automation_authentication,
    directory_provisioning, identity_callback, authenticated_read, data_table_export,
    actor_mutation, ordinary_mutation, workflow_compile, run_admission, preview_test,
    connection_mutation, provider_test, destination_test, trigger_mutation, provider_execution]

inductive RateLimitDimensionKind where
  | client_address
  | account
  | actor
  | workspace
  | connection
  | token
  | form
deriving DecidableEq, Repr

def RateLimitDimensionKind.text : RateLimitDimensionKind -> String
  | client_address => "client_address"
  | account => "account"
  | actor => "actor"
  | workspace => "workspace"
  | connection => "connection"
  | token => "token"
  | form => "form"

structure RateLimitDimension where
  kind : RateLimitDimensionKind
  identifier : ScriptString
  limit : Int
deriving DecidableEq, Repr

structure RateLimitDecision where
  endpointClass : RateLimitEndpointClass
  windowSeconds : Int
  dimensions : List RateLimitDimension
deriving DecidableEq, Repr

structure RateLimitQuota where
  limit : Int
  remaining : Int
  resetSeconds : Int
deriving DecidableEq, Repr

inductive DistributedRateLimitResult where
  | allowed (quota : Option RateLimitQuota)
  | refused (retryAfterSeconds : Int) (limitedDimension : RateLimitDimensionKind)
deriving DecidableEq, Repr

/-!
## Numbers of the clock

Whole numbers up to 2^53 add exactly. The sum of two of them lies below 2^54,
where the numbers that exist are the even ones: an odd sum goes to the
neighbour that is a multiple of four.
-/

def MAX_SAFE_INTEGER : Int :=
  9007199254740991

def addNumbers (left right : Int) : Int :=
  if left + right ≤ 9007199254740992 then left + right
  else if (left + right) % 4 = 1 then left + right - 1
  else if (left + right) % 4 = 3 then left + right + 1
  else left + right

def isSafeInteger (n : Int) : Bool :=
  decide (-MAX_SAFE_INTEGER ≤ n) && decide (n ≤ MAX_SAFE_INTEGER)

def ceilSeconds (millis : Int) : Int :=
  -((-millis) / 1000)

def MAX_WINDOW_SECONDS : Int :=
  MAX_SAFE_INTEGER / 1000

def RateLimitDecision.windowMillis (decision : RateLimitDecision) : Int :=
  decision.windowSeconds * 1000

/-!
## Keys of the counters
-/

def counterName (endpointClass : RateLimitEndpointClass) (dimension : RateLimitDimension) :
    ScriptString :=
  scriptString endpointClass.text ++ 0 :: (scriptString dimension.kind.text ++
    0 :: dimension.identifier)

/-- The bytes that are digested. A lone surrogate is digested as the replacement character. -/
def counterBytes (endpointClass : RateLimitEndpointClass) (dimension : RateLimitDimension) :
    Bytes :=
  utf8Bytes (scriptString endpointClass.text) ++ utf8Bytes [0] ++
    utf8Bytes (scriptString dimension.kind.text) ++ utf8Bytes [0] ++ utf8Bytes dimension.identifier

def counterKey (sha256 : Bytes -> String) (endpointClass : RateLimitEndpointClass)
    (dimension : RateLimitDimension) : String :=
  "pertexo:abuse:" ++ endpointClass.text ++ ":" ++ dimension.kind.text ++ ":" ++
    sha256 (counterBytes endpointClass dimension)

/-!
## Admitted decisions
-/

def dimensionName (dimension : RateLimitDimension) : ScriptString :=
  scriptString dimension.kind.text ++ 0 :: dimension.identifier

def assertDimensions (keys : List ScriptString) :
    List RateLimitDimension -> Except String Unit
  | [] => .ok ()
  | dimension :: rest =>
      if dimension.identifier.length = 0 ∨ trim dimension.identifier ≠ dimension.identifier then
        .error "Rate-limit decision identifier must be normalized"
      else if ¬ isSafeInteger dimension.limit ∨ dimension.limit ≤ 0 then
        .error "Rate-limit decision limit must be a positive safe integer"
      else if keys.contains (dimensionName dimension) then
        .error "Rate-limit decision dimensions must be unique"
      else assertDimensions (dimensionName dimension :: keys) rest

def assertDecision (decision : RateLimitDecision) : Except String Unit :=
  if ¬ RATE_LIMIT_ENDPOINT_CLASSES.contains decision.endpointClass then
    .error "Rate-limit decision endpoint class is invalid"
  else if ¬ isSafeInteger decision.windowSeconds ∨ decision.windowSeconds ≤ 0 ∨
      decision.windowSeconds > MAX_WINDOW_SECONDS then
    .error
      "Rate-limit decision window must be a positive integer with a safe millisecond projection"
  else if decision.dimensions.length = 0 then
    .error "Rate-limit decision requires at least one dimension"
  else assertDimensions [] decision.dimensions

/-!
## What an admitted decision has

Its dimensions have different names, so its counters are different ones, and
every budget and the window are positive.
-/

theorem assertDimensions_ok {keys : List ScriptString} {dimensions : List RateLimitDimension}
    (h : assertDimensions keys dimensions = .ok ()) :
    (forall dimension, dimension ∈ dimensions -> 0 < dimension.limit) ∧
      (dimensions.map dimensionName).Nodup ∧
        forall dimension, dimension ∈ dimensions -> dimensionName dimension ∉ keys := by
  induction dimensions generalizing keys with
  | nil => simp
  | cons dimension rest ih =>
      rw [assertDimensions] at h
      split at h
      · cases h
      · split at h
        · cases h
        · split at h
          · cases h
          · rename_i hlimit hfresh
            have hpositive : 0 < dimension.limit := by
              by_contra hnot
              exact hlimit (Or.inr (by omega))
            rcases ih h with ⟨hlimits, hnodup, hkeys⟩
            refine ⟨?_, ?_, ?_⟩
            · intro other hother
              rcases List.mem_cons.mp hother with rfl | hother
              · exact hpositive
              · exact hlimits other hother
            · rw [List.map_cons, List.nodup_cons]
              constructor
              · intro hmem
                rcases List.mem_map.mp hmem with ⟨other, hother, hname⟩
                apply hkeys other hother
                rw [hname]
                exact List.mem_cons_self
              · exact hnodup
            · intro other hother hmem
              rcases List.mem_cons.mp hother with rfl | hother
              · exact hfresh (List.contains_iff_mem.mpr hmem)
              · exact hkeys other hother (List.mem_cons_of_mem _ hmem)

structure IsAdmitted (decision : RateLimitDecision) : Prop where
  window : 0 < decision.windowSeconds
  dimensions : decision.dimensions ≠ []
  limits : forall dimension, dimension ∈ decision.dimensions -> 0 < dimension.limit
  names : (decision.dimensions.map (counterName decision.endpointClass)).Nodup

theorem isAdmitted_of_assertDecision {decision : RateLimitDecision}
    (h : assertDecision decision = .ok ()) : IsAdmitted decision := by
  rw [assertDecision] at h
  split at h
  · cases h
  · split at h
    · cases h
    · split at h
      · cases h
      · rename_i hwindow hlength
        rcases assertDimensions_ok h with ⟨hlimits, hnodup, _⟩
        refine ⟨?_, ?_, hlimits, ?_⟩
        · by_contra hnot
          exact hwindow (Or.inr (Or.inl (by omega)))
        · intro hnil
          rw [hnil] at hlength
          exact hlength rfl
        · have hname : counterName decision.endpointClass =
              (fun name => scriptString decision.endpointClass.text ++ 0 :: name) ∘
                dimensionName := rfl
          rw [hname, ← List.map_map]
          apply hnodup.map
          intro left right heq
          exact List.cons_inj_right 0 |>.mp (List.append_cancel_left heq)

/-!
## Counters told apart

A name determines its class and kind, which hold no separator, and with them the
key in the shared store. A key determines the digest of its bytes.
-/

theorem colon_not_mem_classText (endpointClass : RateLimitEndpointClass) :
    ':' ∉ endpointClass.text.toList := by
  cases endpointClass <;> decide

theorem colon_not_mem_kindText (kind : RateLimitDimensionKind) :
    ':' ∉ kind.text.toList := by
  cases kind <;> decide

theorem zero_not_mem_classText (endpointClass : RateLimitEndpointClass) :
    0 ∉ scriptString endpointClass.text := by
  cases endpointClass <;> decide

theorem zero_not_mem_kindText (kind : RateLimitDimensionKind) :
    0 ∉ scriptString kind.text := by
  cases kind <;> decide

theorem classText_injective {left right : RateLimitEndpointClass}
    (h : scriptString left.text = scriptString right.text) : left = right := by
  have hall (endpointClass : RateLimitEndpointClass) :
      endpointClass ∈ RATE_LIMIT_ENDPOINT_CLASSES := by
    cases endpointClass <;> decide
  have hnodup :
      (RATE_LIMIT_ENDPOINT_CLASSES.map fun endpointClass =>
        scriptString endpointClass.text).Nodup := by
    decide
  exact List.inj_on_of_nodup_map hnodup (hall left) (hall right) h

theorem kindText_injective {left right : RateLimitDimensionKind}
    (h : scriptString left.text = scriptString right.text) : left = right := by
  have hall (kind : RateLimitDimensionKind) :
      kind ∈ [.client_address, .account, .actor, .workspace, .connection, .token, .form] := by
    cases kind <;> decide
  have hnodup :
      (([.client_address, .account, .actor, .workspace, .connection, .token, .form] :
        List RateLimitDimensionKind).map fun kind => scriptString kind.text).Nodup := by
    decide
  exact List.inj_on_of_nodup_map hnodup (hall left) (hall right) h

theorem counterKey_eq_of_name {sha256 : Bytes -> String}
    {left right : RateLimitEndpointClass} {dimension other : RateLimitDimension}
    (h : counterName left dimension = counterName right other) :
    counterKey sha256 left dimension = counterKey sha256 right other := by
  have hparts := @eq_of_append_separator UInt16 0 _ _ _ _ (zero_not_mem_classText left)
    (zero_not_mem_classText right) h
  have hkinds := @eq_of_append_separator UInt16 0 _ _ _ _ (zero_not_mem_kindText dimension.kind)
    (zero_not_mem_kindText other.kind) hparts.right
  have hclass := classText_injective hparts.left
  have hkind := kindText_injective hkinds.left
  unfold counterKey counterBytes
  rw [hkinds.right, hclass, hkind]

theorem digest_eq_of_counterKey {sha256 : Bytes -> String}
    {left right : RateLimitEndpointClass} {dimension other : RateLimitDimension}
    (h : counterKey sha256 left dimension = counterKey sha256 right other) :
    sha256 (counterBytes left dimension) = sha256 (counterBytes right other) := by
  unfold counterKey at h
  have htext := congrArg String.toList h
  simp only [String.toList_append, List.append_assoc] at htext
  have hclass := eq_of_append_separator (colon_not_mem_classText left)
    (colon_not_mem_classText right) (List.append_cancel_left htext)
  have hkind := eq_of_append_separator (colon_not_mem_kindText dimension.kind)
    (colon_not_mem_kindText other.kind) hclass.right
  exact String.toList_injective hkind.right

end RateLimits
end Pertexo
