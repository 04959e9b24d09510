import RymgaLoader.Gateway.Outcomes
import RymgaLoader.Native.Acquisition

/-!
# The clock windows of the two sides

The gateway tolerates a configured clock skew, the client a fixed one.  A
session that the gateway authorises is one that the client accepts where the
configured skew is not larger than the fixed one.
-/

namespace RymgaLoader.Interop

open Gateway Native Protocol

/-- The window of `SessionService.issue`. -/
def windowAccepts (configuration : GatewayConfiguration)
    (now timestamp : Int64) : Prop :=
  ¬(timestamp < now - configuration.clockSkewSeconds ∨
    timestamp > now + configuration.clockSkewSeconds)

/-- A request outside the window ends in the handler for protocol errors. -/
theorem prepare_of_not_windowAccepts {gateway : Deployment}
    {call : SessionCall} {request : SessionRequest}
    (late : ¬windowAccepts gateway.configuration call.now request.timestamp) :
    gateway.prepare call.licenseValidator call.now call.sessionId request =
      .error (.protocol
        ⟨"request timestamp outside the accepted window"⟩) := by
  unfold windowAccepts at late
  rw [Deployment.prepare, demand, if_neg late]
  rfl

/-- The window and the two moments of the manifest that `issue` makes. -/
theorem windowAccepts_of_prepared {gateway : Deployment} {call : SessionCall}
    {request : SessionRequest} {manifest : SessionManifest gateway.jdk}
    (prepared : gateway.Prepared call request manifest) :
    windowAccepts gateway.configuration call.now request.timestamp ∧
      manifest.issuedAt = call.now ∧ manifest.expiresAt =
        call.now + gateway.configuration.sessionTtlSeconds := by
  rw [windowAccepts, not_or, Int64.not_lt, gt_iff_lt, Int64.not_lt,
    prepared.data]
  exact ⟨⟨prepared.notEarly, prepared.notLate⟩, rfl, rfl⟩

/-- A client whose clock reads an accepted timestamp when it checks the
manifest issued for it finds the manifest fresh. -/
def WindowsCompatible (configuration : GatewayConfiguration) : Prop :=
  ∀ now timestamp m, Deployment.InstantSecond now →
    windowAccepts configuration now timestamp → m.issuedAt = now →
    m.expiresAt = now + configuration.sessionTtlSeconds →
      outsideWindow m timestamp = false

/-- Sums and differences of moments and small durations do not wrap. -/
private theorem toInt_shift {now duration : Int64}
    (clock : Deployment.InstantSecond now) (low : 0 ≤ duration.toInt)
    (high : duration.toInt ≤ 300) :
    (now + duration).toInt = now.toInt + duration.toInt ∧
      (now - duration).toInt = now.toInt - duration.toInt := by
  obtain ⟨first, last⟩ := clock
  constructor
  · rw [Int64.toInt_add]
    apply Int.bmod_eq_of_le <;> omega
  · rw [Int64.toInt_sub]
    apply Int.bmod_eq_of_le <;> omega

private theorem windowAccepts_iff {configuration : GatewayConfiguration}
    (limits : configuration.WithinLimits) {now timestamp : Int64}
    (clock : Deployment.InstantSecond now) :
    windowAccepts configuration now timestamp ↔
      now.toInt - configuration.clockSkewSeconds.toInt ≤ timestamp.toInt ∧
        timestamp.toInt ≤
          now.toInt + configuration.clockSkewSeconds.toInt := by
  obtain ⟨low, high⟩ := limits.clockSkewSeconds
  obtain ⟨sum, difference⟩ := toInt_shift clock low high
  rw [windowAccepts, not_or, Int64.not_lt, gt_iff_lt, Int64.not_lt,
    Int64.le_iff_toInt_le, Int64.le_iff_toInt_le, sum, difference]

/-- One side of the freshness test, between moments that are close. -/
private theorem side_eq_false_iff {left right : Int64}
    (near : |left.toInt - right.toInt| ≤ 1000) :
    (decide (left > right) && decide (left - right > clockSkewSeconds)) =
      false ↔ left.toInt - right.toInt ≤ 120 := by
  have skew : clockSkewSeconds.toInt = 120 := rfl
  have bounds := abs_le.mp near
  have difference : (left - right).toInt = left.toInt - right.toInt := by
    rw [Int64.toInt_sub]
    apply Int.bmod_eq_of_le <;> omega
  rw [Bool.and_eq_false_iff, decide_eq_false_iff_not, decide_eq_false_iff_not,
    gt_iff_lt, gt_iff_lt, Int64.lt_iff_toInt_lt, Int64.lt_iff_toInt_lt,
    difference, skew]
  omega

private theorem outsideWindow_iff {configuration : GatewayConfiguration}
    (limits : configuration.WithinLimits) {now timestamp : Int64}
    {m : Manifest} (clock : Deployment.InstantSecond now)
    (accepted : windowAccepts configuration now timestamp)
    (issued : m.issuedAt = now)
    (expires : m.expiresAt = now + configuration.sessionTtlSeconds) :
    outsideWindow m timestamp = false ↔
      now.toInt - timestamp.toInt ≤ 120 ∧ timestamp.toInt - now.toInt ≤
        configuration.sessionTtlSeconds.toInt + 120 := by
  obtain ⟨ttlLow, ttlHigh⟩ := limits.sessionTtlSeconds
  obtain ⟨skewLow, skewHigh⟩ := limits.clockSkewSeconds
  obtain ⟨early, late⟩ := (windowAccepts_iff limits clock).mp accepted
  have expiry := (toInt_shift clock (by omega) ttlHigh).1
  rw [outsideWindow, Bool.or_eq_false_iff, issued, expires,
    side_eq_false_iff (abs_le.mpr ⟨by omega, by omega⟩),
    side_eq_false_iff (abs_le.mpr ⟨by omega, by omega⟩), expiry]
  omega

/-- The windows are compatible exactly up to the client's own tolerance. -/
theorem windowsCompatible_iff (configuration : GatewayConfiguration)
    (admitted : configuration.validateSecurityLimits = .ok ()) :
    WindowsCompatible configuration ↔
      configuration.clockSkewSeconds.toInt ≤ 120 := by
  have limits := configuration.withinLimits admitted
  obtain ⟨skewLow, skewHigh⟩ := limits.clockSkewSeconds
  obtain ⟨ttlLow, ttlHigh⟩ := limits.sessionTtlSeconds
  constructor
  · intro compatible
    have clock : Deployment.InstantSecond 1000 := ⟨by decide, by decide⟩
    have earliest := (toInt_shift clock skewLow skewHigh).2
    have thousand : (1000 : Int64).toInt = 1000 := rfl
    have accepted : windowAccepts configuration 1000
        (1000 - configuration.clockSkewSeconds) := by
      rw [windowAccepts_iff limits clock, earliest]
      omega
    have fresh := compatible 1000 (1000 - configuration.clockSkewSeconds)
      ⟨[], [], [], [], [], [], [], [], 1000,
        1000 + configuration.sessionTtlSeconds, 0, 0⟩ clock accepted rfl rfl
    have gap := ((outsideWindow_iff limits clock accepted rfl rfl).mp fresh).1
    rw [earliest] at gap
    omega
  · intro small now timestamp m clock accepted issued expires
    obtain ⟨early, late⟩ := (windowAccepts_iff limits clock).mp accepted
    refine (outsideWindow_iff limits clock accepted issued expires).mpr ?_
    omega

theorem windowsCompatible_small :
    WindowsCompatible Deployment.smallConfiguration :=
  (windowsCompatible_iff Deployment.smallConfiguration (by decide)).mpr
    (by decide)

/-- With the largest skew the gateway admits, a client 200 seconds behind is
given a session it must refuse. -/
theorem windows_incompatible :
    ({ Deployment.smallConfiguration with
      clockSkewSeconds := 300 } : GatewayConfiguration).validateSecurityLimits =
        .ok () ∧
    ¬WindowsCompatible { Deployment.smallConfiguration with
      clockSkewSeconds := 300 } := by
  refine ⟨by decide, fun compatible => ?_⟩
  have fresh := compatible 1000 800 ⟨[], [], [], [], [], [], [], [], 1000, 1100,
    0, 0⟩ ⟨by decide, by decide⟩ (by unfold windowAccepts; decide) rfl rfl
  exact absurd fresh (by decide)

end RymgaLoader.Interop
