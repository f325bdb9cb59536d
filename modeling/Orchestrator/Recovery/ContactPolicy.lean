import Orchestrator.Recovery.Timestamps

/-!
# The contact policy

Which channels a lead may be contacted on, given what happened so far.

* `Lead`, `LeadEvent`, `RecoveryAttempt`, `RecoveryConfiguration`: what the policy reads;
* `isWithinContactWindow`: the window of the customer's timezone;
* `channelReasons`, `evaluateContactPolicy`: the policy;
* `Permits`: a channel is open.
-/

namespace Orchestrator

/-! ## What the policy reads -/

inductive RecoveryChannel where
  | sms
  | email
  | callTask
  deriving DecidableEq, Repr

/-- `LEAD_EVENT_KINDS`. -/
inductive LeadEventKind where
  | leadCreated
  | inboundMessage
  | outboundAttempt
  | outboundDelivered
  | outboundFailed
  | callAttempted
  | callConnected
  | appointmentBooked
  | appointmentCancelled
  | saleRecorded
  | paymentRecorded
  | doNotContact
  | consentRevoked
  deriving DecidableEq, Repr

/-- `SUPPRESSION_EVENT_KINDS`. -/
def LeadEventKind.suppresses : LeadEventKind → Bool
  | doNotContact | consentRevoked => true
  | _ => false

structure LeadEvent where
  eventId : String
  kind : LeadEventKind
  deriving DecidableEq

structure LeadConsent where
  smsOptIn : Option Bool := none
  emailOptIn : Option Bool := none
  callOptIn : Option Bool := none
  doNotContact : Option Bool := none
  consentRevokedAt : Option IsoDateTime := none
  deriving DecidableEq

structure Lead where
  leadId : String
  phone : Option String := none
  email : Option String := none
  consent : Option LeadConsent := none
  deriving DecidableEq

structure RecoveryAttempt where
  attemptId : String
  channel : RecoveryChannel
  sentAt : IsoDateTime
  deriving DecidableEq

structure ContactWindow where
  startHourLocal : ℕ
  endHourLocal : ℕ
  daysOfWeek : List ℕ
  deriving DecidableEq

/-- `RECOVERY_SAFETY_CEILINGS`, as far as the policy is bound by them. -/
def maxAttemptsCeiling : ℕ := 5

def maxCooldownMinutes : ℕ := 7 * 24 * 60

def maxRecoveryAgeDays : ℕ := 90

/-- A configuration that its schema accepts. -/
structure RecoveryConfiguration where
  enabled : Bool := true
  allowedChannels : List RecoveryChannel
  contactWindow : ContactWindow
  timezone : String
  maxSmsAttempts : ℕ
  maxEmailAttempts : ℕ
  maxCallTasks : ℕ
  cooldownMinutes : ℕ
  maximumRecoveryAgeDays : ℕ
  channels_nonempty : allowedChannels ≠ [] := by decide
  window_open : contactWindow.startHourLocal < contactWindow.endHourLocal ∧
    contactWindow.endHourLocal ≤ 24 ∧ contactWindow.daysOfWeek ≠ [] ∧
    contactWindow.daysOfWeek.length ≤ 7 ∧ ∀ d ∈ contactWindow.daysOfWeek, d ≤ 6 := by decide
  attempts_capped : (1 ≤ maxSmsAttempts ∧ maxSmsAttempts ≤ maxAttemptsCeiling) ∧
    (1 ≤ maxEmailAttempts ∧ maxEmailAttempts ≤ maxAttemptsCeiling) ∧
    (1 ≤ maxCallTasks ∧ maxCallTasks ≤ maxAttemptsCeiling) := by decide
  ages_capped : cooldownMinutes ≤ maxCooldownMinutes ∧
    (1 ≤ maximumRecoveryAgeDays ∧ maximumRecoveryAgeDays ≤ maxRecoveryAgeDays) := by decide

/-- `Intl.DateTimeFormat`: the hour and the short weekday of an instant in a timezone, if there
is such a timezone. -/
structure RecoveryClockwork where
  format : ℤ → String → Option (ℕ × String)

/-! ## The contact window -/

/-- A `RevenueRecoveryError` of code `RECOVERY_CONFIG_INVALID`. -/
structure RecoveryConfigInvalid where
  message : String
  deriving DecidableEq

def weekdays : List String := ["Sun", "Mon", "Tue", "Wed", "Thu", "Fri", "Sat"]

/-- The local hour and weekday. -/
def localTimeParts (X : RecoveryClockwork) (now : ℤ) (timezone : String) :
    Except RecoveryConfigInvalid (ℕ × ℕ) :=
  match X.format now timezone with
  | none => .error ⟨s!"Invalid IANA timezone: {timezone}"⟩
  | some (hour, weekday) =>
    match weekdays.idxOf? weekday with
    | none => .error ⟨"Failed to resolve local contact window"⟩
    | some dayOfWeek => .ok (if hour = 24 then 0 else hour, dayOfWeek)

def isWithinContactWindow (X : RecoveryClockwork) (now : ℤ) (config : RecoveryConfiguration) :
    Except RecoveryConfigInvalid Bool := do
  let (hour, dayOfWeek) ← localTimeParts X now config.timezone
  let w := config.contactWindow
  return dayOfWeek ∈ w.daysOfWeek && decide (hour ≥ w.startHourLocal) &&
    decide (hour < w.endHourLocal)

/-! ## The policy -/

inductive ContactPolicyReasonCode where
  | eligible
  | doNotContact
  | consentRevoked
  | channelNotAllowed
  | channelMissing
  | consentMissing
  | attemptLimitReached
  | cooldownActive
  | contactWindowClosed
  | recoveryAgeExceeded
  | configDisabled
  | leadAlreadyResponded
  | appointmentOrConversionPresent
  | caseNotActive
  | contactNotPermitted
  deriving DecidableEq, Repr

structure ContactPolicyChannelResult where
  channel : RecoveryChannel
  permitted : Bool
  reasonCodes : List ContactPolicyReasonCode
  deriving DecidableEq

structure ContactPolicyResult where
  eligible : Bool
  channels : List ContactPolicyChannelResult
  reasonCodes : List ContactPolicyReasonCode
  evaluatedAt : ℤ
  deriving DecidableEq

/-- The input of `evaluateContactPolicy`. Its two instants are only parsed: they are given in
milliseconds. -/
structure ContactPolicyInput where
  lead : Lead
  events : List LeadEvent
  attempts : List RecoveryAttempt
  config : RecoveryConfiguration
  now : ℤ
  gapDetectedAt : ℤ
  suppressFollowUpOnResponse : Option Bool := none
  caseStatus : Option String := none

namespace RecoveryConfiguration

/-- The limit on the attempts of a channel. -/
def maxAttempts (config : RecoveryConfiguration) : RecoveryChannel → ℕ
  | .sms => config.maxSmsAttempts
  | .email => config.maxEmailAttempts
  | .callTask => config.maxCallTasks

end RecoveryConfiguration

namespace Lead

/-- Where the lead is reached on a channel. -/
def address (lead : Lead) : RecoveryChannel → Option String
  | .sms => lead.phone
  | .email => lead.email
  | .callTask => lead.phone

/-- What the lead said about a channel, if anything. -/
def optIn (lead : Lead) (channel : RecoveryChannel) : Option Bool :=
  lead.consent.bind fun consent =>
    match channel with
    | .sms => consent.smsOptIn
    | .email => consent.emailOptIn
    | .callTask => consent.callOptIn

end Lead

/-- `b.sentAt.localeCompare(a.sentAt) <= 0`. -/
def RecoveryAttempt.SortsBefore (a b : RecoveryAttempt) : Prop := b.sentAt.localeLe a.sentAt

instance : DecidableRel RecoveryAttempt.SortsBefore := fun a b =>
  inferInstanceAs (Decidable (b.sentAt.localeLe a.sentAt))

/-- The attempts on a channel, the one with the greatest `sentAt` first. -/
def newestFirst (channel : RecoveryChannel) (attempts : List RecoveryAttempt) :
    List RecoveryAttempt :=
  (attempts.filter (·.channel = channel)).insertionSort RecoveryAttempt.SortsBefore

/-- The attempt from which the cooldown of a channel is counted. -/
def lastAttempt (channel : RecoveryChannel) (attempts : List RecoveryAttempt) :
    Option RecoveryAttempt :=
  (newestFirst channel attempts).head?

/-- The last attempt on the channel is too recent. -/
def coolingDown (input : ContactPolicyInput) (channel : RecoveryChannel) : Bool :=
  match lastAttempt channel input.attempts with
  | none => false
  | some last =>
    decide (0 < input.config.cooldownMinutes) &&
      decide (input.now - last.sentAt.dateParse < input.config.cooldownMinutes * 60000)

/-- Why a channel is closed, apart from what closes every channel before. -/
def channelReasons (input : ContactPolicyInput) (inWindow ageExceeded : Bool)
    (channel : RecoveryChannel) : List ContactPolicyReasonCode :=
  (if inWindow then [] else [.contactWindowClosed]) ++
  (if ageExceeded then [.recoveryAgeExceeded] else []) ++
  (if (input.lead.address channel).all (·.isEmpty) then [.channelMissing] else []) ++
  (if input.lead.optIn channel = some false then [.consentMissing] else []) ++
  (if (input.attempts.filter (·.channel = channel)).length ≥ input.config.maxAttempts channel
    then [.attemptLimitReached] else []) ++
  (if coolingDown input channel then [.cooldownActive] else [])

/-- The verdict on a channel with these reasons against it. -/
def channelResult (channel : RecoveryChannel) (reasons : List ContactPolicyReasonCode) :
    ContactPolicyChannelResult where
  channel := channel
  permitted := reasons.isEmpty
  reasonCodes := if reasons.isEmpty then [.eligible] else reasons

/-- The answer where every channel is closed for one reason. -/
def refusal (input : ContactPolicyInput) (channels : List RecoveryChannel)
    (reason : ContactPolicyReasonCode) : ContactPolicyResult where
  eligible := false
  channels := channels.map fun channel => ⟨channel, false, [reason]⟩
  reasonCodes := [reason]
  evaluatedAt := input.now

/-- The statuses of a case that is over. -/
def closedStatuses : List String := ["SUPPRESSED", "CLOSED_UNRECOVERED", "CONVERTED"]

def LeadEventKind.converts : LeadEventKind → Bool
  | appointmentBooked | saleRecorded | paymentRecorded => true
  | _ => false

def LeadEventKind.responds : LeadEventKind → Bool
  | inboundMessage | callConnected => true
  | _ => false

/-- Why every channel is closed, if one of the first checks says so, and the channels that the
answer lists. -/
def refusedOutright (input : ContactPolicyInput) :
    Option (List RecoveryChannel × ContactPolicyReasonCode) :=
  if input.config.enabled = false then some ([], .configDisabled)
  else if ∃ status ∈ input.caseStatus, status ∈ closedStatuses then some ([], .caseNotActive)
  else if (input.lead.consent.bind (·.doNotContact)) = some true ∨
      input.events.any (·.kind.suppresses) then
    some (input.config.allowedChannels, .doNotContact)
  else if (input.lead.consent.bind (·.consentRevokedAt)).isSome then
    some (input.config.allowedChannels, .consentRevoked)
  else if input.suppressFollowUpOnResponse ≠ some false ∧ input.events.any (·.kind.converts) then
    some ([], .appointmentOrConversionPresent)
  else if input.suppressFollowUpOnResponse ≠ some false ∧ input.events.any (·.kind.responds) then
    some ([], .leadAlreadyResponded)
  else none

def ageExceeded (input : ContactPolicyInput) : Bool :=
  decide (input.now - input.gapDetectedAt >
    input.config.maximumRecoveryAgeDays * 24 * 60 * 60 * 1000)

def evaluateContactPolicy (X : RecoveryClockwork) (input : ContactPolicyInput) :
    Except RecoveryConfigInvalid ContactPolicyResult :=
  match refusedOutright input with
  | some (channels, reason) => .ok (refusal input channels reason)
  | none => do
    let inWindow ← isWithinContactWindow X input.now input.config
    let reasonCodes : List ContactPolicyReasonCode :=
      (if ageExceeded input then [.recoveryAgeExceeded] else []) ++
      (if inWindow then [] else [.contactWindowClosed])
    let channels := input.config.allowedChannels.map fun channel =>
      channelResult channel (channelReasons input inWindow (ageExceeded input) channel)
    let anyPermitted := channels.any (·.permitted)
    let reasonCodes :=
      if !anyPermitted && reasonCodes.isEmpty then [.channelNotAllowed] else reasonCodes
    return {
      eligible := anyPermitted
      channels := channels
      reasonCodes :=
        if anyPermitted then [.eligible]
        else (if reasonCodes.isEmpty then [.contactNotPermitted] else reasonCodes).eraseDups
      evaluatedAt := input.now }

/-- The policy opens the channel. -/
def Permits (X : RecoveryClockwork) (input : ContactPolicyInput) (channel : RecoveryChannel) :
    Prop :=
  ∃ result, evaluateContactPolicy X input = .ok result ∧
    ∃ r ∈ result.channels, r.channel = channel ∧ r.permitted = true

end Orchestrator
